import Mathlib
import Rupi.Provider.Decoder

/-!
The slot of a fragment, and what the fragment does to it.

- `ToolBuilder.fill`: what a fragment does to the builder of its slot, `Filled` what that
  leaves of a call without a correlation error.
- `Decoder.fills`: `fill` works on that builder alone, and records the keys.
- `Decoder.chooseSlot_spec`: what the choice of a slot says, over its nine branches.
-/

namespace Rupi

/-! ### A builder and a fragment -/

namespace ToolBuilder

/-- A call that no fragment has put in doubt. -/
def IsClean (b : ToolBuilder) : Prop := b.correlationError = none

def markOtherId (id : String) (b : ToolBuilder) : ToolBuilder :=
  if b.id.any (· ≠ id) then b.mark "one provider index carried multiple tool-call ids" else b

def setId (id : Option String) (b : ToolBuilder) : ToolBuilder :=
  match id with
  | some id => { b.markOtherId id with id := some id }
  | none => b

def markOversized (fragment : ToolFragment) (b : ToolBuilder) : ToolBuilder :=
  if fragment.oversizedId then b.mark "provider tool-call id exceeded the response limit" else b

def markUnkeyed (fragment : ToolFragment) (fallback : Option Nat) (b : ToolBuilder) : ToolBuilder :=
  if fragment.index.isNone && fragment.boundedId.isNone && fallback.isNone &&
      !fragment.oversizedId then
    b.mark "tool-call fragment had neither a provider index nor a provider id"
  else b

def pushName (name : Option String) (b : ToolBuilder) : ToolBuilder :=
  match name with
  | some name =>
    if maxToolNameBytes < b.name.utf8ByteSize + name.utf8ByteSize then
      b.mark "tool name exceeded the response limit"
    else { b with name := b.name ++ name }
  | none => b

def pushArguments (total : Nat) (arguments : Option String) (b : ToolBuilder) : ToolBuilder :=
  match arguments with
  | some arguments =>
    if maxToolArgumentBytesPerCall < b.arguments.utf8ByteSize + arguments.utf8ByteSize then
      b.mark "tool arguments exceeded the per-call byte limit"
    else if maxToolArgumentBytesTotal < total + arguments.utf8ByteSize then
      b.mark "tool arguments exceeded the aggregate byte limit"
    else { b with arguments := b.arguments ++ arguments }
  | none => b

/-- What a fragment does to the builder of its slot. -/
def fill (fragment : ToolFragment) (fallback : Option Nat) (total : Nat) (b : ToolBuilder) :
    ToolBuilder :=
  ((((b.markOversized fragment).setId fragment.boundedId).markUnkeyed fragment fallback).pushName
    fragment.name).pushArguments total fragment.arguments

lemma not_isClean_mark (reason : String) (b : ToolBuilder) : ¬ (b.mark reason).IsClean := by
  rw [IsClean, mark]
  cases b.correlationError with
  | none => simp
  | some existing => dsimp only; split_ifs <;> simp

lemma pushArguments_of_isClean {total : Nat} {arguments : Option String} {b : ToolBuilder}
    (h : (b.pushArguments total arguments).IsClean) :
    b.pushArguments total arguments =
      { b with arguments := b.arguments ++ arguments.getD "" } := by
  cases arguments with
  | none => simp [pushArguments]
  | some text =>
    rw [pushArguments] at h ⊢
    split_ifs at h ⊢ with hcall htotal
    · exact absurd h (not_isClean_mark _ _)
    · exact absurd h (not_isClean_mark _ _)
    · rfl

lemma pushName_of_isClean {name : Option String} {b : ToolBuilder}
    (h : (b.pushName name).IsClean) :
    b.pushName name = { b with name := b.name ++ name.getD "" } := by
  cases name with
  | none => simp [pushName]
  | some text =>
    rw [pushName] at h ⊢
    split_ifs at h ⊢ with hbound
    · exact absurd h (not_isClean_mark _ _)
    · rfl

lemma markUnkeyed_of_isClean {fragment : ToolFragment} {fallback : Option Nat} {b : ToolBuilder}
    (h : (b.markUnkeyed fragment fallback).IsClean) :
    b.markUnkeyed fragment fallback = b ∧ (fragment.oversizedId = false →
      fragment.index = none → fragment.boundedId = none → fallback ≠ none) := by
  rw [markUnkeyed] at h ⊢
  split_ifs at h ⊢ with hunkeyed
  · exact absurd h (not_isClean_mark _ _)
  · refine ⟨rfl, fun hbounded hindex hid hfallback => hunkeyed ?_⟩
    simp [hbounded, hindex, hid, hfallback]

lemma setId_of_isClean {id : Option String} {b : ToolBuilder} (h : (b.setId id).IsClean) :
    b.setId id = { b with id := id.or b.id } ∧
      ∀ known given, b.id = some known → id = some given → known = given := by
  cases id with
  | none => exact ⟨by simp [setId], by simp⟩
  | some id =>
    rw [setId, markOtherId] at h ⊢
    split_ifs at h ⊢ with hother
    · exact absurd h (not_isClean_mark _ _)
    · refine ⟨rfl, fun known given hknown hgiven => ?_⟩
      obtain rfl := Option.some.inj hgiven
      rw [hknown] at hother
      simpa using hother

lemma markOversized_of_isClean {fragment : ToolFragment} {b : ToolBuilder}
    (h : (b.markOversized fragment).IsClean) :
    b.markOversized fragment = b ∧ fragment.oversizedId = false := by
  rw [markOversized] at h ⊢
  split_ifs at h ⊢ with hoversized
  · exact absurd h (not_isClean_mark _ _)
  · exact ⟨rfl, by simpa using hoversized⟩

/-- What a fragment leaves of a call that stays clean. -/
structure Filled (fragment : ToolFragment) (fallback : Option Nat) (b b' : ToolBuilder) : Prop where
  clean : b.IsClean
  id : b'.id = fragment.boundedId.or b.id
  sameId : ∀ known given, b.id = some known → fragment.boundedId = some given → known = given
  name : b'.name = b.name ++ fragment.name.getD ""
  arguments : b'.arguments = b.arguments ++ fragment.arguments.getD ""
  bounded : fragment.oversizedId = false
  keyed : fragment.index = none → fragment.boundedId = none → fallback ≠ none

lemma filled_of_isClean {fragment : ToolFragment} {fallback : Option Nat} {total : Nat}
    {b : ToolBuilder} (h : (b.fill fragment fallback total).IsClean) :
    Filled fragment fallback b (b.fill fragment fallback total) := by
  rw [fill] at h ⊢
  have harguments := pushArguments_of_isClean h
  rw [harguments] at h ⊢
  have hname := pushName_of_isClean h
  rw [hname] at h ⊢
  obtain ⟨hunkeyed, hfallback⟩ := markUnkeyed_of_isClean h
  rw [hunkeyed] at h ⊢
  obtain ⟨hid, hsame⟩ := setId_of_isClean h
  rw [hid] at h ⊢
  obtain ⟨hoversized, hbounded⟩ := markOversized_of_isClean h
  rw [hoversized] at h hsame ⊢
  exact ⟨h, rfl, hsame, rfl, rfl, hbounded, hfallback hbounded⟩

end ToolBuilder

namespace Decoder

variable {d : Decoder} {slot : Nat}

/-! ### Decoders that differ in one slot -/

lemma modify_congr {f g : ToolBuilder → ToolBuilder} {tools : List ToolBuilder}
    (h : ∀ b, tools[slot]? = some b → f b = g b) : tools.modify slot f = tools.modify slot g := by
  refine List.ext_getElem? fun k => ?_
  rw [List.getElem?_modify, List.getElem?_modify]
  by_cases hk : slot = k
  · subst hk
    cases hb : tools[slot]? with
    | none => rfl
    | some b => simp [h b hb]
  · simp [hk]

lemma modify_modify {f g : ToolBuilder → ToolBuilder} (tools : List ToolBuilder) :
    (tools.modify slot f).modify slot g = tools.modify slot (g ∘ f) := by
  refine List.ext_getElem? fun k => ?_
  rw [List.getElem?_modify, List.getElem?_modify, List.getElem?_modify]
  by_cases hk : slot = k <;> cases tools[k]? <;> simp [hk]

/-- An update of a decoder that works on the builder of one slot. -/
structure Updates (slot : Nat) (f : ToolBuilder → ToolBuilder) (d d' : Decoder) : Prop where
  tools : d'.tools = d.tools.modify slot f
  indices : d'.toolIndices = d.toolIndices
  ids : d'.toolIds = d.toolIds
  total : d'.toolArgumentBytes = d.toolArgumentBytes
  history : d'.history = d.history

lemma Updates.trans {f g : ToolBuilder → ToolBuilder} {d d' d'' : Decoder}
    (h : Updates slot f d d') (h' : Updates slot g d' d'') : Updates slot (g ∘ f) d d'' :=
  ⟨by rw [h'.tools, h.tools, modify_modify], h'.indices.trans h.indices, h'.ids.trans h.ids,
    h'.total.trans h.total, h'.history.trans h.history⟩

lemma Updates.congr {f g : ToolBuilder → ToolBuilder} {d d' : Decoder} (h : Updates slot f d d')
    (hfg : ∀ b, d.tools[slot]? = some b → f b = g b) : Updates slot g d d' :=
  ⟨h.tools.trans (modify_congr hfg), h.indices, h.ids, h.total, h.history⟩

lemma updates_self {f : ToolBuilder → ToolBuilder} (h : ∀ b, d.tools[slot]? = some b → f b = b) :
    Updates slot f d d := by
  refine ⟨?_, rfl, rfl, rfl, rfl⟩
  rw [modify_congr (g := id) h, List.modify_id]

lemma updates_mark (reason : String) :
    Updates slot (ToolBuilder.mark reason) d (d.mark reason slot) :=
  ⟨rfl, rfl, rfl, rfl, rfl⟩

lemma updates_markOversized (d : Decoder) (fragment : ToolFragment) :
    Updates slot (ToolBuilder.markOversized fragment) d (d.markOversized fragment slot) := by
  rw [markOversized]
  split_ifs with h
  · exact (updates_mark _).congr fun b _ => by rw [ToolBuilder.markOversized, if_pos h]
  · exact updates_self fun b _ => by rw [ToolBuilder.markOversized, if_neg h]

lemma updates_markUnkeyed (d : Decoder) (fragment : ToolFragment) (fallback : Option Nat) :
    Updates slot (ToolBuilder.markUnkeyed fragment fallback) d
      (d.markUnkeyed fragment fallback slot) := by
  rw [markUnkeyed]
  split_ifs with h
  · exact (updates_mark _).congr fun b _ => by rw [ToolBuilder.markUnkeyed, if_pos h]
  · exact updates_self fun b _ => by rw [ToolBuilder.markUnkeyed, if_neg h]

lemma updates_pushName (d : Decoder) (name : Option String) :
    Updates slot (ToolBuilder.pushName name) d (d.pushName name slot) := by
  cases name with
  | none => exact updates_self fun b _ => rfl
  | some name =>
    rw [pushName]
    split_ifs with hbound
    · refine (updates_mark _).congr fun b hb => ?_
      rw [hb, Option.any_some, decide_eq_true_iff] at hbound
      rw [ToolBuilder.pushName, if_pos hbound]
    · refine Updates.congr (f := fun b => { b with name := b.name ++ name })
        ⟨rfl, rfl, rfl, rfl, rfl⟩ fun b hb => ?_
      rw [hb, Option.any_some, decide_eq_true_iff] at hbound
      rw [ToolBuilder.pushName, if_neg hbound]

/-- The bytes that a fragment adds to the aggregate count: all of its arguments, when they
are pushed. -/
lemma tools_pushArguments (d : Decoder) (arguments : Option String) :
    (d.pushArguments arguments slot).tools =
        d.tools.modify slot (ToolBuilder.pushArguments d.toolArgumentBytes arguments) ∧
      (d.pushArguments arguments slot).toolIndices = d.toolIndices ∧
      (d.pushArguments arguments slot).toolIds = d.toolIds ∧
      (d.pushArguments arguments slot).history = d.history := by
  cases arguments with
  | none =>
    have hself : Updates slot (ToolBuilder.pushArguments d.toolArgumentBytes none) d d :=
      updates_self fun b _ => rfl
    exact ⟨hself.tools, rfl, rfl, rfl⟩
  | some arguments =>
    rw [pushArguments]
    split_ifs with hcall htotal
    · refine ⟨modify_congr fun b hb => ?_, rfl, rfl, rfl⟩
      rw [hb, Option.any_some, decide_eq_true_iff] at hcall
      rw [ToolBuilder.pushArguments, if_pos hcall]
    · refine ⟨modify_congr fun b hb => ?_, rfl, rfl, rfl⟩
      rw [hb, Option.any_some, decide_eq_true_iff] at hcall
      rw [ToolBuilder.pushArguments, if_neg hcall, if_pos htotal]
    · refine ⟨modify_congr fun b hb => ?_, rfl, rfl, rfl⟩
      rw [hb, Option.any_some, decide_eq_true_iff] at hcall
      rw [ToolBuilder.pushArguments, if_neg hcall, if_neg htotal]

lemma recordIndex_eq (d : Decoder) (index : Option Nat) :
    d.recordIndex index slot =
      { d with toolIndices := (d.recordIndex index slot).toolIndices } := by
  cases index with
  | none => rfl
  | some index => rw [recordIndex]; split_ifs <;> rfl

lemma slotOfIndex_recordIndex (d : Decoder) (index : Option Nat) (i : Nat) :
    (d.recordIndex index slot).slotOfIndex i =
      (d.slotOfIndex i).or (if index = some i then some slot else none) := by
  cases index with
  | none => simp [recordIndex]
  | some index =>
    rw [recordIndex]
    by_cases hi : index = i
    · subst hi
      cases hslot : d.slotOfIndex index with
      | some known => simp [hslot]
      | none =>
        rw [slotOfIndex] at hslot
        simp [slotOfIndex, List.lookup_append, hslot]
    · rw [if_neg fun h => hi (Option.some.inj h), Option.or_none]
      split_ifs with hknown
      · rfl
      · simp [slotOfIndex, List.lookup_append, Ne.symm hi]

lemma updates_markOtherId (d : Decoder) (id : String) :
    Updates slot (ToolBuilder.markOtherId id) d (d.markOtherId id slot) := by
  rw [markOtherId]
  split_ifs with hother
  · refine (updates_mark _).congr fun b hb => ?_
    rw [hb, Option.any_some] at hother
    rw [ToolBuilder.markOtherId, if_pos hother]
  · refine updates_self fun b hb => ?_
    rw [hb, Option.any_some] at hother
    rw [ToolBuilder.markOtherId, if_neg hother]

/-- The call whose id is recorded, and the slot of the id. -/
lemma recordId_spec (d : Decoder) (id : Option String) :
    (d.recordId id slot).tools = d.tools.modify slot (ToolBuilder.setId id) ∧
      (∀ a, (d.recordId id slot).slotOfId a =
        (d.slotOfId a).or (if id = some a then some slot else none)) ∧
      (d.recordId id slot).toolIndices = d.toolIndices ∧
      (d.recordId id slot).toolArgumentBytes = d.toolArgumentBytes ∧
      (d.recordId id slot).history = d.history := by
  cases id with
  | none =>
    have hself : Updates slot (ToolBuilder.setId none) d d := updates_self fun b _ => rfl
    exact ⟨hself.tools, fun a => by simp [recordId], rfl, rfl, rfl⟩
  | some id =>
    have hother := @updates_markOtherId slot d id
    rw [recordId]
    generalize d.markOtherId id slot = d₁ at hother ⊢
    have hids : ∀ a, d₁.slotOfId a = d.slotOfId a := fun a => by
      rw [slotOfId, hother.ids, slotOfId]
    have htools : (d₁.tools.modify slot fun builder => { builder with id := some id }) =
        d.tools.modify slot (ToolBuilder.setId (some id)) := by
      rw [hother.tools, modify_modify]
      rfl
    rw [recordIdSlot]
    by_cases hknown : (d₁.slotOfId id).isSome
    · rw [if_pos hknown]
      refine ⟨htools, fun a => ?_, hother.indices, hother.total, hother.history⟩
      rw [← hids a]
      by_cases ha : id = a
      · subst ha
        obtain ⟨known, hfound⟩ := Option.isSome_iff_exists.mp hknown
        rw [hfound, Option.some_or]
        exact hfound
      · rw [if_neg fun h => ha (Option.some.inj h), Option.or_none]
        rfl
    · rw [if_neg hknown]
      refine ⟨htools, fun a => ?_, hother.indices, hother.total, hother.history⟩
      rw [← hids a]
      rw [slotOfId, Option.not_isSome_iff_eq_none] at hknown
      by_cases ha : id = a
      · subst ha
        simp [slotOfId, List.lookup_append, hknown]
      · have hne : (a == id) = false := beq_eq_false_iff_ne.mpr (Ne.symm ha)
        simp [slotOfId, List.lookup_append, List.lookup, hne, ha]

/-- Arguments that leave the call clean are counted. -/
lemma toolArgumentBytes_pushArguments {arguments : Option String} {b : ToolBuilder}
    (hb : d.tools[slot]? = some b)
    (hclean : (b.pushArguments d.toolArgumentBytes arguments).IsClean) :
    (d.pushArguments arguments slot).toolArgumentBytes =
      d.toolArgumentBytes + (arguments.getD "").utf8ByteSize := by
  cases arguments with
  | none => rfl
  | some arguments =>
    rw [ToolBuilder.pushArguments] at hclean
    rw [pushArguments, hb, Option.any_some]
    split_ifs at hclean with hcall htotal
    · exact absurd hclean (ToolBuilder.not_isClean_mark _ _)
    · exact absurd hclean (ToolBuilder.not_isClean_mark _ _)
    · rw [if_neg (by simpa using hcall), if_neg htotal]
      rfl

/-- **What `fill` does**: the builder of the slot takes the fragment, and its keys are
recorded. -/
structure Fills (fragment : ToolFragment) (fallback : Option Nat) (slot : Nat) (d d' : Decoder) :
    Prop where
  tools : d'.tools = d.tools.modify slot (ToolBuilder.fill fragment fallback d.toolArgumentBytes)
  index : ∀ i, d'.slotOfIndex i =
    (d.slotOfIndex i).or (if fragment.index = some i then some slot else none)
  id : ∀ a, d'.slotOfId a =
    (d.slotOfId a).or (if fragment.boundedId = some a then some slot else none)
  history : d'.history = d.history
  total : ∀ b, d.tools[slot]? = some b → (b.fill fragment fallback d.toolArgumentBytes).IsClean →
    d'.toolArgumentBytes = d.toolArgumentBytes + (fragment.arguments.getD "").utf8ByteSize

lemma fills (d : Decoder) (fragment : ToolFragment) (fallback : Option Nat) :
    Fills fragment fallback slot d (d.fill fragment fallback slot) := by
  have hoversized := @updates_markOversized slot d fragment
  have hframe := @recordIndex_eq slot (d.markOversized fragment slot) fragment.index
  have hindex := @slotOfIndex_recordIndex slot (d.markOversized fragment slot) fragment.index
  rw [fill]
  generalize d.markOversized fragment slot = d₁ at hoversized hframe hindex ⊢
  generalize d₁.recordIndex fragment.index slot = d₂ at hframe hindex ⊢
  obtain ⟨hset, hid, hindices₂, htotal₂, hhistory₂⟩ := @recordId_spec slot d₂ fragment.boundedId
  generalize d₂.recordId fragment.boundedId slot = d₃ at hset hid hindices₂ htotal₂ hhistory₂ ⊢
  have hname := (@updates_markUnkeyed slot d₃ fragment fallback).trans
    (updates_pushName _ fragment.name)
  generalize (d₃.markUnkeyed fragment fallback slot).pushName fragment.name slot = d₄ at hname ⊢
  obtain ⟨htools, hindices, hids, hhistory⟩ := @tools_pushArguments slot d₄ fragment.arguments
  have htools₂ : d₂.tools = d₁.tools := by rw [hframe]
  have htotal : d₄.toolArgumentBytes = d.toolArgumentBytes := by
    rw [hname.total, htotal₂, hframe]
    exact hoversized.total
  have hbefore : d₄.tools = d.tools.modify slot fun b =>
      (((b.markOversized fragment).setId fragment.boundedId).markUnkeyed fragment
        fallback).pushName fragment.name := by
    rw [hname.tools, hset, htools₂, hoversized.tools, modify_modify, modify_modify]
    rfl
  refine ⟨?_, fun i => ?_, fun a => ?_, ?_, fun b hb hclean => ?_⟩
  · rw [htools, hbefore, modify_modify, htotal]
    rfl
  · have hbefore : d₁.slotOfIndex i = d.slotOfIndex i := by
      rw [slotOfIndex, hoversized.indices, slotOfIndex]
    rw [slotOfIndex, hindices, hname.indices, hindices₂, ← slotOfIndex, hindex, hbefore]
  · have hbefore : d₂.slotOfId a = d.slotOfId a := by
      rw [slotOfId, hframe]
      exact congrArg (List.lookup a) hoversized.ids
    rw [slotOfId, hids, hname.ids, ← slotOfId, hid, hbefore]
  · rw [hhistory, hname.history, hhistory₂, hframe]
    exact hoversized.history
  · rw [← htotal]
    refine toolArgumentBytes_pushArguments (b := (((b.markOversized fragment).setId
      fragment.boundedId).markUnkeyed fragment fallback).pushName fragment.name) ?_ ?_
    · simp [hbefore, hb]
    · rw [htotal]
      exact hclean

/-! ### The slot of a fragment -/

/-- Nothing has changed but correlation errors. -/
structure OnlyMarked (d d' : Decoder) : Prop where
  length : d'.tools.length = d.tools.length
  clean : ∀ {k : Nat} {b : ToolBuilder}, d'.tools[k]? = some b → b.IsClean → d.tools[k]? = some b
  indices : d'.toolIndices = d.toolIndices
  ids : d'.toolIds = d.toolIds
  history : d'.history = d.history

lemma OnlyMarked.refl (d : Decoder) : OnlyMarked d d := ⟨rfl, fun h _ => h, rfl, rfl, rfl⟩

lemma OnlyMarked.trans {d d' d'' : Decoder} (h : OnlyMarked d d') (h' : OnlyMarked d' d'') :
    OnlyMarked d d'' :=
  ⟨h'.length.trans h.length, fun hb hclean => h.clean (h'.clean hb hclean) hclean,
    h'.indices.trans h.indices, h'.ids.trans h.ids, h'.history.trans h.history⟩

lemma getElem?_mark (reason : String) (k : Nat) :
    (d.mark reason slot).tools[k]? =
      if slot = k then d.tools[k]?.map (ToolBuilder.mark reason) else d.tools[k]? := by
  rw [mark, List.getElem?_modify]
  split_ifs <;> simp

lemma onlyMarked_mark (d : Decoder) (reason : String) (slot : Nat) :
    OnlyMarked d (d.mark reason slot) := by
  refine ⟨by simp [mark], fun {k b} hb hclean => ?_, rfl, rfl, rfl⟩
  rw [getElem?_mark] at hb
  split_ifs at hb
  · obtain ⟨known, -, rfl⟩ := Option.map_eq_some_iff.mp hb
    exact absurd hclean (ToolBuilder.not_isClean_mark _ _)
  · exact hb

lemma onlyMarked_markAll (d : Decoder) (reason : String) (slots : List Nat) :
    OnlyMarked d (d.markAll reason slots) := by
  induction slots generalizing d with
  | nil => exact .refl d
  | cons slot slots ih => exact (onlyMarked_mark d reason slot).trans (ih _)

/-- A slot that was marked is not clean. -/
lemma not_isClean_of_mark {reason : String} {b : ToolBuilder}
    (h : (d.mark reason slot).tools[slot]? = some b) : ¬ b.IsClean := by
  rw [getElem?_mark, if_pos rfl] at h
  obtain ⟨known, -, rfl⟩ := Option.map_eq_some_iff.mp h
  exact ToolBuilder.not_isClean_mark _ _

lemma OnlyMarked.not_isClean {d d' : Decoder} (h : OnlyMarked d d')
    (hmarked : ∀ b, d.tools[slot]? = some b → ¬ b.IsClean) (b : ToolBuilder)
    (hb : d'.tools[slot]? = some b) : ¬ b.IsClean :=
  fun hclean => hmarked b (h.clean hb hclean) hclean

/-- The slots that the keys point to are there. -/
structure InRange (d : Decoder) : Prop where
  index : ∀ {i k}, d.slotOfIndex i = some k → k < d.tools.length
  id : ∀ {a k}, d.slotOfId a = some k → k < d.tools.length

/-- A decoder with one more call. -/
def withSlot (d : Decoder) : Decoder := { d with tools := d.tools ++ [.new] }

/-- What the choice of a slot says. -/
structure Chosen (fragment : ToolFragment) (uncorrelatedBatch : Bool) (slot : Nat)
    (d d' : Decoder) : Prop where
  base : slot < d.tools.length ∧ OnlyMarked d d' ∨
    slot = d.tools.length ∧ OnlyMarked d.withSlot d'
  index : ∀ {i known}, fragment.index = some i → d.slotOfIndex i = some known → slot = known
  fresh : ∀ {i : Nat} {b : ToolBuilder}, fragment.index = some i → d.slotOfIndex i = none →
    d'.tools[slot]? = some b → b.IsClean → ∀ i', d.slotOfIndex i' ≠ some slot
  unkeyed : ∀ {b : ToolBuilder}, fragment.index = none → fragment.boundedId = none →
    d'.tools[slot]? = some b → b.IsClean →
      d.singletonFallback fragment uncorrelatedBatch = none ∨ d.openKeyedToolSlots = [slot]

lemma newToolSlot_eq_ok {d' : Decoder} (h : d.newToolSlot = .ok (slot, d')) :
    slot = d.tools.length ∧ d' = d.withSlot := by
  rw [newToolSlot] at h
  split_ifs at h
  simp only [Except.ok.injEq, Prod.mk.injEq] at h
  exact ⟨h.1.symm, h.2.symm⟩

lemma newMarkedSlot_eq_ok {reason : String} {others : List Nat} {d' : Decoder}
    (h : d.newMarkedSlot reason others = .ok (slot, d')) :
    slot = d.tools.length ∧ OnlyMarked d.withSlot d' ∧
      ∀ b, d'.tools[slot]? = some b → ¬ b.IsClean := by
  rw [newMarkedSlot] at h
  cases hnew : d.newToolSlot with
  | error failure => simp [hnew] at h
  | ok result =>
    obtain ⟨slot', d₁⟩ := result
    obtain ⟨rfl, rfl⟩ := newToolSlot_eq_ok hnew
    rw [hnew] at h
    simp only [Except.ok.injEq, Prod.mk.injEq] at h
    obtain ⟨rfl, rfl⟩ := h
    exact ⟨rfl, (onlyMarked_markAll _ _ _).trans (onlyMarked_mark _ _ _),
      fun b hb => not_isClean_of_mark hb⟩

lemma lt_of_mem_slotsWhere {test : Nat → ToolBuilder → Bool} (h : slot ∈ d.slotsWhere test) :
    slot < d.tools.length :=
  List.mem_range.mp (List.mem_filter.mp h).1

/-- A new slot has no index yet. -/
lemma InRange.fresh (h : d.InRange) (i : Nat) : d.slotOfIndex i ≠ some d.tools.length :=
  fun hslot => absurd (h.index hslot) (Nat.lt_irrefl _)

lemma Chosen.of_index {fragment : ToolFragment} {uncorrelatedBatch : Bool} {i : Nat}
    {d' : Decoder} (hrange : d.InRange) (hi : fragment.index = some i)
    (hslot : d.slotOfIndex i = some slot) (hmarked : OnlyMarked d d') :
    Chosen fragment uncorrelatedBatch slot d d' where
  base := .inl ⟨hrange.index hslot, hmarked⟩
  index hi' hknown := by
    obtain rfl := Option.some.inj (hi.symm.trans hi')
    exact Option.some.inj (hslot.symm.trans hknown)
  fresh hi' hnone := by
    obtain rfl := Option.some.inj (hi.symm.trans hi')
    rw [hslot] at hnone
    contradiction
  unkeyed hnone := by
    rw [hi] at hnone
    contradiction

lemma Chosen.of_new {fragment : ToolFragment} {uncorrelatedBatch : Bool} {d' : Decoder}
    (hrange : d.InRange) (hnone : ∀ i, fragment.index = some i → d.slotOfIndex i = none)
    (hslot : slot = d.tools.length) (hmarked : OnlyMarked d.withSlot d')
    (hunkeyed : ∀ b : ToolBuilder, fragment.index = none → fragment.boundedId = none →
      d'.tools[slot]? = some b → b.IsClean →
        d.singletonFallback fragment uncorrelatedBatch = none) :
    Chosen fragment uncorrelatedBatch slot d d' where
  base := .inr ⟨hslot, hmarked⟩
  index hi hknown := by
    rw [hnone _ hi] at hknown
    contradiction
  fresh _ _ _ _ i' := by
    rw [hslot]
    exact hrange.fresh i'
  unkeyed hindex hid hb hclean := .inl (hunkeyed _ hindex hid hb hclean)

/-- A key that was not seen before gets a slot of its own, or a marked one. -/
lemma Chosen.of_keyedSlot {fragment : ToolFragment} {uncorrelatedBatch : Bool} {d' : Decoder}
    (hrange : d.InRange) (hnone : ∀ i, fragment.index = some i → d.slotOfIndex i = none)
    (hkeyed : fragment.index.isSome || fragment.boundedId.isSome)
    (h : d.keyedSlot = .ok (slot, d')) : Chosen fragment uncorrelatedBatch slot d d' := by
  have hunkeyed : ¬ (fragment.index = none ∧ fragment.boundedId = none) := by
    rintro ⟨hindex, hid⟩
    simp [hindex, hid] at hkeyed
  rw [keyedSlot] at h
  split at h
  · next htools hslots =>
    -- the only call has had no key so far, and is marked
    simp only [Except.ok.injEq, Prod.mk.injEq] at h
    obtain ⟨rfl, rfl⟩ := h
    exact
      { base := .inl ⟨lt_of_mem_slotsWhere (by rw [← uncorrelatedToolSlots, hslots]; simp),
          onlyMarked_mark _ _ _⟩
        index := fun hi hknown => by rw [hnone _ hi] at hknown; contradiction
        fresh := fun _ _ hb hclean => absurd hclean (not_isClean_of_mark hb)
        unkeyed := fun hindex hid => absurd ⟨hindex, hid⟩ hunkeyed }
  · obtain ⟨hslot, rfl⟩ := newToolSlot_eq_ok h
    exact .of_new hrange hnone hslot (.refl _)
      fun b hindex hid => absurd ⟨hindex, hid⟩ hunkeyed
  · obtain ⟨hslot, hmarked, -⟩ := newMarkedSlot_eq_ok h
    exact .of_new hrange hnone hslot hmarked
      fun b hindex hid => absurd ⟨hindex, hid⟩ hunkeyed

lemma uniqueKeyedOpenSlot_eq_some (h : d.uniqueKeyedOpenSlot = some slot) :
    d.openKeyedToolSlots = [slot] := by
  rw [uniqueKeyedOpenSlot] at h
  split at h
  · next hslots => rw [hslots, Option.some.inj h]
  · contradiction

/-- A fragment without a key joins the only call it could, or gets a slot of its own. -/
lemma Chosen.of_unkeyed {fragment : ToolFragment} {uncorrelatedBatch : Bool} {d' : Decoder}
    (hrange : d.InRange) (hindex : fragment.index = none)
    (h : (match d.singletonFallback fragment uncorrelatedBatch with
      | some slot => Except.ok (slot, d)
      | none => d.straySlot) = .ok (slot, d')) :
    Chosen fragment uncorrelatedBatch slot d d' := by
  have hnone : ∀ i, fragment.index = some i → d.slotOfIndex i = none := fun i hi => by
    rw [hindex] at hi
    contradiction
  split at h
  · next fallback hfallback =>
    simp only [Except.ok.injEq, Prod.mk.injEq] at h
    obtain ⟨rfl, rfl⟩ := h
    have hopen : d.openKeyedToolSlots = [fallback] := by
      rw [singletonFallback] at hfallback
      split_ifs at hfallback
      exact uniqueKeyedOpenSlot_eq_some hfallback
    exact
      { base := .inl ⟨lt_of_mem_slotsWhere (by rw [← openKeyedToolSlots, hopen]; simp), .refl _⟩
        index := fun hi hknown => by rw [hnone _ hi] at hknown; contradiction
        fresh := fun hi => by rw [hindex] at hi; contradiction
        unkeyed := fun _ _ _ _ => .inr hopen }
  · next hfallback =>
    rw [straySlot] at h
    split at h
    · obtain ⟨hslot, rfl⟩ := newToolSlot_eq_ok h
      exact .of_new hrange hnone hslot (.refl _) fun b _ _ _ _ => hfallback
    · obtain ⟨hslot, hmarked, -⟩ := newMarkedSlot_eq_ok h
      exact .of_new hrange hnone hslot hmarked fun b _ _ _ _ => hfallback

/-- A known id: the call has no index, or it has this one. -/
lemma Chosen.of_id {fragment : ToolFragment} {uncorrelatedBatch : Bool} {idSlot : Nat}
    {d' : Decoder} (hrange : d.InRange)
    (hnone : ∀ i, fragment.index = some i → d.slotOfIndex i = none)
    (hid : fragment.boundedId.bind d.slotOfId = some idSlot)
    (h : (if fragment.index.isSome &&
          d.toolIndices.any (fun entry => entry.2 = idSlot && some entry.1 ≠ fragment.index) then
        d.newMarkedSlot "one provider tool-call id was associated with multiple indexes" [idSlot]
      else .ok (idSlot, d)) = .ok (slot, d')) :
    Chosen fragment uncorrelatedBatch slot d d' := by
  obtain ⟨a, ha, hslot⟩ := Option.bind_eq_some_iff.mp hid
  have hkeyed : fragment.boundedId ≠ none := by rw [ha]; simp
  split_ifs at h with hmany
  · obtain ⟨hslot, hmarked, -⟩ := newMarkedSlot_eq_ok h
    exact .of_new hrange hnone hslot hmarked fun b _ hnoId => absurd hnoId hkeyed
  · simp only [Except.ok.injEq, Prod.mk.injEq] at h
    obtain ⟨rfl, rfl⟩ := h
    refine
      { base := .inl ⟨hrange.id hslot, .refl _⟩
        index := fun hi hknown => by rw [hnone _ hi] at hknown; contradiction
        fresh := fun {i _} hi hfresh _ _ i' hi' => hmany ?_
        unkeyed := fun _ hnoId => absurd hnoId hkeyed }
    obtain ⟨before, after, hindices, -⟩ := List.lookup_eq_some_iff.mp hi'
    rw [hi, Option.isSome_some, Bool.true_and, List.any_eq_true]
    refine ⟨(i', idSlot), by simp [hindices], ?_⟩
    have hne : i' ≠ i := fun heq => by
      rw [heq, hfresh] at hi'
      contradiction
    simp [hne]

lemma chooseSlot_spec {fragment : ToolFragment} {uncorrelatedBatch : Bool} {d' : Decoder}
    (hrange : d.InRange) (h : d.chooseSlot fragment uncorrelatedBatch = .ok (slot, d')) :
    Chosen fragment uncorrelatedBatch slot d d' := by
  rw [chooseSlot] at h
  split at h
  · next indexSlot idSlot hindex hid =>
    obtain ⟨i, hi, hslot⟩ := Option.bind_eq_some_iff.mp hindex
    split_ifs at h <;> simp only [Except.ok.injEq, Prod.mk.injEq] at h <;> obtain ⟨rfl, rfl⟩ := h
    · exact .of_index hrange hi hslot ((onlyMarked_mark _ _ _).trans (onlyMarked_mark _ _ _))
    · exact .of_index hrange hi hslot (.refl _)
  · next indexSlot hindex hid =>
    obtain ⟨i, hi, hslot⟩ := Option.bind_eq_some_iff.mp hindex
    simp only [Except.ok.injEq, Prod.mk.injEq] at h
    obtain ⟨rfl, rfl⟩ := h
    exact .of_index hrange hi hslot (.refl _)
  · next idSlot hindex hid => exact .of_id hrange (Option.bind_eq_none_iff.mp hindex) hid h
  · next hindex hid =>
    have hnone := Option.bind_eq_none_iff.mp hindex
    split_ifs at h with hkeyed hbatch
    · exact .of_keyedSlot hrange hnone hkeyed h
    · obtain ⟨hslot, hmarked, hunclean⟩ := newMarkedSlot_eq_ok h
      exact .of_new hrange hnone hslot hmarked
        fun b _ _ hb hclean => absurd hclean (hunclean b hb)
    · refine .of_unkeyed hrange ?_ h
      cases hi : fragment.index with
      | none => rfl
      | some i => simp [hi] at hkeyed

/-! ### What a fragment leaves alone -/

/-- A decoder without its calls. -/
def withoutCalls (d : Decoder) : Decoder :=
  { d with tools := [], toolIndices := [], toolIds := [], toolArgumentBytes := 0, history := [] }

@[simp]
lemma withoutCalls_mark (d : Decoder) (reason : String) (slot : Nat) :
    (d.mark reason slot).withoutCalls = d.withoutCalls := rfl

@[simp]
lemma withoutCalls_markAll (d : Decoder) (reason : String) (slots : List Nat) :
    (d.markAll reason slots).withoutCalls = d.withoutCalls := by
  induction slots generalizing d with
  | nil => rfl
  | cons slot slots ih => exact ih (d.mark reason slot)

lemma withoutCalls_newMarkedSlot {reason : String} {others : List Nat} {d' : Decoder}
    (h : d.newMarkedSlot reason others = .ok (slot, d')) : d'.withoutCalls = d.withoutCalls := by
  rw [newMarkedSlot] at h
  cases hnew : d.newToolSlot with
  | error failure => simp [hnew] at h
  | ok result =>
    obtain ⟨slot', d₁⟩ := result
    obtain ⟨-, rfl⟩ := newToolSlot_eq_ok hnew
    rw [hnew] at h
    simp only [Except.ok.injEq, Prod.mk.injEq] at h
    obtain ⟨-, rfl⟩ := h
    exact (withoutCalls_mark _ _ _).trans (withoutCalls_markAll _ _ _)

lemma withoutCalls_newToolSlot {d' : Decoder} (h : d.newToolSlot = .ok (slot, d')) :
    d'.withoutCalls = d.withoutCalls := by
  obtain ⟨-, rfl⟩ := newToolSlot_eq_ok h
  rfl

lemma withoutCalls_chooseSlot {fragment : ToolFragment} {uncorrelatedBatch : Bool} {d' : Decoder}
    (h : d.chooseSlot fragment uncorrelatedBatch = .ok (slot, d')) :
    d'.withoutCalls = d.withoutCalls := by
  have hkept : ∀ {slot' : Nat} {d₁ : Decoder}, d₁.withoutCalls = d.withoutCalls →
      (Except.ok (slot', d₁) : Except ModelFailure (Nat × Decoder)) = .ok (slot, d') →
        d'.withoutCalls = d.withoutCalls := fun hsame heq => by
    simp only [Except.ok.injEq, Prod.mk.injEq] at heq
    rw [← heq.2, hsame]
  rw [chooseSlot, keyedSlot, straySlot] at h
  split at h
  · split_ifs at h
    · exact hkept (by rfl) h
    · exact hkept (by rfl) h
  · exact hkept (by rfl) h
  · split_ifs at h
    · exact withoutCalls_newMarkedSlot h
    · exact hkept (by rfl) h
  · split_ifs at h
    · split at h
      · exact hkept (by rfl) h
      · exact withoutCalls_newToolSlot h
      · exact withoutCalls_newMarkedSlot h
    · exact withoutCalls_newMarkedSlot h
    · split at h
      · exact hkept (by rfl) h
      · split at h
        · exact withoutCalls_newToolSlot h
        · exact withoutCalls_newMarkedSlot h

lemma withoutCalls_fill (d : Decoder) (fragment : ToolFragment) (fallback : Option Nat)
    (slot : Nat) : (d.fill fragment fallback slot).withoutCalls = d.withoutCalls := by
  have hoversized : ∀ d : Decoder, (d.markOversized fragment slot).withoutCalls = d.withoutCalls :=
    fun d => by rw [markOversized]; split_ifs <;> rfl
  have hindex : ∀ d : Decoder,
      (d.recordIndex fragment.index slot).withoutCalls = d.withoutCalls := fun d => by
    cases fragment.index with
    | none => rfl
    | some index => rw [recordIndex]; split_ifs <;> rfl
  have hid : ∀ d : Decoder, (d.recordId fragment.boundedId slot).withoutCalls = d.withoutCalls :=
    fun d => by
    cases fragment.boundedId with
    | none => rfl
    | some id => rw [recordId, recordIdSlot, markOtherId]; split_ifs <;> rfl
  have hunkeyed : ∀ d : Decoder,
      (d.markUnkeyed fragment fallback slot).withoutCalls = d.withoutCalls :=
    fun d => by rw [markUnkeyed]; split_ifs <;> rfl
  have hname : ∀ d : Decoder, (d.pushName fragment.name slot).withoutCalls = d.withoutCalls :=
    fun d => by
    cases fragment.name with
    | none => rfl
    | some name => rw [pushName]; split_ifs <;> rfl
  have harguments : ∀ d : Decoder,
      (d.pushArguments fragment.arguments slot).withoutCalls = d.withoutCalls := fun d => by
    cases fragment.arguments with
    | none => rfl
    | some arguments => rw [pushArguments]; split_ifs <;> rfl
  rw [fill, harguments, hname, hunkeyed, hid, hindex, hoversized]

/-- A fragment counts as one event, unless the decoder fails before it. -/
lemma withoutCalls_accumulateTool (d : Decoder) (fragment : ToolFragment)
    (uncorrelatedBatch : Bool) :
    ((d.accumulateTool fragment uncorrelatedBatch).2 ≠ none ∧
      (d.accumulateTool fragment uncorrelatedBatch).1.withoutCalls = d.withoutCalls) ∨
      (d.accumulateTool fragment uncorrelatedBatch).1.withoutCalls =
        { d.withoutCalls with responseEvents := d.responseEvents + 1 } := by
  rw [accumulateTool]
  cases hevent : d.accountResponseEvent with
  | error failure => exact .inl ⟨by simp, rfl⟩
  | ok d₀ =>
    have hcounted : d₀.withoutCalls =
        { d.withoutCalls with responseEvents := d.responseEvents + 1 } := by
      rw [accountResponseEvent] at hevent
      split_ifs at hevent
      rw [← Except.ok.inj hevent]
      rfl
    dsimp only
    cases hchoose : d₀.chooseSlot fragment uncorrelatedBatch with
    | error failure => exact .inr hcounted
    | ok result =>
      obtain ⟨slot, chosen⟩ := result
      refine .inr (Eq.trans ?_ hcounted)
      exact (withoutCalls_fill _ _ _ _).trans (withoutCalls_chooseSlot hchoose)

end Decoder

end Rupi
