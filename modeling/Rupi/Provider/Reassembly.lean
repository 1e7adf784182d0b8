import Rupi.Provider.Provenance

/-!
The reassembly of calls whose fragments carry their index.

- `firstSeen`, `assembled`: the indices of a stream in the order first seen, and the call of
  an index.
- `Received`: the limits of a response, and how its fragments are keyed.
- `Decoder.Assembling`: the calls of the decoder are those of the fragments so far.
- `Decoder.reassembles`: the events of `finish` are one for each index, in order.
-/

namespace Rupi

/-! ### The calls of a stream -/

/-- The indices of fragments, in the order first seen. -/
def firstSeen (fragments : List ToolFragment) : List Nat :=
  (fragments.filterMap (·.index)).eraseDups

/-- The fragments of an index. -/
def ofIndex (fragments : List ToolFragment) (i : Nat) : List ToolFragment :=
  fragments.filter fun fragment => fragment.index = some i

/-- The call of an index. -/
def assembled (fragments : List ToolFragment) (i : Nat) : ToolBuilder where
  id := (ofIndex fragments i).findSome? (·.id)
  name := joinNames (ofIndex fragments i)
  arguments := joinArguments (ofIndex fragments i)
  correlationError := none

section Calls

variable {fragments : List ToolFragment} {fragment : ToolFragment} {i j : Nat}

lemma mem_firstSeen : i ∈ firstSeen fragments ↔ ∃ fragment ∈ fragments, fragment.index = some i := by
  rw [firstSeen, List.mem_eraseDups, List.mem_filterMap]

/-- A fragment adds its index, unless it was seen. -/
lemma firstSeen_append (hi : fragment.index = some i) :
    firstSeen (fragments ++ [fragment]) =
      if i ∈ firstSeen fragments then firstSeen fragments else firstSeen fragments ++ [i] := by
  have hsingle : [fragment].filterMap (·.index) = [i] := by simp [hi]
  rw [firstSeen, List.filterMap_append, List.eraseDups_append, hsingle, firstSeen]
  generalize fragments.filterMap (·.index) = indices
  by_cases hmem : i ∈ indices
  · simp [hmem, List.removeAll]
  · simp [hmem, List.removeAll, List.eraseDups_cons]

lemma nodup_firstSeen (fragments : List ToolFragment) : (firstSeen fragments).Nodup := by
  induction fragments using List.reverseRecOn with
  | nil => simp [firstSeen]
  | append_singleton fragments fragment ih =>
    cases hi : fragment.index with
    | none => simpa [firstSeen, List.filterMap_append, hi] using ih
    | some i =>
      rw [firstSeen_append hi]
      split_ifs with hmem
      · exact ih
      · exact ih.append (List.nodup_singleton i) (List.disjoint_singleton.mpr hmem)

lemma slot_unique {k l : Nat} (hk : (firstSeen fragments)[k]? = some i)
    (hl : (firstSeen fragments)[l]? = some i) : k = l := by
  obtain ⟨hlt, rfl⟩ := List.getElem?_eq_some_iff.mp hk
  exact (List.getElem?_inj hlt (nodup_firstSeen fragments)).mp (hk.trans hl.symm)

/-- An index that was seen keeps its slot. -/
lemma firstSeen_getElem?_append {k : Nat} (hi : fragment.index = some i)
    (hk : (firstSeen fragments)[k]? = some j) :
    (firstSeen (fragments ++ [fragment]))[k]? = some j := by
  rw [firstSeen_append hi]
  split_ifs with hmem
  · exact hk
  · rw [List.getElem?_append_left (List.getElem?_eq_some_iff.mp hk).choose]
    exact hk

/-- Another index has its slot from before. -/
lemma firstSeen_getElem?_of_ne {k : Nat} (hi : fragment.index = some i) (hne : j ≠ i)
    (hk : (firstSeen (fragments ++ [fragment]))[k]? = some j) :
    (firstSeen fragments)[k]? = some j := by
  rw [firstSeen_append hi] at hk
  split_ifs at hk with hmem
  · exact hk
  · obtain hlt | heq | hgt := Nat.lt_trichotomy k (firstSeen fragments).length
    · rwa [List.getElem?_append_left hlt] at hk
    · rw [heq, List.getElem?_append_right (Nat.le_refl _), Nat.sub_self] at hk
      exact absurd (Option.some.inj hk).symm hne
    · rw [List.getElem?_eq_none (by simp; omega)] at hk
      contradiction

lemma ofIndex_append (fragments : List ToolFragment) (hi : fragment.index = some i) :
    ofIndex (fragments ++ [fragment]) j =
      ofIndex fragments j ++ if j = i then [fragment] else [] := by
  rw [ofIndex, List.filter_append, ofIndex]
  by_cases h : j = i
  · simp [h, hi]
  · simp [h, hi, Ne.symm h]

lemma assembled_append_of_ne (hi : fragment.index = some i) (hne : j ≠ i) :
    assembled (fragments ++ [fragment]) j = assembled fragments j := by
  simp [assembled, ofIndex_append fragments hi, hne]

lemma assembled_append (hi : fragment.index = some i) :
    assembled (fragments ++ [fragment]) i =
      { id := (assembled fragments i).id.or fragment.id
        name := (assembled fragments i).name ++ fragment.name.getD ""
        arguments := (assembled fragments i).arguments ++ fragment.arguments.getD ""
        correlationError := none } := by
  simp [assembled, ofIndex_append fragments hi, List.findSome?_append, joinNames_append,
    joinArguments_append]

lemma assembled_of_not_mem (h : i ∉ firstSeen fragments) : assembled fragments i = .new := by
  have hempty : ofIndex fragments i = [] := by
    rw [ofIndex, List.filter_eq_nil_iff]
    intro fragment hfragment hi
    exact h (mem_firstSeen.mpr ⟨fragment, hfragment, by simpa using hi⟩)
  rw [assembled, hempty]
  rfl

/-- The id of a call is that of one of its fragments. -/
lemma assembled_id_eq_some {id : String} (h : (assembled fragments i).id = some id) :
    ∃ fragment ∈ fragments, fragment.index = some i ∧ fragment.id = some id := by
  obtain ⟨fragment, hmem, hid⟩ := List.exists_of_findSome?_eq_some h
  obtain ⟨hmem, hi⟩ := List.mem_filter.mp hmem
  exact ⟨fragment, hmem, by simpa using hi, hid⟩

end Calls

/-! ### The limits of a response -/

/-- The bytes of all arguments. -/
def argumentBytes (fragments : List ToolFragment) : Nat :=
  (fragments.map fun fragment => (fragment.arguments.getD "").utf8ByteSize).sum

namespace Piece

/-- The events that a piece counts for. -/
def events : Piece → Nat
  | .finishReason _ => 0
  | _ => 1

def textBytes : Piece → Nat
  | .text body => body.utf8ByteSize
  | _ => 0

def reasoningBytes : Piece → Nat
  | .reasoning body => body.utf8ByteSize
  | _ => 0

/-- The fragments of pieces. -/
def fragments (pieces : List Piece) : List ToolFragment := pieces.filterMap Piece.fragment?

@[simp]
lemma fragments_append (pieces rest : List Piece) :
    fragments (pieces ++ rest) = fragments pieces ++ fragments rest := List.filterMap_append

end Piece

open Piece in
/-- A response within the limits of the decoder. -/
structure WithinLimits (pieces : List Piece) : Prop where
  events : (pieces.map events).sum ≤ maxResponseEvents
  text : (pieces.map textBytes).sum ≤ maxResponseTextBytes
  reasoning : (pieces.map reasoningBytes).sum ≤ maxResponseReasoningBytes
  calls : (firstSeen (fragments pieces)).length ≤ maxResponseToolCalls
  id : ∀ fragment ∈ fragments pieces, ∀ id, fragment.id = some id → id.utf8ByteSize ≤ maxToolIdBytes
  name : ∀ i, (assembled (fragments pieces) i).name.utf8ByteSize ≤ maxToolNameBytes
  arguments : ∀ i,
    (assembled (fragments pieces) i).arguments.utf8ByteSize ≤ maxToolArgumentBytesPerCall
  total : argumentBytes (fragments pieces) ≤ maxToolArgumentBytesTotal

/-- Every fragment carries its index; an index has one id at most, and an id one index. -/
structure IndexKeyed (fragments : List ToolFragment) : Prop where
  indexed : ∀ fragment ∈ fragments, fragment.index.isSome
  oneId : ∀ fragment ∈ fragments, ∀ other ∈ fragments, fragment.index = other.index →
    ∀ id otherId, fragment.id = some id → other.id = some otherId → id = otherId
  oneIndex : ∀ fragment ∈ fragments, ∀ other ∈ fragments, ∀ id, fragment.id = some id →
    other.id = some id → fragment.index = other.index

section Prefixes

variable {pieces rest : List Piece} {fragments more : List ToolFragment}

lemma IndexKeyed.left (h : IndexKeyed (fragments ++ more)) : IndexKeyed fragments where
  indexed fragment hf := h.indexed fragment (List.mem_append_left _ hf)
  oneId fragment hf other ho :=
    h.oneId fragment (List.mem_append_left _ hf) other (List.mem_append_left _ ho)
  oneIndex fragment hf other ho :=
    h.oneIndex fragment (List.mem_append_left _ hf) other (List.mem_append_left _ ho)

lemma ofIndex_append_eq (fragments more : List ToolFragment) (i : Nat) :
    ofIndex (fragments ++ more) i = ofIndex fragments i ++ ofIndex more i := List.filter_append ..

lemma WithinLimits.left (h : WithinLimits (pieces ++ rest)) : WithinLimits pieces := by
  have hname : ∀ i, (assembled (Piece.fragments (pieces ++ rest)) i).name =
      (assembled (Piece.fragments pieces) i).name ++
        (assembled (Piece.fragments rest) i).name := fun i => by
    simp [assembled, ofIndex_append_eq, joinNames, String.join_append]
  have harguments : ∀ i, (assembled (Piece.fragments (pieces ++ rest)) i).arguments =
      (assembled (Piece.fragments pieces) i).arguments ++
        (assembled (Piece.fragments rest) i).arguments := fun i => by
    simp [assembled, ofIndex_append_eq, joinArguments, String.join_append]
  have hcalls : (firstSeen (Piece.fragments pieces)).length ≤
      (firstSeen (Piece.fragments (pieces ++ rest))).length := by
    rw [firstSeen, firstSeen, Piece.fragments_append, List.filterMap_append,
      List.eraseDups_append, List.length_append]
    exact Nat.le_add_right _ _
  have hevents := h.events
  have htext := h.text
  have hreasoning := h.reasoning
  have htotal := h.total
  rw [List.map_append, List.sum_append] at hevents htext hreasoning
  rw [argumentBytes, Piece.fragments_append, List.map_append, List.sum_append] at htotal
  exact
    { events := by omega
      text := by omega
      reasoning := by omega
      calls := hcalls.trans h.calls
      id := fun fragment hf => h.id fragment (by simp [hf])
      name := fun i => by
        have := h.name i
        rw [hname, String.utf8ByteSize_append] at this
        omega
      arguments := fun i => by
        have := h.arguments i
        rw [harguments, String.utf8ByteSize_append] at this
        omega
      total := by rw [argumentBytes]; omega }

end Prefixes

/-! ### One fragment -/

/-- A fragment with an index, within the limits, leaves a clean call clean. -/
lemma ToolBuilder.fill_eq {fragment : ToolFragment} {fallback : Option Nat} {total : Nat}
    {b : ToolBuilder} (hclean : b.IsClean) (hindex : fragment.index.isSome)
    (hbounded : fragment.oversizedId = false)
    (hsame : ∀ known given, b.id = some known → fragment.id = some given → known = given)
    (hname : (b.name ++ fragment.name.getD "").utf8ByteSize ≤ maxToolNameBytes)
    (harguments : (b.arguments ++ fragment.arguments.getD "").utf8ByteSize ≤
      maxToolArgumentBytesPerCall)
    (htotal : total + (fragment.arguments.getD "").utf8ByteSize ≤ maxToolArgumentBytesTotal) :
    b.fill fragment fallback total =
      { id := b.id.or fragment.id
        name := b.name ++ fragment.name.getD ""
        arguments := b.arguments ++ fragment.arguments.getD ""
        correlationError := none } := by
  have hid : (b.markOversized fragment).setId fragment.boundedId =
      { b with id := b.id.or fragment.id } := by
    rw [markOversized, if_neg (by simp [hbounded]), ToolFragment.boundedId_eq hbounded]
    cases hgiven : fragment.id with
    | none => rw [setId, Option.or_none]
    | some given =>
      rw [setId, markOtherId]
      cases hknown : b.id with
      | none => simp
      | some known => simp [hsame known given hknown hgiven]
  have hunkeyed : ToolBuilder.markUnkeyed fragment fallback { b with id := b.id.or fragment.id } =
      { b with id := b.id.or fragment.id } := by
    obtain ⟨i, hi⟩ := Option.isSome_iff_exists.mp hindex
    rw [markUnkeyed, if_neg (by simp [hi])]
  have hpushed : ToolBuilder.pushName fragment.name { b with id := b.id.or fragment.id } =
      { b with id := b.id.or fragment.id, name := b.name ++ fragment.name.getD "" } := by
    cases hgiven : fragment.name with
    | none => simp [pushName]
    | some name =>
      rw [hgiven, Option.getD_some, String.utf8ByteSize_append] at hname
      rw [pushName, if_neg (Nat.not_lt.mpr hname), Option.getD_some]
  rw [fill, hid, hunkeyed, hpushed]
  rw [IsClean] at hclean
  cases hgiven : fragment.arguments with
  | none => simp [pushArguments, hclean]
  | some arguments =>
    rw [hgiven, Option.getD_some, String.utf8ByteSize_append] at harguments
    rw [hgiven, Option.getD_some] at htotal
    rw [pushArguments, if_neg (Nat.not_lt.mpr harguments), if_neg (Nat.not_lt.mpr htotal), hclean,
      Option.getD_some]

namespace Decoder

variable {d d' : Decoder} {fragments : List ToolFragment} {fragment : ToolFragment} {i : Nat}

/-- **The calls are those of the fragments so far.** -/
structure Assembling (fragments : List ToolFragment) (d : Decoder) : Prop where
  tools : d.tools = (firstSeen fragments).map (assembled fragments)
  index : ∀ i k, d.slotOfIndex i = some k ↔ (firstSeen fragments)[k]? = some i
  id : ∀ a k, d.slotOfId a = some k → ∃ i, (firstSeen fragments)[k]? = some i ∧
    ∃ fragment ∈ fragments, fragment.index = some i ∧ fragment.id = some a
  total : d.toolArgumentBytes = argumentBytes fragments

lemma assembling_new (exposure : ReasoningExposure) (schemas : List (String × Value)) :
    Assembling [] (Decoder.new exposure schemas) where
  tools := rfl
  index i k := by simp [slotOfIndex, Decoder.new, firstSeen]
  id a k := by simp [slotOfId, Decoder.new]
  total := rfl

lemma Assembling.sameCalls (h : Assembling fragments d) (hsame : SameCalls d d')
    (htotal : d'.toolArgumentBytes = d.toolArgumentBytes) : Assembling fragments d' where
  tools := hsame.tools.trans h.tools
  index i k := by rw [hsame.slotOfIndex, h.index]
  id a k hk := h.id a k (hsame.slotOfId a ▸ hk)
  total := htotal.trans h.total

lemma Assembling.index_eq_none (h : Assembling fragments d) (hi : i ∉ firstSeen fragments) :
    d.slotOfIndex i = none := by
  rw [Option.eq_none_iff_forall_ne_some]
  exact fun k hk => hi (List.mem_of_getElem? ((h.index i k).mp hk))

/-- Every slot has an index. -/
lemma Assembling.uncorrelated_eq_nil (h : Assembling fragments d) : d.uncorrelatedToolSlots = [] := by
  rw [uncorrelatedToolSlots, slotsWhere, List.filter_eq_nil_iff]
  intro slot hslot
  rw [List.mem_range, h.tools, List.length_map] at hslot
  have hindexed : d.isIndexed slot = true := by
    have hk := (h.index _ slot).mpr (List.getElem?_eq_getElem hslot)
    obtain ⟨before, after, hindices, -⟩ := List.lookup_eq_some_iff.mp hk
    simp [isIndexed, hindices]
  cases d.tools[slot]? <;> simp [hindexed]

/-- The slot of an index that was not seen is a new one. -/
lemma Assembling.chooseSlot_new (h : Assembling fragments d)
    (hkeyed : IndexKeyed (fragments ++ [fragment])) (hi : fragment.index = some i)
    (hfresh : i ∉ firstSeen fragments)
    (hcalls : (firstSeen (fragments ++ [fragment])).length ≤ maxResponseToolCalls)
    (uncorrelatedBatch : Bool) :
    d.chooseSlot fragment uncorrelatedBatch = .ok (d.tools.length, d.withSlot) := by
  have hid : fragment.boundedId.bind d.slotOfId = none := by
    rw [Option.bind_eq_none_iff]
    intro a ha
    rw [Option.eq_none_iff_forall_ne_some]
    intro k hk
    obtain ⟨j, -, other, hother, hj, hsame⟩ := h.id a k hk
    have heq := hkeyed.oneIndex fragment (by simp) other (by simp [hother]) a
      (ToolFragment.id_eq_some_of_boundedId ha) hsame
    exact hfresh (mem_firstSeen.mpr ⟨other, hother, heq ▸ hi⟩)
  have hlt : ¬ maxResponseToolCalls ≤ d.tools.length := by
    rw [firstSeen_append hi, if_neg hfresh, List.length_append, List.length_singleton] at hcalls
    rw [h.tools, List.length_map]
    omega
  rw [chooseSlot, hi, Option.bind_some, h.index_eq_none hfresh, hid]
  simp only [Option.isSome_some, Bool.true_or, if_true]
  rw [keyedSlot, h.uncorrelated_eq_nil]
  split
  · contradiction
  · rw [newToolSlot, if_neg hlt]
    rfl
  · contradiction

/-- The slot of an index that was seen is its own. -/
lemma Assembling.chooseSlot_seen (h : Assembling fragments d)
    (hkeyed : IndexKeyed (fragments ++ [fragment])) (hi : fragment.index = some i) {slot : Nat}
    (hslot : (firstSeen fragments)[slot]? = some i) (uncorrelatedBatch : Bool) :
    d.chooseSlot fragment uncorrelatedBatch = .ok (slot, d) := by
  rw [chooseSlot, hi, Option.bind_some, (h.index i slot).mpr hslot]
  cases hid : fragment.boundedId.bind d.slotOfId with
  | none => rfl
  | some idSlot =>
    obtain ⟨a, ha, hk⟩ := Option.bind_eq_some_iff.mp hid
    obtain ⟨j, hj, other, hother, hindex, hsame⟩ := h.id a idSlot hk
    have heq := hkeyed.oneIndex fragment (by simp) other (by simp [hother]) a
      (ToolFragment.id_eq_some_of_boundedId ha) hsame
    rw [hi, hindex] at heq
    obtain rfl := Option.some.inj heq
    obtain rfl := slot_unique hj hslot
    simp

/-- The call of the fragment, when its slot is chosen. -/
lemma Assembling.chooseSlot (h : Assembling fragments d)
    (hkeyed : IndexKeyed (fragments ++ [fragment])) (hi : fragment.index = some i)
    (hcalls : (firstSeen (fragments ++ [fragment])).length ≤ maxResponseToolCalls)
    (uncorrelatedBatch : Bool) : ∃ slot chosen,
      d.chooseSlot fragment uncorrelatedBatch = .ok (slot, chosen) ∧
      (firstSeen (fragments ++ [fragment]))[slot]? = some i ∧
      chosen.tools = (firstSeen (fragments ++ [fragment])).map (assembled fragments) ∧
      chosen.toolIndices = d.toolIndices ∧ chosen.toolIds = d.toolIds ∧
      chosen.toolArgumentBytes = d.toolArgumentBytes := by
  by_cases hmem : i ∈ firstSeen fragments
  · obtain ⟨slot, hslot⟩ := List.mem_iff_getElem?.mp hmem
    refine ⟨slot, d, h.chooseSlot_seen hkeyed hi hslot uncorrelatedBatch,
      firstSeen_getElem?_append hi hslot, ?_, rfl, rfl, rfl⟩
    rw [h.tools, firstSeen_append hi, if_pos hmem]
  · refine ⟨_, _, h.chooseSlot_new hkeyed hi hmem hcalls uncorrelatedBatch, ?_, ?_, rfl, rfl, rfl⟩
    · rw [firstSeen_append hi, if_neg hmem, h.tools, List.length_map,
        List.getElem?_append_right (Nat.le_refl _), Nat.sub_self]
      rfl
    · rw [withSlot, firstSeen_append hi, if_neg hmem, List.map_append, h.tools, List.map_singleton,
        assembled_of_not_mem hmem]

/-- What the decoder checks of a fragment before it goes on. -/
structure Fits (fragments : List ToolFragment) (fragment : ToolFragment) : Prop where
  keyed : IndexKeyed (fragments ++ [fragment])
  calls : (firstSeen (fragments ++ [fragment])).length ≤ maxResponseToolCalls
  id : fragment.oversizedId = false
  name : ∀ i, (assembled (fragments ++ [fragment]) i).name.utf8ByteSize ≤ maxToolNameBytes
  arguments : ∀ i, (assembled (fragments ++ [fragment]) i).arguments.utf8ByteSize ≤
    maxToolArgumentBytesPerCall
  total : argumentBytes (fragments ++ [fragment]) ≤ maxToolArgumentBytesTotal

/-- The call of a fragment that fits takes all of it. -/
lemma Fits.fill_eq (h : Fits fragments fragment) (hi : fragment.index = some i)
    (fallback : Option Nat) :
    (assembled fragments i).fill fragment fallback (argumentBytes fragments) =
      assembled (fragments ++ [fragment]) i := by
  have htotal := h.total
  have hname := h.name i
  have harguments := h.arguments i
  rw [argumentBytes, List.map_append, List.sum_append, ← argumentBytes] at htotal
  rw [assembled_append hi] at hname harguments ⊢
  refine ToolBuilder.fill_eq rfl (by simp [hi]) h.id (fun known given hknown hgiven => ?_) hname
    harguments (by simpa using htotal)
  obtain ⟨other, hother, hindex, hid⟩ := assembled_id_eq_some hknown
  exact h.keyed.oneId other (by simp [hother]) fragment (by simp) (hindex.trans hi.symm)
    known given hid hgiven

/-- The calls after a fragment: that of its index has taken it. -/
lemma modify_assembled (hi : fragment.index = some i) {slot : Nat}
    (hslot : (firstSeen (fragments ++ [fragment]))[slot]? = some i) {f : ToolBuilder → ToolBuilder}
    (hf : f (assembled fragments i) = assembled (fragments ++ [fragment]) i) :
    ((firstSeen (fragments ++ [fragment])).map (assembled fragments)).modify slot f =
      (firstSeen (fragments ++ [fragment])).map (assembled (fragments ++ [fragment])) := by
  refine List.ext_getElem? fun k => ?_
  rw [List.getElem?_modify, List.getElem?_map, List.getElem?_map]
  cases hk : (firstSeen (fragments ++ [fragment]))[k]? with
  | none => rfl
  | some j =>
    by_cases hslotk : slot = k
    · subst hslotk
      obtain rfl := Option.some.inj (hslot.symm.trans hk)
      simp [hf]
    · have hne : j ≠ i := by
        rintro rfl
        exact hslotk (slot_unique hslot hk)
      simp [hslotk, assembled_append_of_ne hi hne]

/-- The indices after a fragment: those from before, and its own. -/
lemma Assembling.index_append (h : Assembling fragments d) (hi : fragment.index = some i)
    {slot : Nat} (hslot : (firstSeen (fragments ++ [fragment]))[slot]? = some i) (j k : Nat) :
    (d.slotOfIndex j).or (if fragment.index = some j then some slot else none) = some k ↔
      (firstSeen (fragments ++ [fragment]))[k]? = some j := by
  cases hold : d.slotOfIndex j with
  | some known =>
    have hknown := firstSeen_getElem?_append hi ((h.index j known).mp hold)
    rw [Option.some_or, Option.some.injEq]
    exact ⟨fun heq => heq ▸ hknown, fun hk => slot_unique hknown hk⟩
  | none =>
    rw [Option.none_or, hi]
    by_cases hij : i = j
    · subst hij
      rw [if_pos rfl, Option.some.injEq]
      exact ⟨fun heq => heq ▸ hslot, fun hk => slot_unique hslot hk⟩
    · rw [if_neg (by simpa using hij)]
      refine iff_of_false (by simp) fun hk => ?_
      have hbefore := (h.index j k).mpr (firstSeen_getElem?_of_ne hi (Ne.symm hij) hk)
      rw [hold] at hbefore
      contradiction

/-- **One fragment**: it is taken, and the calls are those of the fragments with it. -/
lemma Assembling.accumulateTool (h : Assembling fragments d) (hfits : Fits fragments fragment)
    (hevents : d.responseEvents < maxResponseEvents) (uncorrelatedBatch : Bool) :
    (d.accumulateTool fragment uncorrelatedBatch).2 = none ∧
      Assembling (fragments ++ [fragment]) (d.accumulateTool fragment uncorrelatedBatch).1 := by
  obtain ⟨i, hi⟩ := Option.isSome_iff_exists.mp (hfits.keyed.indexed fragment (by simp))
  rw [Decoder.accumulateTool, accountResponseEvent, if_neg (by omega)]
  have hcounted : Assembling fragments { d with responseEvents := d.responseEvents + 1 } :=
    h.sameCalls ⟨rfl, rfl, rfl, rfl⟩ rfl
  dsimp only
  generalize hd₀ : { d with responseEvents := d.responseEvents + 1 } = d₀ at hcounted
  obtain ⟨slot, chosen, hchoose, hslot, htools, hindices, hids, htotal⟩ :=
    hcounted.chooseSlot hfits.keyed hi hfits.calls uncorrelatedBatch
  rw [hchoose]
  have hfills := @fills slot chosen fragment (d₀.singletonFallback fragment uncorrelatedBatch)
  have hfill := hfits.fill_eq hi (d₀.singletonFallback fragment uncorrelatedBatch)
  have hbytes : chosen.toolArgumentBytes = argumentBytes fragments := htotal.trans hcounted.total
  rw [← hbytes] at hfill
  refine ⟨rfl, ?_, fun j k => ?_, fun a k hk => ?_, ?_⟩
  · have hmodify := modify_assembled hi hslot hfill
    rw [← htools] at hmodify
    exact hfills.tools.trans hmodify
  · have hold : chosen.slotOfIndex j = d₀.slotOfIndex j := by
      rw [slotOfIndex, hindices, slotOfIndex]
    have hindex := hfills.index j
    rw [hold] at hindex
    exact (iff_of_eq (congrArg (· = some k) hindex)).trans (hcounted.index_append hi hslot j k)
  · have hid := (hfills.id a).symm.trans hk
    rw [slotOfId, hids, ← slotOfId] at hid
    obtain hold | ⟨-, hnew⟩ := Option.or_eq_some_iff.mp hid
    · obtain ⟨j, hj, other, hother, hindex, hsame⟩ := hcounted.id a k hold
      exact ⟨j, firstSeen_getElem?_append hi hj, other, by simp [hother], hindex, hsame⟩
    · split_ifs at hnew with ha
      obtain rfl := Option.some.inj hnew
      exact ⟨i, hslot, fragment, by simp, hi, ToolFragment.id_eq_some_of_boundedId ha⟩
  · refine (hfills.total (assembled fragments i) ?_ ?_).trans ?_
    · rw [htools, List.getElem?_map, hslot, Option.map_some]
    · rw [hfill]
      rfl
    · rw [hbytes, argumentBytes, argumentBytes, List.map_append, List.sum_append]
      simp

/-! ### The whole response -/

/-- **The decoder while it receives pieces**: its calls and its counters. -/
structure Receiving (pieces : List Piece) (d : Decoder) : Prop where
  calls : Assembling (Piece.fragments pieces) d
  events : d.responseEvents = (pieces.map Piece.events).sum
  text : d.textBytes = (pieces.map Piece.textBytes).sum
  reasoning : d.reasoningBytes = (pieces.map Piece.reasoningBytes).sum

section Pieces

variable {pieces rest : List Piece} {piece : Piece}

lemma receiving_new (exposure : ReasoningExposure) (schemas : List (String × Value)) :
    Receiving [] (Decoder.new exposure schemas) := ⟨assembling_new exposure schemas, rfl, rfl, rfl⟩

/-- A piece without a fragment leaves the calls. -/
lemma Receiving.of_sameCalls (h : Receiving pieces d) (hpiece : piece.fragment? = none)
    (hsame : SameCalls d d') (htotal : d'.toolArgumentBytes = d.toolArgumentBytes)
    (hevents : d'.responseEvents = d.responseEvents + piece.events)
    (htext : d'.textBytes = d.textBytes + piece.textBytes)
    (hreasoning : d'.reasoningBytes = d.reasoningBytes + piece.reasoningBytes) :
    Receiving (pieces ++ [piece]) d' where
  calls := by
    have hfragments : Piece.fragments (pieces ++ [piece]) = Piece.fragments pieces := by
      simp [Piece.fragments, hpiece]
    rw [hfragments]
    exact h.calls.sameCalls hsame htotal
  events := by simp [hevents, h.events]
  text := by simp [htext, h.text]
  reasoning := by simp [hreasoning, h.reasoning]

lemma fits_of_withinLimits
    (hlimits : WithinLimits (pieces ++ [.tool fragment uncorrelatedBatch]))
    (hkeyed : IndexKeyed (Piece.fragments (pieces ++ [.tool fragment uncorrelatedBatch]))) :
    Fits (Piece.fragments pieces) fragment := by
  have hfragments : Piece.fragments (pieces ++ [.tool fragment uncorrelatedBatch]) =
      Piece.fragments pieces ++ [fragment] := by
    rw [Piece.fragments_append]
    rfl
  have hid : fragment.oversizedId = false := by
    cases hid : fragment.id with
    | none => simp [ToolFragment.oversizedId, hid]
    | some id =>
      have hle := hlimits.id fragment (by simp [hfragments]) id hid
      simp [ToolFragment.oversizedId, hid, hle]
  exact
    { keyed := hfragments ▸ hkeyed
      calls := hfragments ▸ hlimits.calls
      id := hid
      name := hfragments ▸ hlimits.name
      arguments := hfragments ▸ hlimits.arguments
      total := hfragments ▸ hlimits.total }

lemma Receiving.take_tool (h : Receiving pieces d) {uncorrelatedBatch : Bool}
    (hlimits : WithinLimits (pieces ++ [.tool fragment uncorrelatedBatch]))
    (hkeyed : IndexKeyed (Piece.fragments (pieces ++ [.tool fragment uncorrelatedBatch]))) :
    (d.accumulateTool fragment uncorrelatedBatch).2 = none ∧
      Receiving (pieces ++ [.tool fragment uncorrelatedBatch])
        (d.accumulateTool fragment uncorrelatedBatch).1 := by
  have hevents := hlimits.events
  rw [List.map_append, List.sum_append, ← h.events] at hevents
  have hlt : d.responseEvents < maxResponseEvents := hevents
  obtain ⟨hok, hcalls⟩ := h.calls.accumulateTool (fits_of_withinLimits hlimits hkeyed) hlt
    uncorrelatedBatch
  obtain ⟨hfailed, -⟩ | hcounted := withoutCalls_accumulateTool d fragment uncorrelatedBatch
  · exact absurd hok hfailed
  · have hresponse := congrArg Decoder.responseEvents hcounted
    have htext := congrArg Decoder.textBytes hcounted
    have hreasoning := congrArg Decoder.reasoningBytes hcounted
    refine ⟨hok, ?_, hresponse.trans ?_, htext.trans ?_, hreasoning.trans ?_⟩
    · rw [Piece.fragments_append]
      exact hcalls
    · simp [h.events, Piece.events]
    · simp [withoutCalls, h.text, Piece.textBytes]
    · simp [withoutCalls, h.reasoning, Piece.reasoningBytes]

/-- **One piece** of a response within the limits: it is taken. -/
lemma Receiving.take (h : Receiving pieces d) (hlimits : WithinLimits (pieces ++ [piece]))
    (hkeyed : IndexKeyed (Piece.fragments (pieces ++ [piece]))) :
    (d.take piece).2 = none ∧ Receiving (pieces ++ [piece]) (d.take piece).1 := by
  have hevents := hlimits.events
  have htext := hlimits.text
  have hreasoning := hlimits.reasoning
  rw [List.map_append, List.sum_append, ← h.events] at hevents
  rw [List.map_append, List.sum_append, ← h.text] at htext
  rw [List.map_append, List.sum_append, ← h.reasoning] at hreasoning
  cases piece with
  | finishReason reason => exact ⟨rfl, h.of_sameCalls rfl ⟨rfl, rfl, rfl, rfl⟩ rfl rfl rfl rfl⟩
  | reasoning text =>
    have hlt : ¬ maxResponseEvents ≤ d.responseEvents := Nat.not_le.mpr hevents
    have hfits : ¬ maxResponseReasoningBytes < d.reasoningBytes + text.utf8ByteSize :=
      Nat.not_lt.mpr (by simpa [Piece.reasoningBytes] using hreasoning)
    rw [Decoder.take, accountResponseEvent, if_neg hlt]
    simp only [if_neg hfits]
    exact ⟨trivial, h.of_sameCalls rfl ⟨rfl, rfl, rfl, rfl⟩ rfl rfl rfl rfl⟩
  | text text =>
    have hlt : ¬ maxResponseEvents ≤ d.responseEvents := Nat.not_le.mpr hevents
    have hfits : ¬ maxResponseTextBytes < d.textBytes + text.utf8ByteSize :=
      Nat.not_lt.mpr (by simpa [Piece.textBytes] using htext)
    rw [Decoder.take, accountResponseEvent, if_neg hlt]
    simp only [if_neg hfits]
    exact ⟨trivial, h.of_sameCalls rfl ⟨rfl, rfl, rfl, rfl⟩ rfl rfl rfl rfl⟩
  | tool fragment uncorrelatedBatch => exact h.take_tool hlimits hkeyed

lemma Receiving.takeAll (h : Receiving pieces d) (hlimits : WithinLimits (pieces ++ rest))
    (hkeyed : IndexKeyed (Piece.fragments (pieces ++ rest))) :
    (d.takeAll rest).2 = none ∧ Receiving (pieces ++ rest) (d.takeAll rest).1 := by
  induction rest generalizing d pieces with
  | nil =>
    rw [List.append_nil]
    exact ⟨rfl, h⟩
  | cons piece rest ih =>
    rw [List.append_cons] at hlimits hkeyed ⊢
    have hleft := hkeyed
    rw [Piece.fragments_append] at hleft
    obtain ⟨hok, htaken⟩ := h.take hlimits.left hleft.left
    rw [Decoder.takeAll]
    generalize d.take piece = result at hok htaken
    obtain ⟨d₁, failure⟩ := result
    obtain rfl : failure = none := hok
    exact ih htaken hlimits hkeyed

/-- **Every chunk of a response within the limits is taken**, and the decoder holds the calls
of all of them. -/
lemma Receiving.run (h : Receiving pieces d) {chunks : List Value}
    (hlimits : WithinLimits (pieces ++ chunks.flatMap (chunkPieces d.exposure)))
    (hkeyed : IndexKeyed (Piece.fragments
      (pieces ++ chunks.flatMap (chunkPieces d.exposure)))) :
    Receiving (pieces ++ chunks.flatMap (chunkPieces d.exposure)) (d.run chunks) ∧
      ∀ before value after, chunks = before ++ value :: after →
        ((d.run before).chunk value).2 = none := by
  induction chunks generalizing d pieces with
  | nil =>
    rw [List.flatMap_nil, List.append_nil]
    exact ⟨h, by simp⟩
  | cons value chunks ih =>
    rw [List.flatMap_cons, ← List.append_assoc] at hlimits hkeyed ⊢
    have hleft := hkeyed
    rw [Piece.fragments_append] at hleft
    obtain ⟨hok, htaken⟩ := h.takeAll hlimits.left hleft.left
    have hexposure := (takeAll_exposure d (chunkPieces d.exposure value)).1
    have hrun : ∀ rest, d.run (value :: rest) = (d.chunk value).1.run rest := fun rest => rfl
    rw [← Decoder.chunk] at hok htaken hexposure
    rw [← hexposure] at hlimits hkeyed
    obtain ⟨hreceived, htakes⟩ := ih htaken (by rwa [hexposure] at hlimits ⊢)
      (by rwa [hexposure] at hkeyed ⊢)
    refine ⟨?_, fun before next after heq => ?_⟩
    · rw [hexposure] at hreceived
      exact hreceived
    · cases before with
      | nil =>
        obtain ⟨rfl, rfl⟩ := List.cons.inj heq
        exact hok
      | cons first before =>
        obtain ⟨rfl, hrest⟩ := List.cons.inj heq
        rw [hrun]
        exact htakes before next after hrest

end Pieces

/-! ### The calls that are emitted -/

section Emitted

variable {env : DecoderEnv} {ending : StreamEnd}

/-- Calls with distinct ids are all emitted. -/
lemma decodeCalls_of_nodup {builders : List ToolBuilder} {slot : Nat} {ids : List ToolCallId}
    (hnodup : (builders.mapIdx fun k b => callId env (slot + k) b).Nodup)
    (hfresh : ∀ id ∈ builders.mapIdx (fun k b => callId env (slot + k) b), id ∉ ids) :
    d.decodeCalls env slot ids builders =
      .ok (builders.mapIdx fun k b => d.callEvent env (slot + k) b) := by
  induction builders generalizing slot ids with
  | nil => rfl
  | cons b builders ih =>
    simp only [List.mapIdx_cons, Nat.add_zero, ← Nat.add_assoc] at hnodup hfresh ⊢
    simp only [Nat.add_right_comm slot _ 1] at hnodup hfresh ⊢
    obtain ⟨hhead, htail⟩ := List.nodup_cons.mp hnodup
    have hrest := @ih (slot + 1) (callId env slot b :: ids) htail fun id hid => by
      rw [List.mem_cons, not_or]
      exact ⟨fun heq => hhead (heq ▸ hid), hfresh id (List.mem_cons_of_mem _ hid)⟩
    rw [decodeCalls, if_neg (hfresh _ List.mem_cons_self), hrest]

/-- The generated ids are distinct, and none is one of the provider's. -/
structure FreshIds (env : DecoderEnv) (fragments : List ToolFragment) : Prop where
  injective : ∀ slot other, env.internalId slot = env.internalId other → slot = other
  fresh : ∀ slot, ∀ fragment ∈ fragments, fragment.id ≠ some (env.internalId slot)

/-- Two calls are emitted under different ids. -/
lemma callId_assembled_inj (hkeyed : IndexKeyed fragments) (hfresh : FreshIds env fragments)
    {slot other i j : Nat} (hi : (firstSeen fragments)[slot]? = some i)
    (hj : (firstSeen fragments)[other]? = some j)
    (h : callId env slot (assembled fragments i) = callId env other (assembled fragments j)) :
    slot = other := by
  rw [callId, callId] at h
  cases hleft : (assembled fragments i).id.filter fun id => trim id ≠ "" with
  | some id =>
    obtain ⟨first, hfirst, hindex, hid⟩ :=
      assembled_id_eq_some (Option.filter_eq_some_iff.mp hleft).1
    cases hright : (assembled fragments j).id.filter fun id => trim id ≠ "" with
    | some otherId =>
      obtain ⟨second, hsecond, hindex', hid'⟩ :=
        assembled_id_eq_some (Option.filter_eq_some_iff.mp hright).1
      rw [hleft, hright, Option.getD_some, Option.getD_some] at h
      subst h
      have heq := hkeyed.oneIndex first hfirst second hsecond id hid hid'
      rw [hindex, hindex'] at heq
      obtain rfl := Option.some.inj heq
      exact slot_unique hi hj
    | none =>
      rw [hleft, hright, Option.getD_some, Option.getD_none] at h
      exact absurd (h ▸ hid) (hfresh.fresh other first hfirst)
  | none =>
    cases hright : (assembled fragments j).id.filter fun id => trim id ≠ "" with
    | some otherId =>
      obtain ⟨second, hsecond, -, hid'⟩ :=
        assembled_id_eq_some (Option.filter_eq_some_iff.mp hright).1
      rw [hleft, hright, Option.getD_some, Option.getD_none] at h
      exact absurd (h.symm ▸ hid') (hfresh.fresh slot second hsecond)
    | none =>
      rw [hleft, hright] at h
      exact hfresh.injective slot other h

/-- **One event for each index**, in the order first seen. -/
lemma Assembling.finish_events (h : Assembling fragments d) (hkeyed : IndexKeyed fragments)
    (hfresh : FreshIds env fragments) :
    (d.finish env ending).1 =
      (firstSeen fragments).mapIdx fun slot i => d.callEvent env slot (assembled fragments i) := by
  have hnodup : (d.tools.mapIdx fun k b => callId env (0 + k) b).Nodup := by
    rw [List.nodup_iff_getElem?_ne_getElem?]
    intro slot other hlt hbound heq
    rw [h.tools, List.length_mapIdx, List.length_map] at hbound
    rw [List.getElem?_mapIdx, List.getElem?_mapIdx, h.tools, List.getElem?_map, List.getElem?_map,
      List.getElem?_eq_getElem hbound, List.getElem?_eq_getElem (hlt.trans hbound)] at heq
    simp only [Option.map_some, Option.some.injEq, Nat.zero_add] at heq
    exact absurd (callId_assembled_inj hkeyed hfresh (List.getElem?_eq_getElem (hlt.trans hbound))
      (List.getElem?_eq_getElem hbound) heq) hlt.ne
  rw [finish, decodeCalls_of_nodup hnodup (by simp), h.tools]
  simp only [Nat.zero_add]
  refine List.ext_getElem? fun k => ?_
  rw [List.getElem?_mapIdx, List.getElem?_mapIdx, List.getElem?_map, Option.map_map]
  rfl

end Emitted

/-- An event of a traced decoder: a rejected call, or a call that holds the text of its own
fragments. -/
lemma Traced.event_cases (h : d.Traced) {slot : Nat} {b : ToolBuilder}
    (hb : d.tools[slot]? = some b) (env : DecoderEnv) :
    (∃ id name reason, d.callEvent env slot b = .toolCallRejected id name reason) ∨
      ∃ call, d.callEvent env slot b = .toolCall call ∧ b.IsClean ∧ d.Holds slot b ∧
        call = ⟨callId env slot b, b.name,
          restored d.strictToolSchemas b.name (parseArguments env b.arguments).1⟩ := by
  cases hevent : d.callEvent env slot b with
  | toolCallRejected id name reason => exact .inl ⟨id, name, reason, rfl⟩
  | toolCall call =>
    obtain ⟨hclean, hcall⟩ := callEvent_eq_toolCall hevent
    exact .inr ⟨call, rfl, hclean, h.holds hb hclean, hcall⟩

/-- The index of a call, and its id: its fragments carry one of them, or no key. -/
lemma Holds.keys {slot : Nat} {b : ToolBuilder} (h : d.Holds slot b) :
    ∃ index : Option Nat, ∃ id : Option String, ∀ entry ∈ d.history, entry.slot = slot →
      (entry.fragment.index.isSome = true ∧ entry.fragment.index = index) ∨
        (entry.fragment.id.isSome = true ∧ entry.fragment.id = id) ∨
        (entry.fragment.isUnkeyed = true ∧ entry.candidates = [slot]) := by
  have hindex : ∃ index : Option Nat, ∀ i, d.slotOfIndex i = some slot → some i = index := by
    by_cases hkeyed : ∃ i, d.slotOfIndex i = some slot
    · obtain ⟨i, hi⟩ := hkeyed
      exact ⟨some i, fun j hj => congrArg some (h.oneIndex hj hi)⟩
    · exact ⟨none, fun i hi => absurd ⟨i, hi⟩ hkeyed⟩
  obtain ⟨index, hindex⟩ := hindex
  refine ⟨index, b.id, fun entry hentry hslot => ?_⟩
  obtain ⟨i, hi, hindexed⟩ | ⟨id, hid, hb⟩ | hunkeyed := h.owns entry hentry hslot
  · exact .inl ⟨by rw [hi]; rfl, hi.trans (hindex i hindexed)⟩
  · exact .inr (.inl ⟨by rw [hid]; rfl, hid.trans hb.symm⟩)
  · exact .inr (.inr hunkeyed)

/-- **Every call is rejected, or holds the text of its own fragments.** -/
lemma Traced.finish_own (h : d.Traced) (env : DecoderEnv) (ending : StreamEnd) :
    ((d.finish env ending).1 = [] ∨ (d.finish env ending).1.length = d.tools.length) ∧
      ∀ slot event, (d.finish env ending).1[slot]? = some event →
        (∃ id name reason, event = .toolCallRejected id name reason) ∨
        ∃ call, event = .toolCall call ∧
          call.name = joinNames (d.fragmentsAt slot) ∧
          call.arguments = restored d.strictToolSchemas call.name
            (parseArguments env (joinArguments (d.fragmentsAt slot))).1 ∧
          ∃ index : Option Nat, ∃ id : Option String, ∀ entry ∈ d.history, entry.slot = slot →
            (entry.fragment.index.isSome = true ∧ entry.fragment.index = index) ∨
              (entry.fragment.id.isSome = true ∧ entry.fragment.id = id) ∨
              (entry.fragment.isUnkeyed = true ∧ entry.candidates = [slot]) := by
  obtain ⟨hnil, -⟩ | ⟨hevents, -⟩ := d.finish_events env ending
  · exact ⟨.inl hnil, fun slot event hevent => by simp [hnil] at hevent⟩
  · refine ⟨.inr (by rw [hevents, List.length_mapIdx]), fun slot event hevent => ?_⟩
    rw [hevents, List.getElem?_mapIdx, Option.map_eq_some_iff] at hevent
    obtain ⟨b, hb, rfl⟩ := hevent
    obtain hrejected | ⟨call, hcall, -, hholds, rfl⟩ := h.event_cases hb env
    · exact .inl hrejected
    · refine .inr ⟨_, hcall, hholds.name, ?_, hholds.keys⟩
      rw [← hholds.arguments]

lemma callEvent_congr (h : d'.strictToolSchemas = d.strictToolSchemas) (env : DecoderEnv)
    (slot : Nat) (b : ToolBuilder) : d'.callEvent env slot b = d.callEvent env slot b := by
  rw [callEvent, callEvent, h]

end Decoder

/-- A chunk with one tool-call fragment. -/
def fragmentChunk (fields : List (String × Value)) : Value :=
  .object [("choices", .array [.object [("delta", .object [("tool_calls",
    .array [.object fields])])]])]

/-- The function of a fragment. -/
def functionField (fields : List (String × Value)) : String × Value := ("function", .object fields)

/-- A parser of two texts. -/
def twoTexts : DecoderEnv where
  parseJson text :=
    if text = "\x7b\"x\":1\x7d" then .ok (.object [("x", .int 1)])
    else if text = "\x7b\x7d" then .ok (.object [])
    else .error "unexpected text"
  internalId slot := String.ofList (List.replicate slot '.')

/-- Two calls whose fragments come in turn. -/
def interleavedChunks : List Value :=
  [fragmentChunk [("index", .int 0), functionField [("name", .string "run")]],
    fragmentChunk [("index", .int 1), ("id", .string "b"), functionField [("name", .string "read"),
      ("arguments", .string "\x7b\x7d")]],
    fragmentChunk [("index", .int 0), ("id", .string "a"),
      functionField [("arguments", .string "\x7b\"x\":")]],
    fragmentChunk [("index", .int 0), functionField [("arguments", .string "1\x7d")]]]

example : (((Decoder.new .none []).run interleavedChunks).finish twoTexts .doneSentinel).1 =
    [.toolCall ⟨"a", "run", .object [("x", .int 1)]⟩, .toolCall ⟨"b", "read", .object []⟩] := by
  decide

/-- The fragments of `interleavedChunks`. -/
lemma streamFragments_interleaved : streamFragments .none interleavedChunks =
    [⟨some 0, none, some "run", none⟩, ⟨some 1, some "b", some "read", some "\x7b\x7d"⟩,
      ⟨some 0, some "a", none, some "\x7b\"x\":"⟩, ⟨some 0, none, none, some "1\x7d"⟩] := by
  decide

lemma assembled_interleaved (i : Nat) :
    (assembled (streamFragments .none interleavedChunks) i).name.utf8ByteSize ≤ maxToolNameBytes ∧
      (assembled (streamFragments .none interleavedChunks) i).arguments.utf8ByteSize ≤
        maxToolArgumentBytesPerCall := by
  match i with
  | 0 => decide
  | 1 => decide
  | i + 2 =>
    have hfirst : firstSeen (streamFragments .none interleavedChunks) = [0, 1] := by decide
    rw [assembled_of_not_mem (by rw [hfirst]; simp)]
    exact ⟨Nat.zero_le _, Nat.zero_le _⟩

lemma withinLimits_interleaved :
    WithinLimits (interleavedChunks.flatMap (chunkPieces .none)) where
  events := by decide
  text := by decide
  reasoning := by decide
  calls := by decide
  id fragment hfragment id hid := by
    change fragment ∈ streamFragments .none interleavedChunks at hfragment
    rw [streamFragments_interleaved] at hfragment
    have hshort : ∀ fragment ∈ ([⟨some 0, none, some "run", none⟩,
        ⟨some 1, some "b", some "read", some "\x7b\x7d"⟩,
        ⟨some 0, some "a", none, some "\x7b\"x\":"⟩,
        ⟨some 0, none, none, some "1\x7d"⟩] : List ToolFragment),
        fragment.id.all fun id => id.utf8ByteSize ≤ maxToolIdBytes := by decide
    simpa [hid] using hshort fragment hfragment
  name i := (assembled_interleaved i).1
  arguments i := (assembled_interleaved i).2
  total := by decide

lemma indexKeyed_interleaved : IndexKeyed (streamFragments .none interleavedChunks) := by
  rw [streamFragments_interleaved]
  refine ⟨by simp, fun fragment hf other ho hindex id otherId hid hother => ?_,
    fun fragment hf other ho id hid hother => ?_⟩ <;>
  · simp only [List.mem_cons, List.not_mem_nil, or_false] at hf ho
    obtain rfl | rfl | rfl | rfl := hf <;> obtain rfl | rfl | rfl | rfl := ho <;> simp_all <;>
      exact absurd (hid.trans hother.symm) (by decide)

lemma freshIds_interleaved :
    Decoder.FreshIds twoTexts (streamFragments .none interleavedChunks) := by
  have hletters : ∀ fragment ∈ streamFragments .none interleavedChunks,
      fragment.id.all fun id => id.toList.head?.any (· ≠ '.') := by
    rw [streamFragments_interleaved]
    decide
  refine ⟨fun slot other h => ?_, fun slot fragment hf hid => ?_⟩
  · have hlength := congrArg (fun id : String => id.toList.length) h
    simpa [twoTexts] using hlength
  · have hfirst := hletters fragment hf
    rw [hid, Option.all_some] at hfirst
    cases slot <;> simp [twoTexts, List.replicate_succ] at hfirst

/-- A call with two ids is marked; the next call is the only one open, and takes the text of a
fragment without a key. -/
def unkeyedChunks : List Value :=
  [fragmentChunk [("index", .int 0), ("id", .string "a")],
    fragmentChunk [("index", .int 0), ("id", .string "b")],
    fragmentChunk [("index", .int 1), ("id", .string "c"), functionField [("name", .string "run"),
      ("arguments", .string "\x7b\"x\":")]],
    fragmentChunk [functionField [("arguments", .string "1\x7d")]]]

end Rupi
