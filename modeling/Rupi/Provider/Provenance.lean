import Rupi.Provider.Correlation

/-!
Where the text of a call comes from.

- `Decoder.Holds`: the text of a call is that of the fragments that went to its slot, and
  each of them is its own.
- `Decoder.Traced`: every call without a correlation error holds such text. It is kept by
  every chunk.
-/

namespace Rupi

/-- The names of fragments, joined. -/
def joinNames (fragments : List ToolFragment) : String :=
  String.join (fragments.map fun fragment => fragment.name.getD "")

/-- The arguments of fragments, joined. -/
def joinArguments (fragments : List ToolFragment) : String :=
  String.join (fragments.map fun fragment => fragment.arguments.getD "")

@[simp]
lemma joinNames_append (before : List ToolFragment) (fragment : ToolFragment) :
    joinNames (before ++ [fragment]) = joinNames before ++ fragment.name.getD "" := by
  simp [joinNames, String.join_append]

@[simp]
lemma joinArguments_append (before : List ToolFragment) (fragment : ToolFragment) :
    joinArguments (before ++ [fragment]) = joinArguments before ++ fragment.arguments.getD "" := by
  simp [joinArguments, String.join_append]

/-- The fragment of a piece. -/
def Piece.fragment? : Piece → Option ToolFragment
  | .tool fragment _ => some fragment
  | _ => none

/-- The fragments that a sequence of chunks carries. -/
def streamFragments (exposure : ReasoningExposure) (chunks : List Value) : List ToolFragment :=
  (chunks.flatMap (chunkPieces exposure)).filterMap Piece.fragment?

lemma ToolFragment.boundedId_eq {fragment : ToolFragment} (h : fragment.oversizedId = false) :
    fragment.boundedId = fragment.id := by
  cases hid : fragment.id with
  | none => simp [boundedId, hid]
  | some id =>
    rw [oversizedId, hid, Option.any_some, decide_eq_false_iff_not] at h
    simp [boundedId, hid, Nat.not_lt.mp h]

lemma ToolFragment.id_eq_some_of_boundedId {fragment : ToolFragment} {id : String}
    (h : fragment.boundedId = some id) : fragment.id = some id :=
  (Option.filter_eq_some_iff.mp h).1

namespace Decoder

variable {d d' : Decoder} {slot : Nat}

/-- The fragments that went to a slot, in the order received. -/
def fragmentsAt (d : Decoder) (slot : Nat) : List ToolFragment :=
  (d.history.filter fun entry => entry.slot = slot).map (·.fragment)

/-! ### A call and its fragments -/

/-- A fragment is a call's own: it carries its index or its id, or it has no key and this is
the only keyed call without a correlation error. -/
def Owns (d : Decoder) (slot : Nat) (b : ToolBuilder) (entry : Attribution) : Prop :=
  (∃ i, entry.fragment.index = some i ∧ d.slotOfIndex i = some slot) ∨
    (∃ id, entry.fragment.id = some id ∧ b.id = some id) ∨
    (entry.fragment.isUnkeyed = true ∧ entry.candidates = [slot])

/-- A call holds the text of its own fragments. -/
structure Holds (d : Decoder) (slot : Nat) (b : ToolBuilder) : Prop where
  name : b.name = joinNames (d.fragmentsAt slot)
  arguments : b.arguments = joinArguments (d.fragmentsAt slot)
  owns : ∀ entry ∈ d.history, entry.slot = slot → d.Owns slot b entry
  oneIndex : ∀ {i j}, d.slotOfIndex i = some slot → d.slotOfIndex j = some slot → i = j

/-- **The invariant of the decoder**: a call without a correlation error holds the text of
its own fragments. -/
structure Traced (d : Decoder) : Prop where
  range : d.InRange
  placed : ∀ entry ∈ d.history, entry.slot < d.tools.length
  holds : ∀ {k : Nat} {b : ToolBuilder}, d.tools[k]? = some b → b.IsClean → d.Holds k b

lemma traced_new (exposure : ReasoningExposure) (schemas : List (String × Value)) :
    (Decoder.new exposure schemas).Traced where
  range := ⟨by simp [slotOfIndex, Decoder.new], by simp [slotOfId, Decoder.new]⟩
  placed := by simp [Decoder.new]
  holds := by simp [Decoder.new]

/-- A slot that is not there yet has no fragments. -/
lemma Traced.holds_new (h : d.Traced) : d.Holds d.tools.length .new := by
  have hnone : ∀ entry ∈ d.history, entry.slot ≠ d.tools.length :=
    fun entry hentry heq => absurd (heq ▸ h.placed entry hentry) (Nat.lt_irrefl _)
  have hempty : d.fragmentsAt d.tools.length = [] := by
    rw [fragmentsAt, List.filter_eq_nil_iff.mpr, List.map_nil]
    intro entry hentry
    simpa using hnone entry hentry
  exact
    { name := by rw [hempty]; rfl
      arguments := by rw [hempty]; rfl
      owns := fun entry hentry heq => absurd heq (hnone entry hentry)
      oneIndex := fun hi => absurd hi (h.range.fresh _) }

/-! ### One fragment -/

lemma Chosen.holds {fragment : ToolFragment} {uncorrelatedBatch : Bool} (h : d.Traced)
    (hchosen : Chosen fragment uncorrelatedBatch slot d d') {k : Nat} {b : ToolBuilder}
    (hb : d'.tools[k]? = some b) (hclean : b.IsClean) : d.Holds k b := by
  obtain ⟨-, hmarked⟩ | ⟨-, hmarked⟩ := hchosen.base
  · exact h.holds (hmarked.clean hb hclean) hclean
  · have hslot := hmarked.clean hb hclean
    rw [withSlot] at hslot
    obtain hlt | heq | hgt := Nat.lt_trichotomy k d.tools.length
    · rw [List.getElem?_append_left hlt] at hslot
      exact h.holds hslot hclean
    · subst heq
      rw [List.getElem?_append_right (Nat.le_refl _), Nat.sub_self] at hslot
      obtain rfl := Option.some.inj hslot
      exact h.holds_new
    · rw [List.getElem?_eq_none (by simp; omega)] at hslot
      contradiction

lemma Chosen.indices_eq {fragment : ToolFragment} {uncorrelatedBatch : Bool}
    (hchosen : Chosen fragment uncorrelatedBatch slot d d') :
    d'.toolIndices = d.toolIndices ∧ d'.toolIds = d.toolIds ∧ d'.history = d.history := by
  obtain ⟨-, hmarked⟩ | ⟨-, hmarked⟩ := hchosen.base
  · exact ⟨hmarked.indices, hmarked.ids, hmarked.history⟩
  · exact ⟨hmarked.indices, hmarked.ids, hmarked.history⟩

/-- The slot chosen is there, and the slots that were there still are. -/
lemma Chosen.length {fragment : ToolFragment} {uncorrelatedBatch : Bool}
    (hchosen : Chosen fragment uncorrelatedBatch slot d d') :
    slot < d'.tools.length ∧ d.tools.length ≤ d'.tools.length := by
  obtain ⟨hlt, hmarked⟩ | ⟨hslot, hmarked⟩ := hchosen.base
  · exact ⟨hmarked.length ▸ hlt, hmarked.length.ge⟩
  · have hlength : d'.tools.length = d.tools.length + 1 := by
      rw [hmarked.length, withSlot, List.length_append, List.length_singleton]
    omega

/-- A fragment is placed: what the decoder after `accumulate_tool` is. -/
structure Placed (fragment : ToolFragment) (uncorrelatedBatch : Bool) (slot : Nat)
    (d chosen d' : Decoder) : Prop where
  choice : Chosen fragment uncorrelatedBatch slot d chosen
  tools : ∃ total, d'.tools = chosen.tools.modify slot
    (ToolBuilder.fill fragment (d.singletonFallback fragment uncorrelatedBatch) total)
  index : ∀ i, d'.slotOfIndex i =
    (d.slotOfIndex i).or (if fragment.index = some i then some slot else none)
  id : ∀ a, d'.slotOfId a =
    (d.slotOfId a).or (if fragment.boundedId = some a then some slot else none)
  history : d'.history =
    d.history ++ [⟨slot, fragment, d.tools.length, d.openKeyedToolSlots⟩]

section Placed

variable {fragment : ToolFragment} {uncorrelatedBatch : Bool} {chosen : Decoder}

lemma Placed.slotOfIndex_mono (h : Placed fragment uncorrelatedBatch slot d chosen d') {i k : Nat}
    (hi : d.slotOfIndex i = some k) : d'.slotOfIndex i = some k := by
  rw [h.index, hi, Option.some_or]

/-- An index that points to a slot did so before, or it is the new one. -/
lemma Placed.slotOfIndex_cases (h : Placed fragment uncorrelatedBatch slot d chosen d') {i k : Nat}
    (hi : d'.slotOfIndex i = some k) :
    d.slotOfIndex i = some k ∨
      d.slotOfIndex i = none ∧ fragment.index = some i ∧ k = slot := by
  rw [h.index] at hi
  cases hold : d.slotOfIndex i with
  | some known => exact .inl (by rw [hold, Option.some_or] at hi; exact hi)
  | none =>
    rw [hold, Option.none_or] at hi
    split_ifs at hi with hindex
    exact .inr ⟨rfl, hindex, (Option.some.inj hi).symm⟩

/-- A call that no fragment went to is as it was. -/
lemma Placed.holds_of_ne (h : Placed fragment uncorrelatedBatch slot d chosen d') {k : Nat}
    {b : ToolBuilder} (hk : k ≠ slot) (hb : d.Holds k b) : d'.Holds k b := by
  have hfragments : d'.fragmentsAt k = d.fragmentsAt k := by
    rw [fragmentsAt, h.history, List.filter_append, fragmentsAt]
    simp [hk.symm]
  refine ⟨hfragments ▸ hb.name, hfragments ▸ hb.arguments, fun entry hentry hslot => ?_,
    fun hi hj => ?_⟩
  · rw [h.history, List.mem_append, List.mem_singleton] at hentry
    obtain hentry | rfl := hentry
    · obtain ⟨i, hindex, hi⟩ | hid | hunkeyed := hb.owns entry hentry hslot
      · exact .inl ⟨i, hindex, h.slotOfIndex_mono hi⟩
      · exact .inr (.inl hid)
      · exact .inr (.inr hunkeyed)
    · exact absurd hslot.symm hk
  · obtain hi | ⟨-, -, heq⟩ := h.slotOfIndex_cases hi
    · obtain hj | ⟨-, -, heq⟩ := h.slotOfIndex_cases hj
      · exact hb.oneIndex hi hj
      · exact absurd heq hk
    · exact absurd heq hk

/-- The fragment is the call's own, when the call stays clean. -/
lemma Placed.owns_new (h : Placed fragment uncorrelatedBatch slot d chosen d') {b b' : ToolBuilder}
    (hb : chosen.tools[slot]? = some b)
    (hfilled : ToolBuilder.Filled fragment (d.singletonFallback fragment uncorrelatedBatch) b b') :
    d'.Owns slot b' ⟨slot, fragment, d.tools.length, d.openKeyedToolSlots⟩ := by
  cases hindex : fragment.index with
  | some i =>
    refine .inl ⟨i, hindex, ?_⟩
    rw [h.index]
    cases hold : d.slotOfIndex i with
    | some known => rw [Option.some_or, h.choice.index hindex hold]
    | none => rw [Option.none_or, if_pos hindex]
  | none =>
    cases hid : fragment.boundedId with
    | some a =>
      refine .inr (.inl ⟨a, ToolFragment.id_eq_some_of_boundedId hid, ?_⟩)
      rw [hfilled.id, hid, Option.some_or]
    | none =>
      obtain hnone | hopen := h.choice.unkeyed hindex hid hb hfilled.clean
      · exact absurd hnone (hfilled.keyed hindex hid)
      · refine .inr (.inr ⟨?_, hopen⟩)
        rw [ToolFragment.boundedId_eq hfilled.bounded] at hid
        simp [ToolFragment.isUnkeyed, hindex, hid]

lemma Placed.owns_old (h : Placed fragment uncorrelatedBatch slot d chosen d') {b b' : ToolBuilder}
    (hfilled : ToolBuilder.Filled fragment (d.singletonFallback fragment uncorrelatedBatch) b b')
    {entry : Attribution} (hentry : d.Owns slot b entry) : d'.Owns slot b' entry := by
  obtain ⟨i, hindex, hi⟩ | ⟨a, ha, hb⟩ | hunkeyed := hentry
  · exact .inl ⟨i, hindex, h.slotOfIndex_mono hi⟩
  · refine .inr (.inl ⟨a, ha, ?_⟩)
    rw [hfilled.id]
    cases hid : fragment.boundedId with
    | none => rw [Option.none_or, hb]
    | some given => rw [Option.some_or, hfilled.sameId a given hb hid]
  · exact .inr (.inr hunkeyed)

/-- The call that the fragment went to holds its text too. -/
lemma Placed.holds_self (h : Placed fragment uncorrelatedBatch slot d chosen d') {b b' : ToolBuilder}
    (hb : chosen.tools[slot]? = some b)
    (hfilled : ToolBuilder.Filled fragment (d.singletonFallback fragment uncorrelatedBatch) b b')
    (hold : d.Holds slot b) : d'.Holds slot b' := by
  have hfragments : d'.fragmentsAt slot = d.fragmentsAt slot ++ [fragment] := by
    rw [fragmentsAt, h.history, List.filter_append, List.map_append, fragmentsAt]
    simp
  refine ⟨?_, ?_, fun entry hentry hslot => ?_, fun {i j} hi hj => ?_⟩
  · rw [hfilled.name, hold.name, hfragments, joinNames_append]
  · rw [hfilled.arguments, hold.arguments, hfragments, joinArguments_append]
  · rw [h.history, List.mem_append, List.mem_singleton] at hentry
    obtain hentry | rfl := hentry
    · exact h.owns_old hfilled (hold.owns entry hentry hslot)
    · exact h.owns_new hb hfilled
  · obtain hi | ⟨hinew, hi, -⟩ := h.slotOfIndex_cases hi <;>
      obtain hj | ⟨hjnew, hj, -⟩ := h.slotOfIndex_cases hj
    · exact hold.oneIndex hi hj
    · exact absurd hi (h.choice.fresh hj hjnew hb hfilled.clean i)
    · exact absurd hj (h.choice.fresh hi hinew hb hfilled.clean j)
    · exact Option.some.inj (hi.symm.trans hj)

lemma Placed.traced (h : Placed fragment uncorrelatedBatch slot d chosen d') (hd : d.Traced) :
    d'.Traced := by
  obtain ⟨total, htools⟩ := h.tools
  have hlength : d'.tools.length = chosen.tools.length := by rw [htools, List.length_modify]
  obtain ⟨hslot, hle⟩ := h.choice.length
  refine ⟨⟨fun {i k} hi => ?_, fun {a k} ha => ?_⟩, fun entry hentry => ?_, fun {k b} hb hclean => ?_⟩
  · obtain hi | ⟨-, -, rfl⟩ := h.slotOfIndex_cases hi
    · have := hd.range.index hi
      omega
    · omega
  · rw [h.id] at ha
    obtain ha | ⟨-, ha⟩ := Option.or_eq_some_iff.mp ha
    · have := hd.range.id ha
      omega
    · split_ifs at ha
      have := Option.some.inj ha
      omega
  · rw [h.history, List.mem_append, List.mem_singleton] at hentry
    obtain hentry | rfl := hentry
    · have := hd.placed entry hentry
      omega
    · rw [hlength]
      exact hslot
  · rw [htools, List.getElem?_modify, Option.map_eq_map, Option.map_eq_some_iff] at hb
    obtain ⟨before, hbefore, rfl⟩ := hb
    by_cases hk : slot = k
    · subst hk
      simp only [if_true] at hclean ⊢
      have hfilled := ToolBuilder.filled_of_isClean hclean
      exact h.holds_self hbefore hfilled (h.choice.holds hd hbefore hfilled.clean)
    · simp only [if_neg hk] at hclean ⊢
      exact h.holds_of_ne (Ne.symm hk) (h.choice.holds hd hbefore hclean)

end Placed

/-! ### Chunks -/

/-- The calls are as they were. -/
structure SameCalls (d d' : Decoder) : Prop where
  tools : d'.tools = d.tools
  indices : d'.toolIndices = d.toolIndices
  ids : d'.toolIds = d.toolIds
  history : d'.history = d.history

lemma SameCalls.slotOfIndex (h : SameCalls d d') (i : Nat) : d'.slotOfIndex i = d.slotOfIndex i := by
  rw [Decoder.slotOfIndex, h.indices, Decoder.slotOfIndex]

lemma SameCalls.slotOfId (h : SameCalls d d') (a : String) : d'.slotOfId a = d.slotOfId a := by
  rw [Decoder.slotOfId, h.ids, Decoder.slotOfId]

lemma SameCalls.traced (h : SameCalls d d') (hd : d.Traced) : d'.Traced := by
  have hindex := h.slotOfIndex
  have hfragments : ∀ k, d'.fragmentsAt k = d.fragmentsAt k := fun k => by
    rw [fragmentsAt, h.history, fragmentsAt]
  refine ⟨⟨fun {i k} hi => ?_, fun {a k} ha => ?_⟩, fun entry hentry => ?_, fun {k b} hb hclean => ?_⟩
  · rw [h.tools]
    exact hd.range.index (hindex i ▸ hi)
  · rw [h.tools]
    exact hd.range.id (h.slotOfId a ▸ ha)
  · rw [h.tools]
    exact hd.placed entry (h.history ▸ hentry)
  · have hold := hd.holds (h.tools ▸ hb) hclean
    refine ⟨hfragments k ▸ hold.name, hfragments k ▸ hold.arguments, fun entry hentry hslot => ?_,
      fun {i j} hi hj => hold.oneIndex (hindex i ▸ hi) (hindex j ▸ hj)⟩
    obtain ⟨i, hentry, hi⟩ | hid | hunkeyed := hold.owns entry (h.history ▸ hentry) hslot
    · exact .inl ⟨i, hentry, (hindex i).trans hi⟩
    · exact .inr (.inl hid)
    · exact .inr (.inr hunkeyed)

lemma accountResponseEvent_eq_ok (h : d.accountResponseEvent = .ok d') :
    d' = { d with responseEvents := d.responseEvents + 1 } := by
  rw [accountResponseEvent] at h
  split_ifs at h
  exact (Except.ok.inj h).symm

/-- A fragment is placed, or the decoder fails and the calls are as they were. -/
lemma accumulateTool_cases (hd : d.Traced) (fragment : ToolFragment) (uncorrelatedBatch : Bool) :
    ((d.accumulateTool fragment uncorrelatedBatch).2 ≠ none ∧
      SameCalls d (d.accumulateTool fragment uncorrelatedBatch).1) ∨
    ((d.accumulateTool fragment uncorrelatedBatch).2 = none ∧ ∃ slot d₀ chosen,
      SameCalls d d₀ ∧ Placed fragment uncorrelatedBatch slot d₀ chosen
        (d.accumulateTool fragment uncorrelatedBatch).1) := by
  rw [accumulateTool]
  cases hevent : d.accountResponseEvent with
  | error failure => exact .inl ⟨by simp, rfl, rfl, rfl, rfl⟩
  | ok d₀ =>
    have hsame : SameCalls d d₀ := by
      rw [accountResponseEvent_eq_ok hevent]
      exact ⟨rfl, rfl, rfl, rfl⟩
    dsimp only
    cases hchoose : d₀.chooseSlot fragment uncorrelatedBatch with
    | error failure => exact .inl ⟨by simp, hsame⟩
    | ok result =>
      obtain ⟨slot, chosen⟩ := result
      have hchosen := chooseSlot_spec (hsame.traced hd).range hchoose
      have hfills := @fills slot chosen fragment (d₀.singletonFallback fragment uncorrelatedBatch)
      obtain ⟨hindices, hids, -⟩ := hchosen.indices_eq
      refine .inr ⟨rfl, slot, d₀, chosen, hsame, hchosen, ⟨_, hfills.tools⟩, fun i => ?_,
        fun a => ?_, rfl⟩
      · refine (hfills.index i).trans ?_
        rw [slotOfIndex, hindices, slotOfIndex]
      · refine (hfills.id a).trans ?_
        rw [slotOfId, hids, slotOfId]

lemma take_sameCalls (d : Decoder) (piece : Piece) (h : piece.fragment? = none) :
    SameCalls d (d.take piece).1 := by
  cases piece with
  | finishReason reason => exact ⟨rfl, rfl, rfl, rfl⟩
  | tool fragment uncorrelatedBatch => contradiction
  | reasoning text | text text =>
    rw [take]
    cases hevent : d.accountResponseEvent with
    | error failure => exact ⟨rfl, rfl, rfl, rfl⟩
    | ok d₀ =>
      obtain rfl := accountResponseEvent_eq_ok hevent
      dsimp only
      split_ifs <;> exact ⟨rfl, rfl, rfl, rfl⟩

/-- What a piece adds to the history: nothing, or its fragment. -/
lemma take_step (hd : d.Traced) (piece : Piece) :
    (d.take piece).1.Traced ∧ ∃ added, added.Sublist piece.fragment?.toList ∧
      (d.take piece).1.history.map (·.fragment) = d.history.map (·.fragment) ++ added := by
  have hkept : ∀ {d'}, SameCalls d d' → d'.Traced ∧ ∃ added, added.Sublist piece.fragment?.toList ∧
      d'.history.map (·.fragment) = d.history.map (·.fragment) ++ added := fun h =>
    ⟨h.traced hd, [], List.nil_sublist _, by rw [h.history, List.append_nil]⟩
  cases hpiece : piece.fragment? with
  | none => exact hpiece ▸ hkept (take_sameCalls d piece hpiece)
  | some fragment =>
    cases piece with
    | finishReason reason | reasoning text | text text => contradiction
    | tool found uncorrelatedBatch =>
      obtain rfl := Option.some.inj hpiece
      obtain ⟨-, hsame⟩ | ⟨-, slot, d₀, chosen, hsame, hplaced⟩ :=
        accumulateTool_cases hd found uncorrelatedBatch
      · exact hkept hsame
      · refine ⟨hplaced.traced (hsame.traced hd), [found], List.Sublist.refl _, ?_⟩
        rw [take, hplaced.history, List.map_append, hsame.history]
        rfl

lemma takeAll_step (hd : d.Traced) (pieces : List Piece) :
    (d.takeAll pieces).1.Traced ∧ ∃ added, added.Sublist (pieces.filterMap Piece.fragment?) ∧
      (d.takeAll pieces).1.history.map (·.fragment) = d.history.map (·.fragment) ++ added := by
  induction pieces generalizing d with
  | nil => exact ⟨hd, [], List.nil_sublist _, by simp [takeAll]⟩
  | cons piece pieces ih =>
    obtain ⟨htraced, added, hadded, hhistory⟩ := take_step hd piece
    have hhead : piece.fragment?.toList ++ pieces.filterMap Piece.fragment? =
        (piece :: pieces).filterMap Piece.fragment? := by
      cases h : piece.fragment? <;> simp [h]
    rw [takeAll]
    generalize d.take piece = result at htraced hhistory
    obtain ⟨d₁, failure⟩ := result
    cases failure with
    | some failure =>
      exact ⟨htraced, added, hhead ▸ hadded.trans (List.sublist_append_left _ _), hhistory⟩
    | none =>
      obtain ⟨htraced₂, added₂, hadded₂, hhistory₂⟩ := ih htraced
      refine ⟨htraced₂, added ++ added₂, hhead ▸ hadded.append hadded₂, ?_⟩
      rw [hhistory₂, hhistory, List.append_assoc]

lemma exposure_eq_of_withoutCalls {events : Nat}
    (h : d'.withoutCalls = { d.withoutCalls with responseEvents := events }) :
    d'.exposure = d.exposure ∧ d'.strictToolSchemas = d.strictToolSchemas := by
  have hexposure := congrArg Decoder.exposure h
  have hschemas := congrArg Decoder.strictToolSchemas h
  exact ⟨hexposure, hschemas⟩

/-- The configuration of the adapter stays. -/
lemma take_exposure (d : Decoder) (piece : Piece) :
    (d.take piece).1.exposure = d.exposure ∧
      (d.take piece).1.strictToolSchemas = d.strictToolSchemas := by
  cases piece with
  | finishReason reason => exact ⟨rfl, rfl⟩
  | tool fragment uncorrelatedBatch =>
    obtain ⟨-, h⟩ | h := withoutCalls_accumulateTool d fragment uncorrelatedBatch
    · exact exposure_eq_of_withoutCalls h
    · exact exposure_eq_of_withoutCalls h
  | reasoning text | text text =>
    rw [take]
    cases hevent : d.accountResponseEvent with
    | error failure => exact ⟨rfl, rfl⟩
    | ok d₀ =>
      obtain rfl := accountResponseEvent_eq_ok hevent
      dsimp only
      split_ifs <;> exact ⟨rfl, rfl⟩

lemma takeAll_exposure (d : Decoder) (pieces : List Piece) :
    (d.takeAll pieces).1.exposure = d.exposure ∧
      (d.takeAll pieces).1.strictToolSchemas = d.strictToolSchemas := by
  induction pieces generalizing d with
  | nil => exact ⟨rfl, rfl⟩
  | cons piece pieces ih =>
    have htake := take_exposure d piece
    rw [takeAll]
    generalize d.take piece = result at htake
    obtain ⟨d₁, failure⟩ := result
    cases failure with
    | some failure => exact htake
    | none => exact ⟨(ih d₁).1.trans htake.1, (ih d₁).2.trans htake.2⟩

/-- **Every run of the decoder is traced**, and its history is part of what was received. -/
lemma run_traced (hd : d.Traced) (chunks : List Value) :
    (d.run chunks).Traced ∧ (d.run chunks).exposure = d.exposure ∧
      (d.run chunks).strictToolSchemas = d.strictToolSchemas ∧
      ∃ added, added.Sublist (streamFragments d.exposure chunks) ∧
        (d.run chunks).history.map (·.fragment) = d.history.map (·.fragment) ++ added := by
  induction chunks generalizing d with
  | nil => exact ⟨hd, rfl, rfl, [], List.nil_sublist _, by simp [run]⟩
  | cons value chunks ih =>
    obtain ⟨htraced, added, hadded, hhistory⟩ := takeAll_step hd (chunkPieces d.exposure value)
    obtain ⟨hexposure, hschemas⟩ := takeAll_exposure d (chunkPieces d.exposure value)
    have hrun : d.run (value :: chunks) = (d.chunk value).1.run chunks := rfl
    rw [← chunk] at htraced hhistory hexposure hschemas
    rw [hrun]
    generalize (d.chunk value).1 = d₁ at htraced hhistory hexposure hschemas ⊢
    obtain ⟨htraced₂, hexposure₂, hschemas₂, added₂, hadded₂, hhistory₂⟩ := ih htraced
    refine ⟨htraced₂, hexposure₂.trans hexposure, hschemas₂.trans hschemas, added ++ added₂, ?_, ?_⟩
    · rw [hexposure] at hadded₂
      rw [streamFragments, List.flatMap_cons, List.filterMap_append]
      exact hadded.append hadded₂
    · rw [hhistory₂, hhistory, List.append_assoc]

/-! ### The calls that are emitted -/

section Finish

variable {env : DecoderEnv} {ending : StreamEnd} {events : List ProviderEvent}

@[simp]
lemma callEvent_id (env : DecoderEnv) (slot : Nat) (b : ToolBuilder) :
    (d.callEvent env slot b).id = callId env slot b := by
  rw [callEvent]
  dsimp only
  split <;> rfl

/-- One event for each call, in order, each under an id of its own. -/
lemma decodeCalls_eq_ok {builders : List ToolBuilder} {ids : List ToolCallId}
    (h : d.decodeCalls env slot ids builders = .ok events) :
    events = builders.mapIdx (fun k b => d.callEvent env (slot + k) b) ∧
      (events.map ProviderEvent.id).Nodup ∧ ∀ id ∈ events.map ProviderEvent.id, id ∉ ids := by
  induction builders generalizing slot ids events with
  | nil =>
    obtain rfl := Except.ok.inj h
    simp
  | cons b builders ih =>
    rw [decodeCalls] at h
    split_ifs at h with hdup
    cases hrest : d.decodeCalls env (slot + 1) (callId env slot b :: ids) builders with
    | error failure => simp [hrest] at h
    | ok rest =>
      rw [hrest] at h
      obtain rfl := Except.ok.inj h
      obtain ⟨hevents, hnodup, hfresh⟩ := ih hrest
      refine ⟨?_, ?_, fun id hid => ?_⟩
      · rw [List.mapIdx_cons, hevents]
        simp only [Nat.add_zero, Nat.add_assoc, Nat.add_comm 1]
      · rw [List.map_cons, List.nodup_cons, callEvent_id]
        exact ⟨fun hmem => absurd List.mem_cons_self (hfresh _ hmem), hnodup⟩
      · rw [List.map_cons, callEvent_id, List.mem_cons] at hid
        obtain rfl | hid := hid
        · exact hdup
        · exact fun hmem => hfresh id hid (List.mem_cons_of_mem _ hmem)

/-- The events of `finish`: none, or one for each call. -/
lemma finish_events (d : Decoder) (env : DecoderEnv) (ending : StreamEnd) :
    ((d.finish env ending).1 = [] ∧ (d.finish env ending).2.isOk = false) ∨
      ((d.finish env ending).1 = d.tools.mapIdx (d.callEvent env) ∧
        ((d.finish env ending).1.map ProviderEvent.id).Nodup ∧
        (d.finish env ending).2 =
          (d.certainty ending).map fun certainty => (d.finishReason, certainty)) := by
  rw [finish]
  cases hcalls : d.decodeCalls env 0 [] d.tools with
  | error failure => exact .inl ⟨rfl, rfl⟩
  | ok events =>
    obtain ⟨hevents, hnodup, -⟩ := decodeCalls_eq_ok hcalls
    simp only [Nat.zero_add] at hevents
    exact .inr ⟨hevents, hnodup, rfl⟩

lemma tools_eq_nil_of_certainty {failure : ModelFailure} (h : d.certainty ending = .error failure) :
    d.tools = [] := by
  by_contra hne
  have hproduced : (d.emittedOutput || !d.tools.isEmpty) = true := by
    simp [hne]
  rw [certainty.eq_def, hproduced] at h
  cases ending with
  | completeBody => contradiction
  | doneSentinel => simp at h
  | endedWithoutSentinel => cases hreason : d.finishReason.isSome <;> simp [hreason] at h

/-- Emitted ids are distinct, and an error emits no call. -/
lemma finish_ids (d : Decoder) (env : DecoderEnv) (ending : StreamEnd) :
    ((d.finish env ending).1.map ProviderEvent.id).Nodup ∧
      ((d.finish env ending).2.isOk = false → (d.finish env ending).1 = []) := by
  obtain ⟨hnil, -⟩ | ⟨hevents, hnodup, hresult⟩ := finish_events d env ending
  · exact ⟨by simp [hnil], fun _ => hnil⟩
  · refine ⟨hnodup, fun hfailed => ?_⟩
    rw [hresult] at hfailed
    cases hcertainty : d.certainty ending with
    | ok certainty => simp [hcertainty, Except.map, Except.isOk, Except.toBool] at hfailed
    | error failure => simp [hevents, tools_eq_nil_of_certainty hcertainty]

/-- The arguments of an executable call, from their text. -/
def restored (schemas : List (String × Value)) (name : String) (arguments : Value) : Value :=
  match schemas.lookup name with
  | some schema => restoreOmitted schema arguments
  | none => arguments

/-- An executable call: nothing put it in doubt, and its arguments are those of its text. -/
lemma callEvent_eq_toolCall {b : ToolBuilder} {call : ToolCallBlock}
    (h : d.callEvent env slot b = .toolCall call) :
    b.IsClean ∧ call = ⟨callId env slot b, b.name,
      restored d.strictToolSchemas b.name (parseArguments env b.arguments).1⟩ := by
  rw [callEvent] at h
  dsimp only at h
  split at h
  · next hclean hargument =>
    rw [hargument] at h
    refine ⟨hclean, (ProviderEvent.toolCall.inj h).symm.trans ?_⟩
    rw [restored]
    cases d.strictToolSchemas.lookup b.name <;> rfl
  all_goals contradiction

end Finish

end Decoder

end Rupi
