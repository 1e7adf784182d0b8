import Rupi.Lib.Cut
import Rupi.Store.Externalize
import Rupi.Store.Spills
import Rupi.Tools.Registry

/-!
Output reduction at the tool boundary.

- `reduce`: the source function, with subtractions and slices that can fail.
- `Honest`: what is promised of it.
- `reduce_honest_iff`: exactly when the promise is kept.
- `reduction_honest_iff`: and when a dispatch also shows no more than the tool produced.
-/

namespace Rupi

open Cut Payload

/-! ### The reduction -/

/-- `Reduction`. -/
structure Reduction where
  text : String
  full : String
  fullBytes : Nat
  elidedBytes : Nat
  budget : Nat
  deriving DecidableEq, Repr

/-- A subtraction that does not go below zero. -/
def checkedSub (a b : Nat) : Option Nat := if b ≤ a then some (a - b) else none

/-- The budget that a reduction is built for. -/
def usefulBudget (maxBytes : Nat) : Nat := max minUseful (min maxBytes maxUseful)

def headLength (maxBytes : Nat) : Nat := usefulBudget maxBytes * 3 / 5

def tailLength (maxBytes : Nat) : Nat := usefulBudget maxBytes - headLength maxBytes

/-- `floor_char_boundary`. -/
def floorCharBoundary (text : String) (index : Nat) : Nat :=
  cutFloor Char.utf8Size text.toList index

/-- `ceil_char_boundary`. -/
def ceilCharBoundary (text : String) (index : Nat) : Nat :=
  cutCeil Char.utf8Size text.toList index

/-- `reduce`. There is no result where a subtraction underflows or a slice is cut inside a
character. -/
def reduce (text : String) (maxBytes : Nat) : Option (Option Reduction) :=
  let fullBytes := text.utf8ByteSize
  if fullBytes < maxBytes then some none
  else do
    let head := floorCharBoundary text (headLength maxBytes)
    let tailFrom ← checkedSub fullBytes (tailLength maxBytes)
    let tailStart := ceilCharBoundary text tailFrom
    let elided ← checkedSub tailStart head
    let front ← cut Char.utf8Size head text.toList
    let back ← cut Char.utf8Size tailStart text.toList
    some (some ⟨String.ofList front.1 ++ elisionNotice elided fullBytes ++ String.ofList back.2, text,
      fullBytes, elided, maxBytes⟩)

/-- **Total and honest**: the reduction has a result; a reduced text is the text with its middle
replaced by the notice, and shorter; a text that is left alone is below the bound. -/
def Honest (text : String) (maxBytes : Nat) : Prop :=
  ∃ outcome, reduce text maxBytes = some outcome ∧
    match outcome with
    | none => text.utf8ByteSize < maxBytes
    | some r => ∃ front middle back, text = front ++ middle ++ back ∧
        r.text = front ++ elisionNotice r.elidedBytes text.utf8ByteSize ++ back ∧
        front.utf8ByteSize + back.utf8ByteSize + r.elidedBytes = text.utf8ByteSize ∧
        0 < r.elidedBytes ∧ r.text.utf8ByteSize < text.utf8ByteSize

/-- The bytes between the cut of the head and the cut of the tail; none where they cross. -/
def gap (text : String) (maxBytes : Nat) : Nat :=
  ceilCharBoundary text (text.utf8ByteSize - tailLength maxBytes) -
    floorCharBoundary text (headLength maxBytes)

/-- The size of the notice about these bytes. -/
def noticeSize (text : String) (maxBytes : Nat) : Nat :=
  (elisionNotice (gap text maxBytes) text.utf8ByteSize).utf8ByteSize

/-! ### Sizes -/

lemma total_utf8Size (text : String) : total Char.utf8Size text.toList = text.utf8ByteSize := by
  have hlist : ∀ cs : List Char, total Char.utf8Size cs = (String.ofList cs).utf8ByteSize := by
    intro cs
    induction cs with
    | nil => rfl
    | cons c cs ih =>
      rw [total_cons, ih, String.ofList_cons, String.utf8ByteSize_append,
        String.utf8ByteSize_singleton]
  rw [hlist, String.ofList_toList]

lemma utf8ByteSize_ofList (cs : List Char) :
    (String.ofList cs).utf8ByteSize = total Char.utf8Size cs := by
  rw [← total_utf8Size, String.toList_ofList]

lemma checkedSub_eq_some {a b c : Nat} : checkedSub a b = some c ↔ b ≤ a ∧ c = a - b := by
  rw [checkedSub]
  split_ifs with h <;> simp [h, eq_comm]

/-- The parts of a text that a reduction is made of. -/
structure Parts (text : String) (maxBytes : Nat) (front middle back : List Char) : Prop where
  whole : text.toList = front ++ (middle ++ back)
  head : total Char.utf8Size front = floorCharBoundary text (headLength maxBytes)
  tail : total Char.utf8Size (front ++ middle) =
    ceilCharBoundary text (text.utf8ByteSize - tailLength maxBytes)
  fits : tailLength maxBytes ≤ text.utf8ByteSize

variable {text : String} {maxBytes : Nat}

/-- A result that is no `None` has the three parts. -/
lemma reduce_eq_some {outcome : Option Reduction} (h : reduce text maxBytes = some outcome)
    (hlong : maxBytes ≤ text.utf8ByteSize) :
    ∃ front middle back, Parts text maxBytes front middle back ∧
      outcome = some ⟨String.ofList front ++ elisionNotice (total Char.utf8Size middle)
        text.utf8ByteSize ++ String.ofList back, text, text.utf8ByteSize,
        total Char.utf8Size middle, maxBytes⟩ := by
  rw [reduce, if_neg (not_lt.2 hlong)] at h
  obtain ⟨tailFrom, hfrom, h⟩ := Option.bind_eq_some_iff.1 h
  obtain ⟨elided, helided, h⟩ := Option.bind_eq_some_iff.1 h
  obtain ⟨⟨front, rest⟩, hfront, h⟩ := Option.bind_eq_some_iff.1 h
  obtain ⟨⟨before, back⟩, hback, h⟩ := Option.bind_eq_some_iff.1 h
  obtain ⟨hfits, rfl⟩ := checkedSub_eq_some.1 hfrom
  obtain ⟨hle, rfl⟩ := checkedSub_eq_some.1 helided
  obtain ⟨middle, rfl, hmiddle⟩ := cut_between hfront hback Char.utf8Size_pos hle
  obtain ⟨hwhole, htail⟩ := cut_eq_some hback
  refine ⟨front, middle, back, ⟨by rw [hwhole, List.append_assoc], (cut_eq_some hfront).2, htail,
    hfits⟩, ?_⟩
  rw [hmiddle]
  exact (Option.some.inj h).symm

/-- Where the cuts do not cross there is a result. -/
lemma exists_reduce (h : 0 < gap text maxBytes) : ∃ outcome, reduce text maxBytes = some outcome := by
  have hfits : tailLength maxBytes ≤ text.utf8ByteSize := by
    by_contra hshort
    have hzero : text.utf8ByteSize - tailLength maxBytes = 0 := by omega
    have hceil : ceilCharBoundary text 0 = 0 := by
      rw [ceilCharBoundary, cutCeil]
      split_ifs with hempty
      · exact Nat.le_zero.1 hempty
      · exact walkUp_eq (isBoundary_zero _) le_rfl (Nat.zero_le _) fun k _ hk => absurd hk (Nat.not_lt_zero k)
    rw [gap, hzero, hceil] at h
    omega
  rw [gap] at h
  obtain ⟨hfront, -⟩ :=
    isBoundary_cutFloor Char.utf8Size_pos text.toList (headLength maxBytes)
  obtain ⟨hback, -⟩ := isBoundary_cutCeil Char.utf8Size_pos text.toList
    (text.utf8ByteSize - tailLength maxBytes)
  obtain ⟨front, hfront⟩ := Option.isSome_iff_exists.1 hfront
  obtain ⟨back, hback⟩ := Option.isSome_iff_exists.1 hback
  rw [reduce]
  split_ifs with hlong
  · exact ⟨none, rfl⟩
  · refine ⟨_, Option.bind_eq_some_iff.2 ⟨_, checkedSub_eq_some.2 ⟨hfits, rfl⟩,
      Option.bind_eq_some_iff.2 ⟨_, checkedSub_eq_some.2 ⟨by omega, rfl⟩,
        Option.bind_eq_some_iff.2 ⟨_, hfront, Option.bind_eq_some_iff.2 ⟨_, hback, rfl⟩⟩⟩⟩⟩

section Parts

variable {front middle back : List Char} (h : Parts text maxBytes front middle back)
include h

lemma Parts.total_middle : total Char.utf8Size middle = gap text maxBytes := by
  rw [gap, ← h.head, ← h.tail, total_append, Nat.add_sub_cancel_left]

lemma Parts.size : total Char.utf8Size front + total Char.utf8Size back + gap text maxBytes =
    text.utf8ByteSize := by
  rw [← total_utf8Size, h.whole, ← h.total_middle]
  simp only [total_append]
  omega

end Parts

/-- **Exactly when the reduction is honest**: the text is below the bound, or the bytes between the
two cuts are more than the notice about them. -/
theorem reduce_honest_iff (text : String) (maxBytes : Nat) :
    Honest text maxBytes ↔
      text.utf8ByteSize < maxBytes ∨ noticeSize text maxBytes < gap text maxBytes := by
  by_cases hshort : text.utf8ByteSize < maxBytes
  · refine ⟨fun _ => .inl hshort, fun _ => ⟨none, ?_, hshort⟩⟩
    rw [reduce, if_pos hshort]
  · constructor
    · rintro ⟨outcome, hreduce, hhonest⟩
      obtain ⟨front, middle, back, hparts, rfl⟩ := reduce_eq_some hreduce (not_lt.1 hshort)
      obtain ⟨_, _, _, -, -, -, -, hlt⟩ := hhonest
      have hsize := hparts.size
      simp only [String.utf8ByteSize_append, utf8ByteSize_ofList, hparts.total_middle] at hlt
      right
      rw [noticeSize]
      omega
    · rintro (hlt | hlt)
      · exact absurd hlt hshort
      · obtain ⟨outcome, hreduce⟩ := exists_reduce (Nat.zero_lt_of_lt hlt)
        obtain ⟨front, middle, back, hparts, rfl⟩ := reduce_eq_some hreduce (not_lt.1 hshort)
        have hsize := hparts.size
        refine ⟨_, hreduce, String.ofList front, String.ofList middle, String.ofList back, ?_, rfl,
          ?_, ?_, ?_⟩
        · rw [← String.ofList_append, ← String.ofList_append, List.append_assoc, ← hparts.whole,
            String.ofList_toList]
        · rw [utf8ByteSize_ofList, utf8ByteSize_ofList, hparts.total_middle, hsize]
        · rw [hparts.total_middle]
          exact Nat.zero_lt_of_lt hlt
        · simp only [String.utf8ByteSize_append, utf8ByteSize_ofList, hparts.total_middle]
          rw [noticeSize] at hlt
          omega

/-! ### Dispatch -/

/-- The symbols of the first bytes end at the last boundary among them. -/
lemma cut_takeBytes (text : List Char) (n : Nat) :
    ∃ back, cut Char.utf8Size (cutFloor Char.utf8Size text n) text = some (takeBytes n text, back) := by
  by_cases hend : total Char.utf8Size text ≤ n
  · refine ⟨[], ?_⟩
    rw [cutFloor, if_pos hend, takeBytes_eq_self (by rwa [utf8ByteSize_ofList])]
    simpa using cut_append Char.utf8Size_pos text []
  · obtain ⟨front, c, back, rfl, hlo, hhi⟩ := exists_symbol _ _ (not_le.1 hend)
    have htake : ∀ n, total Char.utf8Size front ≤ n → n < total Char.utf8Size front + c.utf8Size →
        takeBytes n (front ++ c :: back) = front := by
      clear hlo hhi hend
      induction front with
      | nil =>
        intro n _ hhi
        rw [total_nil, Nat.zero_add] at hhi
        rw [List.nil_append, takeBytes, if_neg (not_le.2 hhi)]
      | cons d front ih =>
        intro n hlo hhi
        rw [total_cons] at hlo hhi
        rw [List.cons_append, takeBytes, if_pos (by omega), ih _ (by omega) (by omega)]
    rw [cutFloor_eq Char.utf8Size_pos hlo hhi, htake n hlo hhi]
    exact ⟨_, cut_append Char.utf8Size_pos _ _⟩

@[simp] lemma dropBytes_zero (text : List Char) : dropBytes 0 text = text := by
  cases text <;> rfl

lemma dropBytes_append (front back : List Char) {n : Nat} (h : total Char.utf8Size front ≤ n) :
    dropBytes n (front ++ back) = dropBytes (n - total Char.utf8Size front) back := by
  induction front generalizing n with
  | nil => rfl
  | cons c front ih =>
    have hc := c.utf8Size_pos
    rw [total_cons] at h ⊢
    obtain ⟨k, rfl⟩ : ∃ k, n = k + 1 := ⟨n - 1, by omega⟩
    rw [List.cons_append, dropBytes, ih (by omega), Nat.sub_sub]

/-- The symbols behind the first bytes begin at the next boundary. -/
lemma cut_dropBytes (text : List Char) {n : Nat} (hle : n ≤ total Char.utf8Size text) :
    ∃ front, cut Char.utf8Size (cutCeil Char.utf8Size text n) text =
      some (front, dropBytes n text) := by
  rcases Nat.lt_or_eq_of_le hle with hlt | rfl
  · obtain ⟨front, c, back, rfl, hlo, hhi⟩ := exists_symbol _ _ hlt
    rcases Nat.lt_or_eq_of_le hlo with hinside | rfl
    · obtain ⟨k, hk⟩ : ∃ k, n - total Char.utf8Size front = k + 1 :=
        ⟨n - total Char.utf8Size front - 1, by omega⟩
      have hover : k + 1 - c.utf8Size = 0 := by omega
      have hcut := cut_append Char.utf8Size_pos (front ++ [c]) back
      rw [total_append, total_cons, total_nil, Nat.add_zero, List.append_assoc] at hcut
      rw [cutCeil_eq Char.utf8Size_pos hinside hhi.le, dropBytes_append _ _ hlo, hk, dropBytes,
        hover, dropBytes_zero]
      exact ⟨_, hcut⟩
    · rw [cutCeil_self Char.utf8Size_pos, dropBytes_append _ _ le_rfl, Nat.sub_self,
        dropBytes_zero]
      exact ⟨_, cut_append Char.utf8Size_pos _ _⟩
  · refine ⟨text, ?_⟩
    have hdrop := dropBytes_append text [] (le_refl (total Char.utf8Size text))
    rw [List.append_nil, Nat.sub_self, dropBytes_zero] at hdrop
    rw [cutCeil, if_pos le_rfl, hdrop]
    simpa using cut_append Char.utf8Size_pos text []

lemma wrappingSub_of_le {a b : Nat} (hle : b ≤ a) (ha : a < 2 ^ 64) : wrappingSub a b = a - b := by
  rw [wrappingSub]
  omega

/-- **The registry shows what `reduce` returns**, for the text of a machine. -/
lemma reduceOutput_eq (hlong : maxBytes ≤ text.utf8ByteSize) (hsize : text.utf8ByteSize < 2 ^ 64)
    {r : Reduction} (h : reduce text maxBytes = some (some r)) :
    reduceOutput text maxBytes = some r.text := by
  obtain ⟨front, middle, back, hparts, heq⟩ := reduce_eq_some h hlong
  obtain ⟨rest, htake⟩ := cut_takeBytes text.toList (headLength maxBytes)
  obtain ⟨before, hdrop⟩ := cut_dropBytes text.toList (n := text.utf8ByteSize - tailLength maxBytes)
    (by rw [total_utf8Size]; exact Nat.sub_le _ _)
  have hhead : takeBytes (headLength maxBytes) text.toList = front := by
    have hcut := cut_append Char.utf8Size_pos front (middle ++ back)
    rw [← hparts.whole, hparts.head, floorCharBoundary, htake] at hcut
    cases hcut
    rfl
  have htail : dropBytes (text.utf8ByteSize - tailLength maxBytes) text.toList = back := by
    have hcut := cut_append Char.utf8Size_pos (front ++ middle) back
    rw [List.append_assoc, ← hparts.whole, hparts.tail, ceilCharBoundary, hdrop] at hcut
    cases hcut
    rfl
  have hwhole := total_utf8Size text
  rw [hparts.whole] at hwhole
  simp only [total_append] at hwhole
  have helided : wrappingSub (text.utf8ByteSize - total Char.utf8Size back)
      (total Char.utf8Size front) = total Char.utf8Size middle := by
    rw [wrappingSub_of_le (by omega) (by omega)]
    omega
  cases heq
  rw [reduceOutput, if_neg (not_lt.2 hlong)]
  change some (String.ofList (takeBytes (headLength maxBytes) text.toList) ++
    elisionNotice (wrappingSub (text.utf8ByteSize - (String.ofList (dropBytes
      (wrappingSub text.utf8ByteSize (tailLength maxBytes)) text.toList)).utf8ByteSize)
      (String.ofList (takeBytes (headLength maxBytes) text.toList)).utf8ByteSize) text.utf8ByteSize ++
    String.ofList (dropBytes (wrappingSub text.utf8ByteSize (tailLength maxBytes)) text.toList)) = _
  rw [wrappingSub_of_le hparts.fits hsize, hhead, htail, utf8ByteSize_ofList, utf8ByteSize_ofList,
    helided]

/-- What the registry writes behind the text of a call whose end was not observed. -/
def unobservedNote : String := " [completion was not observed before cancellation or deadline]"

section Dispatch

variable {registry : ToolRegistry} {run : DispatchRun} {request : ToolRequest}
  {tool : RegisteredTool} {outcome : ToolOutcome}

/-- The text that the model gets to see is no longer than what the tool produced. -/
def ShowsNoMore (registry : ToolRegistry) (run : DispatchRun) (request : ToolRequest)
    (produced : String) : Prop :=
  ∃ executed steps, registry.dispatch run request = (.ok executed, steps) ∧
    executed.outcome.text.utf8ByteSize ≤ produced.utf8ByteSize

/-- The registry does not believe the state that the tool claims. -/
def Coerced (run : DispatchRun) (tool : RegisteredTool) (outcome : ToolOutcome) : Prop :=
  ToolRegistry.coerceState outcome.state tool.metadata run.interrupted ≠ outcome.state

/-- A cleared call is reported with the text of the tool or its reduction. -/
lemma dispatch_of_cleared (hcleared : registry.Cleared run request tool)
    (hanswer : tool.executeWithContext request = .ok outcome) :
    ∃ executed steps, registry.dispatch run request = (.ok executed, steps) ∧
      executed.outcome.text =
        (reduceOutput outcome.text registry.maxOutputBytes).getD outcome.text ++
          (if ToolRegistry.coerceState outcome.state tool.metadata run.interrupted = outcome.state
          then "" else unobservedNote) := by
  rcases dispatch_cases registry run request with ⟨_, -, hnone⟩ | ⟨hcancelled, -⟩ |
    ⟨_, hstart, -⟩ | ⟨other, hother, hdispatch⟩
  · exact absurd hcleared (hnone tool)
  · rw [hcleared.current] at hcancelled
    cases hcancelled
  · rw [hcleared.reported] at hstart
    cases hstart
  · obtain rfl : other = tool :=
      Option.some.inj (hother.registered.symm.trans hcleared.registered)
    refine ⟨_, _, hdispatch, ?_⟩
    rw [hanswer, ToolRegistry.conclude]
    dsimp only
    split_ifs
    · rw [String.append_empty]
    · rfl

/-- What is shown is as long as the text or its reduction, and the note. -/
lemma showsNoMore_iff (hcleared : registry.Cleared run request tool)
    (hanswer : tool.executeWithContext request = .ok outcome) :
    ShowsNoMore registry run request outcome.text ↔
      ((reduceOutput outcome.text registry.maxOutputBytes).getD outcome.text).utf8ByteSize +
        (if ToolRegistry.coerceState outcome.state tool.metadata run.interrupted = outcome.state
        then 0 else unobservedNote.utf8ByteSize) ≤ outcome.text.utf8ByteSize := by
  obtain ⟨executed, steps, hdispatch, htext⟩ := dispatch_of_cleared hcleared hanswer
  have hsize : executed.outcome.text.utf8ByteSize =
      ((reduceOutput outcome.text registry.maxOutputBytes).getD outcome.text).utf8ByteSize +
        (if ToolRegistry.coerceState outcome.state tool.metadata run.interrupted = outcome.state
        then 0 else unobservedNote.utf8ByteSize) := by
    rw [htext, String.utf8ByteSize_append]
    split_ifs <;> rfl
  rw [← hsize]
  constructor
  · rintro ⟨other, steps', hother, hle⟩
    rw [hdispatch] at hother
    cases hother
    exact hle
  · exact fun hle => ⟨executed, steps, hdispatch, hle⟩

/-- The text below the bound is shown as it is, and a longer one without the middle. -/
lemma size_shown (hsize : text.utf8ByteSize < 2 ^ 64) (hhonest : Honest text maxBytes) :
    ((reduceOutput text maxBytes).getD text).utf8ByteSize =
      if text.utf8ByteSize < maxBytes then text.utf8ByteSize
      else text.utf8ByteSize - gap text maxBytes + noticeSize text maxBytes := by
  split_ifs with hshort
  · rw [reduceOutput, if_pos hshort]
    rfl
  · obtain ⟨outcome, hreduce, -⟩ := hhonest
    obtain ⟨front, middle, back, hparts, rfl⟩ := reduce_eq_some hreduce (not_lt.1 hshort)
    have hparts_size := hparts.size
    rw [reduceOutput_eq (not_lt.1 hshort) hsize hreduce, Option.getD_some]
    simp only [String.utf8ByteSize_append, utf8ByteSize_ofList, hparts.total_middle]
    rw [noticeSize]
    omega

lemma size_unobservedNote : 0 < unobservedNote.utf8ByteSize := by decide

/-- **Exactly when the reduction is honest and a dispatch shows no more than the tool produced.** -/
theorem reduction_honest_iff (text : String) (maxBytes : Nat) :
    (Honest text maxBytes ↔
      text.utf8ByteSize < maxBytes ∨ noticeSize text maxBytes < gap text maxBytes) ∧
    ∀ (registry : ToolRegistry) (run : DispatchRun) (request : ToolRequest)
      (tool : RegisteredTool) (outcome : ToolOutcome), registry.Cleared run request tool →
      tool.executeWithContext request = .ok outcome → outcome.text.utf8ByteSize < 2 ^ 64 →
      (Honest outcome.text registry.maxOutputBytes ∧
          ShowsNoMore registry run request outcome.text ↔
        (outcome.text.utf8ByteSize < registry.maxOutputBytes ∧ ¬ Coerced run tool outcome) ∨
          (registry.maxOutputBytes ≤ outcome.text.utf8ByteSize ∧
            noticeSize outcome.text registry.maxOutputBytes <
              gap outcome.text registry.maxOutputBytes ∧
            (Coerced run tool outcome →
              noticeSize outcome.text registry.maxOutputBytes + unobservedNote.utf8ByteSize ≤
                gap outcome.text registry.maxOutputBytes))) := by
  refine ⟨reduce_honest_iff text maxBytes, fun registry run request tool outcome hcleared hanswer hsize => ?_⟩
  have hnote := size_unobservedNote
  have hgap : gap outcome.text registry.maxOutputBytes ≤ outcome.text.utf8ByteSize := by
    have hceil := (isBoundary_cutCeil Char.utf8Size_pos outcome.text.toList
      (outcome.text.utf8ByteSize - tailLength registry.maxOutputBytes)).2
    rw [total_utf8Size] at hceil
    exact (Nat.sub_le _ _).trans hceil
  have hshown : Honest outcome.text registry.maxOutputBytes → (ShowsNoMore registry run request
      outcome.text ↔ (if outcome.text.utf8ByteSize < registry.maxOutputBytes then
        outcome.text.utf8ByteSize
        else outcome.text.utf8ByteSize - gap outcome.text registry.maxOutputBytes +
          noticeSize outcome.text registry.maxOutputBytes) +
      (if ToolRegistry.coerceState outcome.state tool.metadata run.interrupted = outcome.state
        then 0 else unobservedNote.utf8ByteSize) ≤ outcome.text.utf8ByteSize) := fun hhonest => by
    rw [showsNoMore_iff hcleared hanswer, size_shown hsize hhonest]
  rw [Coerced]
  by_cases hshort : outcome.text.utf8ByteSize < registry.maxOutputBytes
  · have hhonest := (reduce_honest_iff outcome.text registry.maxOutputBytes).2 (.inl hshort)
    have hnot : ¬ registry.maxOutputBytes ≤ outcome.text.utf8ByteSize := not_le.2 hshort
    rw [and_congr_right hshown, if_pos hshort]
    split_ifs with hstate
    · simp [hhonest, hshort, hnot, hstate]
    · simp only [hhonest, hshort, hnot, true_and, false_and, or_false, Ne, hstate,
        not_false_eq_true, not_true_eq_false, iff_false]
      omega
  · have hlong : registry.maxOutputBytes ≤ outcome.text.utf8ByteSize := not_lt.1 hshort
    rw [and_congr_right hshown, if_neg hshort, reduce_honest_iff]
    split_ifs with hstate
    · simp only [hshort, hlong, false_and, false_or, true_and, Ne, hstate, not_true_eq_false,
        false_implies, and_true]
      omega
    · simp only [hshort, hlong, false_and, false_or, true_and, Ne, hstate, not_false_eq_true,
        true_implies]
      omega

end Dispatch

/-- **A short output with a small bound**: the tail is longer than the text. -/
theorem not_honest_of_small_bound : ¬ Honest "aaaaaaaaaaaaaaaaaaaa" 10 := by
  have hbound : ¬ "aaaaaaaaaaaaaaaaaaaa".utf8ByteSize < 10 := by decide
  have hgap : gap "aaaaaaaaaaaaaaaaaaaa" 10 = 0 := by decide
  rw [reduce_honest_iff, hgap]
  omega

end Rupi
