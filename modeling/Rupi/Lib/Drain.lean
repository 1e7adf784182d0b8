import Mathlib.Tactic

/-!
Draining a list from the front while its elements are due or the rest weighs too much.

- `drain`: the elements taken.
- `Drained`: a prefix was taken that leaves nothing due behind it, and not too much.
- `drained_filter_iff`: draining the elements that pass one test, as if another test had
  been asked.
- `filter_insertionSort`: sorting and filtering.
-/

namespace Drain

variable {α : Type} (due : α → Bool) (tooMuch : Nat → Bool) (weight : α → Nat)

/-- The elements taken, while they are due or the weight that is left is too much. -/
def drain : Nat → List α → List α
  | _, [] => []
  | left, a :: rest => if due a || tooMuch left then a :: drain (left - weight a) rest else []

/-- The weight of elements. -/
def total (items : List α) : Nat := (items.map weight).sum

/-- The elements taken are a prefix, and what they leave is neither too much nor due, or they
are all of it. -/
structure Drained (left : Nat) (taken items : List α) : Prop where
  isPrefix : taken <+: items
  done : (tooMuch (left - total weight taken) = false ∧ ∀ a ∈ items, a ∉ taken → due a = false) ∨
    ∀ a ∈ items, a ∈ taken

variable {due tooMuch weight} {left : Nat} {a : α} {taken rest items : List α}

lemma drain_cons_of_reached (h : (due a || tooMuch left) = true) :
    drain due tooMuch weight left (a :: rest) =
      a :: drain due tooMuch weight (left - weight a) rest := by
  rw [drain, if_pos h]

/-- Elements that are not due do not make the rest be taken. -/
lemma drain_eq_nil (hleft : tooMuch left = false) (h : ∀ a ∈ items, due a = false) :
    drain due tooMuch weight left items = [] := by
  cases items with
  | nil => rfl
  | cons a rest => rw [drain, if_neg (by simp [h a List.mem_cons_self, hleft])]

lemma drain_sublist (left : Nat) (items : List α) :
    (drain due tooMuch weight left items).Sublist items := by
  induction items generalizing left with
  | nil => exact List.Sublist.refl _
  | cons a rest ih =>
    rw [drain]
    split_ifs
    · exact (ih _).cons_cons a
    · exact List.nil_sublist _

lemma total_cons (a : α) (rest : List α) : total weight (a :: rest) = weight a + total weight rest :=
  rfl

lemma drained_nil (hleft : tooMuch left = false) (h : ∀ a ∈ items, due a = false) :
    Drained due tooMuch weight left [] items where
  isPrefix := List.nil_prefix
  done := .inl ⟨hleft, fun a ha _ => h a ha⟩

/-- An element that is in both lists is drained with the rest. -/
lemma drained_cons (hnot : a ∉ rest) :
    Drained due tooMuch weight left (a :: taken) (a :: rest) ↔
      Drained due tooMuch weight (left - weight a) taken rest := by
  have hleft : left - total weight (a :: taken) = left - weight a - total weight taken := by
    rw [total_cons, Nat.sub_sub]
  constructor
  · rintro ⟨hfront, hdone⟩
    refine ⟨(List.cons_prefix_cons.mp hfront).2, ?_⟩
    obtain ⟨hleft', hrest⟩ | hall := hdone
    · refine .inl ⟨hleft ▸ hleft', fun b hb hbtaken => hrest b (List.mem_cons_of_mem _ hb) ?_⟩
      rw [List.mem_cons, not_or]
      exact ⟨fun heq => hnot (heq ▸ hb), hbtaken⟩
    · refine .inr fun b hb => ?_
      obtain heq | hmem := List.mem_cons.mp (hall b (List.mem_cons_of_mem _ hb))
      · exact absurd (heq ▸ hb) hnot
      · exact hmem
  · rintro ⟨hfront, hdone⟩
    refine ⟨List.cons_prefix_cons.mpr ⟨rfl, hfront⟩, ?_⟩
    obtain ⟨hleft', hrest⟩ | hall := hdone
    · refine .inl ⟨hleft.symm ▸ hleft', fun b hb hbtaken => ?_⟩
      rw [List.mem_cons, not_or] at hbtaken
      obtain heq | hb := List.mem_cons.mp hb
      · exact absurd heq hbtaken.1
      · exact hrest b hb hbtaken.2
    · refine .inr fun b hb => ?_
      obtain rfl | hb := List.mem_cons.mp hb
      · exact List.mem_cons_self
      · exact List.mem_cons_of_mem _ (hall b hb)

section Filters

variable {p q : α → Bool}

/-- A statement about every element of a list and those in front of it. -/
lemma forall_split_cons {P : List α → α → Prop} :
    (∀ older b newer, a :: rest = older ++ b :: newer → P older b) ↔
      P [] a ∧ ∀ older b newer, rest = older ++ b :: newer → P (a :: older) b := by
  constructor
  · intro h
    refine ⟨h [] a rest rfl, fun older b newer heq => h (a :: older) b newer ?_⟩
    rw [heq, List.cons_append]
  · rintro ⟨hfirst, hrest⟩ older b newer heq
    cases older with
    | nil =>
      obtain ⟨rfl, -⟩ := List.cons.inj heq
      exact hfirst
    | cons c older =>
      obtain ⟨rfl, hrest'⟩ := List.cons.inj heq
      exact hrest older b newer hrest'

/-- When the first element is not reached, nothing is. -/
lemma drained_filter_of_not_reached (hmono : ∀ m n, m ≤ n → tooMuch m = true → tooMuch n = true)
    (hleft : tooMuch left = false) (hdue : ∀ b ∈ items, due b = false) :
    Drained due tooMuch weight left (drain due tooMuch weight left (items.filter p))
        (items.filter q) ∧
      ∀ older b newer, items = older ++ b :: newer → p b ≠ q b →
        due b = false ∧
          tooMuch (left - total weight (older.filter fun c => p c && q c)) = false := by
  constructor
  · rw [drain_eq_nil hleft fun b hb => hdue b (List.mem_of_mem_filter hb)]
    exact drained_nil hleft fun b hb => hdue b (List.mem_of_mem_filter hb)
  · intro older b newer heq _
    refine ⟨hdue b (by simp [heq]), ?_⟩
    by_contra hmuch
    have htrue := hmono _ _ (Nat.sub_le _ _) (Bool.eq_true_of_not_eq_false hmuch)
    rw [hleft] at htrue
    contradiction

/-- **What passes one test, drained as if another had been asked**: the elements on which the
tests differ are neither due nor reached by the weight of the elements in front of them. -/
theorem drained_filter_iff (hmono : ∀ m n, m ≤ n → tooMuch m = true → tooMuch n = true)
    {items : List α} (hnodup : items.Nodup)
    (hdue : items.Pairwise fun a b => due b = true → due a = true) (left : Nat) :
    Drained due tooMuch weight left (drain due tooMuch weight left (items.filter p))
        (items.filter q) ↔
      ∀ older b newer, items = older ++ b :: newer → p b ≠ q b →
        due b = false ∧
          tooMuch (left - total weight (older.filter fun c => p c && q c)) = false := by
  induction items generalizing left with
  | nil =>
    exact iff_of_true ⟨List.nil_prefix, .inr fun a ha => by simp at ha⟩
      fun older b newer h => by simp at h
  | cons a rest ih =>
    obtain ⟨hnot, hnodup⟩ := List.nodup_cons.mp hnodup
    obtain ⟨hfirst, hdue⟩ := List.pairwise_cons.mp hdue
    have hnotq : a ∉ rest.filter q := fun h => hnot (List.mem_of_mem_filter h)
    have hnotp : a ∉ rest.filter p := fun h => hnot (List.mem_of_mem_filter h)
    by_cases hreached : (due a || tooMuch left) = true
    · rw [forall_split_cons]
      cases hp : p a <;> cases hq : q a
      · -- neither test takes the element
        rw [List.filter_cons_of_neg (by simp [hp]), List.filter_cons_of_neg (by simp [hq]),
          ih hnodup hdue left]
        simp [hp]
      · -- the element is asked for, but was not up for taking
        rw [List.filter_cons_of_neg (by simp [hp]), List.filter_cons_of_pos hq]
        refine iff_of_false (fun h => ?_) fun h => ?_
        · have hnottaken : a ∉ drain due tooMuch weight left (rest.filter p) :=
            fun hmem => hnotp ((drain_sublist left _).subset hmem)
          obtain ⟨htail, hdone⟩ := h
          have hnil : drain due tooMuch weight left (rest.filter p) = [] := by
            cases htaken : drain due tooMuch weight left (rest.filter p) with
            | nil => rfl
            | cons b taken =>
              rw [htaken] at htail hnottaken
              obtain ⟨rfl, -⟩ := List.cons_prefix_cons.mp htail
              exact absurd List.mem_cons_self hnottaken
          obtain ⟨hleft, hrest⟩ | hall := hdone
          · rw [hnil] at hleft
            have hdue := hrest a List.mem_cons_self hnottaken
            simp [hdue, total] at hleft hreached
            rw [hreached] at hleft
            contradiction
          · exact hnottaken (hall a List.mem_cons_self)
        · obtain ⟨hdue, hmuch⟩ := h.1 (by simp)
          simp [hdue, total] at hmuch hreached
          rw [hreached] at hmuch
          contradiction
      · -- the element is taken, but was not asked for
        rw [List.filter_cons_of_pos hp, List.filter_cons_of_neg (by simp [hq]),
          drain_cons_of_reached hreached]
        refine iff_of_false (fun h => ?_) fun h => ?_
        · exact hnotq (h.isPrefix.subset List.mem_cons_self)
        · obtain ⟨hdue, hmuch⟩ := h.1 (by simp)
          simp [hdue, total] at hmuch hreached
          rw [hreached] at hmuch
          contradiction
      · rw [List.filter_cons_of_pos hp, List.filter_cons_of_pos hq,
          drain_cons_of_reached hreached, drained_cons hnotq, ih hnodup hdue (left - weight a)]
        simp [hp, hq, total_cons, Nat.sub_sub]
    · rw [Bool.not_eq_true, Bool.or_eq_false_iff] at hreached
      have hnone : ∀ b ∈ a :: rest, due b = false := by
        intro b hb
        obtain rfl | hb := List.mem_cons.mp hb
        · exact hreached.1
        · by_contra hdueb
          have htrue := hfirst b hb (Bool.eq_true_of_not_eq_false hdueb)
          rw [hreached.1] at htrue
          contradiction
      obtain ⟨hdrained, hall⟩ := drained_filter_of_not_reached hmono hreached.2 hnone
      exact iff_of_true hdrained hall

end Filters

/-! ### Sorting and filtering -/

section Sorting

variable {r : α → α → Prop} [DecidableRel r] {p : α → Bool}

lemma filter_orderedInsert [IsTrans α r] (a : α) {items : List α} (h : items.Pairwise r) :
    (items.orderedInsert r a).filter p =
      if p a then (items.filter p).orderedInsert r a else items.filter p := by
  induction items with
  | nil => by_cases hp : p a = true <;> simp [hp]
  | cons b rest ih =>
    obtain ⟨hb, hrest⟩ := List.pairwise_cons.mp h
    rw [List.orderedInsert_cons]
    by_cases hab : r a b
    · rw [if_pos hab]
      by_cases hp : p a = true
      · rw [List.filter_cons_of_pos hp, if_pos hp]
        -- the new element is in front of whatever passes
        have hfront : ∀ c ∈ (b :: rest).filter p, r a c := by
          intro c hc
          obtain rfl | hc := List.mem_cons.mp (List.mem_of_mem_filter hc)
          · exact hab
          · exact IsTrans.trans _ _ _ hab (hb c hc)
        cases hfiltered : (b :: rest).filter p with
        | nil => rfl
        | cons c passed =>
          rw [hfiltered] at hfront
          rw [List.orderedInsert_cons, if_pos (hfront c List.mem_cons_self)]
      · rw [List.filter_cons_of_neg hp, if_neg hp]
    · rw [if_neg hab]
      by_cases hpb : p b = true
      · rw [List.filter_cons_of_pos hpb, List.filter_cons_of_pos hpb, ih hrest]
        by_cases hp : p a = true
        · rw [if_pos hp, if_pos hp, List.orderedInsert_cons, if_neg hab]
        · rw [if_neg hp, if_neg hp]
      · rw [List.filter_cons_of_neg hpb, List.filter_cons_of_neg hpb, ih hrest]

/-- Sorting what passes a test is asking the sorted list. -/
lemma filter_insertionSort [IsTrans α r] [Std.Total r] (items : List α) :
    (items.insertionSort r).filter p = (items.filter p).insertionSort r := by
  induction items with
  | nil => rfl
  | cons a rest ih =>
    rw [List.insertionSort_cons, filter_orderedInsert a (List.pairwise_insertionSort r rest), ih]
    by_cases hp : p a = true
    · rw [if_pos hp, List.filter_cons_of_pos hp, List.insertionSort_cons]
    · rw [if_neg hp, List.filter_cons_of_neg hp]

end Sorting

end Drain
