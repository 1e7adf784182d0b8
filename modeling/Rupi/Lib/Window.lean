import Mathlib.Tactic

/-!
A window over a history: the newest part of it, behind what stands for the rest.

A window has a capsule, once the history was summarized up to some point, and a tail.
Elements join at the end of the tail and leave at its front; a summary takes the place
of the elements it summarizes, a reset takes them into a new capsule.

- `push`, `evict`, `summarize`, `reset`: the four ways a window changes.
- `map`: the same window over other elements; it commutes with all four.
- `Numbers`: the elements carry numbers that ascend behind the first.
-/

/-- What of a history is in view. -/
structure Window (κ α : Type*) where
  capsule : Option κ
  tail : List α

namespace Window

variable {κ α κ' β : Type*}

def empty : Window κ α := ⟨none, []⟩

/-- An element joins. -/
def push (w : Window κ α) (a : α) : Window κ α := { w with tail := w.tail ++ [a] }

/-- The oldest elements leave. -/
def evict (w : Window κ α) (n : Nat) : Window κ α := { w with tail := w.tail.drop n }

/-- A summary takes the place of the oldest elements. -/
def summarize (w : Window κ α) (n : Nat) (a : α) : Window κ α :=
  { w with tail := a :: w.tail.drop n }

/-- The oldest elements, and the capsule before them, go into a new capsule. -/
def reset (w : Window κ α) (n : Nat) (c : κ) : Window κ α := ⟨some c, w.tail.drop n⟩

def map (f : κ → κ') (g : α → β) (w : Window κ α) : Window κ' β :=
  ⟨w.capsule.map f, w.tail.map g⟩

variable {f : κ → κ'} {g : α → β} {w : Window κ α}

@[simp] lemma map_push (a : α) : (w.push a).map f g = (w.map f g).push (g a) := by
  simp [push, map]

@[simp] lemma map_evict (n : Nat) : (w.evict n).map f g = (w.map f g).evict n := by
  simp [evict, map]

@[simp] lemma map_summarize (n : Nat) (a : α) :
    (w.summarize n a).map f g = (w.map f g).summarize n (g a) := by
  simp [summarize, map]

@[simp] lemma map_reset (n : Nat) (c : κ) : (w.reset n c).map f g = (w.map f g).reset n (f c) := by
  simp [reset, map]

/-! ### Numbered elements -/

/-- The elements carry the numbers `ns`, which are below `next`, positive, and ascend
behind the first: only a summary is younger than what comes after it. -/
structure Numbers (number : α → Option Nat) (next : Nat) (w : Window κ α) (ns : List Nat) :
    Prop where
  tail_eq : w.tail.map number = ns.map some
  bounded : ∀ n ∈ ns, 0 < n ∧ n < next
  ascending : ns.tail.Pairwise (· < ·)

namespace Numbers

variable {number : α → Option Nat} {next next' : Nat} {ns : List Nat}

lemma start : Numbers number next (empty : Window κ α) [] :=
  ⟨rfl, by simp, by simp⟩

lemma length_eq (h : Numbers number next w ns) : w.tail.length = ns.length := by
  simpa using congrArg List.length h.tail_eq

/-- The numbers a window carries are its own. -/
lemma unique (h : Numbers number next w ns) {ms : List Nat} (h' : Numbers number next' w ms) :
    ns = ms := by
  have heq := h.tail_eq.symm.trans h'.tail_eq
  exact List.map_injective_iff.mpr (Option.some_injective _) heq

lemma mono (h : Numbers number next w ns) (hle : next ≤ next') : Numbers number next' w ns :=
  ⟨h.tail_eq, fun n hn => ⟨(h.bounded n hn).1, lt_of_lt_of_le (h.bounded n hn).2 hle⟩,
    h.ascending⟩

/-- A new element is younger than all. -/
lemma push (h : Numbers number next w ns) (hpos : 0 < next) {a : α}
    (ha : number a = some next) : Numbers number (next + 1) (w.push a) (ns ++ [next]) where
  tail_eq := by simp [Window.push, h.tail_eq, ha]
  bounded := by
    intro n hn
    rcases List.mem_append.mp hn with hn | hn
    · obtain ⟨hlow, hhigh⟩ := h.bounded n hn
      exact ⟨hlow, by omega⟩
    · rw [List.mem_singleton] at hn
      omega
  ascending := by
    cases ns with
    | nil => simp
    | cons n ns =>
      have hasc : ns.Pairwise (· < ·) := h.ascending
      rw [List.cons_append, List.tail_cons, List.pairwise_append]
      refine ⟨hasc, by simp, fun m hm k hk => ?_⟩
      rw [List.mem_singleton] at hk
      rw [hk]
      exact (h.bounded m (List.mem_cons_of_mem _ hm)).2

lemma pairwise_drop {n : Nat} (h : Numbers number next w ns) (hn : 0 < n) :
    (ns.drop n).Pairwise (· < ·) := by
  obtain ⟨m, rfl⟩ : ∃ m, n = m + 1 := ⟨n - 1, by omega⟩
  have hdrop : ns.drop (m + 1) = ns.tail.drop m := by rw [List.drop_tail]
  rw [hdrop]
  exact h.ascending.sublist (List.drop_sublist m _)

lemma evict (h : Numbers number next w ns) (n : Nat) :
    Numbers number next (w.evict n) (ns.drop n) where
  tail_eq := by rw [Window.evict, List.map_drop, h.tail_eq, List.map_drop]
  bounded := fun m hm => h.bounded m (List.mem_of_mem_drop hm)
  ascending := by
    rw [List.tail_drop]
    exact h.pairwise_drop (Nat.succ_pos n)

lemma reset (h : Numbers number next w ns) (n : Nat) (c : κ) :
    Numbers number next (w.reset n c) (ns.drop n) :=
  ⟨(h.evict n).tail_eq, (h.evict n).bounded, (h.evict n).ascending⟩

/-- A summary stands in front of what it left, and is younger than all of it. -/
lemma summarize (h : Numbers number next w ns) (hpos : 0 < next) {n : Nat} (hn : 0 < n) {a : α}
    (ha : number a = some next) :
    Numbers number (next + 1) (w.summarize n a) (next :: ns.drop n) where
  tail_eq := by simp [Window.summarize, List.map_drop, h.tail_eq, ha]
  bounded := by
    intro m hm
    rcases List.mem_cons.mp hm with rfl | hm
    · omega
    · obtain ⟨hlow, hhigh⟩ := h.bounded m (List.mem_of_mem_drop hm)
      exact ⟨hlow, by omega⟩
  ascending := h.pairwise_drop hn

end Numbers

/-- In a list that ascends behind its first element, the first element is the least and
the last the greatest of a prefix exactly when the prefix is that element alone or the
second element is above the first. -/
lemma extremes_iff {a : Nat} {ns : List Nat} (hasc : ns.Pairwise (· < ·)) :
    (∀ n ∈ a :: ns, a ≤ n ∧ n ≤ (a :: ns).getLast (List.cons_ne_nil a ns)) ↔
      ∀ b ∈ ns.head?, a ≤ b := by
  cases ns with
  | nil => simp
  | cons b ns =>
    obtain ⟨hb, hns⟩ := List.pairwise_cons.mp hasc
    have hlast : (a :: b :: ns).getLast (List.cons_ne_nil a _) =
        (b :: ns).getLast (List.cons_ne_nil b ns) := List.getLast_cons _
    have hble : ∀ n ∈ b :: ns, b ≤ n := by
      intro n hn
      rcases List.mem_cons.mp hn with rfl | hn
      · exact le_refl _
      · exact le_of_lt (hb n hn)
    constructor
    · intro h c hc
      obtain rfl := Option.some.inj hc
      exact (h b (by simp)).1
    · intro h n hn
      have hab : a ≤ b := h b rfl
      rw [hlast]
      have hmax : ∀ m ∈ b :: ns, m ≤ (b :: ns).getLast (List.cons_ne_nil b ns) := by
        intro m hm
        exact (hasc.imp le_of_lt).rel_getLast hm
      rcases List.mem_cons.mp hn with rfl | hn
      · exact ⟨le_refl _, le_trans hab (hmax b List.mem_cons_self)⟩
      · exact ⟨le_trans hab (hble n hn), hmax n hn⟩

end Window
