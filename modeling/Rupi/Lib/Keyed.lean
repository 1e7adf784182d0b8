import Mathlib.Tactic

/-!
Lists of entries under keys, one entry a key.

- `put`: replace the entry of a key where it stands, or append it.
- `drop`: remove the entries of a key.
- `lookup`: the entry of a key; `lookup_put` and `lookup_drop` say what an
  operation leaves under every key.
- `Distinct`: no key twice; both operations keep it.
- `firsts`: the first entry of each key, in order.
-/

namespace Keyed

variable {α κ : Type*} {key : α → κ} {k : κ} {a : α} {entries : List α}

/-! ### Distinct keys -/

/-- No key occurs twice. -/
def Distinct (key : α → κ) (entries : List α) : Prop := (entries.map key).Nodup

/-- Keys that stay apart under a function were apart. -/
lemma Distinct.of_comp {κ' : Type*} {f : κ → κ'} (h : Distinct (f ∘ key) entries) :
    Distinct key entries := by
  rw [Distinct, List.comp_map] at h
  exact h.of_map f

/-- Distinct keys stay apart under a function that tells them apart. -/
lemma Distinct.comp {κ' : Type*} {f : κ → κ'} (hdistinct : Distinct key entries)
    (h : ∀ a ∈ entries, ∀ b ∈ entries, f (key a) = f (key b) → key a = key b) :
    Distinct (f ∘ key) entries := by
  rw [Distinct, List.comp_map]
  refine hdistinct.map_on ?_
  intro x hx y hy hxy
  obtain ⟨a, ha, rfl⟩ := List.mem_map.mp hx
  obtain ⟨b, hb, rfl⟩ := List.mem_map.mp hy
  exact h a ha b hb hxy

/-- Keys told apart by a function are equal when their images are. -/
lemma Distinct.key_eq {κ' : Type*} {f : κ → κ'} (h : Distinct (f ∘ key) entries) {a b : α}
    (ha : a ∈ entries) (hb : b ∈ entries) (hab : f (key a) = f (key b)) : key a = key b :=
  congrArg key (List.inj_on_of_nodup_map h ha hb hab)

/-! ### Operations -/

variable [DecidableEq κ]

instance (key : α → κ) (entries : List α) : Decidable (Distinct key entries) :=
  inferInstanceAs (Decidable (List.Nodup _))

/-- The entry under a key. -/
def lookup (key : α → κ) (k : κ) (entries : List α) : Option α :=
  entries.find? fun entry => key entry = k

/-- Replace the first entry of the same key, or append. -/
def put (key : α → κ) (a : α) : List α → List α
  | [] => [a]
  | entry :: entries => if key entry = key a then a :: entries else entry :: put key a entries

/-- Remove the entries of a key. -/
def drop (key : α → κ) (k : κ) (entries : List α) : List α :=
  entries.filter fun entry => key entry ≠ k

/-! ### Looking up -/

lemma lookup_cons (entry : α) :
    lookup key k (entry :: entries) = if key entry = k then some entry else lookup key k entries := by
  by_cases h : key entry = k <;> simp [lookup, h]

lemma lookup_eq_none : lookup key k entries = none ↔ ∀ entry ∈ entries, key entry ≠ k := by
  simp [lookup]

lemma key_of_lookup (h : lookup key k entries = some a) : key a = k := by
  simpa using List.find?_some h

lemma mem_of_lookup (h : lookup key k entries = some a) : a ∈ entries :=
  List.mem_of_find?_eq_some h

/-- Under distinct keys every entry is the one its key finds. -/
lemma lookup_of_mem (hdistinct : Distinct key entries) (h : a ∈ entries) :
    lookup key (key a) entries = some a := by
  induction entries with
  | nil => simp at h
  | cons entry entries ih =>
    rw [lookup_cons]
    obtain ⟨hhead, htail⟩ := List.nodup_cons.mp hdistinct
    rcases List.mem_cons.mp h with rfl | hmem
    · rw [if_pos rfl]
    · have hne : key entry ≠ key a := fun heq => hhead (heq ▸ List.mem_map_of_mem hmem)
      rw [if_neg hne]
      exact ih htail hmem

/-- **What a key finds after a `put`**: the new entry under its own key, and what it
found before under every other key. -/
theorem lookup_put (entries : List α) :
    lookup key k (put key a entries) = if key a = k then some a else lookup key k entries := by
  induction entries with
  | nil => rw [put, lookup_cons]
  | cons entry entries ih =>
    rw [put]
    by_cases hsame : key entry = key a
    · rw [if_pos hsame, lookup_cons, lookup_cons, hsame]
      by_cases hk : key a = k
      · rw [if_pos hk, if_pos hk]
      · rw [if_neg hk, if_neg hk, if_neg hk]
    · rw [if_neg hsame, lookup_cons, lookup_cons, ih]
      by_cases hk : key a = k
      · rw [if_pos hk, if_neg (fun h => hsame (h.trans hk.symm)), if_pos hk]
      · rw [if_neg hk, if_neg hk]

/-- **What a key finds after a `drop`**: nothing under the key itself. -/
theorem lookup_drop (other : κ) (entries : List α) :
    lookup key k (drop key other entries) =
      if other = k then none else lookup key k entries := by
  induction entries with
  | nil => simp [drop, lookup]
  | cons entry entries ih =>
    by_cases hentry : key entry = other
    · have hdrop : drop key other (entry :: entries) = drop key other entries :=
        List.filter_cons_of_neg (by simpa using hentry)
      rw [hdrop, ih, lookup_cons, hentry]
      by_cases hk : other = k
      · rw [if_pos hk, if_pos hk]
      · rw [if_neg hk, if_neg hk, if_neg hk]
    · have hdrop : drop key other (entry :: entries) = entry :: drop key other entries :=
        List.filter_cons_of_pos (by simpa using hentry)
      rw [hdrop, lookup_cons, lookup_cons, ih]
      by_cases hk : other = k
      · rw [if_pos hk, if_neg (fun h => hentry (h.trans hk.symm)), if_pos hk]
      · rw [if_neg hk, if_neg hk]

/-! ### The keys an operation leaves -/

/-- The entries after a `put` are the new one and the old ones under other keys. -/
lemma mem_put {entry : α} (hdistinct : Distinct key entries) :
    entry ∈ put key a entries ↔ entry = a ∨ entry ∈ entries ∧ key entry ≠ key a := by
  induction entries with
  | nil => simp [put]
  | cons head entries ih =>
    obtain ⟨hhead, htail⟩ := List.nodup_cons.mp hdistinct
    rw [put]
    by_cases hsame : key head = key a
    · rw [if_pos hsame, List.mem_cons]
      constructor
      · rintro (h | h)
        · exact Or.inl h
        · exact Or.inr ⟨List.mem_cons_of_mem _ h,
            fun heq => hhead (hsame.trans heq.symm ▸ List.mem_map_of_mem h)⟩
      · rintro (h | ⟨h, hne⟩)
        · exact Or.inl h
        · rcases List.mem_cons.mp h with rfl | h
          · exact absurd hsame hne
          · exact Or.inr h
    · rw [if_neg hsame, List.mem_cons, ih htail, List.mem_cons]
      constructor
      · rintro (rfl | h | ⟨h, hne⟩)
        · exact Or.inr ⟨Or.inl rfl, hsame⟩
        · exact Or.inl h
        · exact Or.inr ⟨Or.inr h, hne⟩
      · rintro (h | ⟨h | h, hne⟩)
        · exact Or.inr (Or.inl h)
        · exact Or.inl h
        · exact Or.inr (Or.inr ⟨h, hne⟩)

lemma distinct_put (hdistinct : Distinct key entries) : Distinct key (put key a entries) := by
  induction entries with
  | nil => simp [put, Distinct]
  | cons head entries ih =>
    obtain ⟨hhead, htail⟩ := List.nodup_cons.mp hdistinct
    rw [put]
    by_cases hsame : key head = key a
    · rw [if_pos hsame]
      exact List.nodup_cons.mpr ⟨hsame ▸ hhead, htail⟩
    · rw [if_neg hsame]
      refine List.nodup_cons.mpr ⟨fun hmem => ?_, ih htail⟩
      obtain ⟨entry, hentry, hkey⟩ := List.mem_map.mp hmem
      rcases (mem_put htail).mp hentry with rfl | ⟨hold, -⟩
      · exact hsame hkey.symm
      · exact hhead (hkey ▸ List.mem_map_of_mem hold)

lemma distinct_drop (hdistinct : Distinct key entries) : Distinct key (drop key k entries) :=
  hdistinct.sublist (List.filter_sublist.map key)

/-- Putting the entry that is there changes nothing. -/
lemma put_of_mem (hdistinct : Distinct key entries) (h : a ∈ entries) :
    put key a entries = entries := by
  induction entries with
  | nil => simp at h
  | cons head entries ih =>
    obtain ⟨hhead, htail⟩ := List.nodup_cons.mp hdistinct
    rw [put]
    rcases List.mem_cons.mp h with rfl | hmem
    · rw [if_pos rfl]
    · have hne : key head ≠ key a := fun heq => hhead (heq ▸ List.mem_map_of_mem hmem)
      rw [if_neg hne, ih htail hmem]

lemma mem_put_self (entries : List α) : a ∈ put key a entries := by
  induction entries with
  | nil => simp [put]
  | cons head entries ih =>
    rw [put]
    by_cases hsame : key head = key a
    · rw [if_pos hsame]
      exact List.mem_cons_self
    · rw [if_neg hsame]
      exact List.mem_cons_of_mem _ ih

/-- A `drop` that removes nothing found no entry of the key. -/
lemma drop_eq_self : drop key k entries = entries ↔ lookup key k entries = none := by
  rw [drop, List.filter_eq_self, lookup_eq_none]
  simp

lemma length_drop_eq : (drop key k entries).length = entries.length ↔
    lookup key k entries = none := by
  rw [drop, List.length_filter_eq_length_iff, lookup_eq_none]
  simp

/-- A sum over the entries, after a `put`. -/
lemma sum_put (hdistinct : Distinct key entries) (f : α → Nat) :
    ((put key a entries).map f).sum = ((drop key (key a) entries).map f).sum + f a := by
  induction entries with
  | nil => simp [put, drop]
  | cons head entries ih =>
    obtain ⟨hhead, htail⟩ := List.nodup_cons.mp hdistinct
    rw [put]
    by_cases hsame : key head = key a
    · have hrest : drop key (key a) entries = entries := by
        refine drop_eq_self.mpr (lookup_eq_none.mpr fun entry hentry heq => hhead ?_)
        rw [hsame, ← heq]
        exact List.mem_map_of_mem hentry
      have hskip : drop key (key a) (head :: entries) = drop key (key a) entries :=
        List.filter_cons_of_neg (by simpa using hsame)
      rw [if_pos hsame, hskip, hrest, List.map_cons, List.sum_cons, Nat.add_comm]
    · have hkeep : drop key (key a) (head :: entries) = head :: drop key (key a) entries :=
        List.filter_cons_of_pos (by simpa using hsame)
      rw [if_neg hsame, hkeep, List.map_cons, List.map_cons, List.sum_cons, List.sum_cons, ih htail,
        Nat.add_assoc]

lemma sum_drop_le (f : α → Nat) :
    ((drop key k entries).map f).sum ≤ (entries.map f).sum :=
  (List.filter_sublist.map f).sum_le_sum fun _ _ => Nat.zero_le _

/-! ### The first entry of each key -/

/-- The entries whose key no earlier entry has. -/
def firsts (key : α → κ) : List α → List α
  | [] => []
  | entry :: entries => entry :: drop key (key entry) (firsts key entries)

lemma firsts_drop (entries : List α) :
    firsts key (drop key k entries) = drop key k (firsts key entries) := by
  induction entries with
  | nil => rfl
  | cons entry entries ih =>
    rw [firsts]
    by_cases hkey : key entry = k
    · have hskip : drop key k (entry :: entries) = drop key k entries :=
        List.filter_cons_of_neg (by simpa using hkey)
      have hfirsts : drop key k (entry :: drop key (key entry) (firsts key entries)) =
          drop key k (drop key (key entry) (firsts key entries)) :=
        List.filter_cons_of_neg (by simpa using hkey)
      rw [hskip, ih, hfirsts, hkey, drop, drop, List.filter_filter]
      simp
    · have hkeep : ∀ rest : List α, drop key k (entry :: rest) = entry :: drop key k rest :=
        fun rest => List.filter_cons_of_pos (by simpa using hkey)
      rw [hkeep, hkeep, firsts, ih]
      exact congrArg _ (List.filter_comm _ _ _)

lemma firsts_sublist (entries : List α) : (firsts key entries).Sublist entries := by
  induction entries with
  | nil => exact List.Sublist.refl _
  | cons entry entries ih => exact (List.filter_sublist.trans ih).cons_cons _

lemma distinct_firsts (entries : List α) : Distinct key (firsts key entries) := by
  induction entries with
  | nil => exact List.nodup_nil
  | cons entry entries ih =>
    refine List.nodup_cons.mpr ⟨fun hmem => ?_, distinct_drop ih⟩
    obtain ⟨other, hother, heq⟩ := List.mem_map.mp hmem
    simpa [heq] using (List.mem_filter.mp hother).2

/-- Past the first entries of `n` keys, the next entry of another key is the next first one. -/
lemma head?_filter_firsts (n : Nat) (entries : List α) :
    (entries.filter fun entry => key entry ∉ ((firsts key entries).take n).map key).head? =
      (firsts key entries)[n]? := by
  induction n generalizing entries with
  | zero => cases entries <;> simp [firsts]
  | succ n ih =>
    cases entries with
    | nil => simp [firsts]
    | cons entry rest =>
      have hrest : (entry :: rest).filter (fun other =>
          key other ∉ ((firsts key (entry :: rest)).take (n + 1)).map key) =
            (drop key (key entry) rest).filter fun other =>
              key other ∉ ((firsts key (drop key (key entry) rest)).take n).map key := by
        rw [firsts, ← firsts_drop, List.take_succ_cons, List.map_cons,
          List.filter_cons_of_neg (by simp), drop, List.filter_filter]
        refine List.filter_congr fun other _ => ?_
        simp [Bool.and_comm]
      rw [hrest, ih, firsts, ← firsts_drop, List.getElem?_cons_succ]

end Keyed
