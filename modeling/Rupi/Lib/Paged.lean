import Mathlib.Tactic

/-!
Lists that are read page by page.

- `follow`, `Yields`: pages read one after another, each from the cursor that the page before
  it gives, until a page is empty or gives none.
- `pageAfter`: the cursor is the number of the last item shown; a page shows items with
  greater numbers. `exists_yields_pageAfter`: its pages come to an end, whatever the numbers.
- **`yields_pageAfter_iff`**: they show the list, each item once and in order, exactly when the
  numbers cut the list in two at the end of every page (`CutAt`).
- `pageFrom`: the cursor is a position. **`yields_pageFrom`**: its pages always show the list.
-/

namespace Rupi

/-- A page of a list, with the cursor that the next one is read from. -/
structure Page (α : Type*) where
  items : List α
  next : Option ℕ
  deriving DecidableEq, Repr

def Page.map {α β : Type*} (f : α → β) (page : Page α) : Page β := ⟨page.items.map f, page.next⟩

namespace Paged

section Follow

variable {α : Type*} (read : Option ℕ → Page α)

/-- The pages read from a cursor on, if `steps` reads come to an end. -/
def follow : ℕ → Option ℕ → Option (List (List α))
  | 0, _ => none
  | steps + 1, cursor =>
      let page := read cursor
      if page.items.isEmpty ∨ page.next = none then some [page.items]
      else (follow steps page.next).map (page.items :: ·)

/-- The reads from a cursor on come to an end, and show these items in this order. -/
def Yields (cursor : Option ℕ) (shown : List α) : Prop :=
  ∃ steps pages, follow read steps cursor = some pages ∧ pages.flatten = shown

variable {read} {cursor : Option ℕ} {shown : List α}

lemma yields_last (h : (read cursor).items.isEmpty ∨ (read cursor).next = none) :
    Yields read cursor shown ↔ shown = (read cursor).items := by
  constructor
  · rintro ⟨steps, pages, hfollow, rfl⟩
    cases steps with
    | zero => simp [follow] at hfollow
    | succ steps =>
      rw [follow, if_pos h, Option.some.injEq] at hfollow
      simp [← hfollow]
  · rintro rfl
    exact ⟨1, [(read cursor).items], by rw [follow, if_pos h], by simp⟩

lemma yields_more (h : ¬((read cursor).items.isEmpty ∨ (read cursor).next = none)) :
    Yields read cursor shown ↔
      ∃ rest, shown = (read cursor).items ++ rest ∧ Yields read (read cursor).next rest := by
  constructor
  · rintro ⟨steps, pages, hfollow, rfl⟩
    cases steps with
    | zero => simp [follow] at hfollow
    | succ steps =>
      rw [follow, if_neg h, Option.map_eq_some_iff] at hfollow
      obtain ⟨later, hlater, rfl⟩ := hfollow
      exact ⟨later.flatten, by simp, steps, later, hlater, rfl⟩
  · rintro ⟨rest, rfl, steps, pages, hfollow, rfl⟩
    exact ⟨steps + 1, (read cursor).items :: pages, by rw [follow, if_neg h, hfollow]; rfl,
      by simp⟩

/-- Reads that agree at every cursor that can come up show the same. -/
lemma yields_congr {read' : Option ℕ → Page α} {P : Option ℕ → Prop}
    (hread : ∀ c, P c → read c = read' c) (hnext : ∀ c, P c → P (read c).next) (h : P cursor) :
    Yields read cursor shown ↔ Yields read' cursor shown := by
  suffices hfollow : ∀ steps cursor, P cursor →
      follow read steps cursor = follow read' steps cursor by
    simp only [Yields, hfollow _ _ h]
  intro steps
  induction steps with
  | zero => exact fun _ _ => rfl
  | succ steps ih =>
    intro cursor hcursor
    rw [follow, follow, ih _ (hnext cursor hcursor), hread cursor hcursor]

lemma eq_of_map_eq {β : Type*} {f : α → β} {l l' : List α}
    (hinj : ∀ x ∈ l, ∀ y ∈ l', f x = f y → x = y) (h : l.map f = l'.map f) : l = l' := by
  induction l generalizing l' with
  | nil => exact (List.map_eq_nil_iff.1 h.symm).symm
  | cons x l ih =>
    cases l' with
    | nil => cases h
    | cons y l' =>
      rw [List.map_cons, List.map_cons, List.cons.injEq] at h
      rw [hinj x List.mem_cons_self y List.mem_cons_self h.1,
        ih (fun x hx y hy => hinj x (List.mem_cons_of_mem _ hx) y (List.mem_cons_of_mem _ hy)) h.2]

lemma follow_subset {items : List α} (hread : ∀ c, (read c).items ⊆ items) {steps : ℕ}
    {pages : List (List α)} (h : follow read steps cursor = some pages) :
    pages.flatten ⊆ items := by
  induction steps generalizing cursor pages with
  | zero => simp [follow] at h
  | succ steps ih =>
    rw [follow] at h
    split_ifs at h
    · cases h
      simpa using hread cursor
    · obtain ⟨later, hlater, rfl⟩ := Option.map_eq_some_iff.1 h
      rw [List.flatten_cons]
      exact List.append_subset.2 ⟨hread cursor, ih hlater⟩

lemma follow_map {β : Type*} (f : α → β) (steps : ℕ) (cursor : Option ℕ) :
    follow (fun c => (read c).map f) steps cursor =
      (follow read steps cursor).map (List.map (List.map f)) := by
  induction steps generalizing cursor with
  | zero => rfl
  | succ steps ih =>
    have hlast : ((read cursor).map f).items.isEmpty = (read cursor).items.isEmpty :=
      List.isEmpty_map
    have hnext : ((read cursor).map f).next = (read cursor).next := rfl
    rw [follow, follow, hlast, hnext]
    split_ifs
    · rfl
    · rw [ih, Option.map_map, Option.map_map]
      rfl

lemma Yields.map {β : Type*} (f : α → β) (h : Yields read cursor shown) :
    Yields (fun c => (read c).map f) cursor (shown.map f) := by
  obtain ⟨steps, pages, hpages, rfl⟩ := h
  exact ⟨steps, pages.map (List.map f), by rw [follow_map, hpages]; rfl, List.map_flatten.symm⟩

/-- Reads seen through a function that tells the items apart. -/
lemma yields_map {β : Type*} {f : α → β} {items : List α} (hinj : ∀ x ∈ items, ∀ y ∈ items,
    f x = f y → x = y) (hread : ∀ c, (read c).items ⊆ items) :
    Yields (fun c => (read c).map f) cursor (items.map f) ↔ Yields read cursor items := by
  refine ⟨?_, Yields.map f⟩
  rintro ⟨steps, pages, hpages, hflat⟩
  rw [follow_map, Option.map_eq_some_iff] at hpages
  obtain ⟨plain, hplain, rfl⟩ := hpages
  have hsubset := follow_subset hread hplain
  refine ⟨steps, plain, hplain, eq_of_map_eq (fun x hx y hy => hinj x (hsubset hx) y hy) ?_⟩
  rw [← hflat, List.map_flatten]

end Follow

/-! ### Pages by number -/

section Number

variable {α : Type*} (number : α → Option ℕ) (items : List α) (limit : ℕ)

/-- The items behind a cursor; an item without a number counts as number zero. -/
def behind (after : Option ℕ) : List α :=
  items.filter fun item => after.all (· < (number item).getD 0)

/-- A page of the items behind a cursor. -/
def pageAfter (after : Option ℕ) : Page α :=
  let shown := (behind number items after).take limit
  ⟨shown, shown.getLast?.bind number⟩

/-- The number of the item before position `e` parts the items before `e` from those behind it;
where that item has none, the list is at its end. -/
def CutAt (e : ℕ) : Prop :=
  match (items.take e).getLast?.bind number with
  | none => items.length ≤ e
  | some c => (∀ item ∈ items.take e, (number item).getD 0 ≤ c) ∧
      ∀ item ∈ items.drop e, c < (number item).getD 0

instance (e : ℕ) : Decidable (CutAt number items e) := by
  unfold CutAt
  split
  · exact Nat.decLe _ _
  · exact @instDecidableAnd _ _ (List.decidableBAll _ _) (List.decidableBAll _ _)

/-- The numbers part the list at every end of a page. -/
def CutsPages : Prop :=
  ∀ e ≤ items.length, 0 < e → limit ∣ e ∨ e = items.length → CutAt number items e

instance : Decidable (CutsPages number items limit) :=
  inferInstanceAs (Decidable (∀ e ≤ _, _ → _ → _))

variable {number items limit} {after : Option ℕ} {c : ℕ}

lemma behind_none : behind number items none = items := List.filter_eq_self.2 fun _ _ => rfl

lemma mem_behind_some {item : α} :
    item ∈ behind number items (some c) ↔ item ∈ items ∧ c < (number item).getD 0 := by
  simp [behind]

/-- The cursor of a page is the number of an item that the page shows. -/
lemma next_pageAfter (h : (pageAfter number items limit after).next = some c) :
    ∃ item ∈ behind number items after, number item = some c := by
  obtain ⟨item, hlast, hnumber⟩ := Option.bind_eq_some_iff.1 h
  exact ⟨item, List.take_subset _ _ (List.mem_of_getLast? hlast), hnumber⟩

/-- Cursors grow. -/
lemma lt_next_pageAfter {d : ℕ} (h : (pageAfter number items limit (some d)).next = some c) :
    d < c := by
  obtain ⟨item, hitem, hnumber⟩ := next_pageAfter h
  simpa [hnumber] using (mem_behind_some.1 hitem).2

/-- Fewer items are behind the next cursor. -/
lemma length_behind_lt (h : (pageAfter number items limit after).next = some c) :
    (behind number items (some c)).length < (behind number items after).length := by
  obtain ⟨item, hitem, hnumber⟩ := next_pageAfter h
  have hle : (behind number items (some c)).Sublist (behind number items after) := by
    refine List.monotone_filter_right _ fun other hother => ?_
    cases after with
    | none => rfl
    | some d =>
      have hmore : c < (number other).getD 0 := by simpa using hother
      simpa using (lt_next_pageAfter h).trans hmore
  refine lt_of_le_of_ne hle.length_le fun heq => ?_
  rw [← hle.eq_of_length heq, mem_behind_some, hnumber] at hitem
  exact absurd hitem.2 (lt_irrefl c)

/-- Reading on by number comes to an end. -/
theorem exists_yields_pageAfter (after : Option ℕ) :
    ∃ shown, Yields (pageAfter number items limit) after shown := by
  by_cases h : (pageAfter number items limit after).items.isEmpty ∨
      (pageAfter number items limit after).next = none
  · exact ⟨_, (yields_last h).2 rfl⟩
  · obtain ⟨c, hc⟩ := Option.ne_none_iff_exists'.1 (not_or.1 h).2
    have hlt := length_behind_lt hc
    obtain ⟨rest, hrest⟩ := exists_yields_pageAfter (some c)
    exact ⟨_, (yields_more h).2 ⟨rest, rfl, hc ▸ hrest⟩⟩
termination_by (behind number items after).length

/-- What is shown from a cursor on has greater numbers. -/
lemma lt_of_yields {shown : List α} (h : Yields (pageAfter number items limit) (some c) shown) :
    ∀ item ∈ shown, c < (number item).getD 0 := by
  obtain ⟨steps, pages, hfollow, rfl⟩ := h
  induction steps generalizing c pages with
  | zero => simp [follow] at hfollow
  | succ steps ih =>
    have hpage : ∀ item ∈ (pageAfter number items limit (some c)).items,
        c < (number item).getD 0 :=
      fun item hitem => (mem_behind_some.1 (List.take_subset _ _ hitem)).2
    rw [follow] at hfollow
    split_ifs at hfollow with hlast
    · cases hfollow
      simpa using hpage
    · obtain ⟨later, hlater, rfl⟩ := Option.map_eq_some_iff.1 hfollow
      obtain ⟨d, hd⟩ := Option.ne_none_iff_exists'.1 (not_or.1 hlast).2
      have hlt := lt_next_pageAfter hd
      intro item hitem
      rw [List.flatten_cons, List.mem_append] at hitem
      rcases hitem with hitem | hitem
      · exact hpage item hitem
      · exact hlt.trans (ih later (hd ▸ hlater) item hitem)

/-- The items behind a cursor are the end of the list just when it parts the list there. -/
lemma behind_eq_drop {e : ℕ} (hbefore : ∀ item ∈ items.take e, (number item).getD 0 ≤ c)
    (hafter : ∀ item ∈ items.drop e, c < (number item).getD 0) :
    behind number items (some c) = items.drop e := by
  conv_lhs => rw [behind, ← List.take_append_drop e items, List.filter_append]
  rw [List.filter_eq_nil_iff.2, List.filter_eq_self.2, List.nil_append]
  · exact fun item hitem => decide_eq_true (hafter item hitem)
  · exact fun item hitem => by simpa using hbefore item hitem

/-- Reads that show the end of the list from a cursor on start behind what came before. -/
lemma cut_of_yields (hnodup : items.Nodup) (hlimit : 0 < limit) {e : ℕ}
    (h : Yields (pageAfter number items limit) (some c) (items.drop e)) :
    (∀ item ∈ items.take e, (number item).getD 0 ≤ c) ∧
      ∀ item ∈ items.drop e, c < (number item).getD 0 := by
  refine ⟨fun item hitem => ?_, lt_of_yields h⟩
  by_contra hgreater
  -- The item before `e` with a greater number is on the first page, so at its head is one too.
  have hfound : item ∈ (items.take e).filter fun item => c < (number item).getD 0 :=
    List.mem_filter.2 ⟨hitem, by simpa using hgreater⟩
  obtain ⟨first, more, hfirst⟩ := List.exists_cons_of_ne_nil (List.ne_nil_of_mem hfound)
  have hbehind : behind number items (some c) =
      first :: (more ++ (items.drop e).filter fun item => c < (number item).getD 0) := by
    conv_lhs => rw [behind, ← List.take_append_drop e items, List.filter_append]
    simp only [Option.all_some, hfirst, List.cons_append]
  have hpage : ∃ shown, (pageAfter number items limit (some c)).items = first :: shown := by
    obtain ⟨k, rfl⟩ := Nat.exists_eq_succ_of_ne_zero hlimit.ne'
    rw [pageAfter, hbehind, List.take_succ_cons]
    exact ⟨_, rfl⟩
  have hhead : first ∈ items.drop e := by
    obtain ⟨shown, hshown⟩ := hpage
    by_cases hlast : (pageAfter number items limit (some c)).items.isEmpty ∨
        (pageAfter number items limit (some c)).next = none
    · rw [(yields_last hlast).1 h, hshown]
      exact List.mem_cons_self
    · obtain ⟨rest, hrest, -⟩ := (yields_more hlast).1 h
      rw [hrest, hshown]
      exact List.mem_cons_self
  have htake : first ∈ items.take e :=
    (List.mem_filter.1 (hfirst ▸ List.mem_cons_self)).1
  exact List.disjoint_take_drop hnodup le_rfl htake hhead

/-- The ends of pages behind a start `s` are the end `e` of its page and those behind `e`. -/
lemma forall_page_end {s e n : ℕ} {P : ℕ → Prop} (hlimit : 0 < limit) (hs : limit ∣ s)
    (hlt : s < n) (he : e = min (s + limit) n) :
    (∀ i ≤ n, s < i → limit ∣ i ∨ i = n → P i) ↔
      P e ∧ ∀ i ≤ n, e < i → limit ∣ i ∨ i = n → P i := by
  have hse : s < e := by omega
  constructor
  · intro h
    refine ⟨h e (by omega) hse ?_, fun i hi hei hend => h i hi (hse.trans hei) hend⟩
    rcases le_total (s + limit) n with hle | hle
    · exact Or.inl (by rw [he, min_eq_left hle]; exact hs.add (dvd_refl limit))
    · exact Or.inr (by omega)
  · rintro ⟨hfirst, hlater⟩ i hi hsi hend
    rcases eq_or_ne i e with rfl | hne
    · exact hfirst
    refine hlater i hi ?_ hend
    rcases hend with hdvd | rfl
    · have hle := Nat.le_of_dvd (by omega) ((Nat.dvd_sub hdvd hs))
      omega
    · omega

/-- Where numbers part a list does not depend on what else the items hold. -/
lemma cutsPages_map {β : Type*} (f : β → α) (items : List β) :
    CutsPages number (items.map f) limit ↔ CutsPages (number ∘ f) items limit := by
  have hcut : ∀ e, CutAt number (items.map f) e ↔ CutAt (number ∘ f) items e := by
    intro e
    rw [CutAt, CutAt, ← List.map_take, ← List.map_drop, List.getLast?_map, Option.bind_map]
    cases (items.take e).getLast?.bind (number ∘ f) with
    | none => rw [List.length_map]
    | some c => simp only [List.forall_mem_map, Function.comp_apply]
  simp only [CutsPages, List.length_map, hcut]

/-- Pages by number show the end of the list from position `s` on exactly when the numbers
part the list at every later end of a page. -/
lemma yields_drop_iff (hnodup : items.Nodup) (hlimit : 0 < limit) {s : ℕ} (hs : s ≤ items.length)
    (hpage : limit ∣ s ∨ s = items.length) (hbehind : behind number items after = items.drop s) :
    Yields (pageAfter number items limit) after (items.drop s) ↔
      ∀ e ≤ items.length, s < e → limit ∣ e ∨ e = items.length → CutAt number items e := by
  induction hleft : items.length - s using Nat.strong_induction_on generalizing s after with
  | _ left ih =>
    have hshown : (pageAfter number items limit after).items = (items.drop s).take limit := by
      rw [pageAfter, hbehind]
    rcases hs.eq_or_lt with rfl | hlt
    · have hempty : (pageAfter number items limit after).items = [] := by simp [hshown]
      rw [yields_last (Or.inl (by rw [hempty]; rfl)), hempty]
      exact ⟨fun _ e he hse => absurd he (by omega), fun _ => List.drop_length⟩
    · -- The page ends at position `e`, which is the first end behind `s`.
      obtain ⟨e, he⟩ : ∃ e, e = min (s + limit) items.length := ⟨_, rfl⟩
      obtain ⟨shown, hshow⟩ : ∃ shown, (items.drop s).take limit = shown := ⟨_, rfl⟩
      rw [hshow] at hshown
      have htake : items.take e = items.take s ++ shown := by
        rw [he, ← List.take_eq_take_min, List.take_add, hshow]
      have hdrop : items.drop s = shown ++ items.drop e := by
        have hwhole := List.take_append_drop e items
        rw [htake, List.append_assoc] at hwhole
        exact List.append_cancel_left ((List.take_append_drop s items).trans hwhole.symm)
      have hne : shown ≠ [] := by
        simp only [← hshow, ne_eq, List.take_eq_nil_iff, List.drop_eq_nil_iff]
        omega
      have hnext : (pageAfter number items limit after).next =
          (items.take e).getLast?.bind number := by
        rw [htake, List.getLast?_append_of_ne_nil _ hne, ← hshown]
        rfl
      have hend : limit ∣ e ∨ e = items.length := by
        rcases le_total (s + limit) items.length with hle | hle
        · rw [he, min_eq_left hle]
          exact Or.inl ((hpage.resolve_right hlt.ne).add (dvd_refl limit))
        · exact Or.inr (by omega)
      rw [forall_page_end hlimit (hpage.resolve_right hlt.ne) hlt he, CutAt]
      cases hcursor : (items.take e).getLast?.bind number with
      | none =>
        rw [yields_last (Or.inr (hnext.trans hcursor)), hshown, hdrop, List.append_right_eq_self,
          List.drop_eq_nil_iff]
        exact ⟨fun hlast => ⟨hlast, fun i hi hei => absurd hei (by omega)⟩, And.left⟩
      | some c =>
        have hmore : ¬((pageAfter number items limit after).items.isEmpty ∨
            (pageAfter number items limit after).next = none) := by
          simp [hshown, hne, hnext, hcursor]
        have hrest : Yields (pageAfter number items limit) after (items.drop s) ↔
            Yields (pageAfter number items limit) (some c) (items.drop e) := by
          rw [yields_more hmore, hnext, hcursor, hshown, hdrop]
          simp
        have hstep := fun hcut => ih (items.length - e) (by omega) (by omega) hend
          (behind_eq_drop (c := c) (And.left hcut) (And.right hcut)) rfl
        rw [hrest]
        constructor
        · intro hyields
          have hcut := cut_of_yields hnodup hlimit hyields
          exact ⟨hcut, (hstep hcut).1 hyields⟩
        · rintro ⟨hcut, hlater⟩
          exact (hstep hcut).2 hlater

/-- **Pages by number show a list**, each item once and in order, exactly when the numbers part
it at the end of every page. -/
theorem yields_pageAfter_iff (hnodup : items.Nodup) (hlimit : 0 < limit) :
    Yields (pageAfter number items limit) none items ↔ CutsPages number items limit :=
  yields_drop_iff hnodup hlimit (Nat.zero_le _) (Or.inl (dvd_zero _)) behind_none

end Number

/-! ### Pages by position -/

section Position

variable {α : Type*} (items : List α) (limit : ℕ)

/-- A page of the items from a position on. -/
def pageFrom (after : Option ℕ) : Page α :=
  let start := after.getD 0
  let shown := (items.drop start).take limit
  ⟨shown, if shown.length = limit then some (start + shown.length) else none⟩

variable {items limit}

/-- **Pages by position show the list**, each item once and in order. -/
theorem yields_pageFrom (hlimit : 0 < limit) (after : Option ℕ) :
    Yields (pageFrom items limit) after (items.drop (after.getD 0)) := by
  obtain ⟨start, hstart⟩ : ∃ start, after.getD 0 = start := ⟨_, rfl⟩
  have hitems : (pageFrom items limit after).items = (items.drop start).take limit := by
    rw [pageFrom, hstart]
  rw [hstart]
  by_cases hfull : ((items.drop start).take limit).length = limit
  · have hnext : (pageFrom items limit after).next = some (start + limit) := by
      simp only [pageFrom, hstart, hfull, if_true]
    have hmore : ¬((pageFrom items limit after).items.isEmpty ∨
        (pageFrom items limit after).next = none) := by
      rw [hitems, hnext, List.isEmpty_iff_length_eq_zero, hfull]
      simp only [reduceCtorEq, or_false]
      omega
    have hlonger : start + limit ≤ items.length := by
      rw [List.length_take, List.length_drop] at hfull
      omega
    have hrest := yields_pageFrom hlimit (some (start + limit))
    refine (yields_more hmore).2 ⟨items.drop (start + limit), ?_, hnext ▸ hrest⟩
    rw [hitems, ← List.drop_drop, List.take_append_drop]
  · have hnext : (pageFrom items limit after).next = none := by
      simp only [pageFrom, hstart, if_neg hfull]
    refine (yields_last (Or.inr hnext)).2 ?_
    rw [hitems, List.take_of_length_le]
    rw [List.length_take] at hfull
    omega
termination_by items.length - after.getD 0
decreasing_by simp only [Option.getD_some]; omega

end Position

end Paged

end Rupi
