import Rupi.Tui.Highlight

/-!
Rows and clusters.

- `Joined`: a character belongs to the cluster before it; regional indicators pair from the left.
- `Continues`: `continues_cluster` takes it to; it takes every indicator behind another one.
- `WellSplit`: the rows of a line tile it, none begins inside a cluster, and a row that is too wide
  is one cluster.
- `goodRow_rowsFrom`, `mem_rowsFrom`: the rows end between what `continues_cluster` joins, and
  what is too wide is a row of its own.
- **`wellSplit_iff`**: when the rows are split well.
-/

namespace Rupi.Tui

/-! ### Clusters -/

/-- The regional indicators in front of a place, back to another character. -/
def indicatorsBefore (text : List Char) (i : ℕ) : ℕ :=
  ((text.take i).reverse.takeWhile isRegionalIndicator).length

/-- The character at a place belongs to the cluster before it: a joiner is in front of it, or it is
one, or a non-joiner, a keycap, a variation selector or a combining mark, or the second indicator of
a pair. -/
def Joined (text : List Char) (i : ℕ) : Prop :=
  0 < i ∧ ∃ previous next, text[i - 1]? = some previous ∧ text[i]? = some next ∧
    (previous.toNat = 0x200d ∨ next.toNat ∈ [0x200c, 0x200d, 0x20e3, 0xfe0e, 0xfe0f] ∨
      (0x0300 ≤ next.toNat ∧ next.toNat ≤ 0x036f) ∨
      (isRegionalIndicator next ∧ indicatorsBefore text i % 2 = 1))

/-- `continues_cluster` joins the character at a place to the one before it. -/
def Continues (text : List Char) (i : ℕ) : Prop :=
  0 < i ∧ ∃ previous next, text[i - 1]? = some previous ∧ text[i]? = some next ∧
    continuesCluster previous next

/-- A part of a line that `continues_cluster` joins, with nothing more of it on either side. -/
structure Run.Whole (text : List Char) (start stop : ℕ) : Prop where
  lt : start < stop
  le : stop ≤ text.length
  first : ¬Continues text start
  last : ¬Continues text stop
  inner : ∀ i, start < i → i < stop → Continues text i

/-- Rows that are split well. -/
structure WellSplit (text : List Char) (width : ℕ) (spans : List (ℕ × ℕ)) : Prop where
  tiles : Tiles 0 text.length spans
  full : text ≠ [] → ∀ span ∈ spans, span.1 < span.2
  breaks : ∀ span ∈ spans, ¬Joined text span.1
  wide : ∀ span ∈ spans, width < displayWidth (between text span.1 span.2) →
    ∀ i, span.1 < i → i < span.2 → Joined text i

section Clusters

variable {text rest : List Char} {c : Char} {width start stop index column i : ℕ}
  {span : ℕ × ℕ}

/-- What is in one cluster is joined. -/
lemma Joined.continues (h : Joined text i) : Continues text i := by
  obtain ⟨hpos, previous, next, hprevious, hnext, hrule⟩ := h
  refine ⟨hpos, previous, next, hprevious, hnext, ?_⟩
  rw [continuesCluster]
  obtain hjoiner | hlisted | hmark | ⟨hindicator, hodd⟩ := hrule
  · simp [hjoiner]
  · have hcontains := List.contains_iff_mem.2 hlisted
    simp only [hcontains, Bool.or_true, Bool.true_or]
  · simp [hmark]
  · have htake : (text.take i).reverse = previous :: (text.take (i - 1)).reverse := by
      obtain ⟨n, rfl⟩ := Nat.exists_eq_add_of_lt hpos
      rw [Nat.zero_add] at hprevious ⊢
      rw [List.take_add_one, Nat.add_sub_cancel] at *
      rw [hprevious]
      simp
    rw [indicatorsBefore, htake, List.takeWhile_cons] at hodd
    split_ifs at hodd with hfirst
    · simp [hindicator, hfirst]

/-- What `continues_cluster` joins to a character is its tail. -/
lemma clusterTail_spec (h : text.drop index = c :: rest) :
    (∀ i, index < i → i < index + 1 + (clusterTail c rest).length → Continues text i) ∧
      ¬Continues text (index + 1 + (clusterTail c rest).length) := by
  induction rest generalizing c index with
  | nil =>
    refine ⟨fun i hlt hle => ?_, fun hlast => ?_⟩
    · rw [clusterTail, List.length_nil] at hle
      omega
    · obtain ⟨-, previous, next, -, hnext, -⟩ := hlast
      have hlength := congrArg List.length h
      rw [List.length_drop, List.length_singleton] at hlength
      have hlt := (List.getElem?_eq_some_iff.1 hnext).1
      rw [clusterTail, List.length_nil] at hlt
      omega
  | cons next rest ih =>
    have hprevious : text[index]? = some c := by
      have hget := congrArg (fun chars => chars[0]?) h
      simpa only [List.getElem?_drop, Nat.add_zero, List.getElem?_cons_zero] using hget
    have hnext : text[index + 1]? = some next := by
      have hget := congrArg (fun chars => chars[1]?) h
      simpa only [List.getElem?_drop, List.getElem?_cons_succ, List.getElem?_cons_zero] using hget
    have hrest : text.drop (index + 1) = next :: rest := by
      rw [← List.drop_drop, h, List.drop_one, List.tail_cons]
    rw [clusterTail]
    split_ifs with hjoins
    · obtain ⟨hinner, hlast⟩ := ih hrest
      have hfirst : Continues text (index + 1) :=
        ⟨Nat.succ_pos _, c, next, hprevious, hnext, hjoins⟩
      rw [List.length_cons]
      refine ⟨fun i hlt hle => ?_, ?_⟩
      · obtain rfl | hlt := Nat.eq_or_lt_of_le hlt
        · exact hfirst
        · exact hinner i hlt (by omega)
      · rwa [Nat.add_assoc (index + 1) 1, Nat.add_comm 1] at hlast
    · refine ⟨fun i hlt hle => ?_, fun hlast => ?_⟩
      · rw [List.length_nil] at hle
        omega
      · obtain ⟨-, previous, next', hprevious', hnext', hjoins'⟩ := hlast
        rw [List.length_nil, Nat.add_zero] at hnext' hprevious'
        rw [Nat.add_sub_cancel, hprevious, Option.some.injEq] at hprevious'
        rw [hnext, Option.some.injEq] at hnext'
        subst hprevious' hnext'
        exact hjoins hjoins'

/-! ### Rows -/

/-- A row that `continues_cluster` leaves whole on both sides, and joins when it is too wide. -/
structure GoodRow (text : List Char) (width start stop : ℕ) : Prop where
  first : ¬Continues text start
  last : ¬Continues text stop
  wide : width < displayWidth (between text start stop) →
    ∀ i, start < i → i < stop → Continues text i

lemma between_cluster (h : text.drop index = c :: rest) :
    between text index (index + 1 + (clusterTail c rest).length) =
      (c :: rest).take ((clusterTail c rest).length + 1) := by
  rw [between, h]
  exact congrArg (List.take · _) (by omega)

lemma clusterTail_isPrefix (c : Char) (rest : List Char) : clusterTail c rest <+: rest := by
  induction rest generalizing c with
  | nil => exact List.prefix_rfl
  | cons next rest ih =>
    rw [clusterTail]
    split_ifs
    · exact List.cons_prefix_cons.2 ⟨rfl, ih next⟩
    · exact List.nil_prefix

lemma displayWidth_cluster (h : text.drop index = c :: rest) :
    displayWidth (between text index (index + 1 + (clusterTail c rest).length)) =
      displayWidth (c :: clusterTail c rest) := by
  rw [between_cluster h, List.take_succ_cons,
    ← List.prefix_iff_eq_take.1 (clusterTail_isPrefix c rest)]

lemma drop_cluster (h : text.drop index = c :: rest) :
    text.drop (index + 1 + (clusterTail c rest).length) =
      rest.drop (clusterTail c rest).length := by
  rw [Nat.add_assoc, ← List.drop_drop, h, Nat.add_comm, List.drop_succ_cons]

/-- A cluster is a good row. -/
lemma goodRow_cluster (h : text.drop index = c :: rest) (hfirst : ¬Continues text index) :
    GoodRow text width index (index + 1 + (clusterTail c rest).length) := by
  obtain ⟨hinner, hlast⟩ := clusterTail_spec h
  exact ⟨hfirst, hlast, fun _ => hinner⟩

/-- A good row with the next cluster, when it fits or the row is empty. -/
lemma goodRow_extend (h : text.drop index = c :: rest) (hstart : start ≤ index)
    (hrow : GoodRow text width start index)
    (hfits : ¬(width < displayWidth (between text start index) + displayWidth (c :: clusterTail c rest) ∧
      start < index)) :
    GoodRow text width start (index + 1 + (clusterTail c rest).length) := by
  obtain hlt | rfl := Nat.lt_or_eq_of_le hstart
  · refine ⟨hrow.first, (clusterTail_spec h).2, fun hwide => ?_⟩
    rw [between_append hstart (by omega), displayWidth_append, displayWidth_cluster h] at hwide
    exact absurd ⟨hwide, hlt⟩ hfits
  · exact goodRow_cluster h hrow.first

/-- **Every row is good**, from a row that is good so far on. -/
lemma goodRow_rowsFrom (h : text.drop index = rest) (hstart : start ≤ index)
    (hrow : GoodRow text width start index)
    (hcolumn : column = displayWidth (between text start index))
    (hspan : span ∈ rowsFrom width start column index rest) :
    GoodRow text width span.1 span.2 ∧ (span.1 < span.2 ∨ rest = [] ∧ start = index) := by
  fun_induction rowsFrom width start column index rest with
  | case1 start column index =>
    cases List.mem_singleton.1 hspan
    exact ⟨hrow, (Nat.lt_or_eq_of_le hstart).imp_right fun heq => ⟨rfl, heq⟩⟩
  | case2 start column index c rest tail columns behind after hbreak ih =>
    obtain rfl | hspan := List.mem_cons.1 hspan
    · exact ⟨hrow, Or.inl hbreak.2⟩
    · obtain ⟨hgood, hlt⟩ := ih (drop_cluster h) (by omega) (goodRow_cluster h hrow.last)
        (displayWidth_cluster h).symm hspan
      exact ⟨hgood, Or.inl (hlt.resolve_right fun hempty => by omega)⟩
  | case3 start column index c rest tail columns behind after hbreak ih =>
    subst hcolumn
    have hwidth : displayWidth (between text start index) + columns =
        displayWidth (between text start after) := by
      rw [between_append hstart (by omega : index ≤ after), displayWidth_append,
        displayWidth_cluster h]
    obtain ⟨hgood, hlt⟩ := ih (drop_cluster h) (by omega) (goodRow_extend h hstart hrow hbreak)
      hwidth hspan
    exact ⟨hgood, Or.inl (hlt.resolve_right fun hempty => by omega)⟩

/-- A row that is too wide already ends before the next cluster. -/
lemma mem_rowsFrom_of_lt (hwide : width < column) (hlt : start < index) :
    (start, index) ∈ rowsFrom width start column index rest := by
  cases rest with
  | nil =>
    rw [rowsFrom]
    exact List.mem_singleton_self _
  | cons c rest =>
    rw [rowsFrom, if_pos ⟨by omega, hlt⟩]
    exact List.mem_cons_self

/-- A whole part that begins with a cluster is that cluster. -/
lemma Run.Whole.eq_cluster (h : text.drop index = c :: rest) (hwhole : Run.Whole text index stop) :
    stop = index + 1 + (clusterTail c rest).length := by
  obtain ⟨hinner, hlast⟩ := clusterTail_spec h
  have hlt := hwhole.lt
  by_contra hne
  obtain hless | hmore := Nat.lt_or_gt_of_ne hne
  · exact hwhole.last (hinner stop hlt hless)
  · exact hlast (hwhole.inner _ (by omega) hmore)

/-- A whole part behind the start of a cluster is behind the cluster. -/
lemma Run.Whole.le_cluster (h : text.drop index = c :: rest) (hwhole : Run.Whole text start stop)
    (hlt : index < start) : index + 1 + (clusterTail c rest).length ≤ start := by
  by_contra hless
  exact hwhole.first ((clusterTail_spec h).1 start hlt (not_le.1 hless))

/-- **What is joined and too wide** is a row of its own. -/
lemma mem_rowsFrom {first last : ℕ} (h : text.drop index = rest) (hstart : start ≤ index)
    (hfirst : index ≤ first) (hcut : ¬Continues text index) (hwhole : Run.Whole text first last)
    (hwide : width < displayWidth (between text first last)) :
    (first, last) ∈ rowsFrom width start column index rest := by
  fun_induction rowsFrom width start column index rest with
  | case1 start column index =>
    have hlength := congrArg List.length h
    rw [List.length_drop, List.length_nil] at hlength
    have hlt := hwhole.lt
    have hle := hwhole.le
    omega
  | case2 start column index c rest tail columns behind after hbreak ih =>
    refine List.mem_cons_of_mem _ ?_
    obtain hlt | rfl := Nat.lt_or_eq_of_le hfirst
    · exact ih (drop_cluster h) (by omega) (hwhole.le_cluster h hlt) (clusterTail_spec h).2
    · obtain rfl := hwhole.eq_cluster h
      rw [displayWidth_cluster h] at hwide
      exact mem_rowsFrom_of_lt hwide (by omega)
  | case3 start column index c rest tail columns behind after hbreak ih =>
    obtain hlt | rfl := Nat.lt_or_eq_of_le hfirst
    · exact ih (drop_cluster h) (by omega) (hwhole.le_cluster h hlt) (clusterTail_spec h).2
    · obtain rfl := hwhole.eq_cluster h
      rw [displayWidth_cluster h] at hwide
      have hwide : width < columns := hwide
      have hempty : start = index := by
        by_contra hne
        exact hbreak ⟨by omega, Nat.lt_of_le_of_ne hstart hne⟩
      subst hempty
      exact mem_rowsFrom_of_lt (by omega) (by omega)

/-- **The rows are split well** exactly when whatever `continues_cluster` joins to more than the
width is one cluster. -/
theorem wellSplit_iff (text : List Char) (width : ℕ) (hwidth : 1 ≤ width) :
    WellSplit text width (lineRows text width) ↔
      ∀ start stop, Run.Whole text start stop → width < displayWidth (between text start stop) →
        ∀ i, start < i → i < stop → Joined text i := by
  have hstart : ¬Continues text 0 := fun h => absurd h.1 (lt_irrefl 0)
  have hgood : ∀ span ∈ lineRows text width,
      GoodRow text width span.1 span.2 ∧ (span.1 < span.2 ∨ text = [] ∧ 0 = 0) := by
    intro span hspan
    rw [lineRows, max_eq_left hwidth] at hspan
    refine goodRow_rowsFrom List.drop_zero le_rfl ⟨hstart, hstart, fun _ i hlt hle => ?_⟩ ?_ hspan
    · omega
    · rw [between_self]
      rfl
  constructor
  · intro h start stop hwhole hwide
    have hmem : (start, stop) ∈ rowsFrom width 0 0 0 text :=
      mem_rowsFrom List.drop_zero le_rfl (Nat.zero_le _) hstart hwhole hwide
    rw [lineRows, max_eq_left hwidth] at h
    exact h.wide (start, stop) hmem hwide
  · intro h
    refine ⟨tiles_lineRows text width, fun hne span hspan => ?_, fun span hspan hjoined => ?_,
      fun span hspan hwide i hlt hle => ?_⟩
    · exact (hgood span hspan).2.resolve_right fun hempty => hne hempty.1
    · exact (hgood span hspan).1.first hjoined.continues
    · obtain ⟨hfirst, hlast, hjoins⟩ := (hgood span hspan).1
      have hmem := (tiles_lineRows text width).mem hspan
      exact h span.1 span.2 ⟨by omega, hmem.2.2, hfirst, hlast, hjoins hwide⟩ hwide i hlt hle

end Clusters

namespace Run

/-- The two indicators of a flag. -/
def flag (first second : ℕ) : List Char := [Char.ofNat first, Char.ofNat second]

/-- A flag in a row too narrow for it. -/
theorem wellSplit_flag :
    WellSplit (flag 0x1f1eb 0x1f1f7) 1 (lineRows (flag 0x1f1eb 0x1f1f7) 1) := by
  refine (wellSplit_iff (flag 0x1f1eb 0x1f1f7) 1 le_rfl).2 fun start stop hwhole _ i hlt hle => ?_
  have hstop : stop ≤ 2 := hwhole.le
  obtain rfl : i = 1 := by omega
  exact ⟨Nat.one_pos, _, _, rfl, rfl, by decide⟩

/-- Two flags are one row, although either fits. -/
theorem two_flags_one_row : ¬∀ (text : List Char) (width : ℕ), 1 ≤ width →
    WellSplit text width (lineRows text width) := by
  intro h
  have hwide := (h (flag 0x1f1eb 0x1f1f7 ++ flag 0x1f1e9 0x1f1ea) 2 (by decide)).wide (0, 4)
    (by decide +kernel) (by decide +kernel) 2 (by decide) (by decide)
  obtain ⟨-, previous, next, hprevious, hnext, hrule⟩ := hwide
  cases hprevious
  cases hnext
  exact absurd hrule (by decide)

end Run

end Rupi.Tui
