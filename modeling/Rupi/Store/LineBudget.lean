import Mathlib.Data.String.Basic
import Rupi.Lib.Drain
import Rupi.Lib.Keyed
import Rupi.Store.LineBounds
import Rupi.Store.RestoreFields

/-!
Whether a line meets its inline budget.

- `Payload.candidates`: the strings that may be taken out of a line, the largest first.
- `Payload.Stops`: how many of them are taken out, and why no more are.
- `Payload.bound_eq_ok_iff`: the loop of `bound` takes these out.
- **`TraceJournal.keepsBudget_iff`**: an append keeps its promise about the budget when there
  is room for the records of what it took out, and no string that gets shorter stands behind
  one that does not.
-/

namespace Rupi

open Value
open Keyed (firsts)

namespace Payload

/-! ### The strings of a line by size -/

lemma pathLe_total (a b : List String) : pathLe a b = true ∨ pathLe b a = true := by
  induction a generalizing b with
  | nil => exact .inl rfl
  | cons x a ih =>
    cases b with
    | nil => exact .inr rfl
    | cons y b =>
      rw [pathLe, pathLe]
      rcases lt_trichotomy x y with hlt | rfl | hlt
      · simp [hlt]
      · simpa using ih b
      · simp [hlt]

lemma pathLe_trans {a b c : List String} (hab : pathLe a b = true) (hbc : pathLe b c = true) :
    pathLe a c = true := by
  induction a generalizing b c with
  | nil => rfl
  | cons x a ih =>
    cases b with
    | nil => simp [pathLe] at hab
    | cons y b =>
      cases c with
      | nil => simp [pathLe] at hbc
      | cons z c =>
        simp only [pathLe, Bool.or_eq_true, decide_eq_true_eq, Bool.and_eq_true,
          beq_iff_eq] at hab hbc ⊢
        obtain hxy | ⟨rfl, hab⟩ := hab
        · obtain hyz | ⟨rfl, -⟩ := hbc
          · exact .inl (lt_trans hxy hyz)
          · exact .inl hxy
        · obtain hyz | ⟨rfl, hbc⟩ := hbc
          · exact .inl hyz
          · exact .inr ⟨rfl, ih hab hbc⟩

/-- The order of `largest_candidate`: the larger string first, then the smaller path. -/
abbrev Larger (a b : Nat × List String) : Prop := b.1 < a.1 ∨ a.1 = b.1 ∧ pathLe a.2 b.2 = true

instance : IsTrans (Nat × List String) Larger where
  trans a b c hab hbc := by
    obtain hab | ⟨hab, hpath⟩ := hab
    · obtain hbc | ⟨hbc, -⟩ := hbc
      · exact .inl (lt_trans hbc hab)
      · exact .inl (hbc ▸ hab)
    · obtain hbc | ⟨hbc, hpath'⟩ := hbc
      · exact .inl (hab ▸ hbc)
      · exact .inr ⟨hab.trans hbc, pathLe_trans hpath hpath'⟩

instance : Std.Total Larger where
  total a b := by
    rcases lt_trichotomy a.1 b.1 with hlt | heq | hlt
    · exact .inr (.inl hlt)
    · rcases pathLe_total a.2 b.2 with hpath | hpath
      · exact .inl (.inr ⟨heq, hpath⟩)
      · exact .inr (.inr ⟨heq.symm, hpath⟩)
    · exact .inl (.inl hlt)

/-- The strings of a line that may be taken out, the largest first. -/
def spillable (line : Value) : List (Nat × List String) :=
  ((collect [] line).filter fun leaf => spills leaf.2).insertionSort Larger

/-- A spill is recorded under the joined path, and under one name only the largest string can
be taken out. -/
def candidates (line : Value) : List (Nat × List String) :=
  firsts (fun leaf => joinPath leaf.2) (spillable line)

lemma largestCandidate_eq (line : Value) (done : List String) :
    largestCandidate line done =
      (((spillable line).filter fun leaf => joinPath leaf.2 ∉ done).head?).map (·.2) := by
  rw [spillable, Drain.filter_insertionSort, List.filter_filter]
  have hfilter : (collect [] line).filter (fun leaf =>
      spills leaf.2 && !done.contains (joinPath leaf.2)) =
        (collect [] line).filter fun leaf =>
          decide (joinPath leaf.2 ∉ done) && spills leaf.2 := by
    refine List.filter_congr fun leaf _ => ?_
    simp [Bool.and_comm]
  rw [largestCandidate, hfilter]

/-- A rewriting changes no string at a path that it leaves alone. -/
lemma collect_mapText {p : List String → Bool} {f : List String → String → String}
    {value : Value} {before : List String}
    (h : ∀ rest text, p (before ++ rest) = true → f rest text = text) :
    (collect before (mapText f value)).filter (fun leaf => p leaf.2) =
      (collect before value).filter fun leaf => p leaf.2 := by
  induction value using Value.ind generalizing f before with
  | null => rfl
  | bool b => rfl
  | int n => rfl
  | float literal => rfl
  | string text =>
    rw [mapText_string, collect, collect]
    by_cases hp : p before = true
    · rw [h [] text (by rwa [List.append_nil])]
    · rw [List.filter_cons_of_neg (by simpa using hp), List.filter_cons_of_neg (by simpa using hp)]
  | array items ih =>
    rw [mapText_array, collect, collect]
    have hitems : ∀ (tail : List Value) (start : Nat), tail ⊆ items →
        (collectItems before start (mapTextItems f start tail)).filter (fun leaf => p leaf.2) =
          (collectItems before start tail).filter fun leaf => p leaf.2 := by
      intro tail start hsub
      induction tail generalizing start with
      | nil => rfl
      | cons item tail ihtail =>
        rw [mapTextItems, collectItems, collectItems, List.filter_append, List.filter_append,
          ihtail (start + 1) fun other hother => hsub (List.mem_cons_of_mem _ hother)]
        congr 1
        refine ih item (hsub List.mem_cons_self) fun rest text hp => ?_
        exact h (start.repr :: rest) text (by simpa using hp)
    exact hitems items 0 (List.Subset.refl _)
  | object fields ih =>
    rw [mapText_object, collect, collect]
    have hfields : ∀ tail : List (String × Value), tail ⊆ fields →
        (collectFields before (tail.map fun field =>
            (field.1, mapText (fun path => f (field.1 :: path)) field.2))).filter
              (fun leaf => p leaf.2) =
          (collectFields before tail).filter fun leaf => p leaf.2 := by
      intro tail hsub
      induction tail with
      | nil => rfl
      | cons field tail ihtail =>
        rw [List.map_cons, collectFields, collectFields, List.filter_append, List.filter_append,
          ihtail fun other hother => hsub (List.mem_cons_of_mem _ hother)]
        congr 1
        refine ih field (hsub List.mem_cons_self) fun rest text hp => ?_
        exact h (field.1 :: rest) text (by simpa using hp)
    exact hfields fields (List.Subset.refl _)

/-! ### What is taken out -/

/-- The line with the bounded forms of these strings. -/
def withForms (line : Value) (taken : List Spill) : Value :=
  mapText (setTexts (taken.map fun spill => (spill.path, spill.kept))) line

/-- These are the largest strings of the line; all of them get shorter and are stored. -/
structure Largest (blobs : BlobStore) (line : Value) (taken : List Spill) : Prop where
  first : taken.map (·.path) <+: (candidates line).map (·.2)
  found : ∀ spill ∈ taken, TextAt line spill.path spill.text
  referenced : ∀ spill ∈ taken, blobs.referenceFor spill.text = .ok spill.reference
  shorter : ∀ spill ∈ taken, spill.kept.utf8ByteSize < spill.text.utf8ByteSize
  stored : ∀ spill ∈ taken, blobs.put spill.text = .ok ()

/-- The string behind the `n` largest ones, if there is one, does not get shorter. -/
def NextStays (blobs : BlobStore) (line : Value) (n : Nat) : Prop :=
  ∀ leaf, (candidates line)[n]? = some leaf → ∀ text, TextAt line leaf.2 text →
    ∃ reference, blobs.referenceFor text = .ok reference ∧
      text.utf8ByteSize ≤ (keptText text reference).utf8ByteSize

/-- No fewer of the largest strings bring the line into the budget. -/
def Needed (budget : Nat) (measure : Value → Nat) (line : Value) (taken : List Spill) : Prop :=
  ∀ fewer, fewer <+: taken → fewer ≠ taken → budget < measure (withForms line fewer)

/-- Storing the bytes of a string leaves a shorter one in the line. -/
def Shortens (blobs : BlobStore) (text : String) : Prop :=
  ∃ reference, blobs.referenceFor text = .ok reference ∧
    (keptText text reference).utf8ByteSize < text.utf8ByteSize

/-- Why no more strings are taken out. -/
structure Stops (blobs : BlobStore) (budget : Nat) (measure : Value → Nat) (limit : Nat)
    (line : Value) (taken : List Spill) : Prop where
  largest : Largest blobs line taken
  needed : Needed budget measure line taken
  length : taken.length ≤ limit
  reason : taken.length = limit ∨ measure (withForms line taken) ≤ budget ∨
    NextStays blobs line taken.length

section Stopping

variable {blobs : BlobStore} {budget limit : Nat} {measure : Value → Nat} {line : Value}
  {taken : List Spill}

lemma setTexts_concat (puts : List (List String × String)) (put : List String × String)
    (place : List String) (text : String) :
    setTexts (puts ++ [put]) place text = setText put.1 put.2 place (setTexts puts place text) := by
  induction puts generalizing text with
  | nil => rfl
  | cons first puts ih => exact ih _

lemma withForms_concat (line : Value) (taken : List Spill) (spill : Spill) :
    withForms line (taken ++ [spill]) =
      mapText (setText spill.path spill.kept) (withForms line taken) := by
  rw [withForms, withForms, mapText_mapText, List.map_append]
  congr 1
  funext place text
  exact setTexts_concat _ _ _ _

lemma keyed_withForms (hkeyed : line.Keyed) : (withForms line taken).Keyed := keyed_mapText hkeyed

/-- The paths of the largest strings are those of the first candidates. -/
lemma map_path_eq (h : taken.map (·.path) <+: (candidates line).map (·.2)) :
    taken.map (·.path) = ((candidates line).take taken.length).map (·.2) := by
  have htake := List.prefix_iff_eq_take.mp h
  rwa [List.length_map, ← List.map_take] at htake

lemma names_eq (taken : List Spill) :
    (taken.map Spill.field).map (·.field) = (taken.map (·.path)).map joinPath := by
  simp [Spill.field]

/-- With the largest strings taken out the next candidate is the next string by size. -/
lemma largestCandidate_withForms
    (h : taken.map (·.path) <+: (candidates line).map (·.2)) :
    largestCandidate (withForms line taken) ((taken.map Spill.field).map (·.field)) =
      ((candidates line)[taken.length]?).map (·.2) := by
  rw [largestCandidate_eq, names_eq]
  have hsame : (spillable (withForms line taken)).filter (fun leaf =>
      joinPath leaf.2 ∉ (taken.map (·.path)).map joinPath) =
        (spillable line).filter fun leaf =>
          joinPath leaf.2 ∉ (taken.map (·.path)).map joinPath := by
    rw [spillable, spillable, Drain.filter_insertionSort, Drain.filter_insertionSort,
      List.filter_filter, List.filter_filter]
    congr 1
    -- only strings that are left out were rewritten
    have hcollect := @collect_mapText (fun path =>
      decide (joinPath path ∉ (taken.map (·.path)).map joinPath) && spills path)
      (setTexts (taken.map fun spill => (spill.path, spill.kept))) line [] fun rest text hp => by
        refine setTexts_of_notMem (fun hmem => ?_) text
        rw [Bool.and_eq_true, decide_eq_true_iff] at hp
        refine hp.1 (List.mem_map.mpr ⟨rest, ?_, rfl⟩)
        simpa [Function.comp_def] using hmem
    exact hcollect
  have hnames : (taken.map (·.path)).map joinPath =
      ((candidates line).take taken.length).map fun leaf => joinPath leaf.2 := by
    rw [map_path_eq h, List.map_map]
    rfl
  rw [hsame, hnames, candidates, Keyed.head?_filter_firsts]

/-- A string taken out is at the place of one of the first candidates. -/
lemma mem_paths_of_lt (h : taken.map (·.path) <+: (candidates line).map (·.2)) {index : Nat}
    (hindex : index < taken.length) {leaf : Nat × List String}
    (hleaf : (candidates line)[index]? = some leaf) : leaf.2 ∈ taken.map (·.path) := by
  rw [map_path_eq h]
  refine List.mem_map_of_mem (List.mem_of_getElem? (i := index) ?_)
  rw [List.getElem?_take_of_lt hindex, hleaf]

/-- The candidates stand at different paths. -/
lemma nodup_paths (line : Value) : ((candidates line).map (·.2)).Nodup := by
  have hnames : Keyed.Distinct (joinPath ∘ fun leaf : Nat × List String => leaf.2)
      (candidates line) := Keyed.distinct_firsts (spillable line)
  exact hnames.of_comp

/-- A candidate behind the strings taken out is none of them. -/
lemma path_notMem (h : taken.map (·.path) <+: (candidates line).map (·.2)) {place : Nat}
    (hplace : taken.length ≤ place) {leaf : Nat × List String}
    (hleaf : (candidates line)[place]? = some leaf) : leaf.2 ∉ taken.map (·.path) := by
  rw [map_path_eq h]
  intro hmem
  obtain ⟨other, hother, hpath⟩ := List.mem_map.mp hmem
  obtain ⟨index, hindex⟩ := List.mem_iff_getElem?.mp hother
  have hlt : index < taken.length := by
    by_contra hge
    rw [List.getElem?_take_eq_none (not_lt.mp hge)] at hindex
    simp at hindex
  rw [List.getElem?_take_of_lt hlt] at hindex
  have hboth := (List.nodup_iff_getElem?_ne_getElem?.mp (nodup_paths line)) index place (by omega)
    (by simpa using (List.getElem?_eq_some_iff.mp hleaf).1)
  rw [List.getElem?_map, List.getElem?_map, hindex, hleaf, Option.map_some, Option.map_some,
    hpath] at hboth
  exact hboth rfl

/-- A string that was not taken out is as it was. -/
lemma textAt_of_notMem {path : List String} (hnot : path ∉ taken.map (·.path)) {text : String}
    (htext : TextAt line path text) : TextAt (withForms line taken) path text := by
  have hmapped := @textAt_mapText (setTexts (taken.map fun spill => (spill.path, spill.kept)))
    _ _ _ htext
  rw [setTexts_of_notMem (by simpa [Function.comp_def] using hnot)] at hmapped
  exact hmapped

/-- A candidate is still in the line when the strings before it were taken out. -/
lemma textAt_withForms (h : taken.map (·.path) <+: (candidates line).map (·.2))
    {leaf : Nat × List String} (hleaf : (candidates line)[taken.length]? = some leaf)
    {text : String} (htext : TextAt line leaf.2 text) :
    TextAt (withForms line taken) leaf.2 text :=
  textAt_of_notMem (path_notMem h le_rfl hleaf) htext

lemma exists_textAt (hkeyed : line.Keyed) {leaf : Nat × List String}
    (h : leaf ∈ candidates line) : ∃ text, TextAt line leaf.2 text := by
  have hmem := (Keyed.firsts_sublist _).subset h
  rw [spillable, List.mem_insertionSort, List.mem_filter] at hmem
  obtain ⟨rest, text, hpath, htext, -⟩ := textAt_of_mem_collect hkeyed hmem.1
  rw [List.nil_append] at hpath
  exact ⟨text, hpath ▸ htext⟩

/-- The next string by size is taken out when the line is over the budget and it gets shorter. -/
lemma nextSpill_withForms (h : taken.map (·.path) <+: (candidates line).map (·.2))
    (hover : budget < measure (withForms line taken)) {leaf : Nat × List String}
    (hleaf : (candidates line)[taken.length]? = some leaf) {text reference : String}
    (htext : TextAt line leaf.2 text) (href : blobs.referenceFor text = .ok reference)
    (hshort : (keptText text reference).utf8ByteSize < text.utf8ByteSize) :
    nextSpill blobs budget measure (withForms line taken)
      ((taken.map Spill.field).map (·.field)) = some ⟨leaf.2, text, reference⟩ := by
  rw [nextSpill, if_neg (not_le.mpr hover), largestCandidate_withForms h, hleaf, Option.map_some]
  simp only [lookup_of_textAt (textAt_withForms h hleaf htext), href]
  rw [if_neg (not_le.mpr hshort)]

/-- One more string, the next by size. -/
lemma Largest.concat (h : Largest blobs line taken) {leaf : Nat × List String}
    (hleaf : (candidates line)[taken.length]? = some leaf) {text reference : String}
    (htext : TextAt line leaf.2 text) (href : blobs.referenceFor text = .ok reference)
    (hshort : (keptText text reference).utf8ByteSize < text.utf8ByteSize)
    (hput : blobs.put text = .ok ()) :
    Largest blobs line (taken ++ [⟨leaf.2, text, reference⟩]) := by
  have heach : ∀ {P : Spill → Prop}, (∀ spill ∈ taken, P spill) → P ⟨leaf.2, text, reference⟩ →
      ∀ spill ∈ taken ++ [⟨leaf.2, text, reference⟩], P spill := by
    intro P hall hlast spill hmem
    rcases List.mem_append.mp hmem with hmem | hmem
    · exact hall spill hmem
    · rwa [List.mem_singleton.mp hmem]
  refine ⟨?_, heach h.found htext, heach h.referenced href, heach h.shorter hshort,
    heach h.stored hput⟩
  rw [List.map_append, map_path_eq h.first, List.prefix_iff_eq_take, List.map_singleton]
  have htaken : taken.length < (candidates line).length := (List.getElem?_eq_some_iff.mp hleaf).1
  have hlength : ((candidates line).take taken.length).length = taken.length := by
    rw [List.length_take]
    omega
  rw [List.length_append, List.length_map, hlength, List.length_singleton, ← List.map_take,
    List.take_add_one, hleaf, Option.toList_some, List.map_append, List.map_singleton]

/-- One more string is needed when the line is still over the budget. -/
lemma Needed.concat (h : Needed budget measure line taken)
    (hover : budget < measure (withForms line taken)) {spill : Spill} :
    Needed budget measure line (taken ++ [spill]) := by
  intro fewer hfewer hne
  rcases List.prefix_concat_iff.mp hfewer with heq | hbefore
  · exact absurd heq hne
  · by_cases hsame : fewer = taken
    · rwa [hsame]
    · exact h fewer hbefore hsame

/-- The loop stops where it has to. -/
lemma boundLoop_stopped (h : taken.map (·.path) <+: (candidates line).map (·.2))
    (hkeyed : line.Keyed) {rounds : Nat}
    (hreason : rounds = 0 ∨ measure (withForms line taken) ≤ budget ∨
      NextStays blobs line taken.length) :
    boundLoop blobs budget measure rounds (withForms line taken) (taken.map Spill.field) =
      .ok (withForms line taken, taken.map Spill.field) := by
  cases rounds with
  | zero => rfl
  | succ rounds =>
    rw [boundLoop]
    by_cases hfits : measure (withForms line taken) ≤ budget
    · rw [if_pos hfits]
    · have hstays : NextStays blobs line taken.length := by
        obtain hzero | hfit | hstays := hreason
        · simp at hzero
        · exact absurd hfit hfits
        · exact hstays
      rw [if_neg hfits, largestCandidate_withForms h]
      cases hleaf : (candidates line)[taken.length]? with
      | none => rfl
      | some leaf =>
        obtain ⟨text, htext⟩ := exists_textAt hkeyed (List.mem_of_getElem? hleaf)
        obtain ⟨reference, href, hlong⟩ := hstays leaf hleaf text htext
        simp only [Option.map_some, lookup_of_textAt (textAt_withForms h hleaf htext), href, bind,
          Except.bind]
        rw [if_pos hlong]

/-- The loop takes out the strings it has to. -/
lemma boundLoop_of_stops (hkeyed : line.Keyed) {rest : List Spill} {rounds : Nat}
    (h : Stops blobs budget measure (taken.length + rounds) line (taken ++ rest)) :
    boundLoop blobs budget measure rounds (withForms line taken) (taken.map Spill.field) =
      .ok (withForms line (taken ++ rest), (taken ++ rest).map Spill.field) := by
  induction rest generalizing taken rounds with
  | nil =>
    rw [List.append_nil] at h ⊢
    refine boundLoop_stopped h.largest.first hkeyed ?_
    obtain hlimit | hreason := h.reason
    · exact .inl (by omega)
    · exact .inr hreason
  | cons spill rest ih =>
    have hlength := h.length
    rw [List.length_append, List.length_cons] at hlength
    obtain ⟨rounds, rfl⟩ : ∃ left, rounds = left + 1 := ⟨rounds - 1, by omega⟩
    have hmem : spill ∈ taken ++ spill :: rest := by simp
    have hfirst := h.largest.first
    rw [List.map_append] at hfirst
    have hbefore := (List.prefix_append _ _).trans hfirst
    have hover := h.needed taken (List.prefix_append _ _) (by simp)
    obtain ⟨leaf, hleaf, hpath⟩ : ∃ leaf, (candidates line)[taken.length]? = some leaf ∧
        leaf.2 = spill.path := by
      have hget : ((candidates line).map (·.2))[taken.length]? = some spill.path := by
        refine List.prefix_iff_getElem?.mp hfirst taken.length (by simp) |>.trans ?_
        simp
      rw [List.getElem?_map] at hget
      exact Option.map_eq_some_iff.mp hget
    have hnext : nextSpill blobs budget measure (withForms line taken)
        ((taken.map Spill.field).map (·.field)) = some ⟨leaf.2, spill.text, spill.reference⟩ :=
      nextSpill_withForms hbefore hover hleaf (hpath ▸ h.largest.found spill hmem)
        (h.largest.referenced spill hmem) (h.largest.shorter spill hmem)
    rw [hpath] at hnext
    rw [boundLoop_of_some (keyed_withForms hkeyed) hnext, h.largest.stored spill hmem]
    have hstep := @ih (taken ++ [spill]) rounds (by
      rw [List.append_assoc, List.length_append, List.length_singleton, Nat.add_assoc,
        Nat.add_comm 1]
      exact h)
    rw [withForms_concat, List.map_append, List.append_assoc] at hstep
    exact hstep

/-- What the loop takes out it has to, and it stops for one of its reasons. -/
lemma stops_of_boundLoop (hkeyed : line.Keyed) {rounds : Nat}
    {result : Value × List ExternalizedField} (hlargest : Largest blobs line taken)
    (hneeded : Needed budget measure line taken)
    (h : boundLoop blobs budget measure rounds (withForms line taken) (taken.map Spill.field) =
      .ok result) :
    ∃ all, Stops blobs budget measure (taken.length + rounds) line all ∧
      result = (withForms line all, all.map Spill.field) := by
  induction rounds generalizing taken with
  | zero =>
    exact ⟨taken, ⟨hlargest, hneeded, le_rfl, .inl rfl⟩, (Except.ok.inj h).symm⟩
  | succ rounds ih =>
    have hstop : ∀ reason : measure (withForms line taken) ≤ budget ∨
        NextStays blobs line taken.length, ∃ all,
          Stops blobs budget measure (taken.length + (rounds + 1)) line all ∧
            result = (withForms line all, all.map Spill.field) := by
      intro reason
      rw [boundLoop_stopped hlargest.first hkeyed (.inr reason)] at h
      exact ⟨taken, ⟨hlargest, hneeded, by omega, .inr reason⟩, (Except.ok.inj h).symm⟩
    by_cases hfits : measure (withForms line taken) ≤ budget
    · exact hstop (.inl hfits)
    cases hleaf : (candidates line)[taken.length]? with
    | none =>
      refine hstop (.inr fun leaf hsome => ?_)
      rw [hleaf] at hsome
      simp at hsome
    | some leaf =>
      obtain ⟨text, htext⟩ := exists_textAt hkeyed (List.mem_of_getElem? hleaf)
      cases href : blobs.referenceFor text with
      | error e =>
        rw [boundLoop, if_neg hfits, largestCandidate_withForms hlargest.first, hleaf] at h
        simp [lookup_of_textAt (textAt_withForms hlargest.first hleaf htext), href, bind,
          Except.bind] at h
      | ok reference =>
        by_cases hlong : text.utf8ByteSize ≤ (keptText text reference).utf8ByteSize
        · refine hstop (.inr fun other hother source hsource => ?_)
          obtain rfl := Option.some.inj (hleaf.symm.trans hother)
          obtain rfl := htext.unique hsource
          exact ⟨reference, href, hlong⟩
        · have hnext : nextSpill blobs budget measure (withForms line taken)
              ((taken.map Spill.field).map (·.field)) = some ⟨leaf.2, text, reference⟩ :=
            nextSpill_withForms hlargest.first (not_le.mp hfits) hleaf htext href (not_le.mp hlong)
          rw [boundLoop_of_some (keyed_withForms hkeyed) hnext] at h
          obtain ⟨_, hput, h⟩ := Fallible.bind_eq_ok.mp h
          generalize hspill : (⟨leaf.2, text, reference⟩ : Spill) = spill at h hput
          rw [← withForms_concat] at h
          obtain ⟨all, hall, hresult⟩ := @ih (taken ++ [spill])
            (by subst hspill; exact hlargest.concat hleaf htext href (not_le.mp hlong) hput)
            (hneeded.concat (not_le.mp hfits)) (by rw [List.map_append]; exact h)
          refine ⟨all, ?_, hresult⟩
          rw [List.length_append, List.length_singleton, Nat.add_assoc, Nat.add_comm 1] at hall
          exact hall

/-- **What `bound` takes out of a line**: the largest strings, as many as needed, and why no
more. -/
theorem bound_eq_ok_iff (hkeyed : line.Keyed) {result : Value × List ExternalizedField} :
    bound line blobs budget measure = .ok result ↔
      ∃ taken, Stops blobs budget measure maxSpillsPerLine line taken ∧
        result = (withForms line taken, taken.map Spill.field) := by
  have hstart : withForms line [] = line := mapText_self line
  constructor
  · intro h
    have hnone : Largest blobs line [] :=
      ⟨List.nil_prefix, by simp, by simp, by simp, by simp⟩
    have hneeded : Needed budget measure line [] :=
      fun fewer hfewer hne => absurd (List.prefix_nil.mp hfewer) hne
    have hloop : boundLoop blobs budget measure maxSpillsPerLine (withForms line [])
        (([] : List Spill).map Spill.field) = .ok result := by
      rw [hstart]
      exact h
    obtain ⟨taken, htaken, hresult⟩ := stops_of_boundLoop hkeyed hnone hneeded hloop
    rw [List.length_nil, Nat.zero_add] at htaken
    exact ⟨taken, htaken, hresult⟩
  · rintro ⟨taken, htaken, rfl⟩
    have hloop := @boundLoop_of_stops blobs budget measure line [] hkeyed taken maxSpillsPerLine
      (by rwa [List.length_nil, Nat.zero_add, List.nil_append])
    rw [hstart] at hloop
    exact hloop

/-- Every string of a tree is collected. -/
lemma mem_collect_of_textAt {value : Value} {path before : List String} {text : String}
    (h : TextAt value path text) : (text.utf8ByteSize, before ++ path) ∈ collect before value := by
  induction h generalizing before with
  | here text => simp [collect]
  | @field fields key value path text hget _ ih =>
    have hmem := @ih (before ++ [key])
    rw [List.append_assoc, List.singleton_append] at hmem
    rw [collect]
    obtain ⟨field, hfound, rfl⟩ := Option.map_eq_some_iff.mp hget
    obtain rfl : field.1 = key := by simpa using List.find?_some hfound
    have hfields : ∀ tail : List (String × Value), field ∈ tail →
        (text.utf8ByteSize, before ++ field.1 :: path) ∈ collectFields before tail := by
      intro tail htail
      induction tail with
      | nil => simp at htail
      | cons first tail ihtail =>
        rw [collectFields, List.mem_append]
        rcases List.mem_cons.mp htail with rfl | htail
        · exact .inl hmem
        · exact .inr (ihtail htail)
    exact hfields fields (List.mem_of_find?_eq_some hfound)
  | @item items index value path text hget _ ih =>
    rw [collect]
    have hitems : ∀ (tail : List Value) (start place : Nat), tail[place]? = some value →
        (text.utf8ByteSize, before ++ (start + place).repr :: path) ∈
          collectItems before start tail := by
      intro tail start place hplace
      induction tail generalizing start place with
      | nil => simp at hplace
      | cons first tail ihtail =>
        rw [collectItems, List.mem_append]
        cases place with
        | zero =>
          obtain rfl := Option.some.inj hplace
          have hmem := @ih (before ++ [start.repr])
          rw [List.append_assoc, List.singleton_append] at hmem
          exact .inl hmem
        | succ place =>
          have hlater := ihtail (start + 1) place (by simpa using hplace)
          rw [Nat.add_assoc, Nat.add_comm 1] at hlater
          exact .inr hlater
    have hfirst := hitems items 0 index hget
    rwa [Nat.zero_add] at hfirst

lemma mem_spillable {path : List String} {text : String} (hspills : spills path = true)
    (h : TextAt line path text) : (text.utf8ByteSize, path) ∈ spillable line := by
  rw [spillable, List.mem_insertionSort, List.mem_filter]
  exact ⟨@mem_collect_of_textAt _ _ [] _ h, hspills⟩

lemma spills_of_mem {leaf : Nat × List String} (h : leaf ∈ spillable line) :
    spills leaf.2 = true := by
  rw [spillable, List.mem_insertionSort, List.mem_filter] at h
  exact h.2

/-- A path leads to one string by size. -/
lemma spillable_ext (hkeyed : line.Keyed) {a b : Nat × List String} (ha : a ∈ spillable line)
    (hb : b ∈ spillable line) (h : a.2 = b.2) : a = b := by
  rw [spillable, List.mem_insertionSort, List.mem_filter] at ha hb
  obtain ⟨path, text, hpath, htext, hsize⟩ := textAt_of_mem_collect hkeyed ha.1
  obtain ⟨path', text', hpath', htext', hsize'⟩ := textAt_of_mem_collect hkeyed hb.1
  rw [List.nil_append] at hpath hpath'
  obtain rfl : path = path' := by rw [← hpath, ← hpath', h]
  obtain rfl := htext.unique htext'
  exact Prod.ext (hsize.trans hsize'.symm) h

/-- A string that was taken out is not as it was. -/
lemma not_textAt_of_mem (hlargest : Largest blobs line taken) {path : List String}
    (hmem : path ∈ taken.map (·.path)) {text : String} (htext : TextAt line path text) :
    ¬TextAt (withForms line taken) path text := by
  intro hsame
  obtain ⟨spill, hspill, rfl⟩ := List.mem_map.mp hmem
  obtain rfl := htext.unique (hlargest.found spill hspill)
  have hnodup : ((taken.map fun spill => (spill.path, spill.kept)).map Prod.fst).Nodup := by
    have hpaths : (taken.map (·.path)).Nodup :=
      (nodup_paths line).sublist hlargest.first.sublist
    rwa [List.map_map]
  have hmapped := @textAt_mapText (setTexts (taken.map fun spill => (spill.path, spill.kept)))
    _ _ _ htext
  rw [setTexts_of_mem hnodup (List.mem_map.mpr ⟨spill, hspill, rfl⟩)] at hmapped
  have hshorter := hlargest.shorter spill hspill
  rw [hmapped.unique hsame] at hshorter
  exact lt_irrefl _ hshorter

end Stopping

end Payload

/-! ### The records beside the line -/

/-- The bytes of a line. -/
def lineSize (line : Value) : Nat := (compactLine line).length

/-- The bytes that the records of what was taken out add to a line: their list, its key and the
separators. -/
def recordsSize (externalized : List ExternalizedField) : Nat :=
  if externalized.isEmpty then 0
  else lineSize (externalizedValue externalized) + (utf8Bytes (quoted "externalized")).length + 2

lemma length_printFields_cons (key : String) (value : Value) {fields : List (String × Value)}
    (hne : fields ≠ []) :
    (utf8Bytes (printFields ((key, value) :: fields))).length =
      (utf8Bytes (quoted key)).length + lineSize value + 2 +
        (utf8Bytes (printFields fields)).length := by
  have hcolon : (String.utf8EncodeChar ':').length = 1 := by decide
  have hcomma : (String.utf8EncodeChar ',').length = 1 := by decide
  have hcons : printFields ((key, value) :: fields) =
      quoted key ++ ':' :: (value.print ++ ',' :: printFields fields) := by
    cases fields with
    | nil => exact absurd rfl hne
    | cons field fields => rfl
  rw [hcons]
  simp only [lineSize, compactLine, utf8Bytes, List.flatMap_append, List.flatMap_cons,
    List.length_append, hcolon, hcomma]
  omega

/-- A new field adds its key, its value and two separators. -/
lemma length_printFields_insertField {key : String} (value : Value)
    {fields : List (String × Value)} (hnew : key ∉ fields.map Prod.fst) (hne : fields ≠ []) :
    (utf8Bytes (printFields (insertField key value fields))).length =
      (utf8Bytes (printFields fields)).length + lineSize value + (utf8Bytes (quoted key)).length +
        2 := by
  induction fields with
  | nil => exact absurd rfl hne
  | cons field fields ih =>
    rw [List.map_cons, List.mem_cons, not_or] at hnew
    rw [insertField, if_neg (Ne.symm hnew.1)]
    split_ifs with hlt
    · rw [length_printFields_cons key value (by simp)]
      omega
    · obtain ⟨k, content⟩ := field
      cases fields with
      | nil =>
        have hlast := length_printFields_cons k content (List.cons_ne_nil (key, value) [])
        have hcolon : (String.utf8EncodeChar ':').length = 1 := by decide
        rw [insertField, hlast]
        simp only [printFields, lineSize, compactLine, utf8Bytes, List.flatMap_append,
          List.flatMap_cons, List.length_append, hcolon]
        omega
      | cons next fields =>
        have hrest := ih hnew.2 (by simp)
        have hlast : insertField key value (next :: fields) ≠ [] := by
          intro hnil
          rw [hnil] at hrest
          simp [printFields, utf8Bytes] at hrest
        rw [length_printFields_cons k content hlast, hrest,
          length_printFields_cons k content (by simp)]
        omega

/-- The line that is written is longer by its records. -/
lemma lineSize_storedLine {fields : List (String × Value)} (hne : fields ≠ [])
    (hnew : "externalized" ∉ fields.map Prod.fst) (externalized : List ExternalizedField) :
    lineSize (storedLine (object fields, externalized)) =
      lineSize (object fields) + recordsSize externalized := by
  rw [storedLine, recordsSize]
  split_ifs with hempty
  · rfl
  · have hinsert := length_printFields_insertField (externalizedValue externalized) hnew hne
    simp only [lineSize, setField, compactLine, print, utf8Bytes, List.flatMap_append,
      List.flatMap_cons, List.length_append] at hinsert ⊢
    omega

/-! ### The redacted line -/

/-- Redaction keeps the keys. -/
lemma RedactionPolicy.map_fst_walkFields (policy : RedactionPolicy)
    (fields : List (String × Value)) :
    (policy.walkFields fields).map Prod.fst = fields.map Prod.fst := by
  induction fields with
  | nil => rfl
  | cons field fields ih => simp [walkFields, ih]

lemma keyed_secretFieldValue (value : Value) : (secretFieldValue value).Keyed := by
  rw [secretFieldValue]
  split_ifs <;> rfl

lemma RedactionPolicy.keyed_walkJson (policy : RedactionPolicy) {value : Value}
    (h : value.Keyed) : (policy.walkJson value).Keyed := by
  induction value using Value.ind with
  | null => rfl
  | bool b => rfl
  | int n => rfl
  | float literal => rfl
  | string text => rfl
  | array items ih =>
    rw [keyed_array] at h
    rw [walkJson, walkItems_eq_map, keyed_array]
    intro item hitem
    obtain ⟨source, hsource, rfl⟩ := List.mem_map.mp hitem
    exact ih source hsource (h source hsource)
  | object fields ih =>
    obtain ⟨hnodup, hvalues⟩ := keyed_object.mp h
    rw [walkJson, keyed_object, map_fst_walkFields]
    refine ⟨hnodup, ?_⟩
    clear hnodup h
    induction fields with
    | nil => simp [walkFields]
    | cons field fields ihfields =>
      intro walked hwalked
      rw [walkFields] at hwalked
      rcases List.mem_cons.mp hwalked with rfl | hwalked
      · split_ifs
        · exact keyed_secretFieldValue field.2
        · exact ih field List.mem_cons_self (hvalues field List.mem_cons_self)
      · exact ihfields (fun other h => ih other (List.mem_cons_of_mem _ h))
          (fun other h => hvalues other (List.mem_cons_of_mem _ h)) walked hwalked

/-- The trees that an event carries are those of maps: no object has a key twice. -/
def AgentEvent.Mapped (event : AgentEvent) : Prop :=
  ∀ key value, (key, some value) ∈ event.fields → value.Keyed

namespace TraceJournal

open Payload

variable {journal : TraceJournal} {request : AppendRequest} {seq : EventSeq}

lemma keyed_eventMeta (m : EventMeta) : m.toValue.Keyed := by
  refine keyed_ofObject fun key value hmem => ?_
  simp only [Value.optional, List.mem_cons, Prod.mk.injEq, Option.some.injEq, List.not_mem_nil,
    or_false, Option.map_eq_some_iff, eq_comm (a := some value)] at hmem
  rcases hmem with ⟨-, a, -, rfl⟩ | ⟨-, rfl⟩ | ⟨-, rfl⟩ | ⟨-, a, -, rfl⟩ | ⟨-, rfl⟩ | ⟨-, a, -, rfl⟩ |
    ⟨-, a, -, rfl⟩ | ⟨-, a, -, rfl⟩ | ⟨-, a, -, rfl⟩ | ⟨-, rfl⟩ | ⟨-, rfl⟩ <;> rfl

lemma keyed_entry (h : request.envelope.event.Mapped) :
    (journal.entry request seq).toValue.Keyed := by
  refine keyed_ofObject fun key value hmem => ?_
  rw [entry, List.mem_append, List.mem_append] at hmem
  obtain (hfront | hevent) | hback := hmem
  · simp only [List.mem_cons, Prod.mk.injEq, Option.some.injEq, List.not_mem_nil,
      or_false] at hfront
    obtain ⟨-, rfl⟩ | ⟨-, rfl⟩ := hfront
    · exact keyed_eventMeta _
    · rfl
  · exact h key value hevent
  · simp only [countValue, Value.optional, List.isEmpty_nil, if_true, List.mem_cons, Prod.mk.injEq,
      List.not_mem_nil, or_false, reduceCtorEq, and_false, Option.map_eq_some_iff,
      eq_comm (a := some value)] at hback
    obtain hfalse | ⟨-, hpayload⟩ | ⟨-, a, -, rfl⟩ := hback
    · exact hfalse.elim
    · split_ifs at hpayload
      all_goals
        obtain rfl := Option.some.inj hpayload
        rfl
    · rfl

/-- A tree that a line can start from: an object in map order, with its envelope and without a
record of anything taken out. -/
structure Fresh (fields : List (String × Value)) : Prop where
  keyed : (object fields).Keyed
  order : InMapOrder fields
  bookkeeping : (object fields).get "meta" ≠ none
  unrecorded : (object fields).get "externalized" = none

lemma Fresh.ne_nil {fields : List (String × Value)} (h : Fresh fields) : fields ≠ [] := by
  rintro rfl
  exact h.bookkeeping rfl

lemma Fresh.notMem {fields : List (String × Value)} (h : Fresh fields) :
    "externalized" ∉ fields.map Prod.fst := by
  intro hmem
  obtain ⟨⟨key, value⟩, hfield, rfl⟩ := List.mem_map.mp hmem
  have hget := (get_object_iff (keyed_object.mp h.keyed).1).mpr hfield
  exact absurd (hget.symm.trans h.unrecorded) (by simp)

lemma fresh_entry (h : request.envelope.event.Mapped) :
    Fresh (ofFields (journal.entry request seq).fields) := by
  have hcarries := (journal.entry request seq).carries
  refine ⟨keyed_entry h, inMapOrder_ofFields _, ?_, ?_⟩
  · have hmeta := hcarries ("meta", some (journal.entry request seq).envelope.eventMeta.toValue)
      (by simp [TraceEntry.fields])
    intro hnone
    exact absurd (hmeta.symm.trans hnone) (by simp)
  · exact hcarries ("externalized", none) (by simp [TraceEntry.fields, entry])

/-- Redaction leaves such a tree. -/
lemma Fresh.applyJson {fields : List (String × Value)} (h : Fresh fields)
    (policy : RedactionPolicy) :
    ∃ fields', (policy.applyJson (object fields)).1 = object fields' ∧ Fresh fields' := by
  rw [RedactionPolicy.applyJson]
  split_ifs
  · have hkeys := policy.map_fst_walkFields fields
    have hget : ∀ key, isSecretField key = false →
        (object (policy.walkFields fields)).get key =
          ((object fields).get key).map policy.walkJson :=
      fun key hkey => policy.get_walkJson (object fields) hkey
    refine ⟨policy.walkFields fields, rfl, policy.keyed_walkJson h.keyed, ?_, ?_, ?_⟩
    · have horder := List.pairwise_map.mpr h.order
      rw [← hkeys] at horder
      exact List.pairwise_map.mp horder
    · rw [hget _ (by decide), Ne, Option.map_eq_none_iff]
      exact h.bookkeeping
    · rw [hget _ (by decide), Option.map_eq_none_iff]
      exact h.unrecorded
  · exact ⟨fields, rfl, h⟩

/-- So does the count of the redactions. -/
lemma Fresh.insertField {fields : List (String × Value)} (h : Fresh fields) (n : Nat) :
    Fresh (Value.insertField "redactions" (ofNat n) fields) := by
  have horder := @inMapOrder_insertField "redactions" (ofNat n) _ h.order
  have hnodup := nodup_keys_of_inMapOrder horder
  refine ⟨keyed_object.mpr ⟨hnodup, fun field hfield => ?_⟩, horder, ?_, ?_⟩
  · obtain ⟨key, value⟩ := field
    rcases mem_insertField hfield with hkey | hfield'
    · obtain rfl : key = "redactions" := hkey
      have hget := (get_object_iff hnodup).mpr hfield
      rw [get_insertField_self] at hget
      rw [← Option.some.inj hget]
      exact keyed_ofNat n
    · exact (keyed_object.mp h.keyed).2 _ hfield'
  · rw [get_insertField_ne (by decide)]
    exact h.bookkeeping
  · rw [get_insertField_ne (by decide)]
    exact h.unrecorded

/-- The redacted line is an object to start from. -/
lemma fresh_redactedLine (h : request.envelope.event.Mapped) :
    ∃ fields, journal.redactedLine (journal.entry request seq) = object fields ∧
      Fresh fields := by
  obtain ⟨fields, hfields, hfresh⟩ := (fresh_entry h).applyJson journal.policy
  have hentry : (journal.policy.applyJson (journal.entry request seq).toValue).1 =
      object fields := hfields
  rw [redactedLine, hentry]
  split_ifs
  · exact ⟨_, rfl, hfresh.insertField _⟩
  · exact ⟨fields, rfl, hfresh⟩

/-! ### The budget -/

/-- What an append leaves over the budget: nothing, when `bound` stopped because the line it
measured fits; else no string that it left whole could have been shortened. -/
def KeepsBudget (journal : TraceJournal) (request : AppendRequest) : Prop :=
  ∀ seq blobs bounded externalized, journal.checkedNextSeq = .ok seq →
    request.blobs = some blobs →
    bound (journal.redactedLine (journal.entry request seq)) blobs request.budget lineSize =
      .ok (bounded, externalized) →
    externalized.length < maxSpillsPerLine →
    (lineSize bounded ≤ request.budget →
        ∀ written, journal.encodeEntry request = .ok (seq, written) →
          lineSize written ≤ request.budget) ∧
      (request.budget < lineSize bounded → ∀ path text, spills path = true →
        TextAt (journal.redactedLine (journal.entry request seq)) path text →
        TextAt bounded path text → ¬Shortens blobs text)

/-- Of the largest strings of a line, all of which get shorter, no fewer bring it into the
budget. When these do, there is room for their records, or the line is refused. When these do
not and the next string does not get shorter, then no string gets shorter that stands behind
it, or has the name of a larger one. -/
def RecordsFit (journal : TraceJournal) (request : AppendRequest) : Prop :=
  ∀ seq blobs taken, journal.checkedNextSeq = .ok seq → request.blobs = some blobs →
    let line := journal.redactedLine (journal.entry request seq)
    Largest blobs line taken → Needed request.budget lineSize line taken →
    taken.length < maxSpillsPerLine →
    let size := lineSize (withForms line taken) + recordsSize (taken.map Spill.field)
    (lineSize (withForms line taken) ≤ request.budget →
        size ≤ request.budget ∨ maxJsonlLineBytes < size) ∧
      (request.budget < lineSize (withForms line taken) → NextStays blobs line taken.length →
        (∀ leaf ∈ (candidates line).drop (taken.length + 1), ∀ text, TextAt line leaf.2 text →
          ¬Shortens blobs text) ∧
        ∀ leaf ∈ spillable line, leaf ∉ candidates line → ∀ text, TextAt line leaf.2 text →
          ¬Shortens blobs text)

/-- The line of an append is what `bound` leaves, with its records. -/
lemma boundedLine_of_bound {blobs : BlobStore}
    (hkeyed : (journal.redactedLine (journal.entry request seq)).Keyed) (hblobs : request.blobs = some blobs)
    {result : Value × List ExternalizedField}
    (h : bound (journal.redactedLine (journal.entry request seq)) blobs request.budget lineSize =
      .ok result) : journal.boundedLine request seq = .ok (storedLine result) := by
  unfold boundedLine
  simp only [hblobs]
  by_cases hfits : lineSize (journal.redactedLine (journal.entry request seq)) ≤ request.budget
  · rw [if_pos (show (compactLine _).length ≤ _ from hfits)]
    have hnone : bound (journal.redactedLine (journal.entry request seq)) blobs request.budget
        lineSize = .ok (journal.redactedLine (journal.entry request seq), []) :=
      if_pos hfits
    obtain rfl := Except.ok.inj (hnone.symm.trans h)
    rfl
  · rw [if_neg (show ¬(compactLine _).length ≤ _ from hfits)]
    change (bound _ blobs request.budget lineSize >>= _) = _
    rw [h]
    simp only [bind, Except.bind, storedLine]
    split_ifs with hempty
    · obtain ⟨taken, -, rfl⟩ := (bound_eq_ok_iff hkeyed).mp h
      obtain rfl : taken = [] := by simpa using hempty
      exact congrArg _ (mapText_self _).symm
    · rfl

lemma encodeEntry_of_bound {blobs : BlobStore}
    (hkeyed : (journal.redactedLine (journal.entry request seq)).Keyed) (hseq : journal.checkedNextSeq = .ok seq)
    (hblobs : request.blobs = some blobs) {result : Value × List ExternalizedField}
    (h : bound (journal.redactedLine (journal.entry request seq)) blobs request.budget lineSize =
      .ok result) (written : Value) :
    journal.encodeEntry request = .ok (seq, written) ↔
      lineSize (storedLine result) ≤ maxJsonlLineBytes ∧ written = storedLine result := by
  rw [encodeEntry, hseq]
  simp only [bind, Except.bind, boundedLine_of_bound hkeyed hblobs h]
  rw [← lineSize]
  split_ifs with hlong
  · simp [not_le.mpr hlong]
  · simp [not_lt.mp hlong, eq_comm]

section Promise

variable {blobs : BlobStore} {taken : List Spill}

lemma keyed_redactedLine (h : request.envelope.event.Mapped) :
    (journal.redactedLine (journal.entry request seq)).Keyed := by
  obtain ⟨fields, hfields, hfresh⟩ := @fresh_redactedLine journal request seq h
  rw [hfields]
  exact hfresh.keyed

/-- The line that is written has the bytes of its records besides. -/
lemma lineSize_written (h : request.envelope.event.Mapped)
    (externalized : List ExternalizedField) :
    lineSize (storedLine
        (withForms (journal.redactedLine (journal.entry request seq)) taken, externalized)) =
      lineSize (withForms (journal.redactedLine (journal.entry request seq)) taken) +
        recordsSize externalized := by
  obtain ⟨fields, hfields, hfresh⟩ := @fresh_redactedLine journal request seq h
  rw [hfields, withForms, mapText_object]
  refine lineSize_storedLine ?_ ?_ externalized
  · simpa using hfresh.ne_nil
  · rw [List.map_map]
    exact hfresh.notMem

/-- Every string that may be taken out and was not is the next candidate, one behind it, or has
the name of a candidate. -/
lemma not_shortens_of_stays {line : Value}
    (hfirst : taken.map (·.path) <+: (candidates line).map (·.2))
    (hstays : NextStays blobs line taken.length)
    (hbehind : ∀ leaf ∈ (candidates line).drop (taken.length + 1), ∀ text,
      TextAt line leaf.2 text → ¬Shortens blobs text)
    (hnamed : ∀ leaf ∈ spillable line, leaf ∉ candidates line → ∀ text,
      TextAt line leaf.2 text → ¬Shortens blobs text)
    {path : List String} {text : String} (hspills : spills path = true)
    (htext : TextAt line path text) (hnot : path ∉ taken.map (·.path)) :
    ¬Shortens blobs text := by
  have hmem := mem_spillable hspills htext
  by_cases hcandidate : (text.utf8ByteSize, path) ∈ candidates line
  · obtain ⟨place, hplace⟩ := List.mem_iff_getElem?.mp hcandidate
    rcases lt_trichotomy place taken.length with hlt | rfl | hlt
    · exact absurd (mem_paths_of_lt hfirst hlt hplace) hnot
    · obtain ⟨reference, href, hlong⟩ := hstays _ hplace text htext
      rintro ⟨other, hother, hshort⟩
      obtain rfl := Except.ok.inj (href.symm.trans hother)
      omega
    · refine hbehind (text.utf8ByteSize, path)
        (List.mem_of_getElem? (i := place - (taken.length + 1)) ?_) text htext
      rw [List.getElem?_drop, Nat.add_sub_cancel' hlt]
      exact hplace
  · exact hnamed _ hmem hcandidate text htext

end Promise

/-- **An append keeps its promise about the budget exactly when the records fit** and no string
that gets shorter stands behind one that does not. -/
theorem keepsBudget_iff (journal : TraceJournal) (request : AppendRequest)
    (hmapped : request.envelope.event.Mapped) :
    journal.KeepsBudget request ↔ journal.RecordsFit request := by
  have hkeyed := fun seq => @keyed_redactedLine journal request seq hmapped
  constructor
  · intro h seq blobs taken hseq hblobs line hlargest hneeded hlength size
    have hbound : ∀ reason, bound line blobs request.budget lineSize =
        .ok (withForms line taken, taken.map Spill.field) := fun reason =>
      (bound_eq_ok_iff (hkeyed seq)).mpr
        ⟨taken, ⟨hlargest, hneeded, hlength.le, .inr reason⟩, rfl⟩
    refine ⟨fun hfits => ?_, fun hover hstays => ?_⟩
    · have hresult := hbound (.inl hfits)
      obtain ⟨hwritten, -⟩ := h seq blobs _ _ hseq hblobs hresult (by simpa using hlength)
      have hsize : lineSize (storedLine (withForms line taken, taken.map Spill.field)) = size :=
        lineSize_written hmapped _
      by_contra hneither
      rw [not_or, not_lt] at hneither
      refine hneither.1 (hsize ▸ hwritten hfits _ ?_)
      exact (encodeEntry_of_bound (hkeyed seq) hseq hblobs hresult _).mpr
        ⟨hsize ▸ hneither.2, rfl⟩
    · have hresult := hbound (.inr hstays)
      obtain ⟨-, hleft⟩ := h seq blobs _ _ hseq hblobs hresult (by simpa using hlength)
      have hwhole : ∀ leaf ∈ spillable line, leaf.2 ∉ taken.map (·.path) → ∀ text,
          TextAt line leaf.2 text → ¬Shortens blobs text :=
        fun leaf hleaf hnot text htext =>
          hleft hover leaf.2 text (spills_of_mem hleaf) htext (textAt_of_notMem hnot htext)
      refine ⟨fun leaf hleaf => ?_, fun leaf hleaf hnot => ?_⟩
      · obtain ⟨place, hplace⟩ := List.mem_iff_getElem?.mp hleaf
        rw [List.getElem?_drop] at hplace
        refine hwhole leaf ((Keyed.firsts_sublist _).subset (List.mem_of_getElem? hplace)) ?_
        exact path_notMem hlargest.first (by omega) hplace
      · refine hwhole leaf hleaf fun hmem => hnot ?_
        obtain ⟨other, hother, hpath⟩ := List.mem_map.mp (hlargest.first.subset hmem)
        have hspillable := (Keyed.firsts_sublist _).subset hother
        rwa [← spillable_ext (hkeyed seq) hspillable hleaf hpath]
  · intro h seq blobs bounded externalized hseq hblobs hbound hlength
    obtain ⟨taken, htaken, hresult⟩ := (bound_eq_ok_iff (hkeyed seq)).mp hbound
    obtain ⟨rfl, rfl⟩ := Prod.mk.inj hresult
    rw [List.length_map] at hlength
    obtain ⟨hroom, hbehind⟩ :=
      h seq blobs taken hseq hblobs htaken.largest htaken.needed hlength
    refine ⟨fun hfits written hwritten => ?_, fun hover path text hspills htext hleft => ?_⟩
    · obtain ⟨hbounded, rfl⟩ :=
        (encodeEntry_of_bound (hkeyed seq) hseq hblobs hbound written).mp hwritten
      rw [lineSize_written hmapped] at hbounded ⊢
      exact (hroom hfits).resolve_right (not_lt.mpr hbounded)
    · have hstays : NextStays blobs (journal.redactedLine (journal.entry request seq))
          taken.length := by
        obtain hlimit | hfits | hstays := htaken.reason
        · omega
        · omega
        · exact hstays
      obtain ⟨hlater, hnamed⟩ := hbehind hover hstays
      exact not_shortens_of_stays htaken.largest.first hstays hlater hnamed hspills
        htext fun hmem => not_textAt_of_mem htaken.largest hmem htext hleft

/-- A line within the budget has no records. -/
lemma recordsFit_of_fits (h : ∀ seq, journal.checkedNextSeq = .ok seq →
    lineSize (journal.redactedLine (journal.entry request seq)) ≤ request.budget) :
    journal.RecordsFit request := by
  intro seq blobs taken hseq _ line _ hneeded _ size
  have hfits : lineSize (withForms line []) ≤ request.budget := by
    rw [withForms, List.map_nil]
    exact (congrArg lineSize (mapText_self line)).trans_le (h seq hseq)
  obtain rfl : taken = [] := by
    by_contra hne
    exact absurd hfits (not_le.mpr (hneeded [] List.nil_prefix (Ne.symm hne)))
  exact ⟨fun _ => .inl hfits, fun hover => absurd hfits (not_le.mpr hover)⟩

end TraceJournal

/-! ### A note that is too long with its record -/

namespace NotedLine

open Payload
open WrittenFile (text blob blobs preview_text)

/-- The fields of the line of a note behind its message. -/
def rest : List (String × Value) :=
  [("meta", EventMeta.toValue ⟨"e1", "s", none, some 1, 0, none, none, none, none, "tr", "sp"⟩),
    ("type", string "diagnostic"), ("v", ofNat 1)]

/-- The fields of the line of a note. -/
def fields (message : String) : List (String × Value) :=
  [("level", string "info")] ++ ("message", string message) :: rest

/-- Another message changes the line by its bytes. -/
lemma lineSize_fields (message message' : String) :
    lineSize (object (fields message)) + lineSize (string message') =
      lineSize (object (fields message')) + lineSize (string message) :=
  length_object_swap [("level", string "info")] rest "message" (string message) (string message')

/-- What an append of the note is asked to write. -/
def request (message : String) (budget : Nat) : AppendRequest where
  envelope := ⟨1, ⟨"e1", "s", none, none, 0, none, none, none, none, "tr", "sp"⟩,
    .diagnostic .info message⟩
  rawRef := none
  blobs := some blobs
  budget := budget

def journal : TraceJournal :=
  ⟨"trace.jsonl", LineWriter.create [], RedactionPolicy.disabled, .disabled, none⟩

lemma mapped_request (message : String) (budget : Nat) :
    (request message budget).envelope.event.Mapped := by
  intro key value hmem
  simp only [request, AgentEvent.fields, List.mem_cons, Prod.mk.injEq, Option.some.injEq,
    List.not_mem_nil, or_false] at hmem
  obtain ⟨-, rfl⟩ | ⟨-, rfl⟩ | ⟨-, rfl⟩ := hmem <;> rfl

lemma redactedLine_request (message : String) (budget : Nat) :
    journal.redactedLine (journal.entry (request message budget) 1) = object (fields message) := by
  have hpolicy : journal.policy.applyJson (journal.entry (request message budget) 1).toValue =
      ((journal.entry (request message budget) 1).toValue, 0) := rfl
  have hlevel : ("level" < "message") = True := by decide +kernel
  have htype : ("type" < "level") = False ∧ ("type" < "message") = False := by decide +kernel
  have hv : ("v" < "level") = False ∧ ("v" < "message") = False ∧ ("v" < "type") = False := by
    decide +kernel
  have hmeta : ("meta" < "level") = False ∧ ("meta" < "message") = False ∧
      ("meta" < "type") = True := by decide +kernel
  rw [TraceJournal.redactedLine, hpolicy, if_neg (Nat.lt_irrefl 0)]
  change object (insertField "meta" _ (insertField "v" _ (insertField "type" _
    (insertField "level" _ (insertField "message" _ []))))) = _
  simp only [insertField, hlevel, htype, hv, hmeta, String.reduceEq, if_true, if_false]
  rfl

example : (journal.redactedLine (journal.entry (request "hello" 4096) 1)).get "message" =
    some (string "hello") := by
  decide +kernel

/-- The text, taken out of the note. -/
def spill : Spill := ⟨["message"], text, blob.relativePath⟩

lemma kept_size : spill.kept.utf8ByteSize = 372 := by
  have hkept : spill.kept = keptText text blob.relativePath := rfl
  rw [hkept, keptText, preview_text]
  decide +kernel

/-- A string takes the bytes of what its characters are escaped to, between quotes. -/
lemma lineSize_string (content : String) :
    lineSize (string content) = (utf8Bytes (content.toList.flatMap escapeChar)).length + 2 := by
  rw [lineSize, compactLine, print, quoted, ← List.singleton_append, length_utf8Bytes_append,
    length_utf8Bytes_append]
  have hquote : (utf8Bytes ['"']).length = 1 := by decide
  omega

lemma lineSize_text : lineSize (string text) = 402 := by
  have htext : text.toList = List.replicate 400 'x' := String.toList_ofList
  rw [lineSize_string, htext, length_utf8Bytes_replicate (by decide)]

lemma lineSize_kept : lineSize (string spill.kept) = 374 := by
  have hkept : spill.kept = keptText text blob.relativePath := rfl
  have hsize : text.utf8ByteSize = 400 := by decide +kernel
  have hpreview : (preview text).utf8ByteSize = 256 := by
    rw [preview_text]
    decide +kernel
  have htail : (utf8Bytes (("… [stored " ++ (400 : Nat).repr ++ " bytes in " ++
      blob.relativePath ++ ", " ++ (256 : Nat).repr ++ " bytes shown]").toList.flatMap
        escapeChar)).length = 116 := by decide +kernel
  rw [lineSize_string, hkept, keptText, hsize, hpreview, preview_text]
  simp only [String.append_assoc] at htail ⊢
  rw [String.toList_append, String.toList_ofList, List.flatMap_append, length_utf8Bytes_append,
    length_utf8Bytes_replicate (by decide), htail]

/-- The line with the bounded form is as long as the budget. -/
def budget : Nat := lineSize (object (fields spill.kept))

lemma budget_eq : budget = 525 := by
  have hempty : lineSize (object (fields "")) = 153 := by decide +kernel
  have hnil : lineSize (string "") = 2 := by decide +kernel
  have hswap := lineSize_fields spill.kept ""
  rw [hempty, hnil, lineSize_kept] at hswap
  rw [budget]
  omega

lemma budget_lt : budget < lineSize (object (fields text)) := by
  have hswap := lineSize_fields spill.kept text
  rw [lineSize_text, lineSize_kept] at hswap
  rw [budget]
  omega

lemma withForms_spill : withForms (object (fields text)) [spill] = object (fields spill.kept) := rfl

lemma stops : Stops blobs budget lineSize maxSpillsPerLine (object (fields text)) [spill] := by
  have hcandidates : (candidates (object (fields text))).map (·.2) = [["message"], ["level"]] := by
    decide +kernel
  refine ⟨⟨?_, ?_, ?_, ?_, ?_⟩, ?_, by decide, .inr (.inl ?_)⟩
  · rw [hcandidates]
    exact ⟨[["level"]], rfl⟩
  · intro other hother
    rw [List.mem_singleton.mp hother]
    exact .field rfl (.here text)
  · intro other hother
    rw [List.mem_singleton.mp hother]
    rfl
  · intro other hother
    rw [List.mem_singleton.mp hother]
    exact WrittenFile.kept_lt
  · intro other hother
    rw [List.mem_singleton.mp hother]
    simp [blobs, spill]
  · intro fewer hfewer hne
    rcases List.prefix_concat_iff.mp (show fewer <+: [] ++ [spill] from hfewer) with heq | hnil
    · exact absurd heq hne
    · rw [List.prefix_nil.mp hnil]
      exact budget_lt
  · rw [withForms_spill]
    exact le_rfl

end NotedLine

open NotedLine in
/-- A short note keeps its promise. -/
theorem keepsBudget_iff_short : NotedLine.journal.KeepsBudget (request "hello" 4096) := by
  refine (TraceJournal.keepsBudget_iff NotedLine.journal (request "hello" 4096)
    (mapped_request _ _)).mpr (TraceJournal.recordsFit_of_fits fun seq hseq => ?_)
  obtain rfl : 1 = seq := Except.ok.inj hseq
  have hsize : lineSize (object (fields "hello")) = 158 := by decide +kernel
  rw [redactedLine_request, hsize]
  decide

open NotedLine Payload in
/-- The line fits the budget when it is measured, and is longer with its record. -/
theorem record_exceeds_budget :
    ¬ ∀ (journal : TraceJournal) (request : AppendRequest), request.envelope.event.Mapped →
      journal.KeepsBudget request := by
  intro h
  have hline := redactedLine_request WrittenFile.text budget
  have hkeyed := @TraceJournal.keyed_redactedLine journal (request WrittenFile.text budget) 1
    (mapped_request _ _)
  have hbound := (Payload.bound_eq_ok_iff (hline ▸ hkeyed)).mpr ⟨[spill], stops, rfl⟩
  rw [withForms_spill, ← hline] at hbound
  have hkeeps := h journal (request WrittenFile.text budget) (mapped_request _ _) 1
    WrittenFile.blobs _ _ rfl rfl hbound (by decide)
  have hwritten := @lineSize_storedLine (fields spill.kept) (by simp [fields])
    (by simp [fields, rest]) ([spill].map Spill.field)
  have hrecord : recordsSize ([spill].map Spill.field) = 150 := by
    rw [List.map_singleton, Spill.field, kept_size]
    decide +kernel
  have hsize : lineSize (object (fields spill.kept)) = 525 := budget_eq
  rw [hsize, hrecord] at hwritten
  have hencode := (TraceJournal.encodeEntry_of_bound hkeyed rfl rfl hbound
    (storedLine (object (fields spill.kept), [spill].map Spill.field))).mpr
    ⟨by rw [hwritten]; decide, rfl⟩
  have hle := hkeeps.1 le_rfl _ hencode
  rw [hwritten] at hle
  have hbudget : (request WrittenFile.text budget).budget = 525 := budget_eq
  rw [hbudget] at hle
  omega

end Rupi
