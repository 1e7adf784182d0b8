import Rupi.Store.Externalize
import Rupi.Store.LineBounds

/-!
Bounding a line and restoring the event from it.

- `Serves`: a blob store that gives back what was put into it.
- `Restores`: the stored line reads back, and restoring gives the event it was written for.
- `AgentEvent.fixed_fields`: only tool arguments and metadata have keys of their own.
- **`restores_iff`**: bounding a line and restoring it gives the event back exactly when
  its references survive and no string was taken out below an empty key or one with a
  separator.
- `slashedArgument_lost`: a tool argument whose key is a path.
-/

namespace Rupi

open Value Fallible Payload

/-- A blob store that gives back what was put under a reference, with references of its
own layout, and an event decoder that is the reader of events. -/
structure Serves (blobs : BlobStore) (reader : BlobReader) : Prop where
  form : ∀ text reference, blobs.referenceFor text = .ok reference →
    ∃ blob : BlobRef, reference = blob.relativePath
  returns : ∀ text reference, blobs.referenceFor text = .ok reference →
    blobs.put text = .ok () → reader.getRelativeVerified reference = .ok (utf8Bytes text.toList)
  decodes : ∀ value event,
    reader.decodeEvent value = .ok event ↔ AgentEvent.ofValue value = some event

/-- The stored line reads back, with its envelope, and restoring gives the event. -/
def Restores (session : SessionId) (reader : BlobReader) (line : Value) (entry : TraceEntry) :
    Prop :=
  ∃ stored, TraceEntry.ofValue line = some stored ∧
    stored.envelope.eventMeta = entry.envelope.eventMeta ∧
      restoreExternalizedEvent session reader stored = .ok entry.event

/-! ### What stays of the strings that are taken out -/

namespace Payload

/-- The bounded form of a string that is taken out, and any other string as it is. -/
def keep (taken : List Spill) (path : List String) (text : String) : String :=
  match taken.find? fun spill => spill.path = path ∧ spill.text = text with
  | some spill => spill.kept
  | none => text

lemma keep_of_mem {taken : List Spill} (hnodup : (taken.map (·.path)).Nodup) {spill : Spill}
    (h : spill ∈ taken) : keep taken spill.path spill.text = spill.kept := by
  rw [keep]
  cases hfind : taken.find? fun other => other.path = spill.path ∧ other.text = spill.text with
  | none => exact absurd (List.find?_eq_none.mp hfind spill h) (by simp)
  | some other =>
    obtain ⟨hpath, -⟩ : other.path = spill.path ∧ other.text = spill.text := by
      simpa using List.find?_some hfind
    rw [List.inj_on_of_nodup_map hnodup (List.mem_of_find?_eq_some hfind) h hpath]

lemma keep_of_notMem {taken : List Spill} {path : List String}
    (h : path ∉ taken.map (·.path)) (text : String) : keep taken path text = text := by
  rw [keep]
  cases hfind : taken.find? fun other => other.path = path ∧ other.text = text with
  | none => rfl
  | some other =>
    obtain ⟨hpath, -⟩ : other.path = path ∧ other.text = text := by
      simpa using List.find?_some hfind
    exact absurd (List.mem_map.mpr ⟨other, List.mem_of_find?_eq_some hfind, hpath⟩) h

lemma keeps_keep {taken : List Spill}
    (h : ∀ spill ∈ taken, spills spill.path = true ∧ previewBytes < spill.text.utf8ByteSize ∧
      ∃ blob : BlobRef, spill.reference = blob.relativePath) : Keeps (keep taken) := by
  intro path text
  rw [keep]
  cases hfind : taken.find? fun other => other.path = path ∧ other.text = text with
  | none => exact Or.inl rfl
  | some spill =>
    obtain ⟨rfl, rfl⟩ : spill.path = path ∧ spill.text = text := by
      simpa using List.find?_some hfind
    obtain ⟨hspills, hlong, blob, href⟩ := h spill (List.mem_of_find?_eq_some hfind)
    exact Or.inr ⟨hspills, hlong, blob, by rw [← href]; rfl⟩

/-- What stays in a line of the strings taken out of it, one rewrite for all of them. -/
lemma mapText_keep {line : Value} (hkeyed : line.Keyed) {taken : List Spill}
    (htexts : ∀ spill ∈ taken, TextAt line spill.path spill.text)
    (hnodup : (taken.map (·.path)).Nodup) :
    mapText (setTexts (taken.map fun spill => (spill.path, spill.kept))) line =
      mapText (keep taken) line := by
  refine mapText_congr hkeyed fun path text htext => ?_
  have hpaths : (taken.map fun spill => (spill.path, spill.kept)).map Prod.fst =
      taken.map (·.path) := by
    rw [List.map_map]
    rfl
  by_cases hmem : path ∈ taken.map (·.path)
  · obtain ⟨spill, hspill, rfl⟩ := List.mem_map.mp hmem
    obtain rfl := (htexts spill hspill).unique htext
    rw [keep_of_mem hnodup hspill]
    exact setTexts_of_mem (hpaths ▸ hnodup) (List.mem_map.mpr ⟨spill, hspill, rfl⟩) _
  · rw [keep_of_notMem hmem, setTexts_of_notMem (hpaths ▸ hmem)]

/-- Putting back what was taken out undoes the rewrite. -/
lemma mapText_restored {line : Value} (hkeyed : line.Keyed) {taken : List Spill}
    (htexts : ∀ spill ∈ taken, TextAt line spill.path spill.text)
    (hnodup : (taken.map (·.path)).Nodup) :
    mapText (setTexts (taken.map fun spill => (spill.path, spill.text)))
      (mapText (keep taken) line) = line := by
  have hpaths : (taken.map fun spill => (spill.path, spill.text)).map Prod.fst =
      taken.map (·.path) := by
    rw [List.map_map]
    rfl
  rw [mapText_mapText]
  refine mapText_eq_self hkeyed fun path text htext => ?_
  by_cases hmem : path ∈ taken.map (·.path)
  · obtain ⟨spill, hspill, rfl⟩ := List.mem_map.mp hmem
    obtain rfl := (htexts spill hspill).unique htext
    exact setTexts_of_mem (hpaths ▸ hnodup) (List.mem_map.mpr ⟨spill, hspill, rfl⟩) _
  · rw [setTexts_of_notMem (hpaths ▸ hmem), keep_of_notMem hmem]

end Payload

/-! ### Putting the fields back -/

lemma fromUtf8_utf8Bytes (text : String) : fromUtf8 (utf8Bytes text.toList) = some text := by
  have hbytes : (⟨(utf8Bytes text.toList).toArray⟩ : ByteArray) = text.toByteArray := by
    rw [← String.utf8Encode_toList, List.utf8Encode]
    ext1
    simp [utf8Bytes]
  rw [fromUtf8, hbytes, String.fromUTF8?, dif_pos text.isValidUTF8]
  rfl

section Restoring

variable {session : SessionId} {blobs : BlobStore} {reader : BlobReader}

/-- One string goes back to the plain path it was taken from. -/
lemma restoreField_eq (hserves : Serves blobs reader) {spill : Spill} {value : Value}
    {names : List String} {text : String} (hkeyed : value.Keyed)
    (htext : TextAt value spill.path text) (hspills : spills spill.path = true)
    (hplain : Plain spill.path) (hlong : previewBytes < spill.text.utf8ByteSize)
    (href : blobs.referenceFor spill.text = .ok spill.reference)
    (hput : blobs.put spill.text = .ok ()) (hnew : joinPath spill.path ∉ names) :
    restoreField session reader (value, names) spill.field =
      .ok (mapText (setText spill.path spill.text) value, joinPath spill.path :: names) := by
  obtain ⟨first, rest, hpath, -⟩ := exists_segment_of_spills hspills
  have hbytes := hserves.returns _ _ href hput
  have htaken : externalizedText session reader spill.field = .ok spill.text := by
    simp [externalizedText, Spill.field, hbytes, length_utf8Bytes, ensure, fromUtf8_utf8Bytes,
      bind, Except.bind]
  have hsegments := pathSegments_joinPath hplain (by rw [hpath]; simp)
  have hreplace : replaceStringField value (joinPath spill.path) spill.text =
      some (mapText (setText spill.path spill.text) value) := by
    rw [replaceStringField, hsegments]
    rw [hpath] at htext ⊢
    exact replace_of_textAt htext hkeyed _
  have hsize : spill.text.utf8ByteSize ≠ 0 := by omega
  have hguard : spill.field.bytes ≠ 0 ∧ spill.field.field ∉ (value, names).2 := ⟨hsize, hnew⟩
  have hfield : replaceStringField value spill.field.field spill.text =
      some (mapText (setText spill.path spill.text) value) := hreplace
  simp only [restoreField, ensure, if_pos hguard, bind, Except.bind, htaken, hfield]
  rfl

/-- All strings go back, each to the plain path it was taken from. -/
lemma scan_restoreField (hserves : Serves blobs reader) {taken : List Spill} {value : Value}
    {names : List String} (hkeyed : value.Keyed)
    (htexts : ∀ spill ∈ taken, ∃ text, TextAt value spill.path text)
    (hspills : ∀ spill ∈ taken, spills spill.path = true ∧
      previewBytes < spill.text.utf8ByteSize ∧
        blobs.referenceFor spill.text = .ok spill.reference ∧ blobs.put spill.text = .ok ())
    (hplain : ∀ spill ∈ taken, Plain spill.path)
    (hnodup : (taken.map (joinPath ·.path)).Nodup)
    (hnew : ∀ spill ∈ taken, joinPath spill.path ∉ names) :
    ∃ names', scan (restoreField session reader) (value, names) (taken.map Spill.field) =
      .ok (mapText (setTexts (taken.map fun spill => (spill.path, spill.text))) value, names') := by
  induction taken generalizing value names with
  | nil =>
    have hself : mapText (setTexts []) value = value := mapText_self value
    exact ⟨names, by rw [List.map_nil, scan_nil, List.map_nil, hself]⟩
  | cons spill taken ih =>
    obtain ⟨hhead, htail⟩ := List.nodup_cons.mp hnodup
    obtain ⟨text, htext⟩ := htexts spill List.mem_cons_self
    obtain ⟨hspill, hlong, href, hput⟩ := hspills spill List.mem_cons_self
    have hstep := @restoreField_eq session _ _ hserves _ _ _ _ hkeyed htext hspill
      (hplain spill List.mem_cons_self) hlong href hput (hnew spill List.mem_cons_self)
    have hrest : ∀ other ∈ taken, joinPath other.path ∉ joinPath spill.path :: names := by
      intro other hother
      rw [List.mem_cons, not_or]
      refine ⟨fun heq => hhead ?_, hnew other (List.mem_cons_of_mem _ hother)⟩
      exact List.mem_map.mpr ⟨other, hother, heq⟩
    obtain ⟨names', hscan⟩ := @ih (mapText (setText spill.path spill.text) value) _
      (keyed_mapText hkeyed)
      (fun other hother => by
        obtain ⟨text, htext⟩ := htexts other (List.mem_cons_of_mem _ hother)
        exact ⟨_, textAt_mapText htext⟩)
      (fun other hother => hspills other (List.mem_cons_of_mem _ hother))
      (fun other hother => hplain other (List.mem_cons_of_mem _ hother)) htail hrest
    refine ⟨names', ?_⟩
    rw [List.map_cons, scan_cons, hstep, ok_bind, hscan, mapText_mapText]
    rfl

lemma restoreField_ok {s s' : Value × List String} {field : ExternalizedField}
    (h : restoreField session reader s field = .ok s') :
    ∃ content, replaceStringField s.1 field.field content = some s'.1 := by
  unfold restoreField at h
  simp only [bind_eq_ok, ensure_eq_ok, exists_const] at h
  obtain ⟨-, content, -, h⟩ := h
  refine ⟨content, ?_⟩
  cases hreplace : replaceStringField s.1 field.field content with
  | none => simp [hreplace] at h
  | some value =>
    simp only [hreplace] at h
    obtain rfl := Except.ok.inj h
    rfl

/-- A string on a path that is not plain is never put back. -/
lemma textAt_scan_restoreField {fields : List ExternalizedField} {s s' : Value × List String}
    {path : List String} {text : String} (htext : TextAt s.1 path text) (hpath : ¬Plain path)
    (h : scan (restoreField session reader) s fields = .ok s') : TextAt s'.1 path text := by
  have hstep : ∀ (s : Value × List String) (field : ExternalizedField) (s' : Value × List String),
      TextAt s.1 path text → restoreField session reader s field = .ok s' →
        TextAt s'.1 path text := by
    intro s field s' htext hfield
    obtain ⟨content, hreplace⟩ := restoreField_ok hfield
    exact textAt_replaceStringField htext hpath hreplace
  exact scan_invariant hstep htext h

end Restoring

/-! ### Where the keys of a line come from -/

namespace Payload

/-- A tree whose long strings stand on plain paths. -/
def Fixed (value : Value) : Prop :=
  ∀ path text, TextAt value path text → previewBytes < text.utf8ByteSize → Plain path

lemma Short.fixed {value : Value} (h : Short value) : Fixed value :=
  fun _ _ htext hlong => absurd (h.2 _ _ htext) (not_le.mpr hlong)

lemma fixed_string (text : String) : Fixed (.string text) := by
  intro path text' htext _
  rw [(textAt_string.mp htext).1]
  simp [Plain]

lemma fixed_null : Fixed .null := fun _ _ h => by cases h

lemma fixed_bool (b : Bool) : Fixed (.bool b) := fun _ _ h => by cases h

lemma fixed_int (n : Int) : Fixed (.int n) := fun _ _ h => by cases h

lemma fixed_ofNat (n : Nat) : Fixed (ofNat n) := fixed_int n

lemma fixed_ofObject {fields : List (String × Option Value)}
    (hkeys : ∀ field ∈ fields, field.1 ≠ "" ∧ '/' ∉ field.1.toList)
    (h : ∀ field ∈ fields, ∀ value ∈ field.2, Fixed value) : Fixed (ofObject fields) := by
  intro path text htext hlong
  obtain ⟨key, value, rest, rfl, hmem, htext⟩ := mem_of_textAt_ofObject htext
  exact plain_cons.mpr ⟨hkeys _ hmem, h _ hmem value rfl rest text htext hlong⟩

end Payload

lemma ExternalContextSource.fixed (source : ExternalContextSource) : Fixed source.toValue := by
  refine fixed_ofObject (by simp +decide) ?_
  simp [fixed_string]

lemma BlobRef.fixed (blob : BlobRef) : Fixed blob.toValue := by
  refine fixed_ofObject (by simp +decide) ?_
  have hcompression := blob.compression.short.fixed
  by_cases hnone : blob.compression = .none <;>
    simp [fixed_string, fixed_ofNat, Value.optional, hnone, hcompression]

lemma SessionEndReason.fixed (reason : SessionEndReason) : Fixed reason.toValue := by
  cases reason with
  | userExit => exact fixed_string _
  | restart => exact fixed_string _
  | fatal message =>
    refine fixed_ofObject (by simp +decide) ?_
    simpa using fixed_ofObject (by simp +decide) (by simpa using fixed_string message)
  | interrupted message =>
    refine fixed_ofObject (by simp +decide) ?_
    simpa using fixed_ofObject (by simp +decide) (by simpa using fixed_string message)

namespace AgentEvent

/-- The fields of an event whose keys the event brings itself. -/
def ownKeys : AgentEvent → List (String × Option Value)
  | toolRequested e => [("arguments", some e.arguments)]
  | externalContextRetrieved e => [("metadata", metadataValue e.metadata)]
  | _ => []

lemma nodup_keys (event : AgentEvent) : (event.fields.map Prod.fst).Nodup := by
  cases event <;> simp [fields]

/-- The tree of an event reads back as the event. -/
lemma ofValue_ofObject {event : AgentEvent} (hrefs : ∀ model ∈ event.modelRefs, model.Parsed)
    (horder : InMapOrder event.metadata) : ofValue (ofObject event.fields) = some event :=
  ofValue_of_carries (carries_ofObject event.nodup_keys) hrefs horder

lemma plain_fields (event : AgentEvent) :
    ∀ field ∈ event.fields, field.1 ≠ "" ∧ '/' ∉ field.1.toList := by
  cases event <;> simp +decide [fields]

/-- Only tool arguments and metadata have keys of their own. -/
theorem fixed_fields (event : AgentEvent) :
    ∀ field ∈ event.fields, field ∈ event.ownKeys ∨ ∀ value ∈ field.2, Fixed value := by
  have hcount : ∀ n value, countValue n = some value → Fixed value := by
    intro n value hvalue
    rw [countValue] at hvalue
    split_ifs at hvalue
    obtain rfl := Option.some.inj hvalue
    exact fixed_ofNat n
  have htext : ∀ text, Fixed (nullable string text) := by
    intro text
    cases text with
    | none => exact fixed_null
    | some text => exact fixed_string text
  have hblob : ∀ blob, Fixed (nullable BlobRef.toValue blob) := by
    intro blob
    cases blob with
    | none => exact fixed_null
    | some blob => exact blob.fixed
  have hmodel : ∀ model : ModelRef, Fixed model.toValue := fun model => fixed_string _
  have hgaps : ∀ gaps : List CapabilityGap, Fixed (array (gaps.map CapabilityGap.toValue)) :=
    fun gaps => (short_array (by simpa using fun gap _ => CapabilityGap.short gap)).fixed
  cases event with
  | contextReduced e =>
    simp [fields, Value.optional, fixed_string, fixed_ofNat, BlobRef.fixed,
      (ReductionReason.short _).fixed]
    exact ⟨Or.inr (hcount _), Or.inr (hcount _)⟩
  | _ =>
    simp [fields, ownKeys, Value.optional, fixed_string, fixed_ofNat, fixed_bool, fixed_int,
      htext, hblob, hmodel, hgaps, BlobRef.fixed, SessionEndReason.fixed,
      ExternalContextSource.fixed, (ReasoningProvenance.short _).fixed,
      (ToolExecutionState.short _).fixed, (EpochReason.short _).fixed, (ContextLevel.short _).fixed,
      (ModelFailureKind.short _).fixed, (DiagnosticLevel.short _).fixed,
      (TurnStatus.short _).fixed, (ModelCapabilities.short _).fixed]

/-- The arguments of a requested call are read as they stand. -/
lemma arguments_of_ofValue {value : Value} {e : ToolRequested}
    (h : ofValue value = some (toolRequested e)) : value.get "arguments" = some e.arguments := by
  obtain ⟨type, -, htag⟩ := Option.bind_eq_some_iff.mp h
  unfold ofTag at htag
  split at htag
  case h_10 =>
    obtain ⟨e, he, heq⟩ := Option.map_eq_some_iff.mp htag
    obtain rfl := AgentEvent.toolRequested.inj heq
    simp only [ToolRequested.ofValue, Option.bind_eq_bind, Option.bind_eq_some_iff] at he
    obtain ⟨_, -, _, -, arguments, harguments, _, -, he⟩ := he
    obtain rfl := Option.some.inj he
    exact harguments
  all_goals simp [Option.bind_eq_some_iff] at htag

lemma metadata_of_ofValue {value : Value} {e : ExternalContextRetrieved}
    (h : ofValue value = some (externalContextRetrieved e)) :
    defaulted readMetadata [] value "metadata" = some e.metadata := by
  obtain ⟨type, -, htag⟩ := Option.bind_eq_some_iff.mp h
  unfold ofTag at htag
  split at htag
  case h_15 =>
    obtain ⟨e, he, heq⟩ := Option.map_eq_some_iff.mp htag
    obtain rfl := AgentEvent.externalContextRetrieved.inj heq
    simp only [ExternalContextRetrieved.ofValue, Option.bind_eq_bind, Option.bind_eq_some_iff]
      at he
    obtain ⟨_, -, _, -, _, -, _, -, metadata, hmetadata, he⟩ := he
    obtain rfl := Option.some.inj he
    exact hmetadata
  all_goals simp [Option.bind_eq_some_iff] at htag

lemma mem_of_mapM_text {fields : List (String × Value)} {metadata : List (String × String)}
    (h : fields.mapM (fun field => field.2.asText.map fun text => (field.1, text)) = some metadata)
    {field : String × Value} (hmem : field ∈ fields) :
    ∃ text, field.2 = .string text ∧ (field.1, text) ∈ metadata := by
  induction fields generalizing metadata with
  | nil => simp at hmem
  | cons head fields ih =>
    rw [List.mapM_cons] at h
    obtain ⟨entry, hentry, h⟩ := Option.bind_eq_some_iff.mp h
    obtain ⟨entries, hentries, h⟩ := Option.bind_eq_some_iff.mp h
    obtain rfl := Option.some.inj h
    rcases List.mem_cons.mp hmem with rfl | hmem
    · obtain ⟨text, htext, rfl⟩ := Option.map_eq_some_iff.mp hentry
      cases hvalue : field.2 with
      | string content =>
        rw [hvalue] at htext
        obtain rfl := Option.some.inj htext
        exact ⟨content, rfl, List.mem_cons_self⟩
      | _ => simp [hvalue, asText] at htext
    · obtain ⟨text, hvalue, hin⟩ := ih hentries hmem
      exact ⟨text, hvalue, List.mem_cons_of_mem _ hin⟩

/-- The strings of metadata are its entries. -/
lemma mem_of_readMetadata {value : Value} {metadata : List (String × String)}
    (h : readMetadata value = some metadata) {path : List String} {text : String}
    (htext : TextAt value path text) : ∃ key, path = [key] ∧ (key, text) ∈ metadata := by
  cases value with
  | object fields =>
    obtain ⟨key, content, rest, rfl, hget, hrest⟩ := textAt_object.mp htext
    obtain ⟨field, hfield, rfl⟩ := Option.map_eq_some_iff.mp hget
    have hkey : field.1 = key := by simpa using List.find?_some hfield
    obtain ⟨text', hvalue, hin⟩ := mem_of_mapM_text h (List.mem_of_find?_eq_some hfield)
    rw [hvalue] at hrest
    obtain ⟨rfl, rfl⟩ := textAt_string.mp hrest
    exact ⟨key, rfl, hkey ▸ hin⟩
  | _ => simp [readMetadata] at h

/-- A long string below a key of the event's own is the one that the event was read
with. -/
lemma text_eq_of_ofValue {event : AgentEvent} (horder : InMapOrder event.metadata)
    {value : Value} (h : ofValue value = some event) {path : List String} {text text' : String}
    (htext : TextAt (ofObject event.fields) path text) (hlong : previewBytes < text.utf8ByteSize)
    (hplain : ¬Plain path) (htext' : TextAt value path text') : text' = text := by
  obtain ⟨key, content, rest, rfl, hmem, hcontent⟩ := mem_of_textAt_ofObject htext
  rcases event.fixed_fields _ hmem with hown | hfixed
  · -- an array has no fields, so the line is an object
    have hread : ∃ found, value.get key = some found ∧ TextAt found rest text' := by
      generalize hpath : key :: rest = path at htext'
      cases htext' with
      | here text => simp at hpath
      | field hget hfound =>
        obtain ⟨rfl, rfl⟩ := List.cons.inj hpath
        exact ⟨_, hget, hfound⟩
      | item hget hfound =>
        simp [ofValue, required, Value.get] at h
    obtain ⟨found, hget, hfound⟩ := hread
    cases event with
    | toolRequested e =>
      simp only [ownKeys, List.mem_singleton, Prod.mk.injEq, Option.some.injEq] at hown
      obtain ⟨rfl, rfl⟩ := hown
      obtain rfl := Option.some.inj ((arguments_of_ofValue h).symm.trans hget)
      exact hfound.unique hcontent
    | externalContextRetrieved e =>
      simp only [ownKeys, List.mem_singleton, Prod.mk.injEq] at hown
      obtain ⟨rfl, hvalue⟩ := hown
      have hread := metadata_of_ofValue h
      rw [defaulted, hget] at hread
      have horiginal := (readDefault_metadata e.metadata).mpr horder
      rw [← hvalue] at horiginal
      obtain ⟨name, rfl, hin⟩ := mem_of_readMetadata hread hfound
      obtain ⟨name', hname, hin'⟩ := mem_of_readMetadata horiginal hcontent
      obtain rfl := List.cons.inj hname |>.1
      have hnodup := nodup_keys_of_inMapOrder horder
      exact congrArg Prod.snd (List.inj_on_of_nodup_map hnodup hin hin' rfl)
    | _ => simp [ownKeys] at hown
  · exact absurd (plain_cons.mpr ⟨event.plain_fields _ hmem,
      hfixed content rfl rest text hcontent hlong⟩) hplain

end AgentEvent

/-! ### The round trip -/

section RoundTrip

variable {session : SessionId} {blobs : BlobStore} {reader : BlobReader} {budget : Nat}
  {measure : Value → Nat} {entry : TraceEntry}

/-- A string that is taken out of a line is a string of its event. -/
lemma textAt_event {path : List String} {text : String} (htext : TextAt entry.toValue path text)
    (hspills : spills path = true) :
    TextAt (ofObject entry.envelope.event.fields) path text := by
  obtain ⟨key, value, rest, rfl, hmem, hrest⟩ := mem_of_textAt_ofObject htext
  obtain ⟨first, rest', hpath, hfirst⟩ := exists_segment_of_spills hspills
  obtain ⟨rfl, -⟩ := List.cons.inj hpath
  refine textAt_ofObject entry.envelope.event.nodup_keys ?_ hrest
  rw [List.mem_append, List.mem_append] at hmem
  rcases hmem with (hmem | hmem) | hmem
  · simp only [List.mem_cons, Prod.mk.injEq, List.not_mem_nil, or_false] at hmem
    rcases hmem with ⟨rfl, -⟩ | ⟨rfl, -⟩ <;> exact absurd (by decide) hfirst
  · exact hmem
  · simp only [List.mem_cons, Prod.mk.injEq, List.not_mem_nil, or_false] at hmem
    rcases hmem with ⟨rfl, -⟩ | ⟨rfl, -⟩ | ⟨rfl, -⟩ | ⟨rfl, -⟩ <;> exact absurd (by decide) hfirst

lemma keyed_event (hkeyed : entry.toValue.Keyed) :
    (ofObject entry.envelope.event.fields).Keyed := by
  refine keyed_ofObject fun key value hmem => ?_
  have hfields : (key, some value) ∈ entry.fields := by
    rw [TraceEntry.fields]
    exact List.mem_append_left _ (List.mem_append_right _ hmem)
  have hget := carries_ofObject entry.nodup_keys _ hfields
  have hobject := keyed_object.mp hkeyed
  exact hobject.2 _ ((get_object_iff hobject.1).mp hget)

/-- The strings that are taken out of the line of an entry, all that is needed of them. -/
lemma taken_spec (hserves : Serves blobs reader) (hkeyed : entry.toValue.Keyed)
    {bounded : Value × List ExternalizedField}
    (hbound : bound entry.toValue blobs budget measure = .ok bounded) :
    let out := taken entry.toValue blobs budget measure
    bounded = (mapText (keep out) entry.toValue, out.map Spill.field) ∧ Keeps (keep out) ∧
      (out.map (joinPath ·.path)).Nodup ∧ (out.map (·.path)).Nodup ∧
      ∀ spill ∈ out, TextAt entry.toValue spill.path spill.text ∧ spills spill.path = true ∧
        previewBytes < spill.text.utf8ByteSize ∧
        spill.kept.utf8ByteSize < spill.text.utf8ByteSize ∧
        blobs.referenceFor spill.text = .ok spill.reference ∧ blobs.put spill.text = .ok () := by
  obtain ⟨hspec, hjoined⟩ := @spillsOf_spec blobs budget measure maxSpillsPerLine _ hkeyed []
  obtain ⟨hline, hfields, hputs⟩ := bound_eq hkeyed hbound
  have hpaths : ((taken entry.toValue blobs budget measure).map (·.path)).Nodup := by
    refine List.Nodup.of_map joinPath ?_
    rw [List.map_map]
    exact hjoined
  refine ⟨?_, ?_, hjoined, hpaths, fun spill hspill => ?_⟩
  · have htexts : ∀ spill ∈ taken entry.toValue blobs budget measure,
        TextAt entry.toValue spill.path spill.text := fun spill hspill => (hspec spill hspill).1
    rw [← mapText_keep hkeyed htexts hpaths, ← hline, ← hfields]
  · refine keeps_keep fun spill hspill => ?_
    obtain ⟨-, hspills, -, href, hlong⟩ := hspec spill hspill
    exact ⟨hspills, previewBytes_lt hlong, hserves.form _ _ href⟩
  · obtain ⟨htext, hspills, -, href, hlong⟩ := hspec spill hspill
    exact ⟨htext, hspills, previewBytes_lt hlong, hlong, href, hputs spill hspill⟩

/-- The event of a bounded line, as a tree. -/
lemma ofObject_mapText {f : List String → String → String} (h : Keeps f)
    (hrefs : ∀ model ∈ entry.envelope.event.modelRefs, model.Parsed) :
    ofObject (entry.envelope.event.mapText f).fields =
      mapText f (ofObject entry.envelope.event.fields) := by
  rw [AgentEvent.fields_mapText h _ hrefs, mapText_ofObject]

/-- What a restored event was read from. -/
lemma restoreExternalizedEvent_ok (hserves : Serves blobs reader) {line : Value}
    {stored : TraceEntry} (hread : TraceEntry.ofValue line = some stored) {event : AgentEvent}
    (h : restoreExternalizedEvent session reader stored = .ok event) :
    ∃ value, AgentEvent.ofValue value = some event := by
  rw [restoreExternalizedEvent] at h
  split_ifs at h with hempty
  · obtain rfl := Except.ok.inj h
    simp only [TraceEntry.ofValue, Option.bind_eq_bind, Option.bind_eq_some_iff] at hread
    obtain ⟨_, -, _, -, event, hevent, _, -, _, -, _, -, _, -, hstored⟩ := hread
    obtain rfl := Option.some.inj hstored
    exact ⟨line, hevent⟩
  · obtain ⟨restored, -, h⟩ := bind_eq_ok.mp h
    cases hdecode : reader.decodeEvent restored.1 with
    | error e => simp [hdecode] at h
    | ok decoded =>
      simp only [hdecode] at h
      obtain rfl := Except.ok.inj h
      exact ⟨restored.1, (hserves.decodes _ _).mp hdecode⟩

/-- Strings that were taken out at plain paths all go back. -/
lemma restores_of_plain (hserves : Serves blobs reader) (hfresh : entry.externalized = [])
    (horder : InMapOrder entry.envelope.event.metadata) (hkeyed : entry.toValue.Keyed)
    {bounded : Value × List ExternalizedField}
    (hbound : bound entry.toValue blobs budget measure = .ok bounded)
    (hrefs : ∀ model ∈ entry.modelRefs, model.Parsed)
    (hplain : ∀ spill ∈ taken entry.toValue blobs budget measure, Plain spill.path) :
    Restores session reader (storedLine bounded) entry := by
  obtain ⟨rfl, hkeeps, hjoined, hpaths, hspec⟩ := taken_spec hserves hkeyed hbound
  generalize hout : taken entry.toValue blobs budget measure = out at *
  have hevent : ∀ model ∈ entry.envelope.event.modelRefs, model.Parsed :=
    fun model hmodel => hrefs model (List.mem_append_right _ hmodel)
  refine ⟨_, TraceEntry.ofValue_bounded hkeeps hfresh hrefs horder _, rfl, ?_⟩
  have hkeyedEvent := keyed_event hkeyed
  have htexts : ∀ spill ∈ out, TextAt (ofObject entry.envelope.event.fields) spill.path spill.text :=
    fun spill hspill => textAt_event (hspec spill hspill).1 (hspec spill hspill).2.1
  have htree := ofObject_mapText hkeeps hevent
  have hread := AgentEvent.ofValue_ofObject hevent horder
  rw [restoreExternalizedEvent]
  split_ifs with hempty
  · -- nothing was taken out, and the event is the one of the line
    have hnil : out = [] := by simpa [TraceEntry.withExternalized] using hempty
    have hself : mapText (keep out) (ofObject entry.envelope.event.fields) =
        ofObject entry.envelope.event.fields :=
      mapText_eq_self hkeyedEvent fun path text _ => keep_of_notMem (by simp [hnil]) text
    have hmapped := AgentEvent.ofValue_ofObject (AgentEvent.parsed_mapText hkeeps hevent)
      (AgentEvent.inMapOrder_mapText horder)
    rw [htree, hself, hread] at hmapped
    exact congrArg Except.ok (Option.some.inj hmapped).symm
  · -- each string goes back to the place it was taken from
    obtain ⟨names, hscan⟩ := @scan_restoreField session _ _ hserves out
      (mapText (keep out) (ofObject entry.envelope.event.fields)) [] (keyed_mapText hkeyedEvent)
      (fun spill hspill => ⟨_, textAt_mapText (htexts spill hspill)⟩)
      (fun spill hspill => ⟨(hspec spill hspill).2.1, (hspec spill hspill).2.2.1,
        (hspec spill hspill).2.2.2.2⟩)
      hplain hjoined (fun spill _ => List.not_mem_nil)
    rw [mapText_restored hkeyedEvent htexts hpaths, ← htree] at hscan
    have hdecode := (hserves.decodes _ _).mpr hread
    rw [bind_eq_ok]
    exact ⟨_, hscan, by simp only [hdecode]⟩

/-- A string that was taken out at a path that is not plain is lost. -/
lemma plain_of_restores (hserves : Serves blobs reader) (hfresh : entry.externalized = [])
    (horder : InMapOrder entry.envelope.event.metadata) (hkeyed : entry.toValue.Keyed)
    {bounded : Value × List ExternalizedField}
    (hbound : bound entry.toValue blobs budget measure = .ok bounded)
    (hrefs : ∀ model ∈ entry.modelRefs, model.Parsed)
    (h : Restores session reader (storedLine bounded) entry) :
    ∀ spill ∈ taken entry.toValue blobs budget measure, Plain spill.path := by
  obtain ⟨rfl, hkeeps, hjoined, hpaths, hspec⟩ := taken_spec hserves hkeyed hbound
  generalize hout : taken entry.toValue blobs budget measure = out at *
  have hevent : ∀ model ∈ entry.envelope.event.modelRefs, model.Parsed :=
    fun model hmodel => hrefs model (List.mem_append_right _ hmodel)
  intro spill hspill
  by_contra hplain
  obtain ⟨htext, hspills, hlong, hshorter, -, -⟩ := hspec spill hspill
  have hsource := textAt_event htext hspills
  have hkept : TextAt (ofObject (entry.envelope.event.mapText (keep out)).fields) spill.path
      spill.kept := by
    rw [ofObject_mapText hkeeps hevent, ← keep_of_mem hpaths hspill]
    exact textAt_mapText hsource
  obtain ⟨stored, hstored, -, hrestore⟩ := h
  rw [TraceEntry.ofValue_bounded hkeeps hfresh hrefs horder] at hstored
  obtain rfl := Option.some.inj hstored
  rw [restoreExternalizedEvent] at hrestore
  split_ifs at hrestore with hempty
  · have hnil : out = [] := by simpa [TraceEntry.withExternalized] using hempty
    rw [hnil] at hspill
    simp at hspill
  · obtain ⟨restored, hscan, hdecode⟩ := bind_eq_ok.mp hrestore
    have hfound := textAt_scan_restoreField hkept hplain hscan
    cases hvalue : reader.decodeEvent restored.1 with
    | error e => simp [hvalue] at hdecode
    | ok event =>
      simp only [hvalue] at hdecode
      obtain rfl := Except.ok.inj hdecode
      have hread := (hserves.decodes _ _).mp hvalue
      have hsame := AgentEvent.text_eq_of_ofValue horder hread hsource hlong hplain hfound
      rw [hsame] at hshorter
      exact lt_irrefl _ hshorter

/-- What reads back has references that survive. -/
lemma parsed_of_restores (hserves : Serves blobs reader)
    {bounded : Value × List ExternalizedField}
    (hbound : bound entry.toValue blobs budget measure = .ok bounded)
    (h : Restores session reader (storedLine bounded) entry) :
    ∀ model ∈ entry.modelRefs, model.Parsed := by
  obtain ⟨stored, hstored, hmeta, hrestore⟩ := h
  obtain ⟨value, hvalue⟩ := restoreExternalizedEvent_ok hserves hstored hrestore
  have hline : (storedLine bounded).get "meta" = some entry.envelope.eventMeta.toValue := by
    have hbounded : bounded.1.get "meta" = entry.toValue.get "meta" :=
      @get_bound _ _ _ _ _ bounded.2 hbound _ (by decide)
    have hentry := entry.carries ("meta", some entry.envelope.eventMeta.toValue)
      (by simp [TraceEntry.fields])
    rw [storedLine]
    split_ifs
    · rw [hbounded, hentry]
    · rw [get_setField_ne (by decide), hbounded, hentry]
  have hread : EventMeta.ofValue entry.envelope.eventMeta.toValue =
      some entry.envelope.eventMeta := by
    simp only [TraceEntry.ofValue, Option.bind_eq_bind, Option.bind_eq_some_iff] at hstored
    obtain ⟨_, -, eventMeta, hfound, _, -, _, -, _, -, _, -, _, -, hstored⟩ := hstored
    obtain rfl := Option.some.inj hstored
    rw [required, hline, Option.bind_some] at hfound
    rw [hfound]
    exact congrArg some hmeta
  intro model hmodel
  rcases List.mem_append.mp hmodel with hmodel | hmodel
  · exact (EventMeta.ofValue_toValue_iff _).mp hread model (Option.mem_toList.mp hmodel)
  · exact AgentEvent.parsed_of_ofValue hvalue model hmodel

/-- **Externalising loses nothing exactly when** the references of the line survive their
text form and no string was taken out on a path with an empty segment or one that holds
the separator. -/
theorem restores_iff (session : SessionId) (blobs : BlobStore) (reader : BlobReader)
    (hserves : Serves blobs reader) (entry : TraceEntry) (hfresh : entry.externalized = [])
    (horder : InMapOrder entry.envelope.event.metadata) (hkeyed : entry.toValue.Keyed)
    (budget : Nat) (measure : Value → Nat) (bounded : Value × List ExternalizedField)
    (hbound : bound entry.toValue blobs budget measure = .ok bounded) :
    Restores session reader (storedLine bounded) entry ↔
      (∀ model ∈ entry.modelRefs, model.Parsed) ∧
        ∀ spill ∈ taken entry.toValue blobs budget measure, Plain spill.path := by
  constructor
  · intro h
    have hrefs := parsed_of_restores hserves hbound h
    exact ⟨hrefs, plain_of_restores hserves hfresh horder hkeyed hbound hrefs h⟩
  · rintro ⟨hrefs, hplain⟩
    exact restores_of_plain hserves hfresh horder hkeyed hbound hrefs hplain

/-- The line that a journal writes: the redacted line, or what is left of it with the
record of what was taken out. -/
lemma TraceJournal.boundedLine_cases {journal : TraceJournal} {request : AppendRequest}
    {seq : EventSeq} {line : Value} (h : journal.boundedLine request seq = .ok line) :
    line = journal.redactedLine (journal.entry request seq) ∨
      ∃ store bounded, request.blobs = some store ∧
        bound (journal.redactedLine (journal.entry request seq)) store request.budget
          (fun value => (compactLine value).length) = .ok bounded ∧
        line = storedLine bounded := by
  unfold TraceJournal.boundedLine at h
  simp only at h
  split at h
  · exact Or.inl (Except.ok.inj h).symm
  · rename_i store hblobs
    split at h
    · exact Or.inl (Except.ok.inj h).symm
    · obtain ⟨bounded, hbound, h⟩ := bind_eq_ok.mp h
      split at h
      · exact Or.inl (Except.ok.inj h).symm
      · rename_i hempty
        refine Or.inr ⟨store, bounded, hblobs, hbound, ?_⟩
        rw [storedLine, if_neg hempty]
        exact (Except.ok.inj h).symm

end RoundTrip

namespace WrittenFile

/-- The text of a file. -/
def text : String := String.ofList (List.replicate 400 'x')

def blob : BlobRef :=
  ⟨"aaaaaaaaaaaaaaaaaaaaaaaaaaaaaaaaaaaaaaaaaaaaaaaaaaaaaaaaaaaaaaaa", 400, none, .none⟩

/-- A store with room for this one text. -/
def blobs : BlobStore where
  referenceFor _ := .ok blob.relativePath
  put stored := if stored = text then .ok () else .error (.invalid "")

def reader : BlobReader where
  get _ := .error ""
  getRelativeVerified _ := .ok (utf8Bytes text.toList)
  decodeEvent value :=
    match AgentEvent.ofValue value with
    | some event => .ok event
    | none => .error ""

lemma serves : Serves blobs reader where
  form stored reference h := ⟨blob, (Except.ok.inj h).symm⟩
  returns stored reference _ h := by
    simp only [blobs] at h
    split_ifs at h with htext
    rw [htext]
    rfl
  decodes value event := by
    simp only [reader]
    cases AgentEvent.ofValue value <;> simp

/-- A request to write a text to a file, which is named by the key of its argument. -/
def entry (file content : String) : TraceEntry where
  envelope := ⟨1, ⟨"e1", "s", some "t", some 1, 0, some 0, none, none, none, "tr", "sp"⟩,
    .toolRequested ⟨"c1", "write", object [(file, string content)], false⟩⟩
  redactions := 0
  rawPayload := false
  rawRef := none
  externalized := []

/-- The text, taken out of the request. -/
def spill (file : String) : Spill := ⟨["arguments", file], text, blob.relativePath⟩

/-- What is left of the line of the request. -/
def remainder (file : String) : Value × List ExternalizedField :=
  ((entry file (spill file).kept).toValue, [(spill file).field])

abbrev measure (line : Value) : Nat := (compactLine line).length

lemma keyed_entry {file : String} (hfile : file = "main.rs" ∨ file = "src/main.rs") :
    (entry file text).toValue.Keyed := by
  rcases hfile with rfl | rfl <;> decide +kernel

lemma measure_pos (file content : String) : ¬measure (entry file content).toValue ≤ 0 := by
  obtain ⟨inner, hline⟩ := compactLine_object (ofFields (entry file content).fields)
  have hline' : compactLine (entry file content).toValue = 123 :: (inner ++ [125]) := hline
  rw [measure, hline']
  simp

lemma takeBytes_replicate (m n : Nat) :
    takeBytes m (List.replicate (m + n) 'x') = List.replicate m 'x' := by
  induction m with
  | zero => cases n <;> rfl
  | succ m ih =>
    have hsize : 'x'.utf8Size = 1 := by decide
    rw [Nat.add_right_comm, List.replicate_succ, takeBytes, hsize, if_pos (by omega),
      Nat.add_sub_cancel, ih, List.replicate_succ]

lemma preview_text : preview text = String.ofList (List.replicate 256 'x') := by
  have htext : text.toList = List.replicate (256 + 144) 'x' := String.toList_ofList
  rw [preview, htext]
  exact congrArg _ (takeBytes_replicate 256 144)

lemma kept_lt : (keptText text blob.relativePath).utf8ByteSize < text.utf8ByteSize := by
  rw [keptText, preview_text]
  decide +kernel

lemma nextSpill_entry {file : String} (hfile : file = "main.rs" ∨ file = "src/main.rs") :
    nextSpill blobs 0 measure (entry file text).toValue [] = some (spill file) := by
  have hcandidate : largestCandidate (entry file text).toValue [] = some ["arguments", file] := by
    rcases hfile with rfl | rfl <;> decide +kernel
  have hlookup : lookup ["arguments", file] (entry file text).toValue = some (.string text) := by
    rcases hfile with rfl | rfl <;> rfl
  rw [nextSpill, if_neg (measure_pos _ _), hcandidate]
  dsimp only
  rw [hlookup]
  exact if_neg (not_le.mpr kept_lt)

/-- After the text, the name of the tool is next. -/
lemma largestCandidate_kept {file : String} (hfile : file = "main.rs" ∨ file = "src/main.rs") :
    largestCandidate (entry file (spill file).kept).toValue [joinPath ["arguments", file]] =
      some ["name"] := by
  rcases hfile with rfl | rfl <;> decide +kernel

lemma lookup_kept {file : String} (hfile : file = "main.rs" ∨ file = "src/main.rs") :
    lookup ["name"] (entry file (spill file).kept).toValue = some (.string "write") := by
  rcases hfile with rfl | rfl <;> rfl

lemma write_le : "write".utf8ByteSize ≤ (keptText "write" blob.relativePath).utf8ByteSize := by
  decide +kernel

lemma mapText_entry {file : String} (hfile : file = "main.rs" ∨ file = "src/main.rs") :
    mapText (setText (spill file).path (spill file).kept) (entry file text).toValue =
      (entry file (spill file).kept).toValue := by
  rcases hfile with rfl | rfl <;> rfl

lemma bound_entry {file : String} (hfile : file = "main.rs" ∨ file = "src/main.rs") :
    bound (entry file text).toValue blobs 0 measure = .ok (remainder file) := by
  have hput : blobs.put (spill file).text = .ok () := by simp [blobs, spill]
  have hsecond : boundLoop blobs 0 measure 31 (entry file (spill file).kept).toValue
      [(spill file).field] = .ok (remainder file) := by
    have hcandidate : largestCandidate (entry file (spill file).kept).toValue
        ([(spill file).field].map (·.field)) = some ["name"] := largestCandidate_kept hfile
    have href : blobs.referenceFor "write" = .ok blob.relativePath := rfl
    rw [boundLoop, if_neg (measure_pos _ _), hcandidate]
    dsimp only
    rw [lookup_kept hfile]
    dsimp only
    rw [href, ok_bind, if_pos write_le]
    rfl
  have hfirst := @boundLoop_of_some blobs 0 measure 31 _ (keyed_entry hfile) [] _
    (nextSpill_entry hfile)
  rw [hput, ok_bind, mapText_entry hfile] at hfirst
  exact hfirst.trans hsecond

/-- The text is all that is taken out. -/
lemma taken_entry {file : String} (hfile : file = "main.rs" ∨ file = "src/main.rs") :
    taken (entry file text).toValue blobs 0 measure = [spill file] := by
  have hnext : nextSpill blobs 0 measure (entry file (spill file).kept).toValue
      [joinPath ["arguments", file]] = none := by
    rw [nextSpill, if_neg (measure_pos _ _), largestCandidate_kept hfile]
    dsimp only
    rw [lookup_kept hfile]
    exact if_pos write_le
  have hdone : [] ++ [joinPath (spill file).path] = [joinPath ["arguments", file]] := rfl
  rw [taken, maxSpillsPerLine, spillsOf, nextSpill_entry hfile]
  dsimp only
  rw [mapText_entry hfile, hdone, spillsOf, hnext]

end WrittenFile

open WrittenFile in
/-- A file named without a directory comes back. -/
theorem restores_iff_named :
    Restores "s" reader (storedLine (remainder "main.rs")) (entry "main.rs" text) := by
  refine (restores_iff "s" blobs reader serves (entry "main.rs" text) rfl (by decide)
    (keyed_entry (Or.inl rfl)) 0 measure (remainder "main.rs") (bound_entry (Or.inl rfl))).mpr
    ⟨by simp [entry, TraceEntry.modelRefs, AgentEvent.modelRefs], fun spill hspill => ?_⟩
  rw [taken_entry (Or.inl rfl), List.mem_singleton] at hspill
  rw [hspill]
  show Plain ["arguments", "main.rs"]
  decide

open WrittenFile in
/-- A file named with its directory is stored and cannot be restored. -/
theorem slashedArgument_lost :
    Serves blobs reader ∧ TraceEntry.ofValue (entry "src/main.rs" text).toValue =
        some (entry "src/main.rs" text) ∧
      bound (entry "src/main.rs" text).toValue blobs 0 measure = .ok (remainder "src/main.rs") ∧
      ¬Restores "s" reader (storedLine (remainder "src/main.rs")) (entry "src/main.rs" text) := by
  have hbound := bound_entry (Or.inr (rfl : "src/main.rs" = "src/main.rs"))
  have hrefs : ∀ model ∈ (entry "src/main.rs" text).modelRefs, model.Parsed := by
    simp [entry, TraceEntry.modelRefs, AgentEvent.modelRefs]
  have horder : InMapOrder (entry "src/main.rs" text).envelope.event.metadata := by decide
  refine ⟨serves, (TraceEntry.ofValue_toValue_iff _).mpr ⟨hrefs, horder⟩, hbound, fun h => ?_⟩
  have hplain := plain_of_restores serves rfl horder (keyed_entry (Or.inr rfl)) hbound hrefs h
    (spill "src/main.rs") (by rw [taken_entry (Or.inr rfl)]; exact List.mem_cons_self)
  have hslash : ¬Plain ["arguments", "src/main.rs"] := by decide
  exact hslash hplain

end Rupi
