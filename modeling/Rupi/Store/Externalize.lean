import Rupi.Store.Spills

/-!
Putting the externalized fields of an event back.

- `Payload.Keeps`: a rewrite that only replaces long strings that may be taken out, by
  their bounded forms.
- `AgentEvent.mapText`: the event whose fields are the rewritten fields; a bounded line
  is still the line of an event (`TraceEntry.ofValue_bounded`).
- **`restores_iff`**: bounding a line and restoring it gives the event back exactly when
  its references survive and no string was taken out below an empty key or one with a
  separator.
- `slashedArgument_lost`: a tool argument whose key is a path.
-/

namespace Rupi

open Value Fallible Payload

/-! ### Text that trimming keeps -/

lemma trimChars_eq_self {first last : Char} {text : List Char} (hfirst : isWhitespace first = false)
    (hlast : isWhitespace last = false) (hhead : text.head? = some first)
    (htail : text.getLast? = some last) : trimChars text = text := by
  have hfront : text.dropWhile isWhitespace = text := by
    cases text with
    | nil => rfl
    | cons c text =>
      obtain rfl : c = first := Option.some.inj hhead
      rw [List.dropWhile_cons_of_neg (by simp [hfirst])]
  rw [trimChars_eq, hfront, List.rdropWhile_eq_self_iff]
  intro hne
  rw [List.getLast?_eq_some_getLast hne] at htail
  simp [Option.some.inj htail, hlast]

/-- Text with something at both ends is trimmed. -/
lemma isTrimmed_of_ends {first last : Char} {text : List Char} (hfirst : isWhitespace first = false)
    (hlast : isWhitespace last = false) (hhead : text.head? = some first)
    (htail : text.getLast? = some last) : IsTrimmed (String.ofList text) := by
  refine ⟨by rw [String.toList_ofList, trimChars_eq_self hfirst hlast hhead htail], fun hempty => ?_⟩
  have hnil := congrArg String.toList hempty
  rw [String.toList_ofList] at hnil
  rw [hnil] at hhead
  simp at hhead

/-- Trimmed text begins with something. -/
lemma exists_head_of_isTrimmed {text : String} (h : IsTrimmed text) :
    ∃ first, text.toList.head? = some first ∧ isWhitespace first = false := by
  obtain ⟨htrim, hne⟩ := h
  cases hlist : text.toList with
  | nil => exact absurd (String.toList_inj.mp (by rw [hlist]; rfl)) hne
  | cons c rest =>
    refine ⟨c, rfl, ?_⟩
    have hdrop := dropWhile_trimChars text.toList
    rw [htrim, hlist] at hdrop
    by_contra hc
    rw [List.dropWhile_cons_of_pos (by simpa using hc)] at hdrop
    have hlength := congrArg List.length hdrop
    have hle := (List.dropWhile_suffix (l := rest) isWhitespace).length_le
    rw [List.length_cons] at hlength
    omega

/-! ### The bounded form of a reference -/

namespace Payload

lemma takeBytes_prefix (n : Nat) (text : List Char) : takeBytes n text <+: text := by
  induction text generalizing n with
  | nil => exact List.nil_prefix
  | cons c text ih =>
    rw [takeBytes]
    split_ifs
    · exact (List.prefix_cons_inj c).mpr (ih _)
    · exact List.nil_prefix

/-- The reference of a blob is below `blobs`. -/
lemma relativePath_eq (blob : BlobRef) :
    ∃ c rest, blob.relativePath.toList = "blobs/".toList ++ c :: rest ∧
      isWhitespace c = false := by
  rw [BlobRef.relativePath]
  split_ifs with hform
  · simp only [BlobRef.isWellFormed, Bool.and_eq_true, decide_eq_true_eq, List.all_eq_true]
      at hform
    cases hhash : blob.hash.toList with
    | nil =>
      have hempty : blob.hash = "" := String.toList_inj.mp (by rw [hhash]; rfl)
      rw [hempty] at hform
      exact absurd hform.1 (by decide)
    | cons c rest =>
      simp only [String.toList_append, String.toList_ofList, hhash, List.take_succ_cons,
        List.append_assoc, List.cons_append]
      refine ⟨c, _, rfl, ?_⟩
      have hdigit := hform.2 c (by rw [hhash]; exact List.mem_cons_self)
      simp only [Bool.or_eq_true, Bool.and_eq_true, decide_eq_true_eq, Char.isDigit,
        Char.le_def] at hdigit
      simp only [isWhitespace, Bool.or_eq_false_iff, Bool.and_eq_false_iff, decide_eq_false_iff_not,
        beq_eq_false_iff_ne, Char.toNat]
      have hval : (48 ≤ c.val.toNat ∧ c.val.toNat ≤ 57) ∨ (97 ≤ c.val.toNat ∧ c.val.toNat ≤ 102) ∨
          (65 ≤ c.val.toNat ∧ c.val.toNat ≤ 70) := by
        rcases hdigit with (h | h) | h
        · exact Or.inl h
        · exact Or.inr (Or.inl h)
        · exact Or.inr (Or.inr h)
      omega
  · exact ⟨'i', "nvalid/invalid".toList, by decide, by decide⟩

lemma notMem_slash_repr (n : Nat) : '/' ∉ n.repr.toList := fun hmem =>
  absurd (isDigit_of_mem_repr hmem) (by decide)

/-- A key with trimmed halves and no separator in the first is the key of a reference
that survives. -/
lemma exists_parsed {key : String} {provider model : List Char}
    (hkey : key.toList = provider ++ '/' :: model) (hslash : '/' ∉ provider)
    (hprovider : IsTrimmed (String.ofList provider)) (hmodel : IsTrimmed (String.ofList model)) :
    ∃ kept : ModelRef, kept.asKey = key ∧ kept.Parsed := by
  refine ⟨⟨String.ofList provider, String.ofList model⟩, ?_, ?_⟩
  · rw [← String.toList_inj, hkey]
    simp [ModelRef.asKey, String.toList_append]
  · rw [ModelRef.parsed_iff, String.toList_ofList]
    exact ⟨hslash, hprovider, hmodel⟩

/-- The bounded form of a reference that survives is one that survives. -/
lemma parsed_keptText {model : ModelRef} (h : model.Parsed) (blob : BlobRef) :
    ∃ kept : ModelRef, kept.asKey = keptText model.asKey blob.relativePath ∧ kept.Parsed := by
  obtain ⟨hslash, hprovider, hmodel⟩ := (ModelRef.parsed_iff model).mp h
  obtain ⟨firstP, hheadP, hfirstP⟩ := exists_head_of_isTrimmed hprovider
  obtain ⟨firstM, hheadM, hfirstM⟩ := exists_head_of_isTrimmed hmodel
  obtain ⟨c, rest, hpath, hc⟩ := relativePath_eq blob
  have hkey : model.asKey.toList = model.provider.toList ++ '/' :: model.model.toList := by
    simp [ModelRef.asKey, String.toList_append]
  -- the bounded form is the preview, a prefix of the key, and the note after it
  obtain ⟨shown, hshown⟩ : ∃ shown, takeBytes previewBytes model.asKey.toList = shown := ⟨_, rfl⟩
  have hprefix : shown <+: model.provider.toList ++ '/' :: model.model.toList := by
    rw [← hshown, ← hkey]
    exact takeBytes_prefix _ _
  obtain ⟨count, hcount⟩ : ∃ count, model.asKey.utf8ByteSize.repr.toList = count := ⟨_, rfl⟩
  have hcountSlash : '/' ∉ count := hcount ▸ notMem_slash_repr _
  obtain ⟨note, hnote⟩ : ∃ note, ", ".toList ++ (preview model.asKey).utf8ByteSize.repr.toList ++
      " bytes shown".toList = note := ⟨_, rfl⟩
  have hkept : (keptText model.asKey blob.relativePath).toList =
      shown ++ ("… [stored ".toList ++ (count ++ (" bytes in ".toList ++ ("blobs/".toList ++
        c :: (rest ++ (note ++ [']'])))))) := by
    simp only [keptText, preview, String.toList_append, String.toList_ofList, hshown, hcount,
      hpath, ← hnote, List.append_assoc, List.cons_append]
    rfl
  have hclose : isWhitespace ']' = false := by decide
  have hdots : isWhitespace '…' = false := by decide
  -- a preview that stops before the separator: the separator of the reference takes its place
  have hbefore : '/' ∉ shown → (∀ first ∈ shown.head?, isWhitespace first = false) →
      ∃ kept : ModelRef, kept.asKey = keptText model.asKey blob.relativePath ∧ kept.Parsed := by
    intro hshownSlash hhead
    obtain ⟨front, hfront⟩ : ∃ front,
        shown ++ ("… [stored ".toList ++ (count ++ " bytes in blobs".toList)) = front := ⟨_, rfl⟩
    obtain ⟨first, hfirst, hfirst'⟩ : ∃ first, front.head? = some first ∧
        isWhitespace first = false := by
      cases shown with
      | nil => exact ⟨'…', hfront ▸ rfl, hdots⟩
      | cons first shown => exact ⟨first, hfront ▸ rfl, hhead first rfl⟩
    have hlast : front.getLast? = some 's' := by
      rw [← hfront, List.getLast?_append, List.getLast?_append, List.getLast?_append]
      rfl
    have hlast' : (c :: (rest ++ (note ++ [']']))).getLast? = some ']' := by
      rw [← List.singleton_append, List.getLast?_append, List.getLast?_append,
        List.getLast?_append]
      rfl
    refine @exists_parsed _ front (c :: (rest ++ (note ++ [']']))) ?_ ?_
      (isTrimmed_of_ends hfirst' (by decide) hfirst hlast)
      (isTrimmed_of_ends hc hclose rfl hlast')
    · rw [hkept, ← hfront]
      simp
    · rw [← hfront, List.mem_append, List.mem_append, List.mem_append]
      rintro (hmem | hmem | hmem | hmem)
      · exact hshownSlash hmem
      · exact absurd hmem (by decide)
      · exact hcountSlash hmem
      · exact absurd hmem (by decide)
  obtain ⟨tail, htail⟩ := hprefix
  rcases List.append_eq_append_iff.mp htail with ⟨more, hprovider', -⟩ | ⟨more, hshown', hmore⟩
  · refine hbefore (fun hmem => hslash (hprovider' ▸ List.mem_append_left _ hmem)) ?_
    intro first hfirst
    rw [hprovider', List.head?_append, Option.mem_def.mp hfirst, Option.some_or] at hheadP
    exact Option.some.inj hheadP ▸ hfirstP
  · cases more with
    | nil =>
      rw [List.append_nil] at hshown'
      refine hbefore (hshown' ▸ hslash) ?_
      intro first hfirst
      rw [hshown', hheadP] at hfirst
      exact Option.some.inj hfirst ▸ hfirstP
    | cons slash more =>
      obtain ⟨rfl, hrest⟩ := List.cons.inj hmore
      obtain ⟨back, hback⟩ : ∃ back, more ++ ("… [stored ".toList ++ (count ++
          (" bytes in ".toList ++ ("blobs/".toList ++ c :: (rest ++ (note ++ [']'])))))) = back :=
        ⟨_, rfl⟩
      obtain ⟨first, hfirst, hfirst'⟩ : ∃ first, back.head? = some first ∧
          isWhitespace first = false := by
        cases more with
        | nil => exact ⟨'…', hback ▸ rfl, hdots⟩
        | cons first more =>
          rw [hrest] at hheadM
          exact ⟨first, hback ▸ rfl, Option.some.inj hheadM ▸ hfirstM⟩
      have hlast : back.getLast? = some ']' := by
        rw [← hback, ← List.singleton_append (l := rest ++ (note ++ [']']))]
        iterate 8 rw [List.getLast?_append]
        rfl
      refine @exists_parsed _ model.provider.toList back ?_ hslash
        (by rwa [String.ofList_toList]) (isTrimmed_of_ends hfirst' hclose hfirst hlast)
      rw [hkept, hshown', ← hback, List.append_assoc, List.cons_append]

/-! ### Rewrites that only bound -/

/-- A rewrite that only replaces long strings that may be taken out, by their bounded
forms. -/
def Keeps (f : List String → String → String) : Prop :=
  ∀ path text, f path text = text ∨
    spills path = true ∧ previewBytes < text.utf8ByteSize ∧
      ∃ blob : BlobRef, f path text = keptText text blob.relativePath

/-- A tree whose strings are all too short to be taken out. -/
def Short (value : Value) : Prop :=
  value.Keyed ∧ ∀ path text, TextAt value path text → text.utf8ByteSize ≤ previewBytes

section Keeps

variable {f : List String → String → String}

/-- Strings that identify something and strings of the envelope stay. -/
lemma Keeps.eq_of_not_spills (h : Keeps f) {path : List String} (hpath : spills path = false)
    (text : String) : f path text = text := by
  rcases h path text with heq | ⟨hspills, -⟩
  · exact heq
  · rw [hpath] at hspills
    exact absurd hspills (by decide)

lemma Keeps.eq_of_short (h : Keeps f) (path : List String) {text : String}
    (htext : text.utf8ByteSize ≤ previewBytes) : f path text = text := by
  rcases h path text with heq | ⟨-, hlong, -⟩
  · exact heq
  · exact absurd htext (not_le.mpr hlong)

/-- A tree below a root field of the envelope stays. -/
lemma Keeps.mapText_envelope (h : Keeps f) {key : String} (hkey : key ∈ envelopeFields)
    (value : Value) : mapText (fun path => f (key :: path)) value = value := by
  have hself : (fun path => f (key :: path)) = fun _ text => text := by
    funext path text
    refine h.eq_of_not_spills ?_ text
    rw [spills, List.contains_iff_mem.mpr hkey]
    rfl
  rw [hself, mapText_self]

/-- A tree of short strings stays. -/
lemma Keeps.mapText_short (h : Keeps f) (before : List String) {value : Value}
    (hvalue : Short value) : mapText (fun path => f (before ++ path)) value = value :=
  mapText_eq_self hvalue.1 fun _ _ htext => h.eq_of_short _ (hvalue.2 _ _ htext)

end Keeps

lemma short_tag {text : String} (h : text.utf8ByteSize ≤ previewBytes) : Short (tag text) := by
  refine ⟨rfl, fun path text' htext => ?_⟩
  rw [(textAt_string.mp htext).2]
  exact h

lemma short_ofNat (n : Nat) : Short (ofNat n) := ⟨rfl, fun _ _ h => by cases h⟩

lemma short_bool (b : Bool) : Short (.bool b) := ⟨rfl, fun _ _ h => by cases h⟩

lemma short_ofObject {fields : List (String × Option Value)}
    (h : ∀ field ∈ fields, ∀ value ∈ field.2, Short value) : Short (ofObject fields) := by
  refine ⟨keyed_ofObject fun key value hmem => (h _ hmem value rfl).1, fun path text htext => ?_⟩
  obtain ⟨key, value, rest, -, hmem, htext⟩ := mem_of_textAt_ofObject htext
  exact (h _ hmem value rfl).2 _ _ htext

lemma short_array {items : List Value} (h : ∀ item ∈ items, Short item) : Short (.array items) := by
  refine ⟨keyed_array.mpr fun item hitem => (h item hitem).1, fun path text htext => ?_⟩
  obtain ⟨index, value, rest, -, hget, htext⟩ := textAt_array.mp htext
  exact (h value (List.mem_of_getElem? hget)).2 _ _ htext

end Payload

/-! ### The enumerations and records without free text -/

lemma ReasoningProvenance.short (p : ReasoningProvenance) : Short p.toValue := by
  cases p <;> exact short_tag (by decide)

lemma ToolExecutionState.short (s : ToolExecutionState) : Short s.toValue := by
  cases s <;> exact short_tag (by decide)

lemma ReasoningExposure.short (e : ReasoningExposure) : Short e.toValue := by
  cases e <;> exact short_tag (by decide)

lemma EpochReason.short (r : EpochReason) : Short r.toValue := by
  cases r <;> exact short_tag (by decide)

lemma ContextLevel.short (l : ContextLevel) : Short l.toValue := by
  cases l <;> exact short_tag (by decide)

lemma ModelFailureKind.short (k : ModelFailureKind) : Short k.toValue := by
  cases k <;> exact short_tag (by decide)

lemma DiagnosticLevel.short (l : DiagnosticLevel) : Short l.toValue := by
  cases l <;> exact short_tag (by decide)

lemma BlobCompression.short (c : BlobCompression) : Short c.toValue := by
  cases c <;> exact short_tag (by decide)

lemma ReductionReason.short (r : ReductionReason) : Short r.toValue := by
  cases r with
  | userRequested => exact short_tag (by decide)
  | _ n =>
    refine short_ofObject ?_
    simp only [List.mem_singleton, forall_eq, Option.mem_def, Option.some.injEq, forall_eq']
    exact short_ofObject (by simpa using short_ofNat n)

lemma TurnStatus.short (s : TurnStatus) : Short s.toValue := by
  cases s with
  | failed kind =>
    refine short_ofObject ?_
    simp only [List.mem_singleton, forall_eq, Option.mem_def, Option.some.injEq, forall_eq']
    exact short_ofObject (by simpa using kind.short)
  | _ => exact short_tag (by decide)

lemma CapabilityGap.short (g : CapabilityGap) : Short g.toValue := by
  cases g with
  | contextWindow required available =>
    refine short_ofObject ?_
    simp [short_ofNat, short_tag (show "context_window".utf8ByteSize ≤ previewBytes by decide)]
  | text => exact short_ofObject (by simpa using short_tag (by decide))
  | images => exact short_ofObject (by simpa using short_tag (by decide))
  | tools => exact short_ofObject (by simpa using short_tag (by decide))

lemma ModelCapabilities.short (c : ModelCapabilities) : Short c.toValue := by
  refine short_ofObject ?_
  simp [short_ofNat, short_bool, c.exposedReasoning.short, Value.optional]

/-! ### The event of a bounded line -/

/-- The reference with the rewritten key, when that is the key of one. -/
def ModelRef.mapKey (f : String → String) (model : ModelRef) : ModelRef :=
  (ModelRef.parse (f model.asKey)).getD model

def SessionEndReason.mapText (f : List String → String → String) :
    SessionEndReason → SessionEndReason
  | .fatal message => .fatal (f ["fatal", "message"] message)
  | .interrupted message => .interrupted (f ["interrupted", "message"] message)
  | reason => reason

def ExternalContextSource.mapText (f : List String → String → String)
    (source : ExternalContextSource) : ExternalContextSource :=
  { source with
    provider := f ["provider"] source.provider
    provenance := f ["provenance"] source.provenance }

def BlobRef.mapText (f : List String → String → String) (blob : BlobRef) : BlobRef :=
  { blob with contentType := blob.contentType.map (f ["content_type"]) }

/-- The event with its free texts rewritten, given their paths in the line. -/
def AgentEvent.mapText (f : List String → String → String) : AgentEvent → AgentEvent
  | .sessionStarted e =>
    .sessionStarted
      { e with
        workingDir := f ["working_dir"] e.workingDir
        model := e.model.mapKey (f ["model"]) }
  | .userMessage e => .userMessage { e with text := f ["text"] e.text }
  | .modelRequestStarted e => .modelRequestStarted { e with model := e.model.mapKey (f ["model"]) }
  | .reasoningDelta e => .reasoningDelta { e with text := f ["text"] e.text }
  | .assistantDelta e => .assistantDelta { e with text := f ["text"] e.text }
  | .modelRequestCompleted e =>
    .modelRequestCompleted
      { e with
        model := e.model.mapKey (f ["model"])
        finishReason := e.finishReason.map (f ["finish_reason"]) }
  | .modelFailover e =>
    .modelFailover
      { e with source := e.source.mapKey (f ["from"]), target := e.target.mapKey (f ["to"]) }
  | .modelEpochStarted e => .modelEpochStarted { e with model := e.model.mapKey (f ["model"]) }
  | .toolRequested e =>
    .toolRequested
      { e with
        name := f ["name"] e.name
        arguments := Value.mapText (fun path => f ("arguments" :: path)) e.arguments }
  | .toolStarted e => .toolStarted { e with name := f ["name"] e.name }
  | .toolCompleted e => .toolCompleted { e with name := f ["name"] e.name }
  | .toolFailed e =>
    .toolFailed { e with name := f ["name"] e.name, message := f ["message"] e.message }
  | .toolUnknown e => .toolUnknown { e with name := f ["name"] e.name, why := f ["why"] e.why }
  | .externalContextRetrieved e =>
    .externalContextRetrieved
      { e with
        source := e.source.mapText fun path => f ("source" :: path)
        citation := e.citation.map (f ["citation"])
        metadata := e.metadata.map fun entry => (entry.1, f ["metadata", entry.1] entry.2) }
  | .contextCompactionStarted e =>
    .contextCompactionStarted { e with reason := f ["reason"] e.reason }
  | .contextCompactionEpoch e =>
    .contextCompactionEpoch
      { e with summary := e.summary.map (BlobRef.mapText fun path => f ("summary" :: path)) }
  | .checkpointCreated e => .checkpointCreated { e with path := f ["path"] e.path }
  | .diagnostic level message => .diagnostic level (f ["message"] message)
  | .sessionEnded reason => .sessionEnded (reason.mapText fun path => f ("reason" :: path))
  | event => event

section Events

variable {f : List String → String → String}

lemma ModelRef.mapKey_spec (h : Keeps f) {model : ModelRef} (hmodel : model.Parsed)
    (path : List String) :
    (model.mapKey (f path)).asKey = f path model.asKey ∧ (model.mapKey (f path)).Parsed := by
  rcases h path model.asKey with heq | ⟨-, -, blob, hkept⟩
  · have hself : model.mapKey (f path) = model := by
      rw [ModelRef.mapKey, heq, hmodel, Option.getD_some]
    rw [hself, heq]
    exact ⟨rfl, hmodel⟩
  · obtain ⟨kept, hkey, hparsed⟩ := parsed_keptText hmodel blob
    have hself : model.mapKey (f path) = kept := by
      rw [ModelRef.mapKey, hkept, ← hkey, hparsed, Option.getD_some]
    rw [hself, hkept]
    exact ⟨hkey, hparsed⟩

lemma ModelRef.mapText_toValue (h : Keeps f) (model : ModelRef) (hmodel : model.Parsed)
    (key : String) :
    Value.mapText (fun path => f (key :: path)) model.toValue =
      (model.mapKey (f [key])).toValue := by
  rw [ModelRef.toValue, ModelRef.toValue, mapText_string, (mapKey_spec h hmodel [key]).1]

lemma mapText_tag (h : Keeps f) (key : String) {text : String}
    (htext : text.utf8ByteSize ≤ previewBytes) :
    Value.mapText (fun path => f (key :: path)) (tag text) = tag text :=
  h.mapText_short [key] (short_tag htext)

lemma ExternalContextSource.mapText_toValue (h : Keeps f) (source : ExternalContextSource) :
    Value.mapText (fun path => f ("source" :: path)) source.toValue =
      (source.mapText fun path => f ("source" :: path)).toValue := by
  have hresource : f ["source", "resource_id"] source.resourceId = source.resourceId :=
    h.eq_of_not_spills (by decide) _
  rw [ExternalContextSource.toValue, ExternalContextSource.toValue, mapText_ofObject]
  simp [ExternalContextSource.mapText, hresource]

lemma BlobRef.mapText_toValue (h : Keeps f) (blob : BlobRef) :
    Value.mapText (fun path => f ("summary" :: path)) blob.toValue =
      (blob.mapText fun path => f ("summary" :: path)).toValue := by
  have hhash : f ["summary", "hash"] blob.hash = blob.hash := h.eq_of_not_spills (by decide) _
  have hcompression := h.mapText_short ["summary", "compression"] blob.compression.short
  rw [BlobRef.toValue, BlobRef.toValue, mapText_ofObject]
  simp only [List.cons_append, List.nil_append] at hcompression
  by_cases hnone : blob.compression = .none
  · simp [BlobRef.mapText, hhash, hnone, Value.optional, Function.comp_def]
  · simp [BlobRef.mapText, hhash, hnone, hcompression, Value.optional, Function.comp_def]

lemma SessionEndReason.mapText_toValue (h : Keeps f) (reason : SessionEndReason) :
    Value.mapText (fun path => f ("reason" :: path)) reason.toValue =
      (reason.mapText fun path => f ("reason" :: path)).toValue := by
  cases reason with
  | userExit => exact mapText_tag h "reason" (by decide)
  | restart => exact mapText_tag h "reason" (by decide)
  | fatal message =>
    simp [SessionEndReason.mapText, SessionEndReason.toValue, variant, mapText_ofObject]
  | interrupted message =>
    simp [SessionEndReason.mapText, SessionEndReason.toValue, variant, mapText_ofObject]

lemma mapText_metadataValue (metadata : List (String × String)) :
    (metadataValue metadata).map (Value.mapText fun path => f ("metadata" :: path)) =
      metadataValue (metadata.map fun entry => (entry.1, f ["metadata", entry.1] entry.2)) := by
  cases metadata with
  | nil => rfl
  | cons entry metadata =>
    simp [metadataValue, mapText_ofObject, Function.comp_def]

lemma mapText_optional_nat (n : Option Nat) :
    (optional ofNat n).map (Value.mapText f) = optional ofNat n := by
  cases n <;> rfl

lemma mapText_optional_int (n : Option Int) :
    (optional int n).map (Value.mapText f) = optional int n := by
  cases n <;> rfl

lemma mapText_countValue (n : Nat) : (countValue n).map (Value.mapText f) = countValue n := by
  rw [countValue]
  split_ifs <;> rfl

lemma mapText_optional_text (text : Option String) :
    (optional string text).map (Value.mapText f) = optional string (text.map (f [])) := by
  cases text <;> rfl

lemma mapText_nullable_text (text : Option String) :
    Value.mapText f (nullable string text) = nullable string (text.map (f [])) := by
  cases text <;> rfl

/-- The fields of a rewritten event are the rewritten fields. -/
theorem AgentEvent.fields_mapText (h : Keeps f) (event : AgentEvent)
    (hrefs : ∀ model ∈ event.modelRefs, model.Parsed) :
    (event.mapText f).fields =
      event.fields.map fun field =>
        (field.1, field.2.map (Value.mapText fun path => f (field.1 :: path))) := by
  have htype : f ["type"] = id := funext (h.eq_of_not_spills (by decide))
  cases event with
  | sessionStarted e =>
    have hmodel := ModelRef.mapText_toValue h e.model (hrefs _ (by simp [modelRefs])) "model"
    have hcapabilities := h.mapText_short ["capabilities"] e.capabilities.short
    simp only [List.cons_append, List.nil_append] at hcapabilities
    simp [AgentEvent.mapText, fields, htype, hmodel, hcapabilities]
  | userMessage e =>
    simp [AgentEvent.mapText, fields, htype]
  | modelRequestStarted e =>
    have hmodel := ModelRef.mapText_toValue h e.model (hrefs _ (by simp [modelRefs])) "model"
    simp [AgentEvent.mapText, fields, htype, hmodel]
  | reasoningDelta e =>
    have hprovenance := h.mapText_short ["provenance"] e.provenance.short
    simp only [List.cons_append, List.nil_append] at hprovenance
    simp [AgentEvent.mapText, fields, htype, hprovenance]
  | assistantDelta e =>
    simp [AgentEvent.mapText, fields, htype]
  | modelRequestCompleted e =>
    have hmodel := ModelRef.mapText_toValue h e.model (hrefs _ (by simp [modelRefs])) "model"
    have hprovenance : (optional ReasoningProvenance.toValue e.reasoningProvenance).map
        (Value.mapText fun path => f ("reasoning_provenance" :: path)) =
          optional ReasoningProvenance.toValue e.reasoningProvenance := by
      cases e.reasoningProvenance with
      | none => rfl
      | some p => exact congrArg some (h.mapText_short ["reasoning_provenance"] p.short)
    simp [AgentEvent.mapText, fields, htype, hmodel, hprovenance, mapText_optional_nat, mapText_optional_text]
  | modelRetry e =>
    have hkind := h.mapText_short ["kind"] e.kind.short
    simp only [List.cons_append, List.nil_append] at hkind
    simp [AgentEvent.mapText, fields, htype, hkind, mapText_optional_nat]
  | modelFailover e =>
    have hsource := ModelRef.mapText_toValue h e.source (hrefs _ (by simp [modelRefs])) "from"
    have htarget := ModelRef.mapText_toValue h e.target (hrefs _ (by simp [modelRefs])) "to"
    have hkind := h.mapText_short ["kind"] e.kind.short
    simp only [List.cons_append, List.nil_append] at hkind
    have hgaps : Short (array (e.gaps.map CapabilityGap.toValue)) :=
      short_array (by simpa using fun gap _ => gap.short)
    have hgaps' := h.mapText_short ["gaps"] hgaps
    simp only [List.cons_append, List.nil_append] at hgaps'
    simp [AgentEvent.mapText, fields, htype, hsource, htarget, hkind, hgaps']
  | modelEpochStarted e =>
    have hmodel := ModelRef.mapText_toValue h e.model (hrefs _ (by simp [modelRefs])) "model"
    have hreason := h.mapText_short ["reason"] e.reason.short
    simp only [List.cons_append, List.nil_append] at hreason
    have hcapabilities := h.mapText_short ["capabilities"] e.capabilities.short
    simp only [List.cons_append, List.nil_append] at hcapabilities
    simp [AgentEvent.mapText, fields, htype, hmodel, hreason, hcapabilities]
  | toolRequested e =>
    have hid : f ["call_id"] = id := funext (h.eq_of_not_spills (by decide))
    simp [AgentEvent.mapText, fields, htype, hid]
  | toolStarted e =>
    have hid : f ["call_id"] = id := funext (h.eq_of_not_spills (by decide))
    simp [AgentEvent.mapText, fields, htype, hid]
  | toolCompleted e =>
    have hid : f ["call_id"] = id := funext (h.eq_of_not_spills (by decide))
    have hstate := h.mapText_short ["state"] e.state.short
    simp only [List.cons_append, List.nil_append] at hstate
    have hblob : (optional BlobRef.toValue e.blob).map (Value.mapText fun path => f ("blob" :: path)) =
        optional BlobRef.toValue e.blob := by
      rw [funext (h.mapText_envelope (by decide)), Option.map_id']
    simp [AgentEvent.mapText, fields, htype, hid, hstate, hblob, mapText_optional_int]
  | toolFailed e =>
    have hid : f ["call_id"] = id := funext (h.eq_of_not_spills (by decide))
    simp [AgentEvent.mapText, fields, htype, hid, mapText_optional_int]
  | toolUnknown e =>
    have hid : f ["call_id"] = id := funext (h.eq_of_not_spills (by decide))
    simp [AgentEvent.mapText, fields, htype, hid]
  | externalContextRetrieved e =>
    have hsource := ExternalContextSource.mapText_toValue h e.source
    have hmetadata := @mapText_metadataValue f e.metadata
    simp [AgentEvent.mapText, fields, htype, hsource, hmetadata, mapText_nullable_text]
  | contextReduced e =>
    have hid : f ["tool_call_id"] = id := funext (h.eq_of_not_spills (by decide))
    have hrecovery : f ["recovery_ref"] = id := funext (h.eq_of_not_spills (by decide))
    have hreason := h.mapText_short ["reason"] e.reason.short
    simp only [List.cons_append, List.nil_append] at hreason
    have hblob : (optional BlobRef.toValue e.blob).map (Value.mapText fun path => f ("blob" :: path)) =
        optional BlobRef.toValue e.blob := by
      rw [funext (h.mapText_envelope (by decide)), Option.map_id']
    simp [AgentEvent.mapText, fields, htype, hid, hrecovery, hreason, hblob, mapText_countValue, mapText_optional_text]
  | contextCompactionStarted e =>
    have hlevel := h.mapText_short ["level"] e.level.short
    simp only [List.cons_append, List.nil_append] at hlevel
    simp [AgentEvent.mapText, fields, htype, hlevel]
  | contextCompactionCompleted e =>
    have hlevel := h.mapText_short ["level"] e.level.short
    simp only [List.cons_append, List.nil_append] at hlevel
    simp [AgentEvent.mapText, fields, htype, hlevel]
  | contextSummary =>
    simp [AgentEvent.mapText, fields, htype]
  | contextCompactionEpoch e =>
    have hsummary : Value.mapText (fun path => f ("summary" :: path))
        (nullable BlobRef.toValue e.summary) = nullable BlobRef.toValue
          (e.summary.map (BlobRef.mapText fun path => f ("summary" :: path))) := by
      cases e.summary with
      | none => rfl
      | some blob => exact BlobRef.mapText_toValue h blob
    simp [AgentEvent.mapText, fields, htype, hsummary]
  | checkpointCreated e =>
    have hid : f ["checkpoint_id"] = id := funext (h.eq_of_not_spills (by decide))
    simp [AgentEvent.mapText, fields, htype, hid]
  | turnCompleted status durationMs =>
    have hstatus := h.mapText_short ["status"] status.short
    simp only [List.cons_append, List.nil_append] at hstatus
    simp [AgentEvent.mapText, fields, htype, hstatus]
  | diagnostic level message =>
    have hlevel := h.mapText_short ["level"] level.short
    simp only [List.cons_append, List.nil_append] at hlevel
    simp [AgentEvent.mapText, fields, htype, hlevel]
  | sessionEnded reason =>
    have hreason := SessionEndReason.mapText_toValue h reason
    simp [AgentEvent.mapText, fields, htype, hreason]

/-- The references of a rewritten event survive. -/
lemma AgentEvent.parsed_mapText (h : Keeps f) {event : AgentEvent}
    (hrefs : ∀ model ∈ event.modelRefs, model.Parsed) :
    ∀ model ∈ (event.mapText f).modelRefs, model.Parsed := by
  have hkey : ∀ model ∈ event.modelRefs, ∀ path, (model.mapKey (f path)).Parsed :=
    fun model hmodel path => (ModelRef.mapKey_spec h (hrefs model hmodel) path).2
  cases event with
  | modelFailover e =>
    simp only [modelRefs, List.mem_pair] at hkey
    simp only [AgentEvent.mapText, modelRefs, List.mem_pair]
    rintro model (rfl | rfl)
    · exact hkey _ (Or.inl rfl) _
    · exact hkey _ (Or.inr rfl) _
  | sessionStarted e | modelRequestStarted e | modelRequestCompleted e | modelEpochStarted e =>
    simp only [modelRefs, List.mem_singleton, forall_eq] at hkey
    simp only [AgentEvent.mapText, modelRefs, List.mem_singleton, forall_eq]
    exact hkey _
  | _ => simp [AgentEvent.mapText, modelRefs]

lemma AgentEvent.metadata_mapText (event : AgentEvent) :
    (event.mapText f).metadata =
      event.metadata.map fun entry => (entry.1, f ["metadata", entry.1] entry.2) := by
  cases event <;> rfl

lemma AgentEvent.inMapOrder_mapText {event : AgentEvent} (h : InMapOrder event.metadata) :
    InMapOrder (event.mapText f).metadata := by
  rw [metadata_mapText]
  exact List.pairwise_map.mpr h

/-- The entry of a bounded line. -/
def TraceEntry.mapText (f : List String → String → String) (entry : TraceEntry) : TraceEntry :=
  { entry with envelope := { entry.envelope with event := entry.envelope.event.mapText f } }

/-- The rewritten line is the line of the rewritten entry. -/
lemma TraceEntry.toValue_mapText (h : Keeps f) (entry : TraceEntry)
    (hrefs : ∀ model ∈ entry.envelope.event.modelRefs, model.Parsed) :
    Value.mapText f entry.toValue = (entry.mapText f).toValue := by
  have henvelope : ∀ {fields : List (String × Option Value)},
      (∀ field ∈ fields, field.1 ∈ envelopeFields) →
        fields.map (fun field =>
          (field.1, field.2.map (Value.mapText fun path => f (field.1 :: path)))) = fields := by
    intro fields hfields
    conv_rhs => rw [← List.map_id fields]
    refine List.map_congr_left fun field hfield => ?_
    rw [funext (h.mapText_envelope (hfields field hfield)), Option.map_id', id]
  have hfront : ∀ field ∈ [("meta", some entry.envelope.eventMeta.toValue),
      ("v", some (ofNat entry.envelope.v))], field.1 ∈ envelopeFields := by
    intro field hfield
    rcases List.mem_pair.mp hfield with rfl | rfl <;> simp [envelopeFields]
  have hevent := AgentEvent.fields_mapText h entry.envelope.event hrefs
  rw [toValue_eq, toValue_eq, mapText_ofObject, fields, List.map_append, List.map_append,
    henvelope hfront, ← hevent]
  congr 2
  refine henvelope fun field hfield => ?_
  simp only [List.mem_cons, List.not_mem_nil, or_false] at hfield
  rcases hfield with rfl | rfl | rfl | rfl <;> simp [envelopeFields]

end Events

/-! ### The stored line -/

/-- The line that is written after bounding, with the record of what was taken out. -/
def storedLine (bounded : Value × List ExternalizedField) : Value :=
  if bounded.2.isEmpty then bounded.1
  else bounded.1.setField "externalized" (externalizedValue bounded.2)

/-- An entry that went through the journal has its record of what was taken out. -/
def TraceEntry.withExternalized (entry : TraceEntry) (spilled : List ExternalizedField) :
    TraceEntry :=
  { entry with externalized := spilled }

lemma TraceEntry.carries_storedLine {entry : TraceEntry} (hfresh : entry.externalized = [])
    (spilled : List ExternalizedField) :
    (storedLine (entry.toValue, spilled)).Carries (entry.withExternalized spilled).fields := by
  have hempty : entry.withExternalized [] = entry := by
    rw [TraceEntry.withExternalized, ← hfresh]
  cases spilled with
  | nil =>
    rw [hempty]
    exact entry.carries
  | cons field spilled =>
    have hnodup := (entry.withExternalized (field :: spilled)).nodup_keys
    have hcarries := entry.carries
    rw [TraceEntry.fields, List.map_append] at hnodup
    rw [TraceEntry.fields, carries_append] at hcarries ⊢
    have hother : ∀ {key : String}, key ≠ "externalized" →
        (storedLine (entry.toValue, field :: spilled)).get key = entry.toValue.get key :=
      fun hkey => get_setField_ne hkey entry.toValue _
    refine ⟨fun front hfront => ?_, ?_⟩
    · rw [hother, hcarries.1 front hfront]
      intro hkey
      refine (List.nodup_append.mp hnodup).2.2 _ (List.mem_map_of_mem hfront) "externalized" ?_ hkey
      simp
    · have hback := hcarries.2
      simp only [carries_cons] at hback ⊢
      refine ⟨?_, ?_, ?_, ?_, carries_nil _⟩
      · rw [hother (by decide), hback.1]
        rfl
      · rw [hother (by decide), hback.2.1]
        rfl
      · rw [hother (by decide), hback.2.2.1]
        rfl
      · exact get_insertField_self _ _ _

/-- A bounded line is still the line of an event. -/
theorem TraceEntry.ofValue_bounded {f : List String → String → String} (h : Keeps f)
    {entry : TraceEntry} (hfresh : entry.externalized = [])
    (hrefs : ∀ model ∈ entry.modelRefs, model.Parsed)
    (horder : InMapOrder entry.envelope.event.metadata) (spilled : List ExternalizedField) :
    TraceEntry.ofValue (storedLine (Value.mapText f entry.toValue, spilled)) =
      some ((entry.mapText f).withExternalized spilled) := by
  have hevent : ∀ model ∈ entry.envelope.event.modelRefs, model.Parsed :=
    fun model hmodel => hrefs model (List.mem_append_right _ hmodel)
  rw [toValue_mapText h entry hevent]
  have hcarries := @carries_storedLine (entry.mapText f) hfresh spilled
  refine ofValue_of_carries hcarries (fun model hmodel => ?_)
    (AgentEvent.inMapOrder_mapText horder)
  rcases List.mem_append.mp hmodel with hmodel | hmodel
  · exact hrefs model (List.mem_append_left _ hmodel)
  · exact AgentEvent.parsed_mapText h hevent model hmodel

end Rupi
