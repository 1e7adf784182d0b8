import Rupi.Import.Plan

/-!
What the readers of a Pi entry take from its content, without their loops.

- `PiImport.kindOf`: what a block that carries nothing is counted as.
- `contentText_eq`, `toolCallBlocks_eq`: the two readers, in closed form.
- `PiImport.pushesOf`, `PiImport.countedBy`, `PiImport.skippedAs`: the events an entry
  pushes, and what it adds to the report.
- **`walk_events`**, **`walk_counts`**: the same for the whole path.
-/

namespace Rupi

open Value

/-! ### Counts -/

namespace ImportReport

lemma countOf_bump (k kind : String) (counts : List (String × Nat)) :
    countOf k (bump kind counts) = countOf k counts + [kind].count k := by
  rw [bump, countOf, Keyed.lookup_put]
  by_cases h : kind = k
  · rw [if_pos h, h]
    simp
  · rw [if_neg h, List.count_singleton]
    simp [h, countOf]

/-- The count of a kind of skipped entry. -/
def skippedCount (kind : String) (skipped : List (String × Skipped)) : Nat :=
  ((Keyed.lookup Prod.fst kind skipped).map (·.2.count)).getD 0

lemma skippedCount_skip (k : String) (report : ImportReport) (kind reason : String) :
    skippedCount k (report.skip kind reason).skipped =
      skippedCount k report.skipped + [kind].count k := by
  rw [skip, skippedCount, Keyed.lookup_put]
  by_cases h : kind = k
  · rw [if_pos h, ← h]
    cases hlookup : Keyed.lookup Prod.fst kind report.skipped <;> simp [skippedCount, hlookup]
  · rw [if_neg h, List.count_singleton]
    simp [h, skippedCount]

/-- Bump a list of kinds. -/
def countAll (kinds : List String) (report : ImportReport) : ImportReport :=
  kinds.foldl countContent report

lemma countOf_countAll (k : String) (kinds : List String) (report : ImportReport) :
    countOf k (countAll kinds report).content = countOf k report.content + kinds.count k := by
  induction kinds generalizing report with
  | nil => rfl
  | cons kind kinds ih =>
    have hcons : (kind :: kinds).count k = [kind].count k + kinds.count k := by
      rw [← List.singleton_append, List.count_append]
    rw [countAll, List.foldl_cons, ← countAll, ih, countContent, countOf_bump, hcons]
    omega

/-- Counting content leaves the rest of a report alone. -/
lemma countAll_skipped (kinds : List String) (report : ImportReport) :
    (countAll kinds report).skipped = report.skipped := by
  induction kinds generalizing report with
  | nil => rfl
  | cons kind kinds ih => rw [countAll, List.foldl_cons, ← countAll, ih, countContent]

lemma countAll_offPath (kinds : List String) (report : ImportReport) :
    (countAll kinds report).offPath = report.offPath := by
  induction kinds generalizing report with
  | nil => rfl
  | cons kind kinds ih => rw [countAll, List.foldl_cons, ← countAll, ih, countContent]

lemma countAll_append (kinds kinds' : List String) (report : ImportReport) :
    countAll (kinds ++ kinds') report = countAll kinds' (countAll kinds report) :=
  List.foldl_append

end ImportReport

namespace PiImport

/-! ### Blocks -/

/-- The prose of a text block. -/
def proseOf (block : Value) : Option String :=
  if stringField block "type" = some "text" then (stringField block "text").filter (· ≠ "")
  else none

/-- The bytes of an image block. -/
def imageOf (block : Value) : Option (String × String) :=
  if stringField block "type" = some "image" then
    (stringField block "data").map fun data =>
      ((stringField block "mimeType").getD "image/png", data)
  else none

/-- What a block is counted as when it carries no text, call or bytes. -/
def kindOf (block : Value) : Option String :=
  let kind := stringField block "type"
  if kind = some "text" ∨ kind.any isThinkingKind ∨ kind = some "toolCall" then none
  else if kind = some "image" then
    if (stringField block "data").isSome then none else some "image without data"
  else some (kind.getD "block without a type")

/-- The block of the session log for a block of the file. -/
def ownedOf (block : Value) : Option ContentBlock :=
  ((proseOf block).map .text).or ((imageOf block).map fun image => .image image.1 image.2)

/-- Blocks that are neither prose nor reasoning nor calls. -/
def isAttachment (block : Value) : Bool :=
  let kind := stringField block "type"
  !(kind == some "text" || kind.any isThinkingKind || kind == some "toolCall")

/-- One block, by what it is. -/
lemma readBlock_eq (s : ContentReading) (block : Value) :
    readBlock s block =
      { parts := s.parts ++ (proseOf block).toList
        owned := s.owned ++ (ownedOf block).toList
        attachments := s.attachments + if isAttachment block then 1 else 0
        report := s.report.countAll (kindOf block).toList } := by
  cases hkind : stringField block "type" with
  | none =>
    simp [readBlock, proseOf, ownedOf, imageOf, isAttachment, kindOf, hkind,
      ImportReport.countAll]
  | some kind =>
    by_cases htext : kind = "text"
    · subst htext
      cases hbody : stringField block "text" with
      | none =>
        simp [readBlock, proseOf, ownedOf, imageOf, isAttachment, kindOf, hkind, hbody,
          ImportReport.countAll]
      | some body =>
        by_cases hempty : body = ""
        all_goals simp [readBlock, proseOf, ownedOf, imageOf, isAttachment, kindOf, hkind, hbody,
          hempty, Option.filter, ImportReport.countAll]
    · by_cases hthinking : isThinkingKind kind = true
      · have himage : kind ≠ "image" := by
          rintro rfl
          simp [isThinkingKind] at hthinking
        simp [readBlock, proseOf, ownedOf, imageOf, isAttachment, kindOf, hkind, htext, hthinking,
          himage, ImportReport.countAll]
      · by_cases hcall : kind = "toolCall"
        · simp [readBlock, proseOf, ownedOf, imageOf, isAttachment, kindOf, hkind, hcall,
            ImportReport.countAll]
        · by_cases himage : kind = "image"
          · subst himage
            cases hdata : stringField block "data" <;>
              simp [readBlock, proseOf, ownedOf, imageOf, isAttachment, kindOf, hkind, hdata,
                hthinking, ImportReport.countAll]
          · simp [readBlock, proseOf, ownedOf, imageOf, isAttachment, kindOf, hkind, htext,
              hthinking, hcall, himage, ImportReport.countAll]

lemma filterMap_cons_eq {α β : Type} (f : α → Option β) (a : α) (as : List α) :
    (a :: as).filterMap f = (f a).toList ++ as.filterMap f := by
  cases h : f a <;> simp [h]

/-- The loop over the blocks, from what has been read. -/
lemma foldl_readBlock (blocks : List Value) (s : ContentReading) :
    blocks.foldl readBlock s =
      { parts := s.parts ++ blocks.filterMap proseOf
        owned := s.owned ++ blocks.filterMap ownedOf
        attachments := s.attachments + blocks.countP isAttachment
        report := s.report.countAll (blocks.filterMap kindOf) } := by
  induction blocks generalizing s with
  | nil => simp [ImportReport.countAll]
  | cons block blocks ih =>
    rw [List.foldl_cons, ih, readBlock_eq]
    simp only [filterMap_cons_eq, List.countP_cons, List.append_assoc,
      ImportReport.countAll_append, Nat.add_assoc, Nat.add_comm (List.countP _ _)]

/-- Joined texts begin with the first. -/
lemma exists_intercalate_cons (sep text : String) (texts : List String) :
    ∃ rest, sep.intercalate (text :: texts) = text ++ rest := by
  cases texts with
  | nil => exact ⟨"", by simp⟩
  | cons next texts => exact ⟨sep ++ sep.intercalate (next :: texts), by simp [String.append_assoc]⟩

lemma ne_empty_of_proseOf {block : Value} {text : String} (h : proseOf block = some text) :
    text ≠ "" := by
  rintro rfl
  by_cases htype : stringField block "type" = some "text" <;>
    simp [proseOf, htype] at h

/-- What the blocks of a content amount to. -/
def extractedOf (blocks : List Value) : Extracted :=
  ⟨"\n\n".intercalate (blocks.filterMap proseOf), blocks.countP isAttachment,
    blocks.filterMap ownedOf⟩

/-- The content reader in closed form. -/
lemma contentText_eq (report : ImportReport) (blocks : List Value) :
    contentText report blocks = (extractedOf blocks, report.countAll (blocks.filterMap kindOf)) := by
  simp [contentText, foldl_readBlock, extractedOf]

/-! ### Calls -/

/-- A call with a name: the id it has, its name and its arguments. -/
def namedCallOf (block : Value) : Option (Option String × String × Value) :=
  if stringField block "type" = some "toolCall" then
    (stringField block "name").map fun name =>
      ((stringField block "id").filter (· ≠ ""), name,
        (block.get "arguments").getD (string "Pi recorded no arguments"))
  else none

/-- What a call without a name is counted as. -/
def namelessOf (block : Value) : Option String :=
  if stringField block "type" = some "toolCall" ∧ stringField block "name" = none then
    some "tool call without a name"
  else none

/-- The call at a position of its message. -/
def callBlock (entry : PiEntry) (call : (Option String × String × Value) × Nat) : ToolCallBlock :=
  ⟨call.1.1.getD (entry.id ++ "-" ++ toString (call.2 + 1)), call.1.2.1, call.1.2.2⟩

/-- The calls of a content, in order. -/
def callsOf (entry : PiEntry) (blocks : List Value) : List ToolCallBlock :=
  (blocks.filterMap namedCallOf).zipIdx.map (callBlock entry)

lemma foldl_readCall (entry : PiEntry) (blocks : List Value) (s : CallReading) :
    (blocks.foldl (readCall entry) s).calls =
        s.calls ++ ((blocks.filterMap namedCallOf).zipIdx s.calls.length).map (callBlock entry) ∧
      (∀ k, ImportReport.countOf k (blocks.foldl (readCall entry) s).report.content =
        ImportReport.countOf k s.report.content + (blocks.filterMap namelessOf).count k) ∧
      (blocks.foldl (readCall entry) s).report.skipped = s.report.skipped ∧
      (blocks.foldl (readCall entry) s).report.offPath = s.report.offPath := by
  induction blocks generalizing s with
  | nil => simp
  | cons block blocks ih =>
    obtain ⟨hcalls, hcount, hskipped, hoff⟩ := ih (readCall entry s block)
    rw [List.foldl_cons, hcalls, hskipped, hoff]
    by_cases hcall : stringField block "type" = some "toolCall"
    · cases hname : stringField block "name" with
      | none =>
        have hread : readCall entry s block =
            { s with report := s.report.countContent "tool call without a name" } := by
          simp [readCall, hcall, hname]
        refine ⟨?_, fun k => ?_, ?_, ?_⟩
        · simp [hread, namedCallOf, hcall, hname]
        · have hnone : namelessOf block = some "tool call without a name" := by
            simp [namelessOf, hcall, hname]
          have hcons : (block :: blocks).filterMap namelessOf =
              ["tool call without a name"] ++ blocks.filterMap namelessOf := by
            simp [hnone]
          rw [hcount, hread, hcons, List.count_append]
          simp only [ImportReport.countContent, ImportReport.countOf_bump]
          omega
        · simp [hread, ImportReport.countContent]
        · simp [hread, ImportReport.countContent]
      | some name =>
        have hnamed : namedCallOf block = some ((stringField block "id").filter (· ≠ ""), name,
            (block.get "arguments").getD (string "Pi recorded no arguments")) := by
          simp [namedCallOf, hcall, hname]
        have hread : readCall entry s block =
            { calls := s.calls ++ [callBlock entry (((stringField block "id").filter (· ≠ ""), name,
                (block.get "arguments").getD (string "Pi recorded no arguments")),
                s.calls.length)]
              report := s.report.countImport "toolCall" } := by
          simp [readCall, hcall, hname, callBlock]
        refine ⟨?_, fun k => ?_, ?_, ?_⟩
        · simp [hread, hnamed, List.zipIdx_cons]
        · rw [hcount, hread]
          simp [namelessOf, hname, ImportReport.countImport]
        · simp [hread, ImportReport.countImport]
        · simp [hread, ImportReport.countImport]
    · have hread : readCall entry s block = s := by simp [readCall, hcall]
      refine ⟨?_, fun k => ?_, ?_, ?_⟩
      · simp [hread, namedCallOf, hcall]
      · rw [hcount, hread]
        simp [namelessOf, hcall]
      · rw [hread]
      · rw [hread]

/-- The call reader in closed form. -/
lemma toolCallBlocks_eq (entry : PiEntry) (blocks : List Value) (report : ImportReport) :
    (toolCallBlocks entry blocks report).1 = callsOf entry blocks ∧
      (∀ k, ImportReport.countOf k (toolCallBlocks entry blocks report).2.content =
        ImportReport.countOf k report.content + (blocks.filterMap namelessOf).count k) ∧
      (toolCallBlocks entry blocks report).2.skipped = report.skipped ∧
      (toolCallBlocks entry blocks report).2.offPath = report.offPath := by
  simpa [toolCallBlocks, callsOf] using foldl_readCall entry blocks ⟨[], report⟩

/-! ### One entry -/

/-- The array of a content, or nothing. -/
def blocksOf : Option Value → List Value
  | some (array blocks) => blocks
  | _ => []

/-- What a content amounts to for a user or tool entry. -/
def extractedFrom : Option Value → Extracted
  | some (string text) => ⟨text, 0, textBlocks text⟩
  | content => extractedOf (blocksOf content)

/-- The mark of a truncated entry. -/
def truncationMark (entry : PiEntry) : String :=
  match entry.num "truncated" with
  | some dropped => "\n[" ++ toString dropped ++ " bytes truncated by Pi and not stored]"
  | none => ""

/-- The text and blocks of a user or tool entry. -/
def partsOf (entry : PiEntry) : Extracted :=
  let extracted := extractedFrom (entry.messageValue "content")
  { extracted with text := extracted.text ++ truncationMark entry }

/-- What a user or tool entry is counted as. -/
def partKinds (entry : PiEntry) : List String :=
  (blocksOf (entry.messageValue "content")).filterMap kindOf ++
    if (entry.num "truncated").isSome then ["truncated by Pi"] else []

lemma extractedOf_nil : extractedOf [] = Extracted.empty := rfl

lemma contentParts_eq (report : ImportReport) (content : Option Value) :
    contentParts report content =
      (extractedFrom content, report.countAll ((blocksOf content).filterMap kindOf)) := by
  cases content with
  | none => rfl
  | some content => cases content <;> first | rfl | exact contentText_eq report _

lemma messageParts_eq (entry : PiEntry) (report : ImportReport) :
    messageParts entry report = (partsOf entry, report.countAll (partKinds entry)) := by
  rw [messageParts, contentParts_eq]
  cases htruncated : entry.num "truncated" with
  | none => simp [partsOf, partKinds, truncationMark, htruncated]
  | some dropped =>
    simp [partsOf, partKinds, truncationMark, htruncated, ImportReport.countAll,
      String.append_assoc]

/-- The blocks of an assistant entry. -/
def replyBlocks (entry : PiEntry) : List Value := (entry.messageFieldArray "content").getD []

/-- What an assistant entry is counted as. -/
def replyKinds (entry : PiEntry) : List String :=
  (replyBlocks entry).filterMap kindOf ++ (replyBlocks entry).filterMap namelessOf ++
    if ((entry.messageFieldObject "usage").bind fun usage => usage.get "cost").isSome then
      ["usage:cost"] else []

/-- The role of a `message` entry. -/
def roleOf (entry : PiEntry) : String := entry.messageRole.getD ""

/-- The events an entry pushes. -/
def pushesOf (s : PlanState) (entry : PiEntry) : List Pushed :=
  if entry.entryType = "message" then
    if roleOf entry = "user" then userPushes s.model (partsOf entry)
    else if roleOf entry = "assistant" then
      assistantPushes entry (modelRef (assistantModel s.model entry)) (s.requests + 1)
        (replyBlocks entry) (extractedOf (replyBlocks entry)) (callsOf entry (replyBlocks entry))
    else if roleOf entry = "toolResult" then toolResultPushes entry s.model (partsOf entry)
    else []
  else if entry.entryType = "model_change" then
    [.plain (info ("imported from Pi: the model changed to " ++
      (entry.str "provider").getD "unknown" ++ "/" ++ (entry.str "toModelId").getD "unknown"))]
  else if entry.entryType = "thinking_level_change" then
    [.plain (info ("imported from Pi: thinking level set to " ++
      (entry.str "thinkingLevel").getD "unknown"))]
  else if entry.entryType = "compaction" then
    [.plain (info ("imported from Pi: a compaction boundary (first kept entry " ++
      (entry.str "firstKeptEntryId").getD "unknown" ++ ")"))]
  else []

/-- What an entry adds to the counts of content. -/
def countedBy (entry : PiEntry) : List String :=
  if entry.entryType = "message" then
    if roleOf entry = "user" ∨ roleOf entry = "toolResult" then partKinds entry
    else if roleOf entry = "assistant" then replyKinds entry
    else []
  else []

/-- The kind an entry is skipped as. -/
def skippedAs (entry : PiEntry) : Option String :=
  if entry.entryType = "message" then
    if roleOf entry = "user" ∨ roleOf entry = "assistant" ∨ roleOf entry = "toolResult" then none
    else some "message"
  else if entry.entryType = "model_change" ∨ entry.entryType = "thinking_level_change" ∨
      entry.entryType = "session" ∨ entry.entryType = "more" then none
  else some entry.entryType

section

variable (isToMillis : String → Option Nat)

/-- What a step leaves: these events, these counts of content, these skipped entries. -/
structure Adds (s s' : PlanState) (events : List Mapped) (kinds : List String)
    (skipped : Option String) : Prop where
  events_eq : s'.events = s.events ++ events
  content : ∀ k, ImportReport.countOf k s'.report.content =
    ImportReport.countOf k s.report.content + kinds.count k
  skip : ∀ k, ImportReport.skippedCount k s'.report.skipped =
    ImportReport.skippedCount k s.report.skipped + skipped.toList.count k
  offPath : s'.report.offPath = s.report.offPath

lemma planUser_adds (s : PlanState) (entry : PiEntry) :
    Adds s (planUser isToMillis s entry)
      ((userPushes s.model (partsOf entry)).map (mapped isToMillis entry))
      (partKinds entry) none := by
  rw [planUser, messageParts_eq]
  refine ⟨rfl, fun k => ?_, fun k => ?_, ?_⟩
  · exact ImportReport.countOf_countAll k _ _
  · simp [PlanState.push, ImportReport.countAll_skipped, ImportReport.countImport]
  · simp [PlanState.push, ImportReport.countAll_offPath, ImportReport.countImport]

lemma planToolResult_adds (s : PlanState) (entry : PiEntry) :
    Adds s (planToolResult isToMillis s entry)
      ((toolResultPushes entry s.model (partsOf entry)).map (mapped isToMillis entry))
      (partKinds entry) none := by
  rw [planToolResult, messageParts_eq]
  refine ⟨rfl, fun k => ?_, fun k => ?_, ?_⟩
  · exact ImportReport.countOf_countAll k _ _
  · simp [PlanState.push, ImportReport.countAll_skipped, ImportReport.countImport]
  · simp [PlanState.push, ImportReport.countAll_offPath, ImportReport.countImport]

lemma planAssistant_adds (s : PlanState) (entry : PiEntry) :
    Adds s (planAssistant isToMillis s entry)
      ((assistantPushes entry (modelRef (assistantModel s.model entry)) (s.requests + 1)
        (replyBlocks entry) (extractedOf (replyBlocks entry))
        (callsOf entry (replyBlocks entry))).map (mapped isToMillis entry))
      (replyKinds entry) none := by
  obtain ⟨hcalls, hcount, hskipped, hoff⟩ := toolCallBlocks_eq entry (replyBlocks entry)
    ((s.report.countImport "message:assistant").countAll ((replyBlocks entry).filterMap kindOf))
  have hblocks : (entry.messageFieldArray "content").getD [] = replyBlocks entry := rfl
  rw [planAssistant, hblocks, contentText_eq]
  refine ⟨?_, fun k => ?_, fun k => ?_, ?_⟩
  · simp [PlanState.push, hcalls]
  · have hkinds := ImportReport.countOf_countAll k ((replyBlocks entry).filterMap kindOf)
      (s.report.countImport "message:assistant")
    have hcost : ∀ report : ImportReport, ∀ p : Bool, ImportReport.countOf k
        (if p then report.countContent "usage:cost" else report).content =
          ImportReport.countOf k report.content + (if p then ["usage:cost"] else []).count k := by
      intro report p
      cases p <;> simp [ImportReport.countContent, ImportReport.countOf_bump]
    have himport : (s.report.countImport "message:assistant").content = s.report.content := rfl
    rw [himport] at hkinds
    simp only [PlanState.push, hcost, hcount, hkinds, replyKinds, List.count_append]
    omega
  · have hcost : ∀ report : ImportReport, ∀ p : Bool,
        (if p then report.countContent "usage:cost" else report).skipped = report.skipped := by
      intro report p
      cases p <;> rfl
    simp only [PlanState.push, hcost, hskipped, ImportReport.countAll_skipped]
    rfl
  · have hcost : ∀ report : ImportReport, ∀ p : Bool,
        (if p then report.countContent "usage:cost" else report).offPath = report.offPath := by
      intro report p
      cases p <;> rfl
    simp only [PlanState.push, hcost, hoff, ImportReport.countAll_offPath]
    rfl

/-- What a `message` entry adds to the plan. -/
lemma planMessage_adds (s : PlanState) {entry : PiEntry} (h : entry.entryType = "message") :
    Adds s (planMessage isToMillis s entry) ((pushesOf s entry).map (mapped isToMillis entry))
      (countedBy entry) (skippedAs entry) := by
  have hrole : entry.messageRole.getD "" = roleOf entry := rfl
  rw [planMessage, pushesOf, if_pos h, countedBy, if_pos h, skippedAs, if_pos h, hrole]
  by_cases huser : roleOf entry = "user"
  · rw [if_pos huser, if_pos huser, if_pos (.inl huser), if_pos (.inl huser)]
    exact planUser_adds isToMillis s entry
  · by_cases hassistant : roleOf entry = "assistant"
    · have hparts : ¬(roleOf entry = "user" ∨ roleOf entry = "toolResult") := by
        simp [hassistant]
      have hknown : roleOf entry = "user" ∨ roleOf entry = "assistant" ∨
          roleOf entry = "toolResult" := .inr (.inl hassistant)
      rw [if_neg huser, if_neg huser, if_pos hassistant, if_pos hassistant, if_neg hparts,
        if_pos hknown, if_pos hassistant]
      exact planAssistant_adds isToMillis s entry
    · by_cases htool : roleOf entry = "toolResult"
      · rw [if_neg huser, if_neg huser, if_neg hassistant, if_neg hassistant, if_pos htool,
          if_pos htool, if_pos (.inr htool), if_pos (.inr (.inr htool))]
        exact planToolResult_adds isToMillis s entry
      · have hnone : ¬(roleOf entry = "user" ∨ roleOf entry = "toolResult") := by
          simp [huser, htool]
        have hother : ¬(roleOf entry = "user" ∨ roleOf entry = "assistant" ∨
            roleOf entry = "toolResult") := by simp [huser, hassistant, htool]
        rw [if_neg huser, if_neg huser, if_neg hassistant, if_neg hassistant, if_neg htool,
          if_neg htool, if_neg hnone, if_neg hother, if_neg hassistant]
        exact ⟨by simp, fun k => by simp [ImportReport.skip],
          fun k => ImportReport.skippedCount_skip k _ _ _, rfl⟩

lemma adds_skip (s : PlanState) (kind reason : String) :
    Adds s { s with report := s.report.skip kind reason } [] [] (some kind) :=
  ⟨by simp, fun _ => rfl, fun k => ImportReport.skippedCount_skip k _ _ _, rfl⟩

/-- What an entry of any type adds to the plan. -/
lemma planByType_adds (s : PlanState) (entry : PiEntry) :
    Adds s (planByType isToMillis s entry) ((pushesOf s entry).map (mapped isToMillis entry))
      (countedBy entry) (skippedAs entry) := by
  by_cases hmessage : entry.entryType = "message"
  · rw [planByType, if_pos hmessage]
    exact planMessage_adds isToMillis s hmessage
  · have hcounted : countedBy entry = [] := if_neg hmessage
    rw [hcounted, planByType, if_neg hmessage, pushesOf, if_neg hmessage, skippedAs,
      if_neg hmessage]
    by_cases hmodel : entry.entryType = "model_change"
    · rw [if_pos hmodel, if_pos hmodel, if_pos (.inl hmodel)]
      exact ⟨rfl, fun _ => rfl, fun _ => rfl, rfl⟩
    · by_cases hlevel : entry.entryType = "thinking_level_change"
      · rw [if_neg hmodel, if_neg hmodel, if_pos hlevel, if_pos hlevel, if_pos (.inr (.inl hlevel))]
        exact ⟨rfl, fun _ => rfl, fun _ => rfl, rfl⟩
      · rw [if_neg hmodel, if_neg hmodel, if_neg hlevel, if_neg hlevel]
        by_cases hcompaction : entry.entryType = "compaction"
        · rw [if_pos hcompaction, if_pos hcompaction, if_neg (by simp [hcompaction]), hcompaction]
          exact ⟨rfl, fun _ => rfl, fun k => ImportReport.skippedCount_skip k _ _ _, rfl⟩
        · rw [if_neg hcompaction, if_neg hcompaction]
          by_cases hquiet : entry.entryType = "session" ∨ entry.entryType = "more"
          · have hnone : entry.entryType = "model_change" ∨
                entry.entryType = "thinking_level_change" ∨
                entry.entryType = "session" ∨ entry.entryType = "more" := .inr (.inr hquiet)
            have hbranch : entry.entryType ≠ "branch_summary" := by
              rcases hquiet with h | h <;> simp [h]
            have hlabel : entry.entryType ≠ "label" := by rcases hquiet with h | h <;> simp [h]
            have hcustom : ¬"custom".toList.isPrefixOf entry.entryType.toList = true := by
              rcases hquiet with h | h <;> rw [h] <;> decide
            rw [if_neg hbranch, if_neg hlabel, if_neg hcustom, if_pos hquiet, if_pos hnone]
            exact ⟨by simp, fun _ => rfl, fun _ => rfl, rfl⟩
          · have hsome : ¬(entry.entryType = "model_change" ∨
                entry.entryType = "thinking_level_change" ∨
                entry.entryType = "session" ∨ entry.entryType = "more") := by
              simp only [not_or] at hquiet ⊢
              exact ⟨hmodel, hlevel, hquiet⟩
            rw [if_neg hsome]
            split_ifs with hbranch hlabel
            · rw [hbranch]
              exact adds_skip s _ _
            · rw [hlabel]
              exact adds_skip s _ _
            · exact adds_skip s _ _
            · exact adds_skip s _ _

/-- What one entry adds to the plan. -/
lemma planEntry_adds (s : PlanState) (entry : PiEntry) :
    Adds s (planEntry isToMillis s entry) ((pushesOf s entry).map (mapped isToMillis entry))
      (countedBy entry) (skippedAs entry) :=
  let ⟨hevents, hcontent, hskip, hoff⟩ := planByType_adds isToMillis s entry
  ⟨hevents, hcontent, hskip, hoff⟩

/-! ### The whole path -/

/-- The counts of the whole path are those of its entries. -/
theorem walk_counts (path : List PiEntry) (s : PlanState) :
    (∀ k, ImportReport.countOf k (path.foldl (planEntry isToMillis) s).report.content =
        ImportReport.countOf k s.report.content + (path.map fun e => (countedBy e).count k).sum) ∧
      (∀ k, ImportReport.skippedCount k
          (path.foldl (planEntry isToMillis) s).report.skipped =
        ImportReport.skippedCount k s.report.skipped + (path.filterMap skippedAs).count k) ∧
      (path.foldl (planEntry isToMillis) s).report.offPath = s.report.offPath := by
  induction path generalizing s with
  | nil => simp
  | cons entry path ih =>
    obtain ⟨hcontent, hskip, hoff⟩ := ih (planEntry isToMillis s entry)
    have hadds := planEntry_adds isToMillis s entry
    refine ⟨fun k => ?_, fun k => ?_, ?_⟩
    · rw [List.foldl_cons, hcontent, hadds.content, List.map_cons, List.sum_cons, Nat.add_assoc]
    · rw [List.foldl_cons, hskip, hadds.skip, filterMap_cons_eq, List.count_append, Nat.add_assoc]
    · rw [List.foldl_cons, hoff, hadds.offPath]

/-- The entries of the path, each with the events it pushes in the state the walk has
come to. -/
def walk (s : PlanState) : List PiEntry → List (PiEntry × List Pushed)
  | [] => []
  | entry :: path => (entry, pushesOf s entry) :: walk (planEntry isToMillis s entry) path

lemma map_fst_walk (path : List PiEntry) (s : PlanState) :
    (walk isToMillis s path).map Prod.fst = path := by
  induction path generalizing s with
  | nil => rfl
  | cons entry path ih => rw [walk, List.map_cons, ih]

lemma exists_state_of_mem_walk {path : List PiEntry} {s : PlanState}
    {step : PiEntry × List Pushed} (h : step ∈ walk isToMillis s path) :
    ∃ s', step.2 = pushesOf s' step.1 := by
  induction path generalizing s with
  | nil => exact absurd h (by simp [walk])
  | cons entry path ih =>
    rcases List.mem_cons.mp h with rfl | h
    · exact ⟨s, rfl⟩
    · exact ih h

/-- The events of a step, with their entry. -/
def stepEvents (step : PiEntry × List Pushed) : List Mapped :=
  step.2.map (mapped isToMillis step.1)

/-- The events of the whole path, entry by entry. -/
theorem walk_events (path : List PiEntry) (s : PlanState) :
    (path.foldl (planEntry isToMillis) s).events =
      s.events ++ (walk isToMillis s path).flatMap (stepEvents isToMillis) := by
  induction path generalizing s with
  | nil => simp [walk]
  | cons entry path ih =>
    rw [List.foldl_cons, ih, (planEntry_adds isToMillis s entry).events_eq, walk,
      List.flatMap_cons, List.append_assoc]
    rfl

/-- The line of an event is the line of its entry. -/
lemma filter_stepEvents (step : PiEntry × List Pushed) (line : Nat) :
    (stepEvents isToMillis step).filter (fun event => event.line = line) =
      if step.1.line = line then stepEvents isToMillis step else [] := by
  by_cases h : step.1.line = line
  · rw [if_pos h, List.filter_eq_self]
    intro event hevent
    obtain ⟨pushed, -, rfl⟩ := List.mem_map.mp hevent
    exact decide_eq_true h
  · rw [if_neg h, List.filter_eq_nil_iff]
    intro event hevent hline
    obtain ⟨pushed, -, rfl⟩ := List.mem_map.mp hevent
    exact h (of_decide_eq_true hline)

/-- Under distinct lines the events of a line are those of its entry. -/
lemma filter_flatMap_stepEvents {steps : List (PiEntry × List Pushed)}
    (hlines : (steps.map fun step => step.1.line).Nodup) {step : PiEntry × List Pushed}
    (hstep : step ∈ steps) :
    (steps.flatMap (stepEvents isToMillis)).filter (fun event => event.line = step.1.line) =
      stepEvents isToMillis step := by
  induction steps with
  | nil => exact absurd hstep (by simp)
  | cons first steps ih =>
    obtain ⟨hfirst, hrest⟩ := List.nodup_cons.mp hlines
    rw [List.flatMap_cons, List.filter_append, filter_stepEvents]
    rcases List.mem_cons.mp hstep with rfl | hmem
    · have hnone : (steps.flatMap (stepEvents isToMillis)).filter
          (fun event => event.line = step.1.line) = [] := by
        rw [List.filter_eq_nil_iff]
        intro event hevent heq
        obtain ⟨other, hother, hmem⟩ := List.mem_flatMap.mp hevent
        obtain ⟨pushed, -, rfl⟩ := List.mem_map.mp hmem
        have hline : other.1.line = step.1.line := of_decide_eq_true heq
        exact hfirst (List.mem_map.mpr ⟨other, hother, hline⟩)
      rw [if_pos rfl, hnone, List.append_nil]
    · have hne : first.1.line ≠ step.1.line :=
        fun heq => hfirst (List.mem_map.mpr ⟨step, hmem, heq.symm⟩)
      rw [if_neg hne, ih hrest hmem, List.nil_append]

end

end PiImport

end Rupi
