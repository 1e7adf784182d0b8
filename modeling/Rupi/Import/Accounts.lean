import Mathlib.Algebra.Order.BigOperators.Group.List
import Rupi.Import.Contents

/-!
Whether an import leaves anything of a conversation out without saying so.

- `Contents`: texts, reasoning, calls, images and results, of an entry or of events.
- `held`, `reported`: what an entry holds, and what it holds nothing of but a kind.
- `Accounts`: everything held is carried by the events of its entry, and everything
  else is counted by the report.
- `Legible`: the shapes of an entry that the reader of its role knows.
- `complete_iff`: one entry. **`plan_accounts_iff`**: the plan of a file accounts for its
  active path exactly when every entry on it is legible.
-/

namespace Rupi

open Value

namespace PiImport

/-- What an entry holds, or what events carry. -/
structure Contents where
  texts : List String
  reasoning : List String
  calls : List ToolCallBlock
  images : List (String × String)
  results : List (ToolCallId × String × String)

def Contents.none : Contents := ⟨[], [], [], [], []⟩

/-- Everything of one is in the other, in order. -/
structure Contents.Within (a b : Contents) : Prop where
  texts : a.texts.Sublist b.texts
  reasoning : a.reasoning.Sublist b.reasoning
  calls : a.calls.Sublist b.calls
  images : a.images.Sublist b.images
  results : a.results.Sublist b.results

/-! ### What an entry holds -/

/-- The content of an entry: in its message, or at its top in a file that nests nothing. -/
def contentOf (entry : PiEntry) : Option Value :=
  (entry.messageValue "content").or (entry.value.get "content")

def bareTexts : Option Value → List String
  | some (string text) => if text = "" then [] else [text]
  | _ => []

/-- The texts of a content. -/
def textsIn (content : Option Value) : List String :=
  bareTexts content ++ (blocksOf content).filterMap proseOf

/-- The reasoning of a content, block by block. -/
def thoughtsIn (content : Option Value) : List String :=
  ((blocksOf content).filter isThinking).filterMap thoughtOf

/-- The reasoning an older file keeps beside the content. -/
def topReasoning (entry : PiEntry) : List String :=
  ["thinking", "reasoning"].filterMap fun name =>
    ((entry.arr name).map thinkingText).filter (· ≠ "")

/-- The result of a tool entry: the call it answers and the text of its content. -/
def resultOf (entry : PiEntry) : ToolCallId × String × String :=
  (resultCallId entry, resultName entry,
    (extractedFrom (contentOf entry)).text ++ truncationMark entry)

/-- What an entry holds. -/
def held (entry : PiEntry) : Contents :=
  let content := contentOf entry
  let reasoning := topReasoning entry ++ thoughtsIn content
  let calls := callsOf entry (blocksOf content)
  let images := (blocksOf content).filterMap imageOf
  if entry.entryType = "message" then
    if roleOf entry = "user" ∨ roleOf entry = "assistant" then
      ⟨textsIn content, reasoning, calls, images, []⟩
    else if roleOf entry = "toolResult" then ⟨[], reasoning, calls, images, [resultOf entry]⟩
    else .none
  else .none

/-- The kinds a report has to count for an entry: blocks that carry nothing, and the
notes on truncation and cost that go under the same counts. -/
def reported (entry : PiEntry) : List String :=
  let blocks := blocksOf (contentOf entry)
  let kinds := blocks.filterMap kindOf ++ blocks.filterMap namelessOf
  if entry.entryType = "message" then
    if roleOf entry = "user" ∨ roleOf entry = "toolResult" then
      kinds ++ if (entry.num "truncated").isSome then ["truncated by Pi"] else []
    else if roleOf entry = "assistant" then
      kinds ++ if ((entry.messageFieldObject "usage").bind fun usage => usage.get "cost").isSome
        then ["usage:cost"] else []
    else []
  else []

/-! ### What events carry -/

/-- The part of an event that bears content. -/
def Mapped.bearing (event : Mapped) : AgentEvent × Option MappedMessage :=
  (event.event, event.message)

def reasoningText : AgentEvent → Option String
  | .reasoningDelta delta => some delta.text
  | _ => none

def requestedCall : AgentEvent → Option ToolCallBlock
  | .toolRequested request => some ⟨request.callId, request.name, request.arguments⟩
  | _ => none

def imageBlock : ContentBlock → Option (String × String)
  | .image mime data => some (mime, data)
  | _ => none

def resultBlock (block : ContentBlock) : Option (ToolCallId × String × String) :=
  block.result?.map fun result => (result.id, result.name, result.text)

/-- What events and their messages carry. -/
def carried (events : List (AgentEvent × Option MappedMessage)) : Contents :=
  let blocks := (events.filterMap (·.2)).flatMap fun message => message.message.content
  { texts := blocks.filterMap ContentBlock.plainText
    reasoning := events.filterMap fun event => reasoningText event.1
    calls := events.filterMap fun event => requestedCall event.1
    images := blocks.filterMap imageBlock
    results := blocks.filterMap resultBlock }

/-- The plan accounts for the path: what an entry holds is carried by the events of its
line, what carries nothing is counted by kind, an entry without events is counted as
skipped, and an entry off the path is counted by its type. -/
structure Accounts (source : PiSession) (path : List PiEntry) (plan : ImportPlan) : Prop where
  carries : ∀ entry ∈ path, (held entry).Within
    (carried ((plan.events.filter fun event => event.line = entry.line).map Mapped.bearing))
  counts : ∀ kind, (path.map fun entry => (reported entry).count kind).sum ≤
    ImportReport.countOf kind plan.report.content
  skips : ∀ kind, (path.filterMap skippedAs).count kind ≤
    ImportReport.skippedCount kind plan.report.skipped
  branches : ∀ kind, ((source.offPath path).map PiEntry.entryType).count kind =
    ImportReport.countOf kind plan.report.offPath

/-! ### Shapes that are read -/

/-- A content that holds nothing. -/
structure HoldsNothing (content : Option Value) : Prop where
  texts : textsIn content = []
  thoughts : thoughtsIn content = []
  calls : (blocksOf content).filterMap namedCallOf = []
  nameless : (blocksOf content).filterMap namelessOf = []
  images : (blocksOf content).filterMap imageOf = []
  kinds : (blocksOf content).filterMap kindOf = []

/-- No reasoning and no calls, which only the reader of an assistant entry looks for. -/
structure OnlyProse (entry : PiEntry) : Prop where
  top : topReasoning entry = []
  thoughts : thoughtsIn (contentOf entry) = []
  calls : (blocksOf (contentOf entry)).filterMap namedCallOf = []
  nameless : (blocksOf (contentOf entry)).filterMap namelessOf = []

instance (content : Option Value) : Decidable (HoldsNothing content) :=
  decidable_of_iff (textsIn content = [] ∧ thoughtsIn content = [] ∧
      (blocksOf content).filterMap namedCallOf = [] ∧
      (blocksOf content).filterMap namelessOf = [] ∧
      (blocksOf content).filterMap imageOf = [] ∧ (blocksOf content).filterMap kindOf = [])
    ⟨fun ⟨h, h', h'', h₃, h₄, h₅⟩ => ⟨h, h', h'', h₃, h₄, h₅⟩,
      fun ⟨h, h', h'', h₃, h₄, h₅⟩ => ⟨h, h', h'', h₃, h₄, h₅⟩⟩

instance (entry : PiEntry) : Decidable (OnlyProse entry) :=
  decidable_of_iff (topReasoning entry = [] ∧ thoughtsIn (contentOf entry) = [] ∧
      (blocksOf (contentOf entry)).filterMap namedCallOf = [] ∧
      (blocksOf (contentOf entry)).filterMap namelessOf = [])
    ⟨fun ⟨h, h', h'', h₃⟩ => ⟨h, h', h'', h₃⟩, fun ⟨h, h', h'', h₃⟩ => ⟨h, h', h'', h₃⟩⟩

/-- An entry in a shape that the reader of its role knows: its content stands in its
message; a user entry holds no reasoning and no calls, a tool result no images either,
and the content of an assistant entry is no bare string. -/
def Legible (entry : PiEntry) : Prop :=
  entry.entryType = "message" →
    (roleOf entry = "user" →
      (entry.messageValue "content" = none → HoldsNothing (contentOf entry)) ∧ OnlyProse entry) ∧
    (roleOf entry = "assistant" →
      (entry.messageValue "content" = none → HoldsNothing (contentOf entry)) ∧
        bareTexts (contentOf entry) = []) ∧
    (roleOf entry = "toolResult" →
      (entry.messageValue "content" = none → HoldsNothing (contentOf entry)) ∧ OnlyProse entry ∧
        (blocksOf (contentOf entry)).filterMap imageOf = [])

instance (entry : PiEntry) : Decidable (Legible entry) := by
  unfold Legible
  infer_instance

/-! ### What the events of an entry carry -/

def Pushed.bearing (pushed : Pushed) : AgentEvent × Option MappedMessage :=
  (pushed.event, pushed.message)

lemma replyBlocks_eq (entry : PiEntry) :
    replyBlocks entry = blocksOf (entry.messageValue "content") := by
  rw [replyBlocks, PiEntry.messageFieldArray]
  cases entry.messageValue "content" with
  | none => rfl
  | some content => cases content <;> rfl

lemma plainText_ownedOf (block : Value) :
    (ownedOf block).bind ContentBlock.plainText = proseOf block := by
  rw [ownedOf]
  cases proseOf block with
  | none => cases imageOf block <;> rfl
  | some text => rfl

lemma imageBlock_ownedOf (block : Value) : (ownedOf block).bind imageBlock = imageOf block := by
  rw [ownedOf]
  cases hprose : proseOf block with
  | none => cases imageOf block <;> rfl
  | some text =>
    have htype : stringField block "type" = some "text" := by
      by_contra h
      simp [proseOf, h] at hprose
    simp [imageOf, htype, imageBlock]

lemma resultBlock_ownedOf (block : Value) : (ownedOf block).bind resultBlock = none := by
  rw [ownedOf]
  cases proseOf block with
  | none => cases imageOf block <;> rfl
  | some text => rfl

/-- What the blocks of an extracted content hold. -/
lemma blocks_extractedFrom (content : Option Value) :
    (extractedFrom content).blocks.filterMap ContentBlock.plainText = textsIn content ∧
      (extractedFrom content).blocks.filterMap imageBlock = (blocksOf content).filterMap imageOf ∧
      (extractedFrom content).blocks.filterMap resultBlock = [] := by
  have hblocks : ∀ blocks : List Value,
      (extractedOf blocks).blocks.filterMap ContentBlock.plainText = blocks.filterMap proseOf ∧
        (extractedOf blocks).blocks.filterMap imageBlock = blocks.filterMap imageOf ∧
        (extractedOf blocks).blocks.filterMap resultBlock = [] := by
    intro blocks
    simp only [extractedOf, List.filterMap_filterMap, plainText_ownedOf, imageBlock_ownedOf,
      resultBlock_ownedOf]
    simp
  rcases content with _ | content
  · exact ⟨rfl, rfl, rfl⟩
  · cases content with
    | string text =>
      by_cases htext : text = "" <;>
        simp [extractedFrom, textBlocks, textsIn, bareTexts, blocksOf, htext,
          ContentBlock.plainText, imageBlock, resultBlock, ContentBlock.result?]
    | array blocks =>
      simpa [extractedFrom, textsIn, bareTexts, blocksOf] using hblocks blocks
    | null => exact ⟨rfl, rfl, rfl⟩
    | bool b => exact ⟨rfl, rfl, rfl⟩
    | int n => exact ⟨rfl, rfl, rfl⟩
    | float literal => exact ⟨rfl, rfl, rfl⟩
    | object fields => exact ⟨rfl, rfl, rfl⟩

/-- A content without texts has no text. -/
lemma text_eq_empty_iff {content : Option Value} :
    (extractedFrom content).text = "" ↔ textsIn content = [] := by
  have hblocks : ∀ blocks : List Value,
      (extractedOf blocks).text = "" ↔ blocks.filterMap proseOf = [] := by
    intro blocks
    rw [extractedOf]
    cases hprose : blocks.filterMap proseOf with
    | nil => simp
    | cons text texts =>
      obtain ⟨block, -, htext⟩ := List.mem_filterMap.mp (hprose ▸ List.mem_cons_self)
      obtain ⟨rest, hjoined⟩ := exists_intercalate_cons "\n\n" text texts
      refine iff_of_false (fun h => ?_) (by simp)
      have hlist := congrArg String.toList (hjoined.symm.trans h)
      rw [String.toList_append] at hlist
      exact ne_empty_of_proseOf htext (String.toList_inj.mp (List.append_eq_nil_iff.mp hlist).1)
  rcases content with _ | content
  · exact iff_of_true rfl rfl
  · cases content with
    | string text => by_cases htext : text = "" <;> simp [extractedFrom, textsIn, bareTexts, blocksOf, htext]
    | array blocks => simpa [extractedFrom, textsIn, bareTexts, blocksOf] using hblocks blocks
    | null => exact iff_of_true rfl rfl
    | bool b => exact iff_of_true rfl rfl
    | int n => exact iff_of_true rfl rfl
    | float literal => exact iff_of_true rfl rfl
    | object fields => exact iff_of_true rfl rfl

/-- A message that is not recorded would have had no blocks. -/
lemma content_messageRecord (blocks : List ContentBlock) (role : Role) (model : ModelRef) :
    (messageRecord blocks role model).toList.flatMap (fun message => message.message.content) =
      blocks := by
  by_cases h : blocks = [] <;> simp [messageRecord, h]

lemma carried_userPushes (model : PiModel) (entry : PiEntry) :
    carried ((userPushes model (partsOf entry)).map Pushed.bearing) =
      ⟨textsIn (entry.messageValue "content"), [], [],
        (blocksOf (entry.messageValue "content")).filterMap imageOf, []⟩ := by
  obtain ⟨htexts, himages, hresults⟩ := blocks_extractedFrom (entry.messageValue "content")
  have hparts : (partsOf entry).blocks = (extractedFrom (entry.messageValue "content")).blocks := rfl
  have hblocks : (((userPushes model (partsOf entry)).map Pushed.bearing).filterMap (·.2)).flatMap
      (fun message => message.message.content) =
      (extractedFrom (entry.messageValue "content")).blocks := by
    have hmessage := content_messageRecord (partsOf entry).blocks .user (currentModel model)
    rw [userPushes, ← hparts]
    cases hrecord : messageRecord (partsOf entry).blocks .user (currentModel model) <;>
      simpa [Pushed.bearing, hrecord] using hmessage
  rw [carried, hblocks, htexts, himages, hresults]
  rfl

lemma carried_toolResultPushes (model : PiModel) (entry : PiEntry) :
    carried ((toolResultPushes entry model (partsOf entry)).map Pushed.bearing) =
      ⟨[], [], [], [], [(resultCallId entry, resultName entry,
        (extractedFrom (entry.messageValue "content")).text ++ truncationMark entry)]⟩ := by
  rw [toolResultPushes]
  cases hfailed : entry.messageFlag "isError" <;>
    simp [carried, Pushed.bearing, Pushed.plain, messageRecord, reasoningText, requestedCall,
      ContentBlock.plainText, imageBlock, resultBlock, ContentBlock.result?, partsOf]

/-- Reasoning read block by block. -/
lemma filter_thinkingText {blocks : List Value} (h : ∀ block ∈ blocks, isThinking block = true) :
    (blocks.map fun block => thinkingText [block]).filter (· ≠ "") =
      blocks.filterMap thoughtOf := by
  induction blocks with
  | nil => rfl
  | cons block rest ih =>
    have hblock : thinkingText [block] = (thoughtOf block).getD "" := by
      have hthinking := h block List.mem_cons_self
      cases hthought : thoughtOf block <;> simp [thinkingText, hthinking, hthought]
    rw [List.map_cons, hblock, filterMap_cons_eq,
      ← ih fun b hb => h b (List.mem_cons_of_mem _ hb)]
    cases hthought : thoughtOf block with
    | none => simp
    | some text =>
      have hne : text ≠ "" := by
        rintro rfl
        simp [thoughtOf] at hthought
      simp [hne]

/-- The reasoning of an assistant entry. -/
lemma reasoningTexts_eq (entry : PiEntry) (blocks : List Value) :
    reasoningTexts entry blocks =
      topReasoning entry ++ (blocks.filter isThinking).filterMap thoughtOf := by
  rw [reasoningTexts, filter_thinkingText fun block h => (List.mem_filter.mp h).2, topReasoning]

lemma carried_append (events events' : List (AgentEvent × Option MappedMessage)) :
    carried (events ++ events') =
      ⟨(carried events).texts ++ (carried events').texts,
        (carried events).reasoning ++ (carried events').reasoning,
        (carried events).calls ++ (carried events').calls,
        (carried events).images ++ (carried events').images,
        (carried events).results ++ (carried events').results⟩ := by
  simp [carried]

/-- An event that is neither reasoning nor a call carries its message. -/
lemma carried_message {event : AgentEvent} (hreasoning : reasoningText event = none)
    (hcall : requestedCall event = none) (message : Option MappedMessage) :
    carried [(event, message)] =
      ⟨(message.toList.flatMap fun m => m.message.content).filterMap ContentBlock.plainText, [], [],
        (message.toList.flatMap fun m => m.message.content).filterMap imageBlock,
        (message.toList.flatMap fun m => m.message.content).filterMap resultBlock⟩ := by
  cases message <;> simp [carried, hreasoning, hcall]

lemma carried_reasoning (texts : List String) :
    carried (texts.map fun text => (AgentEvent.reasoningDelta ⟨text, .providerSummary, 0⟩, none)) =
      ⟨[], texts, [], [], []⟩ := by
  induction texts with
  | nil => rfl
  | cons text texts ih =>
    rw [List.map_cons, ← List.singleton_append, carried_append, ih]
    rfl

lemma carried_calls (calls : List ToolCallBlock) :
    carried (calls.map fun call =>
        (AgentEvent.toolRequested ⟨call.id, call.name, call.arguments, false⟩, none)) =
      ⟨[], [], calls, [], []⟩ := by
  induction calls with
  | nil => rfl
  | cons call calls ih =>
    rw [List.map_cons, ← List.singleton_append, carried_append, ih]
    rfl

/-- The blocks of an assistant message: what its content holds, then its calls. -/
lemma blocks_reply (blocks : List Value) (calls : List ToolCallBlock) :
    ((extractedOf blocks).blocks ++ calls.map ContentBlock.toolCall).filterMap
        ContentBlock.plainText = blocks.filterMap proseOf ∧
      ((extractedOf blocks).blocks ++ calls.map ContentBlock.toolCall).filterMap imageBlock =
        blocks.filterMap imageOf ∧
      ((extractedOf blocks).blocks ++ calls.map ContentBlock.toolCall).filterMap resultBlock =
        [] := by
  obtain ⟨htexts, himages, hresults⟩ := blocks_extractedFrom (some (array blocks))
  have hcalls : (calls.map ContentBlock.toolCall).filterMap ContentBlock.plainText = [] ∧
      (calls.map ContentBlock.toolCall).filterMap imageBlock = [] ∧
      (calls.map ContentBlock.toolCall).filterMap resultBlock = [] := by
    induction calls with
    | nil => exact ⟨rfl, rfl, rfl⟩
    | cons call calls ih => exact ih
  simp only [List.filterMap_append, hcalls, List.append_nil]
  exact ⟨htexts, himages, hresults⟩

lemma carried_assistantPushes (entry : PiEntry) (model : ModelRef) (requests : Nat) :
    carried ((assistantPushes entry model requests (replyBlocks entry)
        (extractedOf (replyBlocks entry)) (callsOf entry (replyBlocks entry))).map
          Pushed.bearing) =
      ⟨(replyBlocks entry).filterMap proseOf, reasoningTexts entry (replyBlocks entry),
        callsOf entry (replyBlocks entry), (replyBlocks entry).filterMap imageOf, []⟩ := by
  obtain ⟨htexts, himages, hresults⟩ := blocks_reply (replyBlocks entry)
    (callsOf entry (replyBlocks entry))
  have hcontent := content_messageRecord ((extractedOf (replyBlocks entry)).blocks ++
    (callsOf entry (replyBlocks entry)).map ContentBlock.toolCall) .assistant model
  have hreasoning := carried_reasoning (reasoningTexts entry (replyBlocks entry))
  have hcalls := carried_calls (callsOf entry (replyBlocks entry))
  have hstart := fun e m => @carried_message (.modelRequestStarted e) rfl rfl m
  have hdelta := fun e m => @carried_message (.assistantDelta e) rfl rfl m
  have hend := fun e => @carried_message (.modelRequestCompleted e) rfl rfl none
  rw [assistantPushes]
  cases hsilent : (extractedOf (replyBlocks entry)).text == ""
  all_goals
    simp only [List.map_append, List.map_cons, List.map_nil, List.map_map, carried_append,
      Pushed.bearing, Pushed.plain, Function.comp_def, if_true, if_false, Bool.false_eq_true]
    rw [hreasoning, hcalls]
    simp only [hstart, hdelta, hend, hcontent, htexts, himages, hresults]
    simp [carried]

/-! ### One entry -/

lemma contentOf_of_nested {entry : PiEntry} {content : Value}
    (h : entry.messageValue "content" = some content) : contentOf entry = some content := by
  rw [contentOf, h]
  rfl

lemma callsOf_eq_nil {entry : PiEntry} {blocks : List Value} :
    callsOf entry blocks = [] ↔ blocks.filterMap namedCallOf = [] := by
  simp [callsOf]

lemma eq_nil_of_count {kinds : List String} (h : ∀ k, kinds.count k = 0) : kinds = [] :=
  List.eq_nil_iff_forall_not_mem.mpr fun k => List.count_eq_zero.mp (h k)

/-- Everything an entry holds is carried by these events or counted by the report. -/
def Complete (entry : PiEntry) (pushes : List Pushed) : Prop :=
  (held entry).Within (carried (pushes.map Pushed.bearing)) ∧
    ∀ k, (reported entry).count k ≤ (countedBy entry).count k

/-- What the report counts is never more than there is. -/
lemma count_countedBy_le (entry : PiEntry) (k : String) :
    (countedBy entry).count k ≤ (reported entry).count k := by
  have hkinds : ((blocksOf (entry.messageValue "content")).filterMap kindOf).count k ≤
      ((blocksOf (contentOf entry)).filterMap kindOf).count k := by
    cases h : entry.messageValue "content" with
    | none => simp [blocksOf]
    | some content => rw [contentOf_of_nested h]
  have hnameless : ((blocksOf (entry.messageValue "content")).filterMap namelessOf).count k ≤
      ((blocksOf (contentOf entry)).filterMap namelessOf).count k := by
    cases h : entry.messageValue "content" with
    | none => simp [blocksOf]
    | some content => rw [contentOf_of_nested h]
  simp only [countedBy, reported, partKinds, replyKinds, replyBlocks_eq]
  split_ifs <;> simp only [List.count_append, le_refl] <;> omega

section

variable {entry : PiEntry}

/-- The counts of an entry are whole when its nameless calls are counted and its content
is read. -/
lemma kinds_of_counts {content nested : Option Value}
    (h : ∀ k, ((blocksOf content).filterMap kindOf).count k +
      ((blocksOf content).filterMap namelessOf).count k ≤
        ((blocksOf nested).filterMap kindOf).count k)
    (hnested : nested = none ∨ nested = content) :
    (blocksOf content).filterMap namelessOf = [] ∧
      (nested = none → (blocksOf content).filterMap kindOf = []) := by
  rcases hnested with rfl | rfl
  · have hzero : ∀ k, ((blocksOf none).filterMap kindOf).count k = 0 := fun k => rfl
    refine ⟨eq_nil_of_count fun k => ?_, fun _ => eq_nil_of_count fun k => ?_⟩
    all_goals
      have hk := h k
      have hk' := hzero k
      omega
  · refine ⟨eq_nil_of_count fun k => ?_, fun hnone => by rw [hnone]; rfl⟩
    have hk := h k
    omega

lemma nested_cases (entry : PiEntry) :
    entry.messageValue "content" = none ∨ entry.messageValue "content" = contentOf entry := by
  cases h : entry.messageValue "content" with
  | none => exact .inl rfl
  | some content => exact .inr (contentOf_of_nested h).symm

variable (hmessage : entry.entryType = "message") (s : PlanState)

include hmessage

/-- What the report must count, and counts, for a user or tool entry. -/
lemma counts_parts_iff (hrole : roleOf entry = "user" ∨ roleOf entry = "toolResult") :
    (∀ k, (reported entry).count k ≤ (countedBy entry).count k) ↔
      ∀ k, ((blocksOf (contentOf entry)).filterMap kindOf).count k +
        ((blocksOf (contentOf entry)).filterMap namelessOf).count k ≤
          ((blocksOf (entry.messageValue "content")).filterMap kindOf).count k := by
  refine forall_congr' fun k => ?_
  simp only [reported, countedBy, if_pos hmessage, if_pos hrole, partKinds, List.count_append]
  omega

/-- The same for an assistant entry, whose reader counts nameless calls. -/
lemma counts_reply_iff (hrole : roleOf entry = "assistant") :
    (∀ k, (reported entry).count k ≤ (countedBy entry).count k) ↔
      ∀ k, ((blocksOf (contentOf entry)).filterMap kindOf).count k +
        ((blocksOf (contentOf entry)).filterMap namelessOf).count k ≤
          ((blocksOf (entry.messageValue "content")).filterMap kindOf).count k +
            ((blocksOf (entry.messageValue "content")).filterMap namelessOf).count k := by
  have hparts : ¬(roleOf entry = "user" ∨ roleOf entry = "toolResult") := by simp [hrole]
  refine forall_congr' fun k => ?_
  simp only [reported, countedBy, if_pos hmessage, if_neg hparts, if_pos hrole, replyKinds,
    replyBlocks_eq, List.count_append]
  omega

lemma complete_user_iff (hrole : roleOf entry = "user") :
    Complete entry (pushesOf s entry) ↔
      (entry.messageValue "content" = none → HoldsNothing (contentOf entry)) ∧
        OnlyProse entry := by
  have hpushes : pushesOf s entry = userPushes s.model (partsOf entry) := by
    rw [pushesOf, if_pos hmessage, if_pos hrole]
  have hheld : held entry = ⟨textsIn (contentOf entry),
      topReasoning entry ++ thoughtsIn (contentOf entry),
      callsOf entry (blocksOf (contentOf entry)), (blocksOf (contentOf entry)).filterMap imageOf,
      []⟩ := by
    rw [held, if_pos hmessage, if_pos (.inl hrole)]
  rw [Complete, hpushes, carried_userPushes, hheld, counts_parts_iff hmessage (.inl hrole)]
  constructor
  · rintro ⟨⟨htexts, hreasoning, hcalls, himages, -⟩, hkinds⟩
    obtain ⟨htop, hthoughts⟩ := List.append_eq_nil_iff.mp (List.sublist_nil.mp hreasoning)
    have hcalls' := callsOf_eq_nil.mp (List.sublist_nil.mp hcalls)
    obtain ⟨hnameless, hkinds'⟩ := kinds_of_counts hkinds (nested_cases entry)
    refine ⟨fun hnone => ⟨?_, hthoughts, hcalls', hnameless, ?_, hkinds' hnone⟩,
      htop, hthoughts, hcalls', hnameless⟩
    · rw [hnone] at htexts
      exact List.sublist_nil.mp htexts
    · rw [hnone] at himages
      exact List.sublist_nil.mp himages
  · rintro ⟨hnone, htop, hthoughts, hcalls, hnameless⟩
    have hreasoning : topReasoning entry ++ thoughtsIn (contentOf entry) = [] := by
      rw [htop, hthoughts, List.nil_append]
    rw [hreasoning, callsOf_eq_nil.mpr hcalls, hnameless]
    rcases nested_cases entry with h | h
    · obtain ⟨htexts, -, -, -, himages, hkinds⟩ := hnone h
      rw [htexts, himages, hkinds]
      exact ⟨⟨List.nil_sublist _, .refl _, .refl _, List.nil_sublist _, .refl _⟩, by simp⟩
    · rw [h]
      exact ⟨⟨.refl _, .refl _, .refl _, .refl _, .refl _⟩, by simp⟩

lemma complete_assistant_iff (hrole : roleOf entry = "assistant") :
    Complete entry (pushesOf s entry) ↔
      (entry.messageValue "content" = none → HoldsNothing (contentOf entry)) ∧
        bareTexts (contentOf entry) = [] := by
  have huser : roleOf entry ≠ "user" := by simp [hrole]
  have hpushes : pushesOf s entry =
      assistantPushes entry (modelRef (assistantModel s.model entry)) (s.requests + 1)
        (replyBlocks entry) (extractedOf (replyBlocks entry)) (callsOf entry (replyBlocks entry)) := by
    rw [pushesOf, if_pos hmessage, if_neg huser, if_pos hrole]
  have hheld : held entry = ⟨textsIn (contentOf entry),
      topReasoning entry ++ thoughtsIn (contentOf entry),
      callsOf entry (blocksOf (contentOf entry)), (blocksOf (contentOf entry)).filterMap imageOf,
      []⟩ := by
    rw [held, if_pos hmessage, if_pos (.inr hrole)]
  rw [Complete, hpushes, carried_assistantPushes, hheld, counts_reply_iff hmessage hrole,
    reasoningTexts_eq, replyBlocks_eq]
  constructor
  · rintro ⟨⟨htexts, hreasoning, hcalls, himages, -⟩, hkinds⟩
    rcases nested_cases entry with h | h
    · -- nothing is nested, so nothing was read
      rw [h] at htexts hreasoning hcalls himages hkinds
      have htexts' : textsIn (contentOf entry) = [] := List.sublist_nil.mp htexts
      have hthoughts : thoughtsIn (contentOf entry) = [] := by
        have hlength := hreasoning.length_le
        simp only [List.length_append, blocksOf, List.filter_nil, List.filterMap_nil,
          List.length_nil] at hlength
        exact List.length_eq_zero_iff.mp (by omega)
      have hcalls' := callsOf_eq_nil.mp (List.sublist_nil.mp hcalls)
      have hzero : ∀ k, ((blocksOf none).filterMap kindOf).count k +
          ((blocksOf none).filterMap namelessOf).count k = 0 := fun k => rfl
      have hnameless : (blocksOf (contentOf entry)).filterMap namelessOf = [] :=
        eq_nil_of_count fun k => by
          have hk := hkinds k
          have hk' := hzero k
          omega
      have hkinds' : (blocksOf (contentOf entry)).filterMap kindOf = [] :=
        eq_nil_of_count fun k => by
          have hk := hkinds k
          have hk' := hzero k
          omega
      exact ⟨fun _ => ⟨htexts', hthoughts, hcalls', hnameless, List.sublist_nil.mp himages,
        hkinds'⟩, (List.append_eq_nil_iff.mp htexts').1⟩
    · refine ⟨fun hnone => ?_, ?_⟩
      · rw [← h, hnone]
        exact ⟨rfl, rfl, rfl, rfl, rfl, rfl⟩
      · have hprose : (textsIn (contentOf entry)).Sublist
            ((blocksOf (contentOf entry)).filterMap proseOf) := h ▸ htexts
        have hlength := hprose.length_le
        rw [textsIn, List.length_append] at hlength
        exact List.length_eq_zero_iff.mp (by omega)
  · rintro ⟨hnone, hbare⟩
    rcases nested_cases entry with h | h
    · obtain ⟨htexts, hthoughts, hcalls, hnameless, himages, hkinds⟩ := hnone h
      rw [htexts, hthoughts, callsOf_eq_nil.mpr hcalls, himages, hkinds, hnameless,
        List.append_nil]
      exact ⟨⟨List.nil_sublist _, List.sublist_append_left _ _, List.nil_sublist _,
        List.nil_sublist _, .refl _⟩, by simp⟩
    · rw [h, textsIn, hbare, List.nil_append]
      exact ⟨⟨.refl _, .refl _, .refl _, .refl _, .refl _⟩, fun _ => le_refl _⟩

lemma complete_toolResult_iff (hrole : roleOf entry = "toolResult") :
    Complete entry (pushesOf s entry) ↔
      (entry.messageValue "content" = none → HoldsNothing (contentOf entry)) ∧ OnlyProse entry ∧
        (blocksOf (contentOf entry)).filterMap imageOf = [] := by
  have huser : roleOf entry ≠ "user" := by simp [hrole]
  have hassistant : roleOf entry ≠ "assistant" := by simp [hrole]
  have hpushes : pushesOf s entry = toolResultPushes entry s.model (partsOf entry) := by
    rw [pushesOf, if_pos hmessage, if_neg huser, if_neg hassistant, if_pos hrole]
  have hheld : held entry = ⟨[], topReasoning entry ++ thoughtsIn (contentOf entry),
      callsOf entry (blocksOf (contentOf entry)), (blocksOf (contentOf entry)).filterMap imageOf,
      [resultOf entry]⟩ := by
    rw [held, if_pos hmessage, if_neg (by simp [hrole]), if_pos hrole]
  rw [Complete, hpushes, carried_toolResultPushes, hheld, counts_parts_iff hmessage (.inr hrole)]
  constructor
  · rintro ⟨⟨-, hreasoning, hcalls, himages, hresults⟩, hkinds⟩
    obtain ⟨htop, hthoughts⟩ := List.append_eq_nil_iff.mp (List.sublist_nil.mp hreasoning)
    have hcalls' := callsOf_eq_nil.mp (List.sublist_nil.mp hcalls)
    have himages' := List.sublist_nil.mp himages
    obtain ⟨hnameless, hkinds'⟩ := kinds_of_counts hkinds (nested_cases entry)
    refine ⟨fun hnone => ⟨?_, hthoughts, hcalls', hnameless, himages', hkinds' hnone⟩,
      ⟨htop, hthoughts, hcalls', hnameless⟩, himages'⟩
    rw [hnone] at hresults
    have hresult := List.sublist_singleton.mp hresults
    have htext : (extractedFrom (contentOf entry)).text ++ truncationMark entry =
        "" ++ truncationMark entry := by
      simpa [resultOf, extractedFrom, blocksOf, extractedOf] using hresult
    have hlist := congrArg String.toList htext
    rw [String.toList_append, String.toList_append] at hlist
    exact text_eq_empty_iff.mp (String.toList_inj.mp (List.append_cancel_right hlist))
  · rintro ⟨hnone, ⟨htop, hthoughts, hcalls, hnameless⟩, himages⟩
    have hreasoning : topReasoning entry ++ thoughtsIn (contentOf entry) = [] := by
      rw [htop, hthoughts, List.nil_append]
    rw [hreasoning, callsOf_eq_nil.mpr hcalls, hnameless, himages, resultOf]
    rcases nested_cases entry with h | h
    · obtain ⟨htexts, -, -, -, -, hkinds⟩ := hnone h
      rw [text_eq_empty_iff.mpr htexts, hkinds, h]
      exact ⟨⟨.refl _, .refl _, .refl _, .refl _, .refl _⟩, by simp⟩
    · rw [h]
      exact ⟨⟨.refl _, .refl _, .refl _, .refl _, .refl _⟩, by simp⟩

end

/-- **One entry is complete exactly when it is legible.** -/
theorem complete_iff (s : PlanState) (entry : PiEntry) :
    Complete entry (pushesOf s entry) ↔ Legible entry := by
  by_cases hmessage : entry.entryType = "message"
  · by_cases huser : roleOf entry = "user"
    · rw [complete_user_iff hmessage s huser]
      simp [Legible, hmessage, huser]
    · by_cases hassistant : roleOf entry = "assistant"
      · rw [complete_assistant_iff hmessage s hassistant]
        simp [Legible, hmessage, hassistant]
      · by_cases htool : roleOf entry = "toolResult"
        · rw [complete_toolResult_iff hmessage s htool]
          simp [Legible, hmessage, htool]
        · have hheld : held entry = .none := by simp [held, hmessage, huser, hassistant, htool]
          have hreported : reported entry = [] := by
            simp [reported, hmessage, huser, hassistant, htool]
          refine iff_of_true ?_ fun _ => ⟨fun h => absurd h huser, fun h => absurd h hassistant,
            fun h => absurd h htool⟩
          rw [Complete, hheld, hreported]
          exact ⟨⟨List.nil_sublist _, List.nil_sublist _, List.nil_sublist _, List.nil_sublist _,
            List.nil_sublist _⟩, by simp⟩
  · have hheld : held entry = .none := if_neg hmessage
    have hreported : reported entry = [] := if_neg hmessage
    refine iff_of_true ?_ fun h => absurd h hmessage
    rw [Complete, hheld, hreported]
    exact ⟨⟨List.nil_sublist _, List.nil_sublist _, List.nil_sublist _, List.nil_sublist _,
      List.nil_sublist _⟩, by simp⟩

/-! ### The whole file -/

section

variable {isToMillis : String → Option Nat} {source : PiSession} {plan : ImportPlan}

/-- What a plan is made of. -/
lemma plan_eq_ok (h : PiImport.plan isToMillis source = .ok plan) :
    ∃ path, source.activePath = .ok path ∧
      plan.events = (path.foldl (planEntry isToMillis) .start).events.map
        (withTurn (path.foldl (planEntry isToMillis) .start).turns) ∧
      plan.report.content = (path.foldl (planEntry isToMillis) .start).report.content ∧
      plan.report.skipped = (path.foldl (planEntry isToMillis) .start).report.skipped ∧
      plan.report.offPath = (source.offPath path).foldl
        (fun counts entry => ImportReport.bump entry.entryType counts)
        (path.foldl (planEntry isToMillis) .start).report.offPath := by
  obtain ⟨path, hpath, hplan⟩ := Fallible.bind_eq_ok.mp h
  obtain rfl := Except.ok.inj hplan
  exact ⟨path, hpath, rfl, rfl, rfl, rfl⟩

lemma countOf_foldl_bump (entries : List PiEntry) (counts : List (String × Nat)) (k : String) :
    ImportReport.countOf k
        (entries.foldl (fun counts entry => ImportReport.bump entry.entryType counts) counts) =
      ImportReport.countOf k counts + (entries.map PiEntry.entryType).count k := by
  induction entries generalizing counts with
  | nil => rfl
  | cons entry entries ih =>
    have hcons : ((entry :: entries).map PiEntry.entryType).count k =
        [entry.entryType].count k + (entries.map PiEntry.entryType).count k := by
      rw [List.map_cons, ← List.singleton_append, List.count_append]
    rw [List.foldl_cons, ih, ImportReport.countOf_bump, hcons, Nat.add_assoc]

/-- The events on the line of an entry are those the entry pushed. -/
lemma exists_pushes {path : List PiEntry} {turns : List (Nat × Option TurnId)}
    (hlines : (path.map PiEntry.line).Nodup) {entry : PiEntry} (hentry : entry ∈ path) :
    ∃ s, ((((path.foldl (planEntry isToMillis) .start).events.map (withTurn turns)).filter
        fun event => event.line = entry.line).map Mapped.bearing) =
      (pushesOf s entry).map Pushed.bearing := by
  have hfst := map_fst_walk isToMillis path .start
  obtain ⟨step, hstep, rfl⟩ := List.mem_map.mp (hfst.symm ▸ hentry)
  obtain ⟨s, hpushes⟩ := exists_state_of_mem_walk isToMillis hstep
  have hsteps : ((walk isToMillis .start path).map fun step => step.1.line).Nodup := by
    rw [← hfst, List.map_map] at hlines
    exact hlines
  have hfilter := filter_flatMap_stepEvents isToMillis hsteps hstep
  refine ⟨s, ?_⟩
  have hstart : PlanState.start.events = [] := rfl
  rw [← hpushes, walk_events, hstart, List.nil_append, List.filter_map, List.map_map]
  have hline : ((fun event : Mapped => decide (event.line = step.1.line)) ∘ withTurn turns) =
      fun event => decide (event.line = step.1.line) := rfl
  have hbearing : Mapped.bearing ∘ withTurn turns = Mapped.bearing := rfl
  have hpushed : Mapped.bearing ∘ mapped isToMillis step.1 = Pushed.bearing := rfl
  rw [hline, hbearing, hfilter, stepEvents, List.map_map, hpushed]

/-- A plan accounts for the path of its file exactly when every entry on it is legible. -/
theorem accounts_iff {fromStr : String → Except String Value} {name text : String}
    (hparse : parse fromStr name text = .ok source)
    (hplan : PiImport.plan isToMillis source = .ok plan) :
    ∃ path, source.activePath = .ok path ∧
      (Accounts source path plan ↔ ∀ entry ∈ path, Legible entry) := by
  obtain ⟨path, hpath, hevents, hcontent, hskipped, hoffPath⟩ := plan_eq_ok hplan
  obtain ⟨hcounts, hskips, hoff⟩ := walk_counts isToMillis path .start
  have hlines := source.nodup_lines_of_activePath (nodup_lines_of_parse hparse) hpath
  have hstart : ∀ k, ImportReport.countOf k PlanState.start.report.content = 0 := fun _ => rfl
  refine ⟨path, hpath, fun haccounts entry hentry => ?_, fun hlegible => ⟨?_, ?_, ?_, ?_⟩⟩
  · obtain ⟨s, hpushes⟩ := exists_pushes hlines hentry
    have hcarries := haccounts.carries entry hentry
    rw [hevents, hpushes] at hcarries
    refine (complete_iff s entry).mp ⟨hcarries, fun k => ?_⟩
    -- no entry is counted for more than it holds, so none makes up for another
    by_contra hshort
    have hless : (path.map fun e => (countedBy e).count k).sum <
        (path.map fun e => (reported e).count k).sum :=
      List.sum_lt_sum _ _ (fun e _ => count_countedBy_le e k) ⟨entry, hentry, not_le.mp hshort⟩
    have hcount := haccounts.counts k
    rw [hcontent, hcounts, hstart, Nat.zero_add] at hcount
    exact absurd hcount (not_le.mpr hless)
  · intro entry hentry
    obtain ⟨s, hpushes⟩ := exists_pushes hlines hentry
    rw [hevents, hpushes]
    exact ((complete_iff s entry).mpr (hlegible entry hentry)).1
  · intro kind
    rw [hcontent, hcounts, hstart, Nat.zero_add]
    refine List.sum_le_sum fun entry hentry => ?_
    exact ((complete_iff .start entry).mpr (hlegible entry hentry)).2 kind
  · intro kind
    rw [hskipped, hskips]
    exact Nat.le_add_left _ _
  · intro kind
    have hnone : ImportReport.countOf kind PlanState.start.report.offPath = 0 := rfl
    rw [hoffPath, countOf_foldl_bump, hoff, hnone, Nat.zero_add]

end

namespace Greeting

def header : Value :=
  object [("cwd", string "/work"), ("id", string "abc"), ("type", string "session")]

def question : Value :=
  object [("message", object [("content", string "hi"), ("role", string "user")]),
    ("type", string "message")]

def answer (content : Value) : Value :=
  object [("message", object [("content", content), ("model", string "m"),
    ("provider", string "p"), ("role", string "assistant")]), ("type", string "message")]

/-- An answer in a block, as the reader of assistant entries takes it. -/
def blockFile : List Value :=
  [header, question, answer (array [object [("text", string "hello"), ("type", string "text")]])]

/-- The same answer as a bare string, as the reader of user entries would take it. -/
def stringFile : List Value := [header, question, answer (string "hello")]

def source : PiSession where
  path := "session.jsonl"
  header := ⟨1, "abc", "/work", "", none⟩
  entries := [PiEntry.ofValue 2 question,
    PiEntry.ofValue 3 (answer (array [object [("text", string "hello"), ("type", string "text")]]))]
  damagedLines := []

example : source.entries.map (fun entry => (held entry).texts) = [["hi"], ["hello"]] := by
  decide +kernel

end Greeting

end PiImport

end Rupi
