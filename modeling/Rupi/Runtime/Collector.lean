import Rupi.Provider.Decoder
import Rupi.Provider.RetryPacing
import Rupi.Runtime.TurnLoop

/-!
A response as it comes in.

- `StreamEvent`, `Arrival`: what a provider streams, and when.
- `Collector.emit`: one event is checked against the limits, traced, and joins the response.
- `Collector.collect`: all events of a response.
- `Collector.Holds`: what a collector has of the events it took.
- **`Collector.collect_holds`**: it has exactly the events in front of the first one that is over
  a limit, in their order, each delta traced with its number; what it holds is within the limits.
-/

namespace Rupi

/-- What a provider streams. -/
inductive StreamEvent where
  | reasoningDelta (text : String) (provenance : ReasoningProvenance)
  | textDelta (text : String)
  | tool (event : ProviderEvent)
  deriving DecidableEq, Repr

/-- An event, with the milliseconds since its request went out. -/
structure Arrival where
  ms : ℕ
  event : StreamEvent
  deriving DecidableEq, Repr

/-! ### The size of arguments -/

mutual

/-- `measure` of `bounded_json_bytes`. -/
def boundedJsonBytes (limit : ℕ) : Value → ℕ
  | .null => min 4 (limit + 1)
  | .bool true => min 4 (limit + 1)
  | .bool false => min 5 (limit + 1)
  | .int n => min (toString n).utf8ByteSize (limit + 1)
  | .float literal => min literal.text.utf8ByteSize (limit + 1)
  | .string text => min (text.utf8ByteSize + 2) (limit + 1)
  | .array items => min (boundedItemBytes limit 2 items) (limit + 1)
  | .object fields => min (boundedFieldBytes limit 2 fields) (limit + 1)

/-- The items of an array, until they are over the limit. -/
def boundedItemBytes (limit bytes : ℕ) : List Value → ℕ
  | [] => bytes
  | item :: rest =>
      let bytes := bytes + boundedJsonBytes limit item + 1
      if limit < bytes then limit + 1 else boundedItemBytes limit bytes rest

/-- The fields of an object, until they are over the limit. -/
def boundedFieldBytes (limit bytes : ℕ) : List (String × Value) → ℕ
  | [] => bytes
  | (name, item) :: rest =>
      let bytes := bytes + name.utf8ByteSize + boundedJsonBytes limit item + 3
      if limit < bytes then limit + 1 else boundedFieldBytes limit bytes rest

end

/-- `with_partial_output`. -/
def RequestFailure.withPartialOutput (failure : RequestFailure) (emitted : Bool) : RequestFailure :=
  { failure with
    partialOutputEmitted := emitted
    replaySafety := if emitted then .committedOutput else failure.replaySafety }

/-- An event of a response goes to the trace, but not to the envelopes of the loop. -/
def TurnLoop.traceEvent (env : Env) (loop : TurnLoop) (turnId : TurnId) (event : AgentEvent)
    (parent : Option EventId) : TurnLoop :=
  { loop with
    trace := loop.trace.emit (loop.newEnvelope env (some turnId) event parent)
    issued := loop.issued + 2 }

/-- `Collector`. The reasons of rejected calls stand newest first. -/
structure Collector where
  loop : TurnLoop
  firstDeltaMs : Option ℕ
  text : String
  content : List ContentBlock
  calls : List ToolCallBlock
  rejectedCalls : List (ToolCallId × String)
  committed : Bool
  /-- `surface_output_emitted`. -/
  surfaceOutput : Bool
  reasoningIndex : ℕ
  textIndex : ℕ
  provenance : Option ReasoningProvenance
  responseEvents : ℕ
  textBytes : ℕ
  reasoningBytes : ℕ
  argumentBytes : ℕ
  /-- `provider_error`; with it the cancel token is set. -/
  error : Option RequestFailure

namespace Collector

/-- `Collector::new`. -/
def new (loop : TurnLoop) : Collector where
  loop := loop
  firstDeltaMs := none
  text := ""
  content := []
  calls := []
  rejectedCalls := []
  committed := false
  surfaceOutput := false
  reasoningIndex := 0
  textIndex := 0
  provenance := none
  responseEvents := 0
  textBytes := 0
  reasoningBytes := 0
  argumentBytes := 0
  error := none

/-- `append_text_content`. -/
def appendText (content : List ContentBlock) (text : String) : List ContentBlock :=
  match content.getLast? with
  | some (.text prior) => content.dropLast ++ [.text (prior ++ text)]
  | _ => content ++ [.text text]

/-- `append_reasoning_content`. -/
def appendReasoning (content : List ContentBlock) (text : String)
    (provenance : ReasoningProvenance) : List ContentBlock :=
  match content.getLast? with
  | some (.reasoning prior) =>
      if prior.provenance = provenance then
        content.dropLast ++ [.reasoning { prior with text := prior.text ++ text }]
      else content ++ [.reasoning ⟨text, provenance, none⟩]
  | _ => content ++ [.reasoning ⟨text, provenance, none⟩]

/-- `reject_response`, where no response was rejected yet. -/
def reject (c : Collector) (message : String) : Collector :=
  { c with
    error :=
      some ((RequestFailure.new .protocol .normalizing message).withPartialOutput c.committed) }

/-- The name and the id of a call are not too long. -/
def identityFits (id : ToolCallId) (name : String) : Bool :=
  name.utf8ByteSize ≤ maxToolNameBytes && id.utf8ByteSize ≤ maxToolIdBytes

/-- Saturating addition of one to a `u32`. -/
def nextIndex (n : ℕ) : ℕ := min (n + 1) u32Max

/-- The texts about limits. -/
def eventLimit : String :=
  "provider response exceeded the " ++ maxResponseEvents.repr ++ "-event aggregate limit"

def reasoningLimit : String :=
  "provider response exceeded the " ++ maxResponseReasoningBytes.repr ++
    "-byte aggregate reasoning limit"

def textLimit : String :=
  "provider response exceeded the " ++ maxResponseTextBytes.repr ++ "-byte aggregate text limit"

def identityLimit : String := "provider tool-call identity exceeded response limits"

def callLimit : String :=
  "provider response exceeded the " ++ maxResponseToolCalls.repr ++ "-tool-call limit"

def argumentLimit : String := "provider response exceeded tool-argument byte limits"

/-- The limit that an event is over, if there is one. -/
def overLimit (c : Collector) : StreamEvent → Option String
  | .reasoningDelta text _ =>
      if maxResponseReasoningBytes < c.reasoningBytes + text.utf8ByteSize then some reasoningLimit
      else none
  | .textDelta text =>
      if maxResponseTextBytes < c.textBytes + text.utf8ByteSize then some textLimit else none
  | .tool (.toolCall call) =>
      let bytes := boundedJsonBytes maxToolArgumentBytesPerCall call.arguments
      if identityFits call.id call.name = false then some identityLimit
      else if maxResponseToolCalls ≤ c.calls.length then some callLimit
      else if maxToolArgumentBytesPerCall < bytes ∨
          maxToolArgumentBytesTotal < c.argumentBytes + bytes then some argumentLimit
      else none
  | .tool (.toolCallRejected id name _) =>
      if identityFits id name = false then some identityLimit
      else if maxResponseToolCalls ≤ c.calls.length then some callLimit
      else none

variable (env : Env) (turnId : TurnId) (irreversible : Bool)

/-- An event that is within the limits joins the response. -/
def take (c : Collector) : StreamEvent → Collector
  | .reasoningDelta text provenance =>
      { c with
        reasoningBytes := c.reasoningBytes + text.utf8ByteSize
        loop := c.loop.traceEvent env turnId
          (.reasoningDelta ⟨text, provenance, c.reasoningIndex⟩) none
        reasoningIndex := nextIndex c.reasoningIndex
        provenance := some provenance
        committed := true
        content := appendReasoning c.content text provenance
        surfaceOutput := c.surfaceOutput || (text ≠ "" && irreversible) }
  | .textDelta text =>
      { c with
        textBytes := c.textBytes + text.utf8ByteSize
        loop := c.loop.traceEvent env turnId (.assistantDelta ⟨text, c.textIndex⟩) none
        textIndex := nextIndex c.textIndex
        committed := true
        content := appendText c.content text
        surfaceOutput := c.surfaceOutput || (text ≠ "" && irreversible)
        text := c.text ++ text }
  | .tool (.toolCall call) =>
      { c with
        argumentBytes :=
          c.argumentBytes + boundedJsonBytes maxToolArgumentBytesPerCall call.arguments
        committed := true
        calls := c.calls ++ [call] }
  | .tool (.toolCallRejected id name reason) =>
      { c with
        committed := true
        calls := c.calls ++ [⟨id, name, .object []⟩]
        rejectedCalls := (id, reason) :: c.rejectedCalls }

/-- `emit`: the first error is kept, and nothing joins the response behind it. -/
def emit (c : Collector) (arrival : Arrival) : Collector :=
  if c.error.isSome then c
  else
    let c := { c with firstDeltaMs := c.firstDeltaMs.or (some arrival.ms) }
    if maxResponseEvents ≤ c.responseEvents then c.reject eventLimit
    else
      let c := { c with responseEvents := c.responseEvents + 1 }
      match c.overLimit arrival.event with
      | some message => c.reject message
      | none => c.take env turnId irreversible arrival.event

/-- All events of a response. -/
def collect (c : Collector) (arrivals : List Arrival) : Collector :=
  arrivals.foldl (emit env turnId irreversible) c

end Collector

/-! ### What a response is made of -/

/-- The characters of a block, each with the provenance of its block if it is reasoning. -/
def ContentBlock.spread : ContentBlock → List (Char × Option ReasoningProvenance)
  | .text body => body.toList.map (·, none)
  | .reasoning chunk => chunk.text.toList.map (·, some chunk.provenance)
  | _ => []

/-- Text, or reasoning of one provenance. -/
def ContentBlock.kind? : ContentBlock → Option (Option ReasoningProvenance)
  | .text _ => some none
  | .reasoning chunk => some (some chunk.provenance)
  | _ => none

namespace StreamEvent

/-- The characters that an event adds to the content. -/
def shown : StreamEvent → List (Char × Option ReasoningProvenance)
  | reasoningDelta text provenance => text.toList.map (·, some provenance)
  | textDelta text => text.toList.map (·, none)
  | tool _ => []

/-- The text of an answer. -/
def answer : StreamEvent → List Char
  | textDelta text => text.toList
  | _ => []

/-- The call of an event; the arguments of a rejected one are empty. -/
def call? : StreamEvent → Option ToolCallBlock
  | tool (.toolCall call) => some call
  | tool (.toolCallRejected id name _) => some ⟨id, name, .object []⟩
  | _ => none

/-- The lines of deltas, each kind with its own numbers. -/
def lines (reasoningIndex textIndex : ℕ) : List StreamEvent → List AgentEvent
  | [] => []
  | reasoningDelta text provenance :: rest =>
      .reasoningDelta ⟨text, provenance, reasoningIndex⟩ ::
        lines (reasoningIndex + 1) textIndex rest
  | textDelta text :: rest =>
      .assistantDelta ⟨text, textIndex⟩ :: lines reasoningIndex (textIndex + 1) rest
  | tool _ :: rest => lines reasoningIndex textIndex rest

/-- The reason of a rejected call. -/
def rejection? : StreamEvent → Option (ToolCallId × String)
  | tool (.toolCallRejected id _ reason) => some (id, reason)
  | _ => none

/-- The bytes of reasoning, and those of arguments as far as they are counted. -/
def reasoningSize : StreamEvent → ℕ
  | reasoningDelta text _ => text.utf8ByteSize
  | _ => 0

def argumentSize : StreamEvent → ℕ
  | tool (.toolCall call) => boundedJsonBytes maxToolArgumentBytesPerCall call.arguments
  | _ => 0

/-- How many deltas of reasoning, and of text, there are. -/
def reasonings (events : List StreamEvent) : ℕ :=
  events.countP fun event => event matches reasoningDelta _ _

def texts (events : List StreamEvent) : ℕ := events.countP fun event => event matches textDelta _

lemma lines_append (events : List StreamEvent) (event : StreamEvent) (r t : ℕ) :
    lines r t (events ++ [event]) = lines r t events ++
      lines (r + reasonings events) (t + texts events) [event] := by
  induction events generalizing r t with
  | nil => rfl
  | cons first events ih =>
    cases first with
    | reasoningDelta text provenance =>
      rw [List.cons_append, lines, lines, ih, List.cons_append, reasonings, reasonings, texts,
        texts, List.countP_cons_of_pos rfl, List.countP_cons_of_neg Bool.false_ne_true,
        Nat.add_right_comm r 1, Nat.add_assoc r]
    | textDelta text =>
      rw [List.cons_append, lines, lines, ih, List.cons_append, reasonings, reasonings, texts,
        texts, List.countP_cons_of_neg Bool.false_ne_true, List.countP_cons_of_pos rfl,
        Nat.add_right_comm t 1, Nat.add_assoc t]
    | tool event' =>
      rw [List.cons_append, lines, lines, ih, reasonings, reasonings, texts, texts,
        List.countP_cons_of_neg Bool.false_ne_true, List.countP_cons_of_neg Bool.false_ne_true]

end StreamEvent

namespace Collector

/-- A response is within the limits. -/
structure Within (c : Collector) : Prop where
  textBytes : c.textBytes ≤ maxResponseTextBytes
  reasoningBytes : c.reasoningBytes ≤ maxResponseReasoningBytes
  argumentBytes : c.argumentBytes ≤ maxToolArgumentBytesTotal
  callCount : c.calls.length ≤ maxResponseToolCalls

/-- What a collector that began with a loop has of the events it took. -/
structure Holds (irreversible : Bool) (start : TurnLoop) (taken : List StreamEvent)
    (c : Collector) : Prop where
  text : c.text.toList = taken.flatMap StreamEvent.answer
  content : c.content.flatMap ContentBlock.spread = taken.flatMap StreamEvent.shown
  /-- Neighbours are of different kinds. -/
  grouped : c.content.IsChain fun block next => block.kind? ≠ next.kind?
  kinds : ∀ block ∈ c.content, block.kind?.isSome = true
  calls : c.calls = taken.filterMap StreamEvent.call?
  rejected : c.rejectedCalls = (taken.filterMap StreamEvent.rejection?).reverse
  traced : ∃ added, c.loop.trace.entries = start.trace.entries ++ added ∧
    added.map TraceEntry.event = StreamEvent.lines 0 0 taken
  committed : c.committed = !taken.isEmpty
  surfaceOutput : c.surfaceOutput = taken.any fun event => irreversible && event.shown ≠ []
  events : taken.length ≤ maxResponseEvents
  textBytes : c.textBytes = c.text.utf8ByteSize
  reasoningBytes : c.reasoningBytes = (taken.map StreamEvent.reasoningSize).sum
  argumentBytes : c.argumentBytes = (taken.map StreamEvent.argumentSize).sum
  within : c.Within
  reasoningIndex : c.reasoningIndex = StreamEvent.reasonings taken
  textIndex : c.textIndex = StreamEvent.texts taken

section Content

variable {content : List ContentBlock} {text : String} {provenance : ReasoningProvenance}

/-- What is appended to the content is the last of its characters. -/
lemma spread_appendText : (appendText content text).flatMap ContentBlock.spread =
    content.flatMap ContentBlock.spread ++ text.toList.map (·, none) := by
  rw [appendText]
  split
  · rename_i prior hlast
    obtain ⟨front, rfl⟩ := List.getLast?_eq_some_iff.1 hlast
    rw [List.dropLast_concat, List.flatMap_append, List.flatMap_append, List.flatMap_singleton,
      List.flatMap_singleton, List.append_assoc, ContentBlock.spread, ContentBlock.spread,
      String.toList_append, List.map_append]
  · rw [List.flatMap_append, List.flatMap_singleton, ContentBlock.spread]

lemma spread_appendReasoning : (appendReasoning content text provenance).flatMap
    ContentBlock.spread =
      content.flatMap ContentBlock.spread ++ text.toList.map (·, some provenance) := by
  rw [appendReasoning]
  split
  · rename_i prior hlast
    obtain ⟨front, rfl⟩ := List.getLast?_eq_some_iff.1 hlast
    split_ifs with hsame
    · rw [List.dropLast_concat, List.flatMap_append, List.flatMap_append, List.flatMap_singleton,
        List.flatMap_singleton, List.append_assoc, ContentBlock.spread, ContentBlock.spread,
        String.toList_append, List.map_append, hsame]
    · rw [List.flatMap_append, List.flatMap_singleton, ContentBlock.spread]
  · rw [List.flatMap_append, List.flatMap_singleton, ContentBlock.spread]

/-- A block of the kind of the last one takes its place, and one of another kind stands behind
it. -/
lemma grouped_replace {front : List ContentBlock} {block : ContentBlock} (last : ContentBlock)
    (hkind : block.kind? = last.kind?)
    (h : (front ++ [last]).IsChain fun block next => block.kind? ≠ next.kind?) :
    (front ++ [block]).IsChain fun block next => block.kind? ≠ next.kind? := by
  rw [List.isChain_append] at h ⊢
  refine ⟨h.1, List.isChain_singleton _, fun prior hprior next hnext => ?_⟩
  rw [List.head?_cons, Option.mem_some_iff] at hnext
  rw [← hnext, hkind]
  exact h.2.2 prior hprior last rfl

lemma grouped_concat {block : ContentBlock}
    (hkind : ∀ last, content.getLast? = some last → last.kind? ≠ block.kind?)
    (h : content.IsChain fun block next => block.kind? ≠ next.kind?) :
    (content ++ [block]).IsChain fun block next => block.kind? ≠ next.kind? := by
  rw [List.isChain_append]
  refine ⟨h, List.isChain_singleton _, fun prior hprior next hnext => ?_⟩
  rw [List.head?_cons, Option.mem_some_iff] at hnext
  rw [← hnext]
  exact hkind prior hprior

lemma grouped_appendText (hkinds : ∀ block ∈ content, block.kind?.isSome = true)
    (h : content.IsChain fun block next => block.kind? ≠ next.kind?) :
    (appendText content text).IsChain fun block next => block.kind? ≠ next.kind? := by
  rw [appendText]
  split
  · rename_i prior hlast
    obtain ⟨front, rfl⟩ := List.getLast?_eq_some_iff.1 hlast
    rw [List.dropLast_concat]
    exact grouped_replace (.text prior) rfl h
  · rename_i hother
    refine grouped_concat (fun last hlast hsame => ?_) h
    cases last with
    | text prior => exact hother prior hlast
    | reasoning chunk => cases hsame
    | image _ _ | toolCall _ | toolResult _ =>
      cases hkinds _ (List.mem_of_getLast? hlast)

lemma grouped_appendReasoning (hkinds : ∀ block ∈ content, block.kind?.isSome = true)
    (h : content.IsChain fun block next => block.kind? ≠ next.kind?) :
    (appendReasoning content text provenance).IsChain
      fun block next => block.kind? ≠ next.kind? := by
  rw [appendReasoning]
  split
  · rename_i prior hlast
    obtain ⟨front, rfl⟩ := List.getLast?_eq_some_iff.1 hlast
    split_ifs with hsame
    · rw [List.dropLast_concat]
      exact grouped_replace (.reasoning prior) rfl h
    · refine grouped_concat (fun last hlast' hkind => hsame ?_) h
      rw [List.getLast?_concat, Option.some.injEq] at hlast'
      rw [← hlast'] at hkind
      exact Option.some.inj (Option.some.inj hkind)
  · rename_i hother
    refine grouped_concat (fun last hlast hsame => ?_) h
    cases last with
    | text prior => cases hsame
    | reasoning chunk => exact hother chunk hlast
    | image _ _ | toolCall _ | toolResult _ =>
      cases hkinds _ (List.mem_of_getLast? hlast)

lemma kinds_appendText (hkinds : ∀ block ∈ content, block.kind?.isSome = true) :
    ∀ block ∈ appendText content text, block.kind?.isSome = true := by
  intro block hblock
  rw [appendText] at hblock
  split at hblock <;> rcases List.mem_append.1 hblock with hold | hnew
  · exact hkinds _ (List.dropLast_subset _ hold)
  · rw [List.mem_singleton.1 hnew]
    rfl
  · exact hkinds _ hold
  · rw [List.mem_singleton.1 hnew]
    rfl

lemma kinds_appendReasoning (hkinds : ∀ block ∈ content, block.kind?.isSome = true) :
    ∀ block ∈ appendReasoning content text provenance, block.kind?.isSome = true := by
  have hconcat : ∀ front : List ContentBlock, (∀ block ∈ front, block.kind?.isSome = true) →
      ∀ chunk, ∀ block ∈ front ++ [.reasoning chunk], block.kind?.isSome = true := by
    intro front hfront chunk block hblock
    rcases List.mem_append.1 hblock with hold | hnew
    · exact hfront _ hold
    · rw [List.mem_singleton.1 hnew]
      rfl
  rw [appendReasoning]
  split
  · split_ifs
    · exact hconcat _ (fun block hblock => hkinds _ (List.dropLast_subset _ hblock)) _
    · exact hconcat _ hkinds _
  · exact hconcat _ hkinds _

end Content

section Step

variable {env : Env} {turnId : TurnId} {irreversible : Bool} {start : TurnLoop}
  {taken : List StreamEvent} {c : Collector} {event : StreamEvent}

lemma holds_new : Holds irreversible start [] (new start) where
  text := rfl
  content := rfl
  grouped := List.isChain_nil
  kinds := fun _ hblock => absurd hblock List.not_mem_nil
  calls := rfl
  rejected := rfl
  traced := ⟨[], (List.append_nil _).symm, rfl⟩
  committed := rfl
  surfaceOutput := rfl
  events := Nat.zero_le _
  textBytes := rfl
  reasoningBytes := rfl
  argumentBytes := rfl
  within := ⟨Nat.zero_le _, Nat.zero_le _, Nat.zero_le _, Nat.zero_le _⟩
  reasoningIndex := rfl
  textIndex := rfl

/-- Numbers of deltas do not saturate. -/
lemma nextIndex_eq {n : ℕ} (hn : n ≤ taken.length) (hevents : taken.length < maxResponseEvents) :
    nextIndex n = n + 1 := by
  have hmax : maxResponseEvents ≤ u32Max := by decide
  rw [nextIndex, min_eq_left]
  omega

lemma shown_ne_nil {text : String} {kind : Option ReasoningProvenance} :
    (text.toList.map fun ch => (ch, kind)) ≠ [] ↔ text ≠ "" := by
  rw [ne_eq, List.map_eq_nil_iff, String.toList_eq_nil_iff]

section Take

variable (env turnId irreversible c event)

lemma take_text : (c.take env turnId irreversible event).text.toList =
    c.text.toList ++ event.answer := by
  cases event with
  | reasoningDelta text provenance => exact (List.append_nil _).symm
  | textDelta text => exact String.toList_append
  | tool event => cases event <;> exact (List.append_nil _).symm

lemma take_content : (c.take env turnId irreversible event).content.flatMap ContentBlock.spread =
    c.content.flatMap ContentBlock.spread ++ event.shown := by
  cases event with
  | reasoningDelta text provenance => exact spread_appendReasoning
  | textDelta text => exact spread_appendText
  | tool event => cases event <;> exact (List.append_nil _).symm

lemma take_calls : (c.take env turnId irreversible event).calls =
    c.calls ++ event.call?.toList := by
  cases event with
  | reasoningDelta text provenance => exact (List.append_nil _).symm
  | textDelta text => exact (List.append_nil _).symm
  | tool event => cases event <;> rfl

lemma take_rejectedCalls : (c.take env turnId irreversible event).rejectedCalls =
    event.rejection?.toList ++ c.rejectedCalls := by
  cases event with
  | tool event => cases event <;> rfl
  | _ => rfl

lemma take_committed : (c.take env turnId irreversible event).committed = true := by
  cases event with
  | tool event => cases event <;> rfl
  | _ => rfl

lemma take_surfaceOutput : (c.take env turnId irreversible event).surfaceOutput =
    (c.surfaceOutput || (irreversible && event.shown ≠ [])) := by
  cases event with
  | tool event =>
    cases event <;> rw [StreamEvent.shown, decide_eq_false (not_not.2 rfl), Bool.and_false,
      Bool.or_false] <;> rfl
  | _ =>
    rw [take, StreamEvent.shown, Bool.and_comm irreversible, decide_eq_decide.2 shown_ne_nil]

/-- A delta has its line. -/
lemma take_traced : ∃ added, (c.take env turnId irreversible event).loop.trace.entries =
      c.loop.trace.entries ++ added ∧
    added.map TraceEntry.event = StreamEvent.lines c.reasoningIndex c.textIndex [event] := by
  cases event with
  | tool event => cases event <;> exact ⟨[], (List.append_nil _).symm, rfl⟩
  | _ => exact ⟨[_], StoreTrace.emit_entries, rfl⟩

lemma take_textBytes (h : c.textBytes = c.text.utf8ByteSize) :
    (c.take env turnId irreversible event).textBytes =
      (c.take env turnId irreversible event).text.utf8ByteSize := by
  cases event with
  | reasoningDelta text provenance => exact h
  | textDelta text =>
    rw [take, String.utf8ByteSize_append, h]
  | tool event => cases event <;> exact h

lemma take_reasoningBytes : (c.take env turnId irreversible event).reasoningBytes =
    c.reasoningBytes + event.reasoningSize := by
  cases event with
  | tool event => cases event <;> rfl
  | _ => rfl

lemma take_argumentBytes : (c.take env turnId irreversible event).argumentBytes =
    c.argumentBytes + event.argumentSize := by
  cases event with
  | tool event => cases event <;> rfl
  | _ => rfl

lemma take_grouped (hkinds : ∀ block ∈ c.content, block.kind?.isSome = true)
    (h : c.content.IsChain fun block next => block.kind? ≠ next.kind?) :
    (c.take env turnId irreversible event).content.IsChain
      fun block next => block.kind? ≠ next.kind? := by
  cases event with
  | reasoningDelta text provenance => exact grouped_appendReasoning hkinds h
  | textDelta text => exact grouped_appendText hkinds h
  | tool event => cases event <;> exact h

lemma take_kinds (hkinds : ∀ block ∈ c.content, block.kind?.isSome = true) :
    ∀ block ∈ (c.take env turnId irreversible event).content, block.kind?.isSome = true := by
  cases event with
  | reasoningDelta text provenance => exact kinds_appendReasoning hkinds
  | textDelta text => exact kinds_appendText hkinds
  | tool event => cases event <;> exact hkinds

/-- An event that is not over a limit leaves the response within the limits. -/
lemma take_within (h : c.Within) (hlimit : c.overLimit event = none) :
    (c.take env turnId irreversible event).Within := by
  cases event with
  | reasoningDelta text provenance =>
    rw [overLimit] at hlimit
    split_ifs at hlimit with hbytes
    exact ⟨h.textBytes, not_lt.1 hbytes, h.argumentBytes, h.callCount⟩
  | textDelta text =>
    rw [overLimit] at hlimit
    split_ifs at hlimit with hbytes
    exact ⟨not_lt.1 hbytes, h.reasoningBytes, h.argumentBytes, h.callCount⟩
  | tool event =>
    cases event with
    | toolCall call =>
      rw [overLimit] at hlimit
      split_ifs at hlimit with hname hcalls hbytes
      rw [not_or, not_lt, not_lt] at hbytes
      refine ⟨h.textBytes, h.reasoningBytes, hbytes.2, ?_⟩
      rw [take_calls, List.length_append]
      exact not_le.1 hcalls
    | toolCallRejected id name reason =>
      rw [overLimit] at hlimit
      split_ifs at hlimit with hname hcalls
      refine ⟨h.textBytes, h.reasoningBytes, h.argumentBytes, ?_⟩
      rw [take_calls, List.length_append]
      exact not_le.1 hcalls

/-- The numbers of deltas, as long as they do not saturate. -/
lemma take_indices (hreasonings : nextIndex c.reasoningIndex = c.reasoningIndex + 1)
    (htexts : nextIndex c.textIndex = c.textIndex + 1) :
    (c.take env turnId irreversible event).reasoningIndex =
        c.reasoningIndex + StreamEvent.reasonings [event] ∧
      (c.take env turnId irreversible event).textIndex =
        c.textIndex + StreamEvent.texts [event] := by
  cases event with
  | reasoningDelta text provenance => exact ⟨hreasonings, rfl⟩
  | textDelta text => exact ⟨rfl, htexts⟩
  | tool event => cases event <;> exact ⟨rfl, rfl⟩

end Take

/-- An event that is within the limits is one more that the collector has. -/
lemma holds_take (h : Holds irreversible start taken c) (hevents : taken.length < maxResponseEvents)
    (hlimit : c.overLimit event = none) :
    Holds irreversible start (taken ++ [event]) (c.take env turnId irreversible event) := by
  have hreasonings : nextIndex c.reasoningIndex = c.reasoningIndex + 1 :=
    nextIndex_eq (h.reasoningIndex.trans_le List.countP_le_length) hevents
  have htexts : nextIndex c.textIndex = c.textIndex + 1 :=
    nextIndex_eq (h.textIndex.trans_le List.countP_le_length) hevents
  obtain ⟨hreasoning, htext⟩ :=
    take_indices env turnId irreversible c event hreasonings htexts
  refine ⟨?_, ?_, take_grouped env turnId irreversible c event h.kinds h.grouped,
    take_kinds env turnId irreversible c event h.kinds, ?_, ?_, ?_, ?_, ?_, ?_,
    take_textBytes env turnId irreversible c event h.textBytes, ?_, ?_,
    take_within env turnId irreversible c event h.within hlimit, ?_, ?_⟩
  · rw [take_text, h.text, List.flatMap_append, List.flatMap_singleton]
  · rw [take_content, h.content, List.flatMap_append, List.flatMap_singleton]
  · rw [take_calls, h.calls, List.filterMap_append, List.filterMap_cons]
    cases event.call? <;> rfl
  · rw [take_rejectedCalls, h.rejected, List.filterMap_append, List.reverse_append,
      List.filterMap_cons]
    cases event.rejection? <;> rfl
  · obtain ⟨before, hbefore, hlines⟩ := h.traced
    obtain ⟨added, hadded, hnew⟩ := take_traced env turnId irreversible c event
    refine ⟨before ++ added, by rw [hadded, hbefore, List.append_assoc], ?_⟩
    rw [List.map_append, hlines, hnew, StreamEvent.lines_append, h.reasoningIndex, h.textIndex,
      Nat.zero_add, Nat.zero_add]
  · rw [take_committed]
    cases taken <;> rfl
  · rw [take_surfaceOutput, h.surfaceOutput, List.any_append, List.any_cons, List.any_nil,
      Bool.or_false]
  · rw [List.length_append]
    exact hevents
  · rw [take_reasoningBytes, h.reasoningBytes, List.map_append, List.sum_append, List.map_singleton,
      List.sum_singleton]
  · rw [take_argumentBytes, h.argumentBytes, List.map_append, List.sum_append, List.map_singleton,
      List.sum_singleton]
  · rw [hreasoning, h.reasoningIndex, StreamEvent.reasonings, StreamEvent.reasonings,
      StreamEvent.reasonings, List.countP_append]
  · rw [htext, h.textIndex, StreamEvent.texts, StreamEvent.texts, StreamEvent.texts,
      List.countP_append]

/-- What an event that is over a limit leaves: the response as it was, and the error. -/
structure Rejected (taken : List StreamEvent) (event : StreamEvent) (c : Collector) : Prop where
  error : ∃ message,
    c.error = some ((RequestFailure.new .protocol .normalizing message).withPartialOutput
      !taken.isEmpty) ∧
    (maxResponseEvents ≤ taken.length ∧ message = eventLimit ∨
      taken.length < maxResponseEvents ∧ c.overLimit event = some message)

/-- The collector took every event so far. -/
structure Active (irreversible : Bool) (start : TurnLoop) (taken : List StreamEvent)
    (c : Collector) : Prop extends Holds irreversible start taken c where
  error : c.error = none
  responseEvents : c.responseEvents = taken.length

/-- What a collector has does not depend on its count, its clock and its error. -/
lemma Holds.restamp (h : Holds irreversible start taken c) (firstDeltaMs : Option ℕ)
    (responseEvents : ℕ) (error : Option RequestFailure) :
    Holds irreversible start taken
      { c with
        firstDeltaMs := firstDeltaMs
        responseEvents := responseEvents
        error := error } :=
  ⟨h.text, h.content, h.grouped, h.kinds, h.calls, h.rejected, h.traced, h.committed,
    h.surfaceOutput, h.events, h.textBytes, h.reasoningBytes, h.argumentBytes,
    ⟨h.within.textBytes, h.within.reasoningBytes, h.within.argumentBytes, h.within.callCount⟩,
    h.reasoningIndex, h.textIndex⟩

lemma take_error : (c.take env turnId irreversible event).error = c.error := by
  cases event with
  | tool event => cases event <;> rfl
  | _ => rfl

lemma take_responseEvents :
    (c.take env turnId irreversible event).responseEvents = c.responseEvents := by
  cases event with
  | tool event => cases event <;> rfl
  | _ => rfl

/-- An event joins the response of an active collector, or ends it. -/
lemma emit_active {arrival : Arrival} (h : Active irreversible start taken c) :
    Active irreversible start (taken ++ [arrival.event]) (c.emit env turnId irreversible arrival) ∨
      Holds irreversible start taken (c.emit env turnId irreversible arrival) ∧
        Rejected taken arrival.event (c.emit env turnId irreversible arrival) := by
  rw [emit, h.error, Option.isSome_none, if_neg Bool.false_ne_true]
  dsimp only
  split_ifs with hevents
  · rw [h.responseEvents] at hevents
    exact Or.inr ⟨h.restamp _ _ _, ⟨_, by rw [reject, h.committed], Or.inl ⟨hevents, rfl⟩⟩⟩
  · rw [h.responseEvents, not_le] at hevents
    split
    · rename_i message hlimit
      exact Or.inr ⟨h.restamp _ _ _,
        ⟨message, by rw [reject, h.committed], Or.inr ⟨hevents, hlimit⟩⟩⟩
    · rename_i hlimit
      refine Or.inl ⟨holds_take (h.restamp _ _ _) hevents hlimit, ?_, ?_⟩
      · rw [take_error]
      · rw [take_responseEvents, List.length_append, List.length_singleton, h.responseEvents]

lemma collect_of_error {failure : RequestFailure} (h : c.error = some failure)
    (arrivals : List Arrival) : c.collect env turnId irreversible arrivals = c := by
  induction arrivals with
  | nil => rfl
  | cons arrival arrivals ih =>
    rw [collect, List.foldl_cons, emit, if_pos (Option.isSome_of_eq_some h)]
    exact ih

/-- A response of which nothing was seen is empty. -/
lemma emit_uncommitted (arrival : Arrival) :
    (c.emit env turnId irreversible arrival).committed = false →
      c.committed = false ∧ (c.emit env turnId irreversible arrival).calls = c.calls ∧
        (c.emit env turnId irreversible arrival).content = c.content := by
  rw [emit]
  dsimp only
  split_ifs with herror hevents
  · exact fun h => ⟨h, rfl, rfl⟩
  · exact fun h => ⟨h, rfl, rfl⟩
  · split
    · exact fun h => ⟨h, rfl, rfl⟩
    · rw [take_committed]
      intro h
      cases h

lemma collect_uncommitted (arrivals : List Arrival)
    (h : (c.collect env turnId irreversible arrivals).committed = false) :
    c.committed = false ∧ (c.collect env turnId irreversible arrivals).calls = c.calls ∧
      (c.collect env turnId irreversible arrivals).content = c.content := by
  induction arrivals generalizing c with
  | nil => exact ⟨h, rfl, rfl⟩
  | cons arrival arrivals ih =>
    rw [collect, List.foldl_cons, ← collect] at h ⊢
    obtain ⟨hcommitted, hcalls, hcontent⟩ := ih h
    obtain ⟨hbefore, hcalls', hcontent'⟩ := emit_uncommitted arrival hcommitted
    exact ⟨hbefore, hcalls.trans hcalls', hcontent.trans hcontent'⟩

/-- A collector that is active ends active, or at the first event over a limit. -/
lemma collect_active (arrivals : List Arrival) (h : Active irreversible start taken c) :
    ∃ joined rest, arrivals.map Arrival.event = joined ++ rest ∧
      Holds irreversible start (taken ++ joined) (c.collect env turnId irreversible arrivals) ∧
      ((c.collect env turnId irreversible arrivals).error = none ∧ rest = [] ∨
        ∃ event later, rest = event :: later ∧
          Rejected (taken ++ joined) event (c.collect env turnId irreversible arrivals)) := by
  induction arrivals generalizing taken c with
  | nil =>
    refine ⟨[], [], rfl, ?_, Or.inl ⟨h.error, rfl⟩⟩
    rw [List.append_nil]
    exact h.toHolds
  | cons arrival arrivals ih =>
    rw [collect, List.foldl_cons, ← collect, List.map_cons]
    rcases @emit_active env turnId irreversible start taken c arrival h with
      hactive | ⟨hholds, hrejected⟩
    · obtain ⟨joined, rest, hevents, hholds, hend⟩ := ih hactive
      rw [List.append_assoc, List.singleton_append] at hholds hend
      exact ⟨arrival.event :: joined, rest, congrArg (arrival.event :: ·) hevents, hholds, hend⟩
    · obtain ⟨failure, herror⟩ : ∃ failure,
          (c.emit env turnId irreversible arrival).error = some failure :=
        hrejected.error.imp' _ fun _ h => h.1
      rw [collect_of_error herror]
      refine ⟨[], arrival.event :: arrivals.map Arrival.event, rfl, ?_, Or.inr ⟨_, _, rfl, ?_⟩⟩ <;>
        rwa [List.append_nil]

end Step

end Collector

end Rupi
