import Rupi.Core.Decode
import Rupi.Runtime.ToolOutcome

/-!
The tool contract: what a tool is asked, what it may answer, and what each answer
allows after an interruption.

- `ToolExecutionState.replayDecision`: whether an interrupted call may run again.
- `ToolOutcome.succeeded`, `failed`, `unknown`: the answers of a tool that ran.
- `ToolError.impliedState`: the state of a call that ended in a harness error.
- `argStr`, `argBool`: the arguments of a request.
-/

namespace Rupi

open Value

/-! ### Metadata and replay -/

/-- Static description of a tool. -/
structure ToolMetadata where
  name : String
  description : String
  readOnly : Bool
  idempotent : Bool
  deriving DecidableEq, Repr

/-- What the runtime may do with a call that was interrupted. -/
inductive ReplayDecision where
  | replay | reconcileFirst | never
  deriving DecidableEq, Repr

/-- `replay_decision`. -/
def ToolExecutionState.replayDecision (state : ToolExecutionState) (metadata : ToolMetadata) :
    ReplayDecision :=
  match state with
  | .succeeded => .never
  | .failed => .replay
  | .requested | .started | .unknown => if metadata.readOnly then .replay else .reconcileFirst

/-- A call of a mutating tool runs again only if it is recorded as failed. -/
lemma ToolExecutionState.eq_failed_of_replay {state : ToolExecutionState}
    {metadata : ToolMetadata} (hmutating : metadata.readOnly = false)
    (h : state.replayDecision metadata = .replay) : state = .failed := by
  cases state <;> simp [replayDecision, hmutating] at h ⊢

/-! ### Requests -/

structure ToolRequest where
  callId : ToolCallId
  name : String
  arguments : Value
  deriving DecidableEq, Repr

/-- Infrastructure error of the tool runtime; `started` says that execution may have
begun. -/
structure ToolError where
  message : String
  started : Bool
  deriving DecidableEq, Repr

namespace ToolError

def new (message : String) : ToolError := ⟨message, false⟩

def afterStart (message : String) : ToolError := ⟨message, true⟩

/-- The lifecycle state implied by this error for a given tool. -/
def impliedState (error : ToolError) (metadata : ToolMetadata) : ToolExecutionState :=
  if error.started && !metadata.readOnly then .unknown else .failed

end ToolError

/-- A required text argument. -/
def argStr (request : ToolRequest) (name : String) : Except ToolError String :=
  match (request.arguments.get name).bind asText with
  | some text => .ok text
  | none => .error (.new (request.name ++ ": missing required string argument '" ++ name ++ "'"))

/-- An optional boolean argument with a default. -/
def argBool (request : ToolRequest) (name : String) (default : Bool) : Bool :=
  ((request.arguments.get name).bind asBool).getD default

/-! ### Outcomes -/

namespace ToolOutcome

def succeeded (text : String) : ToolOutcome := ⟨.succeeded, text, false, false, none⟩

def failed (text : String) : ToolOutcome := ⟨.failed, text, true, false, none⟩

/-- An execution whose completion was not observed. -/
def unknown (text : String) : ToolOutcome := ⟨.unknown, text, true, false, none⟩

@[simp] lemma state_succeeded (text : String) : (succeeded text).state = .succeeded := rfl
@[simp] lemma state_failed (text : String) : (failed text).state = .failed := rfl
@[simp] lemma state_unknown (text : String) : (unknown text).state = .unknown := rfl

end ToolOutcome

/-- Result of reconciling an uncertain call against the environment. -/
inductive ReconciliationStatus where
  | committed (details : String)
  | unmodified (details : String)
  | diverged (details : String)
  | requiresManualInspection (details : String)
  deriving DecidableEq, Repr

namespace ReconciliationStatus

def isCommitted : ReconciliationStatus → Bool
  | committed _ => true
  | _ => false

def isUnmodified : ReconciliationStatus → Bool
  | unmodified _ => true
  | _ => false

end ReconciliationStatus

end Rupi
