import Rupi.Core.Event
import Rupi.Core.Text

/-!
The semantic session log: the records a resume reads instead of the trace.

A `SessionRecord.message` carries one model-visible message with its attribution;
`compaction`, `checkpointBarrier` and `reduction` say how the model-visible window
was rewritten since.
-/

namespace Rupi

/-- Typed storage errors. -/
inductive StoreError where
  | io (message : String)
  | encode (message : String)
  | decode (path : String) (line : Nat) (message : String)
  | missing (what : String)
  | invalid (reason : String)
  deriving DecidableEq, Repr

/-- The text an error is reported with. -/
def StoreError.display : StoreError → String
  | io message => "storage i/o: " ++ message
  | encode message => "encode: " ++ message
  | decode path line message =>
    path ++ ":" ++ toString line ++ ": cannot decode line: " ++ message
  | missing what => "not found: " ++ what
  | invalid reason => "invalid state: " ++ reason

structure CapsuleDecision where
  decision : String
  rationale : String
  deriving DecidableEq, Repr

structure CapsuleArtifact where
  path : String
  note : String
  deriving DecidableEq, Repr

/-- Structured episode memory at a checkpoint. -/
structure ContextCapsule where
  version : Nat
  objective : String
  completedWork : List String
  decisions : List CapsuleDecision
  constraints : List String
  currentState : String
  artifacts : List CapsuleArtifact
  unresolved : List String
  nextActions : List String
  deriving DecidableEq, Repr

/-- One titled list of a rendered capsule; an empty list leaves no title. -/
def capsuleSection (title : String) (items : List String) : String :=
  if items.isEmpty then ""
  else title ++ String.join (items.map fun item => "  - " ++ item ++ "\n")

/-- The model-visible text block of a capsule. -/
def ContextCapsule.formatForModel (capsule : ContextCapsule) : String :=
  "[Session Checkpoint Capsule]\n" ++
    ("objective: " ++ trim capsule.objective ++ "\n") ++
    capsuleSection "completed:\n" (capsule.completedWork.map trim) ++
    capsuleSection "decisions:\n"
      (capsule.decisions.map fun d => trim d.decision ++ ": " ++ trim d.rationale) ++
    capsuleSection "constraints:\n" (capsule.constraints.map trim) ++
    (if trim capsule.currentState = "" then ""
      else "current_state: " ++ trim capsule.currentState ++ "\n") ++
    capsuleSection "important_artifacts:\n"
      (capsule.artifacts.map fun a => trim a.path ++ ": " ++ trim a.note) ++
    capsuleSection "unresolved:\n" (capsule.unresolved.map trim) ++
    capsuleSection "next_actions:\n" (capsule.nextActions.map trim) ++
    "[/Session Checkpoint Capsule]"

structure ExternalContextRef where
  provider : String
  resourceId : String
  citation : Option String
  provenance : String
  metadata : List (String × String)
  deriving DecidableEq, Repr

/-! ### Records -/

structure SessionHeader where
  sessionId : SessionId
  version : Nat
  startedAtMs : Nat
  workingDir : String
  model : ModelRef
  parentSession : Option SessionId
  branchedFromEvent : Option EventId
  importedFrom : Option String
  deriving DecidableEq, Repr

structure SessionMessage where
  turnId : TurnId
  role : Role
  message : Message
  epoch : Nat
  model : ModelRef
  eventId : EventId
  seq : Option EventSeq
  externalContext : Option ExternalContextRef
  deriving DecidableEq, Repr

structure SessionEpochRecord where
  epoch : Nat
  model : ModelRef
  reason : EpochReason
  deriving DecidableEq, Repr

structure SessionCompactionRecord where
  contextEpoch : Nat
  level : ContextLevel
  removedMessages : Nat
  retainedFrom : Nat
  retainedMessages : Nat
  summaryPresent : Bool
  replacesFrom : Option EventSeq
  replacesThrough : Option EventSeq
  aborted : Bool
  startEventId : Option EventId
  summaryEventId : Option EventId
  deriving DecidableEq, Repr

structure SessionReductionRecord where
  eventId : EventId
  seq : Option EventSeq
  reason : ReductionReason
  removedMessages : Nat
  retainedMessages : Nat
  deriving DecidableEq, Repr

structure SessionCheckpointRecord where
  checkpointId : CheckpointId
  capsuleVersion : Nat
  contextEpoch : Nat
  capsulePath : String
  capsule : ContextCapsule
  deriving DecidableEq, Repr

/-- One durable line of the session log. -/
inductive SessionRecord where
  | header (header : SessionHeader)
  | message (record : SessionMessage)
  | epoch (record : SessionEpochRecord)
  | compaction (record : SessionCompactionRecord)
  | checkpointBarrier (record : SessionCheckpointRecord)
  | reduction (record : SessionReductionRecord)
  deriving DecidableEq, Repr

end Rupi
