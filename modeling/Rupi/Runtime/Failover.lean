import Rupi.Provider.RetryPacing

/-!
When another model may take over.

- `ModelCapabilities.gaps`: what a model lacks for a session.
- `FailoverPolicy.decide`: retry, takeover, refusal or stop.
- `decide_again`: only a failure that showed nothing is tried again anywhere.
-/

namespace Rupi

/-- `ModelFailureKind::is_retryable`. -/
def ModelFailureKind.isRetryable (kind : ModelFailureKind) : Bool :=
  kind matches .transport | .timeout | .rateLimited | .providerUnavailable

/-- `ModelFailureKind::is_failover_candidate`. -/
def ModelFailureKind.isFailoverCandidate (kind : ModelFailureKind) : Bool :=
  kind matches .transport | .timeout | .rateLimited | .providerUnavailable | .protocol

/-- `safe_to_retry`. -/
def RequestFailure.safeToRetry (failure : RequestFailure) : Bool :=
  failure.kind.isRetryable && failure.replaySafety = .safe && !failure.partialOutputEmitted

/-! ### Capability gaps -/

namespace CapabilityGap

/-- A gap that compaction closes. -/
def isWindow : CapabilityGap → Bool
  | contextWindow _ _ => true
  | _ => false

/-- The `Display` text of a gap. -/
def display : CapabilityGap → String
  | .text => "text input"
  | images => "image input"
  | tools => "tool calling"
  | contextWindow required available =>
      "context window " ++ available.repr ++ " < required " ++ required.repr

end CapabilityGap

namespace ModelCapabilities

/-- `gaps`. -/
def gaps (available required : ModelCapabilities) : List CapabilityGap :=
  (if required.text && !available.text then [.text] else []) ++
    (if required.images && !available.images then [.images] else []) ++
      (if required.tools && !available.tools then [.tools] else []) ++
        (if available.contextWindow < required.contextWindow then
          [.contextWindow required.contextWindow available.contextWindow] else [])

/-- `has_hard_gap`. -/
def hasHardGap (gaps : List CapabilityGap) : Bool := gaps.any (!·.isWindow)

end ModelCapabilities

/-! ### The policy -/

/-- What the runtime decided about a failed request. -/
inductive Recovery where
  | retry (attempt maxAttempts : ℕ)
  | failover (target : ModelRef) (gaps : List CapabilityGap)
  | refused (target : ModelRef) (gaps : List CapabilityGap)
  | abort
  deriving DecidableEq, Repr

/-- Which model may be used for recovery, and under what conditions. -/
structure FailoverPolicy where
  backup : Option ModelRef
  backupCapabilities : Option ModelCapabilities
  maxAttempts : ℕ
  required : ModelCapabilities

namespace FailoverPolicy

variable (policy : FailoverPolicy) (failure : RequestFailure)

/-- `failover_or_abort`. -/
def failoverOrAbort : Recovery :=
  match policy.backup, policy.backupCapabilities with
  | some backup, some capabilities =>
      let gaps := capabilities.gaps policy.required
      if ModelCapabilities.hasHardGap gaps then .refused backup gaps else .failover backup gaps
  | _, _ => .abort

/-- `decide`. -/
def decide : Recovery :=
  if failure.kind = .cancelled then .abort
  else if failure.partialOutputEmitted then .abort
  else if failure.safeToRetry && failure.attempts < policy.maxAttempts then
    .retry failure.attempts policy.maxAttempts
  else if failure.kind.isFailoverCandidate then policy.failoverOrAbort
  else .abort

variable {policy failure}

/-- A failure that is tried again, on one model or another, has shown nothing. -/
lemma decide_again (h : policy.decide failure ≠ .abort) :
    failure.partialOutputEmitted = false ∧ failure.kind ≠ .cancelled := by
  rw [decide] at h
  split_ifs at h with hkind hemitted
  · exact absurd rfl h
  · exact absurd rfl h
  all_goals exact ⟨Bool.eq_false_of_not_eq_true hemitted, hkind⟩

end FailoverPolicy

end Rupi
