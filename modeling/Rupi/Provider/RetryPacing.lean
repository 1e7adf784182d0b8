import Rupi.Core.Decode
import Rupi.Core.Event
import Rupi.Core.Redact

/-!
HTTP failures and the wait before a retry.

- `httpFailure`: the failure record of a status, a header and a body.
- `retryAfterMs`: the hint of the server in milliseconds.
- `delayMs`: the wait of the turn loop.
- `retry_paced_iff`: exactly when the wait follows the hint, or the backoff without one.
-/

namespace Rupi

open Value

/-! ### Failures -/

/-- `FailurePhase`. -/
inductive RequestPhase where
  | preRequest
  | waitingForResponse
  | streaming
  | normalizing
  deriving DecidableEq, Repr

/-- `RequestReplaySafety`. -/
inductive RequestReplaySafety where
  | safe
  | ambiguousPostBoundary
  | committedOutput
  deriving DecidableEq, Repr

/-- `ModelFailure`, as `http_failure` builds it and `attempt` completes it. -/
structure RequestFailure where
  kind : ModelFailureKind
  phase : RequestPhase
  message : String
  status : Option Nat
  retryAfterMs : Option Nat
  attempts : Nat
  partialOutputEmitted : Bool
  replaySafety : RequestReplaySafety
  detail : Option String
  deriving DecidableEq, Repr

namespace RequestFailure

/-- `ModelFailure::new`. -/
def new (kind : ModelFailureKind) (phase : RequestPhase) (message : String) : RequestFailure where
  kind := kind
  phase := phase
  message := message
  status := none
  retryAfterMs := none
  attempts := 0
  partialOutputEmitted := false
  replaySafety := if phase = .preRequest then .safe else .ambiguousPostBoundary
  detail := none

/-- `with_replay_safety`. -/
def withReplaySafety (failure : RequestFailure) (safety : RequestReplaySafety) : RequestFailure :=
  { failure with replaySafety := if failure.partialOutputEmitted then .committedOutput else safety }

end RequestFailure

/-- `looks_like_context_overflow`. -/
def looksLikeContextOverflow (message : String) : Bool :=
  let lowered := message.toList.map Char.toLower
  ["context length", "context_length", "maximum context", "context window", "context size",
    "exceeds the supported", "too many tokens", "prompt is too long",
    "reduce the length of the messages"].any fun needle => containsText needle.toList lowered

/-- `classify_http`. -/
def classifyHttp (status : Nat) (message : String) : ModelFailureKind :=
  if looksLikeContextOverflow message then .contextOverflow
  else if status = 401 ∨ status = 403 then .authentication
  else if status = 408 ∨ status = 504 then .timeout
  else if status = 429 then .rateLimited
  else if status = 404 ∨ status = 410 then .providerUnavailable
  else if status = 413 then .contextOverflow
  else if 500 ≤ status ∧ status ≤ 599 then .providerUnavailable
  else .protocol

/-! ### The hint of the server -/

/-- `f64`, `serde_json` and the tables of `char`, as a failure uses them. A cast to `u64`
saturates. -/
structure FailureReader (F : Type) where
  parseSeconds : String → Option F
  nonnegative : F → Bool
  millis : F → Fin (2 ^ 64)
  value : String → Option Value
  isAlphanumeric : Char → Bool

variable {F : Type} (reader : FailureReader F)

/-- What the server asks to wait. -/
inductive RetryHint (F : Type) where
  | header (seconds : F)
  | body (seconds : Nat)

/-- The hint that can be used: the header where it is a number of seconds, or the body. -/
def retryHint (header : Option String) (body : String) : Option (RetryHint F) :=
  match (header.bind fun text => reader.parseSeconds (trim text)).filter reader.nonnegative with
  | some seconds => some (.header seconds)
  | none => do
    let value ← reader.value body
    let field ← ((value.get "error").bind (·.get "retry_after")).or (value.get "retry_after")
    let seconds ← field.asNat.filter (· < 2 ^ 64)
    some (.body seconds)

/-- The hint in milliseconds. -/
def hintMs : RetryHint F → Nat
  | .header seconds => reader.millis seconds
  | .body seconds => seconds * 1000

/-- `retry_after_ms`. There is no result where the product overflows. -/
def retryAfterMs (header : Option String) (body : String) : Option (Option Nat) :=
  match retryHint reader header body with
  | none => some none
  | some hint => if hintMs reader hint < 2 ^ 64 then some (some (hintMs reader hint)) else none

/-! ### The record -/

/-- The text under a path of keys. -/
def textUnder (value : Value) (path : List String) : Option String :=
  (path.foldl (fun node key => node.bind (·.get key)) (some value)).bind asText

/-- `error_message`. -/
def errorMessage (body : String) : String :=
  let told := (reader.value body).bind fun value =>
    [["error", "message"], ["message"], ["error", "msg"], ["detail"]].findSome? fun path =>
      (textUnder value path).filter fun message => trim message ≠ ""
  told.getD (if trim body = "" then "<empty body>" else trim body)

/-- `truncate`. -/
def truncateChars (text : String) (maxChars : Nat) : String :=
  if text.length ≤ maxChars then text
  else
    String.ofList (text.toList.take maxChars) ++ "…(" ++ (text.length - maxChars).repr ++
      " chars truncated)"

/-- `summarize`. -/
def summarize (text : String) : String :=
  let told := ((textLines text).map trim).find? fun line =>
    line ≠ "" && line.toList.any reader.isAlphanumeric
  truncateChars (told.getD "") 240

def maxErrorBodyBytes : Nat := 64 * 1024

/-- `http_failure`. -/
def httpFailure (status : Nat) (body : String) (header : Option String) (phase : RequestPhase) :
    Option RequestFailure := do
  let message := errorMessage reader body
  let safety : RequestReplaySafety :=
    if status = 429 ∨ (500 ≤ status ∧ status ≤ 599) ∨ phase = .preRequest then .safe
    else .ambiguousPostBoundary
  let hint ← retryAfterMs reader header body
  let failure := RequestFailure.new (classifyHttp status message) phase (summarize reader message)
  let failure := { failure with status := some status, retryAfterMs := some (hint.getD 0) }
  some { failure.withReplaySafety safety with
    detail := some (truncateChars body (maxErrorBodyBytes / 4)) }

/-! ### The wait -/

/-- The wait before a retry that the server says nothing about. -/
def backoffMs (attempts : Nat) : Nat := min (100 * 2 ^ min (attempts - 1) 5) 2000

/-- The wait of `attempt` before the next request. -/
def delayMs (failure : RequestFailure) : Nat :=
  failure.retryAfterMs.getD (backoffMs failure.attempts)

/-- **The wait follows the hint, or the backoff without one**, before every retry. -/
def RetryPaced (status : Nat) (body : String) (header : Option String) (phase : RequestPhase) :
    Prop :=
  ∃ failure, httpFailure reader status body header phase = some failure ∧
    ∀ k, 1 ≤ k → delayMs { failure with attempts := k } =
      match retryHint reader header body with
      | some hint => hintMs reader hint
      | none => min (100 * 2 ^ (k - 1)) 2000

/-- The cap on the exponent is behind the cap on the wait. -/
lemma backoffMs_eq (k : Nat) : backoffMs k = min (100 * 2 ^ (k - 1)) 2000 := by
  rw [backoffMs]
  rcases le_total (k - 1) 5 with h | h
  · rw [min_eq_left h]
  · have hpow : 2 ^ 5 ≤ 2 ^ (k - 1) := Nat.pow_le_pow_right (by norm_num) h
    rw [min_eq_right h]
    omega

/-- The record always names a time. -/
lemma httpFailure_eq_some {status : Nat} {body : String} {header : Option String}
    {phase : RequestPhase} {failure : RequestFailure}
    (h : httpFailure reader status body header phase = some failure) :
    ∃ hint, retryAfterMs reader header body = some hint ∧
      failure.retryAfterMs = some (hint.getD 0) := by
  obtain ⟨hint, hhint, h⟩ := Option.bind_eq_some_iff.1 h
  refine ⟨hint, hhint, ?_⟩
  rw [← Option.some.inj h]
  rfl

/-- **Exactly when a retry is paced**: the server has given a hint, and its product with a thousand
fits. Without a hint the record says zero, so the backoff, right as it is, is never used. -/
theorem retry_paced_iff (status : Nat) (body : String) (header : Option String)
    (phase : RequestPhase) :
    (RetryPaced reader status body header phase ↔
      ∃ hint, retryHint reader header body = some hint ∧ hintMs reader hint < 2 ^ 64) ∧
    ∀ k, backoffMs k = min (100 * 2 ^ (k - 1)) 2000 := by
  refine ⟨⟨?_, ?_⟩, backoffMs_eq⟩
  · rintro ⟨failure, hfailure, hpaced⟩
    obtain ⟨hint, hms, hfield⟩ := httpFailure_eq_some reader hfailure
    have hfirst := hpaced 1 le_rfl
    rw [retryAfterMs] at hms
    cases hhint : retryHint reader header body with
    | none =>
      rw [hhint] at hms hfirst
      cases hms
      have hzero : delayMs { failure with attempts := 1 } = 0 := by
        rw [delayMs, hfield]
        rfl
      have hwait : 0 = min (100 * 2 ^ (1 - 1)) 2000 := hzero.symm.trans hfirst
      exact absurd hwait (by decide)
    | some given =>
      rw [hhint] at hms
      dsimp only at hms
      split_ifs at hms with hfits
      exact ⟨given, rfl, hfits⟩
  · rintro ⟨hint, hhint, hfits⟩
    have hms : retryAfterMs reader header body = some (some (hintMs reader hint)) := by
      rw [retryAfterMs, hhint]
      exact if_pos hfits
    obtain ⟨failure, hfailure⟩ : ∃ failure, httpFailure reader status body header phase =
        some failure := by
      rw [httpFailure, hms]
      exact ⟨_, rfl⟩
    obtain ⟨given, hgiven, hfield⟩ := httpFailure_eq_some reader hfailure
    cases hms.symm.trans hgiven
    refine ⟨failure, hfailure, fun k _ => ?_⟩
    rw [delayMs, hhint]
    change failure.retryAfterMs.getD _ = _
    rw [hfield]
    rfl

/-- A reader of whole seconds. -/
def wholeReader : FailureReader Nat where
  parseSeconds text := text.toNat?
  nonnegative _ := true
  millis seconds := ⟨min (seconds * 1000) (2 ^ 64 - 1), by omega⟩
  value _ := none
  isAlphanumeric := Char.isAlphanum

/-- **A retry without a hint does not wait.** -/
theorem not_paced_without_hint : ¬ RetryPaced wholeReader 503 "" none .waitingForResponse := by
  rintro ⟨failure, hfailure, hpaced⟩
  obtain ⟨hint, hms, hfield⟩ := httpFailure_eq_some wholeReader hfailure
  cases hms
  have hzero : delayMs { failure with attempts := 1 } = 0 := by
    rw [delayMs, hfield]
    rfl
  have hwait : 0 = min (100 * 2 ^ (1 - 1)) 2000 := hzero.symm.trans (hpaced 1 le_rfl)
  exact absurd hwait (by decide)

end Rupi
