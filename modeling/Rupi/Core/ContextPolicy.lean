import Rupi.Core.Event

/-!
The context policy: thresholds for a window, and what is done about the tokens in it.

- `ContextThresholds.normalizedForWindow`: the ladder of thresholds, in order.
- `ProfilePolicy.evaluate`: the decision for a state of the context.
- `Ordered`: what normalizing gives; `normalizedForWindow_idem`: once is enough.
- `relief_mono_or_degraded`: more tokens get no weaker relief, except where a structural level is
  not available.
-/

namespace Rupi

/-! ### Thresholds -/

/-- `ContextProfile`. -/
inductive ContextProfile where
  | aggressive
  | balanced
  | relaxed
  deriving DecidableEq, Repr

/-- `ContextThresholds`. -/
structure ContextThresholds where
  warnTokens : Nat
  reduceTokens : Nat
  compactTokens : Nat
  checkpointTokens : Nat
  recentTargetTokens : Nat
  deriving DecidableEq, Repr

/-- `ContextOverrides`. -/
structure ContextOverrides where
  warnTokens : Option Nat
  reduceTokens : Option Nat
  compactTokens : Option Nat
  checkpointTokens : Option Nat
  recentTargetTokens : Option Nat
  deriving DecidableEq, Repr

/-- `u64::clamp`. -/
def clamp (value low high : Nat) : Nat := max low (min value high)

namespace ContextThresholds

/-- `normalized_for_window`. -/
def normalizedForWindow (thresholds : ContextThresholds) (window : Nat) : ContextThresholds :=
  if window < 3 then ⟨0, 0, 0, 0, 0⟩
  else
    let compactTokens := clamp thresholds.compactTokens 1 (window - 2)
    let reduceTokens := min thresholds.reduceTokens compactTokens
    let warnTokens := min thresholds.warnTokens reduceTokens
    { warnTokens := warnTokens
      reduceTokens := reduceTokens
      compactTokens := compactTokens
      checkpointTokens := clamp thresholds.checkpointTokens (compactTokens + 1) (window - 1)
      recentTargetTokens := min thresholds.recentTargetTokens (compactTokens - 1) }

/-- `with_overrides`. -/
def withOverrides (thresholds : ContextThresholds) (overrides : ContextOverrides) (window : Nat) :
    ContextThresholds × Bool :=
  let requested : ContextThresholds :=
    { warnTokens := overrides.warnTokens.getD thresholds.warnTokens
      reduceTokens := overrides.reduceTokens.getD thresholds.reduceTokens
      compactTokens := overrides.compactTokens.getD thresholds.compactTokens
      checkpointTokens := overrides.checkpointTokens.getD thresholds.checkpointTokens
      recentTargetTokens := overrides.recentTargetTokens.getD thresholds.recentTargetTokens }
  let normalized := requested.normalizedForWindow window
  (normalized, decide (normalized ≠ requested))

/-- `compaction_cooldown_ms`. -/
def compactionCooldownMs : ContextLevel → Nat
  | .l0Payload => 0
  | .l1Ordinary => 30000
  | .l2Phase => 60000
  | .l3Checkpoint => 120000

/-- `for_profile`. The products with the fractions of a profile are made in floating point;
`scaled` stands for them. -/
def forProfile (scaled : ContextProfile → Nat → ContextThresholds) (profile : ContextProfile)
    (window : Nat) : ContextThresholds :=
  (scaled profile window).normalizedForWindow window

end ContextThresholds

/-! ### Decisions -/

/-- `ContextState`, what a decision looks at. -/
structure ContextState where
  window : Nat
  estimatedTokens : Nat
  measuredTokens : Option Nat
  recentTokens : Nat
  atSafeBoundary : Bool
  sinceLastCompactionMs : Nat
  overflowObserved : Bool
  deriving DecidableEq, Repr

/-- `effective_tokens`. -/
def ContextState.effectiveTokens (state : ContextState) : Nat :=
  state.measuredTokens.getD state.estimatedTokens

/-- `ContextAction`. -/
inductive ContextAction where
  | keep
  | warn (tokens threshold : Nat)
  | reducePayload (reason : ReductionReason)
  | compact (level : ContextLevel) (reason : String) (targetTokens : Nat)
  | suggestCheckpoint (reason : String)
  | refuse (reason : String)
  deriving DecidableEq, Repr

/-- `ContextDecision`. -/
structure ContextDecision where
  action : ContextAction
  tokens : Nat
  level : Option ContextLevel
  deriving DecidableEq, Repr

/-- `ProfilePolicy`. -/
structure ProfilePolicy where
  profile : ContextProfile
  thresholds : ContextThresholds
  overrides : ContextOverrides
  referenceWindow : Nat
  deriving DecidableEq, Repr

namespace ProfilePolicy

variable (scaled : ContextProfile → Nat → ContextThresholds) (policy : ProfilePolicy)

def baseThresholdsForWindow (window : Nat) : ContextThresholds :=
  if window = policy.referenceWindow then policy.thresholds
  else .forProfile scaled policy.profile window

/-- `thresholds_for_window`. -/
def thresholdsForWindow (window : Nat) : ContextThresholds :=
  ((policy.baseThresholdsForWindow scaled window).withOverrides policy.overrides window).1

/-- A structural level may run: the boundary is safe, and the last compaction long enough ago. -/
def available (state : ContextState) (level : ContextLevel) : Bool :=
  state.atSafeBoundary &&
    decide (ContextThresholds.compactionCooldownMs level ≤ state.sinceLastCompactionMs)

/-- `evaluate`. -/
def evaluate (state : ContextState) : ContextDecision :=
  let tokens := state.effectiveTokens
  if state.window < 3 then
    ⟨.refuse "active context window is too small to form valid policy thresholds", tokens, none⟩
  else
    let thresholds := policy.thresholdsForWindow scaled state.window
    if state.overflowObserved then
      if thresholds.compactTokens < tokens ∧ state.atSafeBoundary = true then
        ⟨.compact .l1Ordinary "provider reported context overflow" thresholds.recentTargetTokens,
          tokens, some .l1Ordinary⟩
      else
        ⟨.refuse ("request exceeds the active context window (" ++ tokens.repr ++ " > " ++
          thresholds.compactTokens.repr ++ " tokens); compact before continuing"), tokens, none⟩
    else if thresholds.checkpointTokens ≤ tokens then
      if available state .l3Checkpoint then
        ⟨.suggestCheckpoint ("working context at " ++ tokens.repr ++ " of " ++
          thresholds.checkpointTokens.repr ++ " tokens"), tokens, some .l3Checkpoint⟩
      else ⟨.warn tokens thresholds.checkpointTokens, tokens, none⟩
    else if thresholds.compactTokens ≤ tokens then
      if available state .l1Ordinary then
        ⟨.compact .l1Ordinary ("context " ++ tokens.repr ++ " exceeds compact threshold " ++
          thresholds.compactTokens.repr) thresholds.recentTargetTokens, tokens, some .l1Ordinary⟩
      else ⟨.warn tokens thresholds.compactTokens, tokens, none⟩
    else if thresholds.reduceTokens ≤ tokens ∨
        thresholds.recentTargetTokens < state.recentTokens then
      ⟨.reducePayload (.recentTargetExceeded thresholds.recentTargetTokens), tokens,
        some .l0Payload⟩
    else if thresholds.warnTokens ≤ tokens then
      ⟨.warn tokens thresholds.warnTokens, tokens, none⟩
    else ⟨.keep, tokens, none⟩

end ProfilePolicy

/-! ### The ladder -/

/-- The thresholds are in order, inside the window. -/
structure ContextThresholds.Ordered (thresholds : ContextThresholds) (window : Nat) : Prop where
  warn : thresholds.warnTokens ≤ thresholds.reduceTokens
  reduce : thresholds.reduceTokens ≤ thresholds.compactTokens
  compact : thresholds.compactTokens < thresholds.checkpointTokens
  checkpoint : thresholds.checkpointTokens < window
  recent : thresholds.recentTargetTokens < thresholds.compactTokens

section Ladder

variable {window : Nat}

lemma ordered_normalizedForWindow (thresholds : ContextThresholds) (hwindow : 3 ≤ window) :
    (thresholds.normalizedForWindow window).Ordered window := by
  rw [ContextThresholds.normalizedForWindow, if_neg (not_lt.2 hwindow)]
  have hlow : 1 ≤ clamp thresholds.compactTokens 1 (window - 2) := le_max_left _ _
  have hhigh : clamp thresholds.compactTokens 1 (window - 2) ≤ window - 2 :=
    max_le (by omega) (min_le_right _ _)
  refine ⟨min_le_right _ _, min_le_right _ _, ?_, ?_, ?_⟩
  · have hle : clamp thresholds.compactTokens 1 (window - 2) + 1 ≤
        clamp thresholds.checkpointTokens
          (clamp thresholds.compactTokens 1 (window - 2) + 1) (window - 1) := le_max_left _ _
    exact Nat.lt_of_succ_le hle
  · have hle : clamp thresholds.checkpointTokens
        (clamp thresholds.compactTokens 1 (window - 2) + 1) (window - 1) ≤ window - 1 :=
      max_le (by omega) (min_le_right _ _)
    show clamp _ _ _ < window
    omega
  · have hle : min thresholds.recentTargetTokens
        (clamp thresholds.compactTokens 1 (window - 2) - 1) ≤ _ := min_le_right _ _
    show min _ _ < clamp _ _ _
    omega

/-- Thresholds in order stay as they are. -/
lemma normalizedForWindow_of_ordered {thresholds : ContextThresholds} (hwindow : 3 ≤ window)
    (h : thresholds.Ordered window) : thresholds.normalizedForWindow window = thresholds := by
  obtain ⟨hwarn, hreduce, hcompact, hcheckpoint, hrecent⟩ := h
  have hclamp : clamp thresholds.compactTokens 1 (window - 2) = thresholds.compactTokens := by
    rw [clamp, min_eq_left (by omega), max_eq_right (by omega)]
  rw [ContextThresholds.normalizedForWindow, if_neg (not_lt.2 hwindow)]
  dsimp only
  rw [hclamp, min_eq_left hreduce, min_eq_left hwarn, clamp, min_eq_left (by omega),
    max_eq_right hcompact, min_eq_left (by omega)]

/-- **Normalizing twice changes nothing.** -/
lemma normalizedForWindow_idem (thresholds : ContextThresholds) (window : Nat) :
    (thresholds.normalizedForWindow window).normalizedForWindow window =
      thresholds.normalizedForWindow window := by
  by_cases hwindow : window < 3
  · rw [ContextThresholds.normalizedForWindow, if_pos hwindow,
      ContextThresholds.normalizedForWindow, if_pos hwindow]
  · exact normalizedForWindow_of_ordered (not_lt.1 hwindow)
      (ordered_normalizedForWindow thresholds (not_lt.1 hwindow))

end Ladder

/-! ### Relief -/

/-- How much relief an action gives; a refusal gives none. -/
def ContextAction.relief : ContextAction → Nat
  | keep | refuse _ => 0
  | warn _ _ => 1
  | reducePayload _ => 2
  | compact _ _ _ => 3
  | suggestCheckpoint _ => 4

variable {scaled : ContextProfile → Nat → ContextThresholds} {policy : ProfilePolicy}
  {state state' : ContextState}

/-- The tokens reach a structural level that is not available, which is answered with a warning
that names its threshold. -/
def Degraded (scaled : ContextProfile → Nat → ContextThresholds) (policy : ProfilePolicy)
    (state : ContextState) : Prop :=
  ∃ level threshold,
    (policy.evaluate scaled state).action = .warn state.effectiveTokens threshold ∧
    threshold ≤ state.effectiveTokens ∧ ProfilePolicy.available state level = false ∧
    ((level = .l1Ordinary ∧
        threshold = (policy.thresholdsForWindow scaled state.window).compactTokens) ∨
      (level = .l3Checkpoint ∧
        threshold = (policy.thresholdsForWindow scaled state.window).checkpointTokens))

/-- The relief that the tokens ask for, if every level is available. -/
def asked (thresholds : ContextThresholds) (recentTokens tokens : Nat) : Nat :=
  if thresholds.checkpointTokens ≤ tokens then 4
  else if thresholds.compactTokens ≤ tokens then 3
  else if thresholds.reduceTokens ≤ tokens ∨ thresholds.recentTargetTokens < recentTokens then 2
  else if thresholds.warnTokens ≤ tokens then 1
  else 0

/-- More tokens ask for no less. -/
lemma asked_mono {thresholds : ContextThresholds} {window recentTokens tokens tokens' : Nat}
    (h : thresholds.Ordered window) (hle : tokens ≤ tokens') :
    asked thresholds recentTokens tokens ≤ asked thresholds recentTokens tokens' := by
  obtain ⟨hwarn, hreduce, hcompact, -, -⟩ := h
  unfold asked
  split_ifs <;> omega

/-- **A decision gives what is asked, or it is degraded to a warning.** -/
lemma relief_eq_asked_or_degraded (hwindow : 3 ≤ state.window)
    (hoverflow : state.overflowObserved = false) :
    (policy.evaluate scaled state).action.relief =
      asked (policy.thresholdsForWindow scaled state.window) state.recentTokens
        state.effectiveTokens ∨
    Degraded scaled policy state := by
  have heval : policy.evaluate scaled state = policy.evaluate scaled state := rfl
  conv_rhs at heval => rw [ProfilePolicy.evaluate]
  dsimp only at heval
  rw [if_neg (not_lt.2 hwindow), hoverflow, if_neg (by simp)] at heval
  rw [asked]
  by_cases hcheckpoint :
      (policy.thresholdsForWindow scaled state.window).checkpointTokens ≤ state.effectiveTokens
  · rw [if_pos hcheckpoint] at heval ⊢
    cases hlevel : ProfilePolicy.available state .l3Checkpoint with
    | true =>
      rw [hlevel, if_pos rfl] at heval
      rw [heval]
      exact .inl rfl
    | false =>
      rw [hlevel, if_neg (by simp)] at heval
      exact .inr ⟨.l3Checkpoint, _, by rw [heval], hcheckpoint, hlevel, .inr ⟨rfl, rfl⟩⟩
  · rw [if_neg hcheckpoint] at heval ⊢
    by_cases hcompact :
        (policy.thresholdsForWindow scaled state.window).compactTokens ≤ state.effectiveTokens
    · rw [if_pos hcompact] at heval ⊢
      cases hlevel : ProfilePolicy.available state .l1Ordinary with
      | true =>
        rw [hlevel, if_pos rfl] at heval
        rw [heval]
        exact .inl rfl
      | false =>
        rw [hlevel, if_neg (by simp)] at heval
        exact .inr ⟨.l1Ordinary, _, by rw [heval], hcompact, hlevel, .inl ⟨rfl, rfl⟩⟩
    · rw [if_neg hcompact] at heval ⊢
      left
      split_ifs at heval ⊢ <;> rw [heval] <;> rfl

/-- No action gives more than what is asked. -/
lemma relief_le_asked (hwindow : 3 ≤ state.window) (hoverflow : state.overflowObserved = false) :
    (policy.evaluate scaled state).action.relief ≤
      asked (policy.thresholdsForWindow scaled state.window) state.recentTokens
        state.effectiveTokens := by
  rcases relief_eq_asked_or_degraded hwindow hoverflow with
    heq | ⟨level, threshold, haction, hreached, -, ⟨-, rfl⟩ | ⟨-, rfl⟩⟩
  · exact heq.le
  · rw [haction, asked]
    show 1 ≤ _
    split_ifs <;> omega
  · rw [haction, asked, if_pos hreached]
    show 1 ≤ 4
    omega

/-- A structural action is only asked for where its level is available. -/
lemma available_of_structural (hwindow : 3 ≤ state.window)
    (hoverflow : state.overflowObserved = false) :
    (∀ level reason target, (policy.evaluate scaled state).action = .compact level reason target →
      ProfilePolicy.available state level = true) ∧
    (∀ reason, (policy.evaluate scaled state).action = .suggestCheckpoint reason →
      ProfilePolicy.available state .l3Checkpoint = true) := by
  constructor
  all_goals
    intros
    rename_i haction
    unfold ProfilePolicy.evaluate at haction
    simp only [not_lt.2 hwindow, if_false, hoverflow, Bool.false_eq_true] at haction
    split_ifs at haction
    all_goals first
      | (cases haction; done)
      | (cases haction; assumption)

/-- **The ladder of the context policy.** Normalized thresholds are in order, normalizing twice
changes nothing, and at a fixed window, boundary, recent size and time more tokens get no weaker
relief, unless they reach a structural level that is not available there; a structural action is
only asked for where its level is available. -/
theorem relief_mono_or_degraded (scaled : ContextProfile → Nat → ContextThresholds) :
    (∀ (thresholds : ContextThresholds) overrides window, 3 ≤ window →
      (thresholds.withOverrides overrides window).1.Ordered window) ∧
    (∀ (thresholds : ContextThresholds) window,
      (thresholds.normalizedForWindow window).normalizedForWindow window =
        thresholds.normalizedForWindow window) ∧
    (∀ (policy : ProfilePolicy) (state state' : ContextState), 3 ≤ state.window →
      state'.window = state.window → state'.recentTokens = state.recentTokens →
      state'.atSafeBoundary = state.atSafeBoundary →
      state'.sinceLastCompactionMs = state.sinceLastCompactionMs →
      state.overflowObserved = false → state'.overflowObserved = false →
      state.effectiveTokens ≤ state'.effectiveTokens →
      (policy.evaluate scaled state).action.relief ≤ (policy.evaluate scaled state').action.relief ∨
        Degraded scaled policy state') ∧
    (∀ (policy : ProfilePolicy) (state : ContextState), 3 ≤ state.window →
      state.overflowObserved = false →
      (∀ level reason target, (policy.evaluate scaled state).action = .compact level reason target →
        state.atSafeBoundary = true ∧
          ContextThresholds.compactionCooldownMs level ≤ state.sinceLastCompactionMs) ∧
      (∀ reason, (policy.evaluate scaled state).action = .suggestCheckpoint reason →
        state.atSafeBoundary = true ∧
          ContextThresholds.compactionCooldownMs .l3Checkpoint ≤ state.sinceLastCompactionMs)) := by
  refine ⟨fun thresholds overrides window hwindow => ordered_normalizedForWindow _ hwindow,
    normalizedForWindow_idem, fun policy state state' hwindow hsame hrecent _ _ ho ho' hle => ?_,
    fun policy state hwindow ho => ?_⟩
  · have hordered : (policy.thresholdsForWindow scaled state.window).Ordered state.window :=
      ordered_normalizedForWindow _ hwindow
    rcases @relief_eq_asked_or_degraded scaled policy state' (by rwa [hsame]) ho' with heq | hdegraded
    · left
      rw [heq, hsame, hrecent]
      exact (relief_le_asked hwindow ho).trans (asked_mono hordered hle)
    · exact .inr hdegraded
  · obtain ⟨hcompact, hcheckpoint⟩ := @available_of_structural scaled policy state hwindow ho
    simp only [ProfilePolicy.available, Bool.and_eq_true, decide_eq_true_eq] at hcompact hcheckpoint
    exact ⟨hcompact, hcheckpoint⟩

theorem relief_mono_or_degraded_off_boundary :
    let scaled := fun (_ : ContextProfile) (_ : Nat) => (⟨60, 70, 80, 90, 20⟩ : ContextThresholds)
    let policy : ProfilePolicy :=
      ⟨.balanced, ⟨60, 70, 80, 90, 20⟩, ⟨none, none, none, none, none⟩, 100⟩
    let state : ContextState := ⟨100, 70, none, 0, false, 0, false⟩
    let state' : ContextState := ⟨100, 80, none, 0, false, 0, false⟩
    (policy.evaluate scaled state).action.relief ≤ (policy.evaluate scaled state').action.relief ∨
      Degraded scaled policy state' :=
  (relief_mono_or_degraded _).2.2.1 _ _ _ (by decide) rfl rfl rfl rfl rfl rfl (by decide)

/-- Off a safe boundary, reaching the compact threshold turns a reduction into a warning. -/
theorem weaker_relief_off_boundary :
    let scaled := fun (_ : ContextProfile) (_ : Nat) => (⟨60, 70, 80, 90, 20⟩ : ContextThresholds)
    let policy : ProfilePolicy :=
      ⟨.balanced, ⟨60, 70, 80, 90, 20⟩, ⟨none, none, none, none, none⟩, 100⟩
    let state : ContextState := ⟨100, 70, none, 0, false, 0, false⟩
    ¬ ∀ tokens, 70 ≤ tokens →
      (policy.evaluate scaled state).action.relief ≤
        (policy.evaluate scaled { state with estimatedTokens := tokens }).action.relief := by
  intro scaled policy state hmono
  have hweaker : ¬ (policy.evaluate scaled state).action.relief ≤
      (policy.evaluate scaled { state with estimatedTokens := 80 }).action.relief := by decide
  exact hweaker (hmono 80 (by decide))

end Rupi
