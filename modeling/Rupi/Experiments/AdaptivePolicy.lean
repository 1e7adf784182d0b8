import Rupi.Core.ContextPolicy

/-!
The adaptive context policy: thresholds that are capped where a model was seen to slow down.

- `capThresholds`, `AdaptiveContextPolicy.evaluate`: the capped ladder and its decision.
- `thresholds_below`: no threshold is raised.
- `Agrees`, `erased_eq_iff`: where a policy that does not adapt decides as the static one.
- `not_weaker_iff`: where a policy that adapts asks for no less.
- **`adaptive_tightens_iff`**: all of this for every policy and every state.
-/

namespace Rupi

/-! ### Profiles -/

/-- `ProfileFractions`, with exact fractions. -/
structure ProfileFractions where
  warn : ℚ
  reduce : ℚ
  compact : ℚ
  recentTarget : ℚ
  workingCapTokens : ℕ

def ContextProfile.fractions : ContextProfile → ProfileFractions
  | aggressive => ⟨45 / 100, 55 / 100, 65 / 100, 15 / 100, 32000⟩
  | balanced => ⟨60 / 100, 70 / 100, 80 / 100, 25 / 100, 64000⟩
  | relaxed => ⟨75 / 100, 82 / 100, 90 / 100, 35 / 100, 96000⟩

/-- A window small enough that thresholds shrink. -/
def constrainedWindowTokens : ℕ := 64000

/-- A window large enough that it must not relax thresholds. -/
def largeWindowTokens : ℕ := 192000

/-- The products of `for_profile`, exact and rounded down. -/
def profileScaled (profile : ContextProfile) (window : ℕ) : ContextThresholds :=
  let fractions := profile.fractions
  let effectiveWindow : ℚ := (min window largeWindowTokens : ℕ)
  let compactFraction :=
    fractions.compact - if window ≤ constrainedWindowTokens then 5 / 100 else 0
  let compact := min (effectiveWindow * compactFraction) fractions.workingCapTokens
  let scaled (fraction : ℚ) : ℕ :=
    ⌊compact * max (5 / 100) (min (fraction / fractions.compact) (3 / 2))⌋₊
  { warnTokens := scaled fractions.warn
    reduceTokens := scaled fractions.reduce
    compactTokens := ⌊compact⌋₊
    checkpointTokens := ⌊compact⌋₊ + max (⌊compact⌋₊ / 10) 4096
    recentTargetTokens :=
      ⌊min effectiveWindow fractions.workingCapTokens * fractions.recentTarget⌋₊ }

/-- `ContextOverrides::default`. -/
def ContextOverrides.default : ContextOverrides := ⟨none, none, none, none, none⟩

namespace ProfilePolicy

def new (scaled : ContextProfile → ℕ → ContextThresholds) (profile : ContextProfile)
    (window : ℕ) : ProfilePolicy :=
  ⟨profile, .forProfile scaled profile window, .default, window⟩

/-- `with_overrides`. -/
def withOverrides (policy : ProfilePolicy) (overrides : ContextOverrides) : ProfilePolicy :=
  { policy with overrides := overrides }

end ProfilePolicy

/-! ### The capped ladder -/

/-- `cap_thresholds`: the ladder scaled down to a knee below its compact threshold. -/
def capThresholds (thresholds : ContextThresholds) (knee : ℕ) : ContextThresholds :=
  if thresholds.compactTokens ≤ knee then thresholds
  else
    { warnTokens := thresholds.warnTokens * knee / thresholds.compactTokens
      reduceTokens := thresholds.reduceTokens * knee / thresholds.compactTokens
      compactTokens := knee
      checkpointTokens :=
        min thresholds.checkpointTokens (min (knee + max (knee / 10) 2048) (2 ^ 64 - 1))
      recentTargetTokens := thresholds.recentTargetTokens * knee / thresholds.compactTokens }

/-- `ContextState`, with the model that it describes. -/
structure ModelState extends ContextState where
  model : Option ModelRef
  deriving DecidableEq, Repr

/-- `AdaptiveContextPolicy`; a knee is the tokens that it was seen at. -/
structure AdaptiveContextPolicy where
  basePolicy : ProfilePolicy
  knee : Option ℕ
  kneeModel : Option String
  enabled : Bool
  deriving DecidableEq, Repr

namespace AdaptiveContextPolicy

variable (scaled : ContextProfile → ℕ → ContextThresholds) (policy : AdaptiveContextPolicy)
  (state : ModelState)

def new (profile : ContextProfile) (window : ℕ) (enabled : Bool) : AdaptiveContextPolicy :=
  ⟨.new scaled profile window, none, none, enabled⟩

/-- `with_overrides`. -/
def withOverrides (overrides : ContextOverrides) : AdaptiveContextPolicy :=
  { policy with basePolicy := policy.basePolicy.withOverrides overrides }

/-- `with_detector_for_model`, of a detector that finds this knee for the model. -/
def withKnee (detected : Option ℕ) (model : ModelRef) : AdaptiveContextPolicy :=
  if policy.enabled then
    match detected with
    | some knee => { policy with knee := some knee, kneeModel := some model.asKey }
    | none => policy
  else policy

/-- The knee that caps the ladder for the model of the state. -/
def activeKnee : Option ℕ :=
  if state.model.map ModelRef.asKey = policy.kneeModel ∧ policy.enabled = true then policy.knee
  else none

/-- The thresholds for the window of the state. -/
def thresholds : ContextThresholds :=
  let staticThresholds := policy.basePolicy.thresholdsForWindow scaled state.window
  match policy.activeKnee state with
  | some knee => (capThresholds staticThresholds knee).normalizedForWindow state.window
  | none => staticThresholds

/-- `evaluate`. -/
def evaluate : ContextDecision :=
  let tokens := state.effectiveTokens
  if state.window < 3 then
    ⟨.refuse "active context window is too small to form valid policy thresholds", tokens, none⟩
  else
    let thresholds := policy.thresholds scaled state
    let reduction : ContextDecision :=
      ⟨.reducePayload (.recentTargetExceeded thresholds.recentTargetTokens), tokens,
        some .l0Payload⟩
    if state.overflowObserved then
      ⟨.compact .l1Ordinary "uncommitted context overflow; compacting pre-turn history"
        thresholds.recentTargetTokens, tokens, some .l1Ordinary⟩
    else if thresholds.checkpointTokens ≤ tokens then
      if state.atSafeBoundary then
        ⟨.suggestCheckpoint ("context tokens (" ++ tokens.repr ++
          ") exceeded checkpoint threshold (" ++ thresholds.checkpointTokens.repr ++ ")"), tokens,
          some .l3Checkpoint⟩
      else reduction
    else if thresholds.compactTokens ≤ tokens then
      if state.atSafeBoundary then
        ⟨.compact .l1Ordinary ("context tokens (" ++ tokens.repr ++
          ") exceeded compact threshold (" ++ thresholds.compactTokens.repr ++ ")")
          thresholds.recentTargetTokens, tokens, some .l1Ordinary⟩
      else reduction
    else if thresholds.reduceTokens ≤ tokens then reduction
    else if thresholds.warnTokens ≤ tokens then
      ⟨.warn tokens thresholds.warnTokens, tokens, none⟩
    else ⟨.keep, tokens, none⟩

end AdaptiveContextPolicy

/-! ### No threshold is raised -/

/-- No threshold of the one ladder is above that of the other. -/
structure ContextThresholds.Below (thresholds bounds : ContextThresholds) : Prop where
  warn : thresholds.warnTokens ≤ bounds.warnTokens
  reduce : thresholds.reduceTokens ≤ bounds.reduceTokens
  compact : thresholds.compactTokens ≤ bounds.compactTokens
  checkpoint : thresholds.checkpointTokens ≤ bounds.checkpointTokens
  recent : thresholds.recentTargetTokens ≤ bounds.recentTargetTokens

section Below

variable {thresholds bounds : ContextThresholds} {window knee : ℕ}

lemma ContextThresholds.Below.refl (thresholds : ContextThresholds) : thresholds.Below thresholds :=
  ⟨le_rfl, le_rfl, le_rfl, le_rfl, le_rfl⟩

/-- Scaling by a part of the whole does not raise a number. -/
lemma scale_le {n part whole : ℕ} (h : part ≤ whole) : n * part / whole ≤ n := by
  rcases Nat.eq_zero_or_pos whole with rfl | hpos
  · simp
  · exact Nat.div_le_of_le_mul (by rw [Nat.mul_comm whole]; exact Nat.mul_le_mul_left n h)

lemma capThresholds_below (thresholds : ContextThresholds) (knee : ℕ) :
    (capThresholds thresholds knee).Below thresholds := by
  unfold capThresholds
  split_ifs with hknee
  · exact .refl thresholds
  · have hle : knee ≤ thresholds.compactTokens := (not_le.1 hknee).le
    exact ⟨scale_le hle, scale_le hle, hle, min_le_left _ _, scale_le hle⟩

/-- Normalizing below a ladder that is in order stays below it. -/
lemma normalizedForWindow_below (hwindow : 3 ≤ window) (hordered : bounds.Ordered window)
    (hbelow : thresholds.Below bounds) : (thresholds.normalizedForWindow window).Below bounds := by
  obtain ⟨hwarn, hreduce, hcompact, hcheckpoint, hrecent⟩ := hbelow
  obtain ⟨-, -, hnext, hlast, hfirst⟩ := hordered
  have hclamped : clamp thresholds.compactTokens 1 (window - 2) ≤ bounds.compactTokens :=
    max_le (by omega) ((min_le_left _ _).trans hcompact)
  rw [ContextThresholds.normalizedForWindow, if_neg (not_lt.2 hwindow)]
  refine ⟨?_, (min_le_left _ _).trans hreduce, hclamped, ?_, (min_le_left _ _).trans hrecent⟩
  · exact (min_le_left _ _).trans hwarn
  · exact max_le (by omega) ((min_le_left _ _).trans hcheckpoint)

end Below

namespace AdaptiveContextPolicy

variable {scaled : ContextProfile → ℕ → ContextThresholds} {policy : AdaptiveContextPolicy}
  {state : ModelState}

/-- The thresholds of the static policy with the same profile, window and overrides. -/
abbrev staticThresholds (scaled : ContextProfile → ℕ → ContextThresholds)
    (policy : AdaptiveContextPolicy) (state : ModelState) : ContextThresholds :=
  policy.basePolicy.thresholdsForWindow scaled state.window

lemma staticThresholds_ordered (hwindow : 3 ≤ state.window) :
    (policy.staticThresholds scaled state).Ordered state.window :=
  ordered_normalizedForWindow _ hwindow

lemma thresholds_of_inactive (h : policy.activeKnee state = none) :
    policy.thresholds scaled state = policy.staticThresholds scaled state := by
  rw [thresholds, h]

lemma thresholds_below (hwindow : 3 ≤ state.window) :
    (policy.thresholds scaled state).Below (policy.staticThresholds scaled state) := by
  rw [thresholds]
  cases policy.activeKnee state with
  | none => exact .refl _
  | some knee =>
    exact normalizedForWindow_below hwindow (staticThresholds_ordered hwindow)
      (capThresholds_below _ _)

lemma thresholds_ordered (hwindow : 3 ≤ state.window) :
    (policy.thresholds scaled state).Ordered state.window := by
  rw [thresholds]
  cases policy.activeKnee state with
  | none => exact staticThresholds_ordered hwindow
  | some knee => exact ordered_normalizedForWindow _ hwindow

end AdaptiveContextPolicy

/-! ### Decisions -/

/-- The action without the text of its reason. -/
def ContextAction.erased : ContextAction → ContextAction
  | compact level _ targetTokens => compact level "" targetTokens
  | suggestCheckpoint _ => suggestCheckpoint ""
  | refuse _ => refuse ""
  | action => action

/-- The order of actions; a refusal has no place in it. -/
def ContextAction.rank : ContextAction → Option ℕ
  | keep => some 0
  | warn _ _ => some 1
  | reducePayload _ => some 2
  | compact _ _ _ => some 3
  | suggestCheckpoint _ => some 4
  | refuse _ => none

/-- Both actions have a place in the order, the first one before the second. -/
def ContextAction.Weaker (action other : ContextAction) : Prop :=
  ∃ i j, action.rank = some i ∧ other.rank = some j ∧ i < j

/-- Where both ladders decide the same at the same thresholds: a request that overflowed can be
compacted, a structural action that the tokens ask for is available, and recent tokens are over
their target only where the tokens ask for a reduction anyway. -/
def Agrees (thresholds : ContextThresholds) (state : ContextState) : Prop :=
  if state.overflowObserved then
    thresholds.compactTokens < state.effectiveTokens ∧ state.atSafeBoundary = true
  else if thresholds.checkpointTokens ≤ state.effectiveTokens then
    ProfilePolicy.available state .l3Checkpoint = true
  else if thresholds.compactTokens ≤ state.effectiveTokens then
    ProfilePolicy.available state .l1Ordinary = true
  else thresholds.reduceTokens ≤ state.effectiveTokens ∨
    state.recentTokens ≤ thresholds.recentTargetTokens

instance (thresholds : ContextThresholds) (state : ContextState) :
    Decidable (Agrees thresholds state) := by
  unfold Agrees
  infer_instance

namespace AdaptiveContextPolicy

variable {scaled : ContextProfile → ℕ → ContextThresholds} {policy : AdaptiveContextPolicy}
  {state : ModelState}

lemma erased_eq_iff (hwindow : 3 ≤ state.window) (h : policy.activeKnee state = none) :
    (policy.evaluate scaled state).action.erased =
        (policy.basePolicy.evaluate scaled state.toContextState).action.erased ↔
      Agrees (policy.staticThresholds scaled state) state.toContextState := by
  unfold evaluate ProfilePolicy.evaluate Agrees
  rw [thresholds_of_inactive h, if_neg (not_lt.2 hwindow), if_neg (not_lt.2 hwindow)]
  dsimp only
  unfold staticThresholds ProfilePolicy.available
  generalize policy.basePolicy.thresholdsForWindow scaled state.window = thresholds
  split_ifs <;> simp_all [ContextAction.erased] <;> omega

/-- The two reasons for a checkpoint begin with different words. -/
lemma checkpointReason_ne (rest rest' : String) :
    "context tokens (" ++ rest ≠ "working context at " ++ rest' := by
  intro heq
  have hhead := congrArg (fun text : String => text.toList.head?) heq
  simp [String.toList_append] at hhead

/-- The two reasons for a compaction differ behind their first word: one goes on with a number. -/
lemma compactReason_ne (tokens : ℕ) (rest rest' : String) :
    "context tokens (" ++ rest ≠ "context " ++ (tokens.repr ++ rest') := by
  intro heq
  have hlist := congrArg String.toList heq
  simp only [String.toList_append] at hlist
  have htail : "tokens (".toList ++ rest.toList = tokens.repr.toList ++ rest'.toList := by
    simpa using hlist
  rw [Nat.toList_repr] at htail
  have hhead : (Nat.toDigits 10 tokens).head? = some 't' := by
    have hfirst := congrArg List.head? htail
    rw [List.head?_append_of_ne_nil _ Nat.toDigits_ne_nil] at hfirst
    exact hfirst.symm
  have hdigit := Nat.isDigit_of_mem_toDigits (by decide) (by decide) (List.mem_of_head? hhead)
  exact absurd hdigit (by decide)

/-- Structural actions of the two policies are told by their texts. -/
lemma action_eq_iff (hwindow : 3 ≤ state.window) (h : policy.activeKnee state = none) :
    (policy.evaluate scaled state).action =
        (policy.basePolicy.evaluate scaled state.toContextState).action ↔
      Agrees (policy.staticThresholds scaled state) state.toContextState ∧
        state.overflowObserved = false ∧
        state.effectiveTokens < (policy.staticThresholds scaled state).compactTokens := by
  obtain ⟨-, -, hcompact, -, -⟩ := @staticThresholds_ordered scaled policy state hwindow
  unfold evaluate ProfilePolicy.evaluate Agrees
  rw [thresholds_of_inactive h, if_neg (not_lt.2 hwindow), if_neg (not_lt.2 hwindow)]
  dsimp only
  unfold staticThresholds ProfilePolicy.available at *
  generalize policy.basePolicy.thresholdsForWindow scaled state.window = thresholds at *
  split_ifs <;> simp_all [String.append_assoc, checkpointReason_ne, compactReason_ne] <;> omega

/-- A policy that adapts asks for less than the static one exactly where recent tokens alone ask for
a reduction. -/
lemma not_weaker_iff (hwindow : 3 ≤ state.window) :
    ¬ (policy.evaluate scaled state).action.Weaker
        (policy.basePolicy.evaluate scaled state.toContextState).action ↔
      state.overflowObserved = true ∨
        (policy.thresholds scaled state).reduceTokens ≤ state.effectiveTokens ∨
        state.recentTokens ≤ (policy.staticThresholds scaled state).recentTargetTokens := by
  obtain ⟨hwarn, hreduce, hcompact, hcheckpoint, -⟩ :=
    @thresholds_below scaled policy state hwindow
  obtain ⟨hwarn', hreduce', hcompact', -, -⟩ := @thresholds_ordered scaled policy state hwindow
  obtain ⟨hwarn'', hreduce'', hcompact'', -, -⟩ :=
    @staticThresholds_ordered scaled policy state hwindow
  unfold evaluate ProfilePolicy.evaluate ContextAction.Weaker
  rw [if_neg (not_lt.2 hwindow), if_neg (not_lt.2 hwindow)]
  dsimp only
  unfold ProfilePolicy.available
  unfold staticThresholds at *
  generalize policy.thresholds scaled state = thresholds at *
  generalize policy.basePolicy.thresholdsForWindow scaled state.window = bounds at *
  split_ifs <;> simp_all [ContextAction.rank] <;> omega

/-- No knee caps the ladder of a policy that is disabled, that knows no knee, or whose knee is that
of another model. -/
lemma activeKnee_eq_none (h : policy.enabled = false ∨ policy.knee = none ∨
    state.model.map ModelRef.asKey ≠ policy.kneeModel) : policy.activeKnee state = none := by
  unfold activeKnee
  split_ifs with hactive
  · rcases h with hdisabled | hknee | hmodel
    · exact absurd hactive.2 (by simp [hdisabled])
    · exact hknee
    · exact absurd hactive.1 hmodel
  · rfl

/-- **The adaptive policy beside the static one**, for every profile with its scaling, overrides,
window, knee and state. Without a knee for the active model both decide the same exactly where
`Agrees` holds, and with the same text exactly if no structural action is decided there. With one, no
threshold is raised and the ladder stays in order; the action is no weaker, unless recent tokens
alone ask for a reduction. -/
theorem adaptive_tightens_iff (scaled : ContextProfile → ℕ → ContextThresholds)
    (policy : AdaptiveContextPolicy) (state : ModelState) (hwindow : 3 ≤ state.window) :
    (policy.enabled = false ∨ policy.knee = none ∨
        state.model.map ModelRef.asKey ≠ policy.kneeModel →
      ((policy.evaluate scaled state).action.erased =
          (policy.basePolicy.evaluate scaled state.toContextState).action.erased ↔
        Agrees (policy.staticThresholds scaled state) state.toContextState) ∧
      ((policy.evaluate scaled state).action =
          (policy.basePolicy.evaluate scaled state.toContextState).action ↔
        Agrees (policy.staticThresholds scaled state) state.toContextState ∧
          state.overflowObserved = false ∧
          state.effectiveTokens < (policy.staticThresholds scaled state).compactTokens)) ∧
    (policy.thresholds scaled state).Below (policy.staticThresholds scaled state) ∧
    (policy.thresholds scaled state).Ordered state.window ∧
    (¬ (policy.evaluate scaled state).action.Weaker
        (policy.basePolicy.evaluate scaled state.toContextState).action ↔
      state.overflowObserved = true ∨
        (policy.thresholds scaled state).reduceTokens ≤ state.effectiveTokens ∨
        state.recentTokens ≤ (policy.staticThresholds scaled state).recentTargetTokens) :=
  ⟨fun h => ⟨erased_eq_iff hwindow (activeKnee_eq_none h),
      action_eq_iff hwindow (activeKnee_eq_none h)⟩,
    thresholds_below hwindow, thresholds_ordered hwindow, not_weaker_iff hwindow⟩

/-- A state of a 128k window whose recent tokens are over their target. -/
def recentState (model : Option ModelRef) : ModelState :=
  { window := 128000, estimatedTokens := 20000, measuredTokens := none, recentTokens := 20000,
    atSafeBoundary := true, sinceLastCompactionMs := 600000, overflowObserved := false,
    model := model }

theorem adaptive_tightens_iff_recent :
    (AdaptiveContextPolicy.thresholds profileScaled
        (.withKnee (.new profileScaled .balanced 128000 true) (some 32000) ⟨"local", "small"⟩)
        (recentState (some ⟨"local", "small"⟩))).Ordered 128000 :=
  (adaptive_tightens_iff profileScaled _ (recentState (some ⟨"local", "small"⟩))
    (by decide)).2.2.1

/-- Recent tokens over their target are reduced by the static policy only, also beside a knee; an
overflow off the boundary is refused by the static policy and compacted by the other. -/
theorem adaptive_ignores_recent :
    let static := ProfilePolicy.new profileScaled .balanced 128000
    let disabled := AdaptiveContextPolicy.new profileScaled .balanced 128000 false
    let adaptive := (AdaptiveContextPolicy.new profileScaled .balanced 128000 true).withKnee
      (some 32000) ⟨"local", "small"⟩
    let overflowed : ModelState :=
      { recentState none with overflowObserved := true, atSafeBoundary := false }
    (static.evaluate profileScaled (recentState none).toContextState).action =
      .reducePayload (.recentTargetExceeded 16000) ∧
    (disabled.evaluate profileScaled (recentState none)).action = .keep ∧
    (adaptive.evaluate profileScaled (recentState (some ⟨"local", "small"⟩))).action.Weaker
      (static.evaluate profileScaled (recentState none).toContextState).action ∧
    (static.evaluate profileScaled overflowed.toContextState).action.rank = none ∧
    (disabled.evaluate profileScaled overflowed).action.rank = some 3 := by
  refine ⟨by decide +kernel, by decide +kernel, ⟨0, 2, by decide +kernel, by decide +kernel,
    by decide⟩, by decide +kernel, by decide +kernel⟩

end AdaptiveContextPolicy

end Rupi
