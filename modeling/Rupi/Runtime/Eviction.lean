import Rupi.Runtime.Request

/-!
What an eviction drops.

- `TurnLoop.IsSafeDrop`, `TurnLoop.DropFits`: a number of messages whose eviction ends at a
  safe boundary, and one whose eviction meets the target.
- `TurnLoop.Selects`: the number that an eviction drops when it meets the target.
- `TurnLoop.eviction_reaches_iff`: when an eviction that could meet its target does, and when
  the takeover then goes on.
-/

namespace Rupi

open Fallible

namespace TurnLoop

variable (env : Env) (loop : TurnLoop)

/-! ### The evictable range -/

/-- The end of the evictable range. -/
def evictableEnd (turnHistoryStart : Nat) : Nat :=
  min (max (min turnHistoryStart loop.messages.length) loop.protectedEnd) loop.messages.length

/-- The number of messages dropped ends at a safe boundary of the evictable range. -/
def IsSafeDrop (turnHistoryStart drop : Nat) : Prop :=
  drop ≤ loop.evictableEnd turnHistoryStart - loop.protectedEnd ∧
    safeEvictionBoundary loop.messages loop.protectedEnd (loop.protectedEnd + drop)
      (loop.evictableEnd turnHistoryStart) = true

/-- The request fits the target behind the messages dropped. -/
def DropFits (target drop : Nat) (promptOnly : Bool) : Prop :=
  loop.estimateAfterEviction env loop.protectedEnd drop promptOnly ≤ target

/-- Some safe boundary brings the request to the target. -/
def CanReach (target turnHistoryStart : Nat) (promptOnly : Bool) : Prop :=
  ∃ drop, loop.IsSafeDrop turnHistoryStart drop ∧ loop.DropFits env target drop promptOnly

instance (target drop : Nat) (promptOnly : Bool) :
    Decidable (loop.DropFits env target drop promptOnly) :=
  inferInstanceAs (Decidable (_ ≤ _))

lemma protectedEnd_le_evictableEnd (turnHistoryStart : Nat) :
    loop.protectedEnd ≤ loop.evictableEnd turnHistoryStart := by
  have hle : loop.protectedEnd ≤ loop.messages.length := Nat.min_le_right _ _
  rw [evictableEnd]
  omega

/-- Nothing dropped is always safe. -/
lemma isSafeDrop_zero (turnHistoryStart : Nat) : loop.IsSafeDrop turnHistoryStart 0 := by
  have hle : loop.protectedEnd ≤ loop.messages.length := Nat.min_le_right _ _
  have hend := loop.protectedEnd_le_evictableEnd turnHistoryStart
  refine ⟨Nat.zero_le _, ?_⟩
  rw [safeEvictionBoundary, if_neg (by omega), if_pos (by omega)]

/-! ### The number dropped -/

/-- The scan stops at the first number that is not over the target. -/
lemma desiredDrop_spec (exceeds : Nat → Bool) (left desired : Nat) :
    (∀ k, desired ≤ k → k < desiredDrop exceeds left desired → exceeds k = true) ∧
      (desiredDrop exceeds left desired < desired + left →
        exceeds (desiredDrop exceeds left desired) = false) := by
  induction left generalizing desired with
  | zero =>
    rw [desiredDrop]
    exact ⟨fun k hle hlt => by omega, fun hlt => by omega⟩
  | succ left ih =>
    rw [desiredDrop]
    split_ifs with hover
    · obtain ⟨hbelow, hstop⟩ := ih (desired + 1)
      refine ⟨fun k hle hlt => ?_, fun hlt => hstop (by omega)⟩
      obtain rfl | hne := eq_or_ne k desired
      · exact hover
      · exact hbelow k (by omega) hlt
    · exact ⟨fun k hle hlt => by omega, fun _ => by simpa using hover⟩

/-- The last number up to `n` that passes, when `0` does. -/
lemma lastPassing_spec {safe : Nat → Bool} (hzero : safe 0 = true) (n : Nat) :
    ((List.range (n + 1)).reverse.find? safe).getD 0 ≤ n ∧
      safe (((List.range (n + 1)).reverse.find? safe).getD 0) = true ∧
      (safe n = true → ((List.range (n + 1)).reverse.find? safe).getD 0 = n) := by
  refine ⟨?_, ?_, fun hn => ?_⟩
  · cases hfind : (List.range (n + 1)).reverse.find? safe with
    | none => exact Nat.zero_le _
    | some drop =>
      have hmem := List.mem_of_find?_eq_some hfind
      rw [List.mem_reverse, List.mem_range] at hmem
      exact Nat.le_of_lt_succ hmem
  · cases hfind : (List.range (n + 1)).reverse.find? safe with
    | none => exact hzero
    | some drop => exact List.find?_some hfind
  · rw [List.range_succ, List.reverse_append, List.reverse_singleton, List.singleton_append,
      List.find?_cons_of_pos hn, Option.getD_some]

/-- The first number of a range that passes. -/
lemma find?_range_map_eq_some {p : Nat → Bool} {first count drop : Nat}
    (h : ((List.range count).map (first + ·)).find? p = some drop) :
    first ≤ drop ∧ drop < first + count ∧ p drop = true ∧
      ∀ k, first ≤ k → k < drop → p k = false := by
  obtain ⟨hpass, before, after, hsplit, hbefore⟩ := List.find?_eq_some_iff_append.mp h
  have hindex : ((List.range count).map (first + ·))[before.length]? = some drop := by
    rw [hsplit, List.getElem?_append_right (Nat.le_refl _), Nat.sub_self]
    rfl
  rw [List.getElem?_map, Option.map_eq_some_iff] at hindex
  obtain ⟨i, hi, rfl⟩ := hindex
  obtain ⟨hlt, rfl⟩ := List.getElem?_eq_some_iff.mp hi
  rw [List.length_range] at hlt
  simp only [List.getElem_range] at hsplit hpass ⊢
  refine ⟨by omega, by omega, hpass, fun k hle hk => ?_⟩
  have hmem : k ∈ before := by
    have hk' : ((List.range count).map (first + ·))[k - first]? = some k := by
      rw [List.getElem?_map, List.getElem?_range (by omega), Option.map_some]
      congr 1
      omega
    rw [hsplit, List.getElem?_append_left (by omega)] at hk'
    exact List.mem_of_getElem? hk'
  simpa using hbefore k hmem

/-- The number that an eviction should drop: it is safe and meets the target, and no smaller
one meets it; a smaller one that is not safe may, when the prompt alone is counted. -/
def Selects (target turnHistoryStart : Nat) (promptOnly : Bool) (drop : Nat) : Prop :=
  loop.IsSafeDrop turnHistoryStart drop ∧ loop.DropFits env target drop promptOnly ∧
    ∀ k < drop, loop.DropFits env target k promptOnly →
      promptOnly = true ∧ ¬ loop.IsSafeDrop turnHistoryStart k

section Count

variable {env loop} {target turnHistoryStart : Nat} {promptOnly : Bool}

/-- The numbers that an eviction goes by: the scan's, and the last safe one up to it. -/
lemma evictionCount_cases (env : Env) (loop : TurnLoop) (target turnHistoryStart : Nat)
    (promptOnly : Bool) :
    ∃ desired ≤ loop.evictableEnd turnHistoryStart - loop.protectedEnd,
      (∀ k < desired, ¬ loop.DropFits env target k promptOnly) ∧
      (desired < loop.evictableEnd turnHistoryStart - loop.protectedEnd →
        loop.DropFits env target desired promptOnly) ∧
      ((promptOnly = true ∧ desired ≤ loop.evictionCount env target turnHistoryStart promptOnly ∧
          loop.IsSafeDrop turnHistoryStart
            (loop.evictionCount env target turnHistoryStart promptOnly) ∧
          loop.DropFits env target (loop.evictionCount env target turnHistoryStart promptOnly)
            promptOnly ∧
          ∀ k, desired ≤ k → k < loop.evictionCount env target turnHistoryStart promptOnly →
            loop.IsSafeDrop turnHistoryStart k → ¬ loop.DropFits env target k promptOnly) ∨
        (loop.evictionCount env target turnHistoryStart promptOnly ≤ desired ∧
          loop.IsSafeDrop turnHistoryStart
            (loop.evictionCount env target turnHistoryStart promptOnly) ∧
          (loop.IsSafeDrop turnHistoryStart desired →
            loop.evictionCount env target turnHistoryStart promptOnly = desired) ∧
          (promptOnly = true → ∀ k, desired ≤ k → loop.IsSafeDrop turnHistoryStart k →
            ¬ loop.DropFits env target k promptOnly))) := by
  generalize hcount : loop.evictionCount env target turnHistoryStart promptOnly = count
  unfold evictionCount at hcount
  extract_lets start stop maxDrop exceeds desired safe lastSafe at hcount
  have hexceeds : ∀ k, exceeds k = true ↔ ¬ loop.DropFits env target k promptOnly := fun k => by
    rw [DropFits, Nat.not_le]
    exact decide_eq_true_iff
  have hmax : desired ≤ maxDrop := by
    have hle := desiredDrop_le exceeds maxDrop 0
    omega
  obtain ⟨hbelow, hstop⟩ := desiredDrop_spec exceeds maxDrop 0
  rw [Nat.zero_add] at hstop
  have hsafe : ∀ k ≤ maxDrop, (safe k = true ↔ loop.IsSafeDrop turnHistoryStart k) :=
    fun k hk => ⟨fun h => ⟨hk, h⟩, fun h => h.2⟩
  obtain ⟨hlast, hlastSafe, hlastSelf⟩ := lastPassing_spec
    ((hsafe 0 (Nat.zero_le _)).mpr (loop.isSafeDrop_zero turnHistoryStart)) desired
  have hlastIs := (hsafe lastSafe (hlast.trans hmax)).mp hlastSafe
  refine ⟨desired, hmax, fun k hk => (hexceeds k).mp (hbelow k (Nat.zero_le _) hk), fun hlt => ?_, ?_⟩
  · by_contra hnot
    have hover := (hexceeds desired).mpr hnot
    rw [hstop hlt] at hover
    contradiction
  · cases promptOnly with
    | false =>
      obtain rfl : lastSafe = count := hcount
      exact .inr ⟨hlast, hlastIs, fun h => hlastSelf ((hsafe desired hmax).mpr h),
        fun h => absurd h (by simp)⟩
    | true =>
      rw [if_pos rfl] at hcount
      have hpass : ∀ k ≤ maxDrop, ((safe k && decide (loop.estimateAfterEviction env start k true ≤
          target)) = true ↔ loop.IsSafeDrop turnHistoryStart k ∧ loop.DropFits env target k true) :=
        fun k hk => by
          rw [Bool.and_eq_true, hsafe k hk, decide_eq_true_iff]
          rfl
      cases hfind : ((List.range (maxDrop + 1 - desired)).map (desired + ·)).find? fun drop =>
          safe drop && decide (loop.estimateAfterEviction env start drop true ≤ target) with
      | some drop =>
        rw [hfind, Option.getD_some] at hcount
        subst hcount
        obtain ⟨hge, hlt, hdrop, hleast⟩ := find?_range_map_eq_some hfind
        obtain ⟨hdropSafe, hdropFits⟩ := (hpass drop (by omega)).mp hdrop
        refine .inl ⟨rfl, hge, hdropSafe, hdropFits, fun k hk hkdrop hsafek hfits => ?_⟩
        have hpassk := (hpass k (by omega)).mpr ⟨hsafek, hfits⟩
        rw [hleast k hk hkdrop] at hpassk
        contradiction
      | none =>
        rw [hfind, Option.getD_none] at hcount
        subst hcount
        refine .inr ⟨hlast, hlastIs, fun h => hlastSelf ((hsafe desired hmax).mpr h),
          fun _ k hk hsafek hfits => ?_⟩
        have hle : k ≤ maxDrop := hsafek.1
        have hmem : k ∈ (List.range (maxDrop + 1 - desired)).map (desired + ·) :=
          List.mem_map.mpr ⟨k - desired, List.mem_range.mpr (by omega), by omega⟩
        exact List.find?_eq_none.mp hfind k hmem ((hpass k hle).mpr ⟨hsafek, hfits⟩)

/-- What an eviction drops is safe. -/
lemma isSafeDrop_evictionCount (env : Env) (loop : TurnLoop) (target turnHistoryStart : Nat)
    (promptOnly : Bool) :
    loop.IsSafeDrop turnHistoryStart
      (loop.evictionCount env target turnHistoryStart promptOnly) := by
  obtain ⟨desired, -, -, -, ⟨-, -, hsafe, -⟩ | ⟨-, hsafe, -⟩⟩ :=
    evictionCount_cases env loop target turnHistoryStart promptOnly
  · exact hsafe
  · exact hsafe

/-- An eviction that meets the target selected its number. -/
lemma selects_evictionCount
    (h : loop.DropFits env target (loop.evictionCount env target turnHistoryStart promptOnly)
      promptOnly) :
    loop.Selects env target turnHistoryStart promptOnly
      (loop.evictionCount env target turnHistoryStart promptOnly) := by
  obtain ⟨desired, -, hbelow, -, ⟨hprompt, hle, hsafe, -, hleast⟩ | ⟨hle, hsafe, -⟩⟩ :=
    evictionCount_cases env loop target turnHistoryStart promptOnly
  · refine ⟨hsafe, h, fun k hk hfits => ⟨hprompt, fun hsafek => ?_⟩⟩
    obtain hlt | hge := Nat.lt_or_ge k desired
    · exact hbelow k hlt hfits
    · exact hleast k hge hk hsafek hfits
  · exact ⟨hsafe, h, fun k hk hfits => absurd hfits (hbelow k (hk.trans_le hle))⟩

/-- The number selected is the number dropped. -/
lemma Selects.evictionCount_eq {drop : Nat}
    (h : loop.Selects env target turnHistoryStart promptOnly drop) :
    loop.evictionCount env target turnHistoryStart promptOnly = drop := by
  obtain ⟨hsafe, hfits, hleast⟩ := h
  obtain ⟨desired, hmax, hbelow, hstop,
    ⟨hprompt, hle, hsafec, hfitsc, hleastc⟩ | ⟨hle, hsafec, hself, hnone⟩⟩ :=
    evictionCount_cases env loop target turnHistoryStart promptOnly
  · have hdesired : desired ≤ drop := Nat.le_of_not_lt fun hlt => hbelow drop hlt hfits
    obtain hlt | heq | hgt := Nat.lt_trichotomy
      (loop.evictionCount env target turnHistoryStart promptOnly) drop
    · exact absurd hsafec (hleast _ hlt hfitsc).2
    · exact heq
    · exact absurd hfits (hleastc drop hdesired hgt hsafe)
  · have hdesired : desired ≤ drop := Nat.le_of_not_lt fun hlt => hbelow drop hlt hfits
    cases promptOnly with
    | true => exact absurd hfits (hnone rfl drop hdesired hsafe)
    | false =>
      -- a number below the selected one does not fit, so the scan went that far
      have heq : desired = drop := by
        by_contra hne
        have hlt : desired < drop := Nat.lt_of_le_of_ne hdesired hne
        obtain ⟨hfalse, -⟩ := hleast desired hlt (hstop (hlt.trans_le hsafe.1))
        contradiction
      exact (hself (heq ▸ hsafe)).trans heq

end Count

/-! ### The window behind an eviction -/

/-- The counts of an eviction fit its event. -/
def Recordable (drop : Nat) : Prop :=
  drop = 0 ∨ drop ≤ u32Max ∧ loop.messages.length - drop ≤ u32Max

section Window

variable {env loop} {turnId : TurnId} {target turnHistoryStart : Nat} {promptOnly : Bool}
  {loop' : TurnLoop} {dropped newStart : Nat}

lemma splice_self {α : Type} (items : List α) (start : Nat) : splice items start start [] = items := by
  rw [splice, List.append_nil, List.take_append_drop]

/-- An eviction drops its number, when the counts fit; otherwise it fails. -/
lemma evictOldest_cases (env : Env) (loop : TurnLoop) (turnId : TurnId)
    (target turnHistoryStart : Nat) (promptOnly : Bool) :
    (loop.Recordable (loop.evictionCount env target turnHistoryStart promptOnly) ∧
      ∃ loop' newStart, loop.evictOldest env turnId target turnHistoryStart promptOnly =
          .ok (loop', loop.evictionCount env target turnHistoryStart promptOnly, newStart) ∧
        loop'.messages = splice loop.messages loop.protectedEnd (loop.protectedEnd +
          loop.evictionCount env target turnHistoryStart promptOnly) []) ∨
    (¬ loop.Recordable (loop.evictionCount env target turnHistoryStart promptOnly) ∧
      ∃ failure, loop.evictOldest env turnId target turnHistoryStart promptOnly =
        .error failure) := by
  have hcount : loop.normalizeMessageSeqs.evictionCount env target turnHistoryStart promptOnly =
      loop.evictionCount env target turnHistoryStart promptOnly := rfl
  have hlength : loop.normalizeMessageSeqs.messages.length = loop.messages.length := rfl
  rw [evictOldest]
  simp only [hcount, hlength]
  generalize loop.evictionCount env target turnHistoryStart promptOnly = count
  by_cases hzero : count = 0
  · subst hzero
    exact .inl ⟨.inl rfl, _, _, rfl, (splice_self _ _).symm⟩
  · rw [if_neg hzero, asU32, asU32]
    by_cases hdropped : count ≤ u32Max
    · rw [if_pos hdropped, ok_bind]
      by_cases hretained : loop.messages.length - count ≤ u32Max
      · rw [if_pos hretained, ok_bind]
        exact .inl ⟨.inr ⟨hdropped, hretained⟩, _, _, rfl, rfl⟩
      · rw [if_neg hretained]
        exact .inr ⟨fun h => hretained (h.resolve_left hzero).2, _, rfl⟩
    · rw [if_neg hdropped]
      exact .inr ⟨fun h => hdropped (h.resolve_left hzero).1, _, rfl⟩

lemma evictOldest_eq_ok
    (h : loop.evictOldest env turnId target turnHistoryStart promptOnly =
      .ok (loop', dropped, newStart)) :
    dropped = loop.evictionCount env target turnHistoryStart promptOnly ∧
      loop.Recordable dropped ∧
      loop'.messages = splice loop.messages loop.protectedEnd (loop.protectedEnd + dropped) [] := by
  obtain ⟨hrec, known, start, hok, hmessages⟩ | ⟨-, failure, herror⟩ :=
    evictOldest_cases env loop turnId target turnHistoryStart promptOnly
  · rw [hok] at h
    simp only [Except.ok.injEq, Prod.mk.injEq] at h
    obtain ⟨rfl, rfl, -⟩ := h
    exact ⟨rfl, hrec, hmessages⟩
  · rw [herror] at h
    contradiction

/-- The capsule and the turn's own history stay. -/
lemma evictOldest_keeps
    (h : loop.evictOldest env turnId target turnHistoryStart promptOnly =
      .ok (loop', dropped, newStart)) :
    loop.messages.take loop.protectedEnd <+: loop'.messages ∧
      loop.messages.drop turnHistoryStart <:+ loop'.messages := by
  obtain ⟨rfl, -, hmessages⟩ := evictOldest_eq_ok h
  obtain ⟨hle, -⟩ := isSafeDrop_evictionCount env loop target turnHistoryStart promptOnly
  generalize loop.evictionCount env target turnHistoryStart promptOnly = count at hle hmessages
  rw [hmessages, splice, List.append_nil]
  refine ⟨List.prefix_append _ _, ?_⟩
  by_cases hinside : loop.protectedEnd + count ≤ turnHistoryStart
  · refine List.IsSuffix.trans ?_ (List.suffix_append _ _)
    rw [← Nat.add_sub_cancel' hinside, ← List.drop_drop]
    exact List.drop_suffix _ _
  · have hzero : count = 0 := by
      rw [evictableEnd] at hle
      omega
    rw [hzero, Nat.add_zero, List.take_append_drop]
    exact List.drop_suffix _ _

/-- An eviction meets its target: it drops a safe prefix behind which the request fits. -/
def Evicts (env : Env) (loop : TurnLoop) (turnId : TurnId) (target turnHistoryStart : Nat)
    (promptOnly : Bool) : Prop :=
  ∃ loop' dropped newStart,
    loop.evictOldest env turnId target turnHistoryStart promptOnly =
      .ok (loop', dropped, newStart) ∧
    loop.IsSafeDrop turnHistoryStart dropped ∧
    loop'.messages = splice loop.messages loop.protectedEnd (loop.protectedEnd + dropped) [] ∧
    env.estimate loop'.messages promptOnly ≤ target

/-- The number that an eviction should drop is there, and its counts fit. -/
def HasSelected (env : Env) (loop : TurnLoop) (target turnHistoryStart : Nat)
    (promptOnly : Bool) : Prop :=
  ∃ drop, loop.Selects env target turnHistoryStart promptOnly drop ∧ loop.Recordable drop

lemma evicts_iff :
    loop.Evicts env turnId target turnHistoryStart promptOnly ↔
      loop.HasSelected env target turnHistoryStart promptOnly := by
  constructor
  · rintro ⟨loop', dropped, newStart, hok, -, hmessages, hfits⟩
    obtain ⟨rfl, hrec, -⟩ := evictOldest_eq_ok hok
    rw [hmessages] at hfits
    exact ⟨_, selects_evictionCount hfits, hrec⟩
  · rintro ⟨drop, hselects, hrec⟩
    obtain rfl := hselects.evictionCount_eq
    obtain ⟨-, loop', newStart, hok, hmessages⟩ | ⟨hnot, -⟩ :=
      evictOldest_cases env loop turnId target turnHistoryStart promptOnly
    · refine ⟨loop', _, newStart, hok, hselects.1, hmessages, ?_⟩
      rw [hmessages]
      exact hselects.2.1
    · exact absurd hrec hnot

/-- The takeover goes on exactly when the eviction meets the backup's target. -/
lemma rebudget_isOk_iff {backup : Backup} :
    (∃ result, loop.rebudget env backup turnId turnHistoryStart = .ok result) ↔
      loop.Evicts (env.toBackup backup) turnId (overflowRecoveryTarget backup.contextWindow)
        turnHistoryStart false := by
  rw [rebudget]
  constructor
  · rintro ⟨result, h⟩
    cases hevict : loop.evictOldest (env.toBackup backup) turnId
        (overflowRecoveryTarget backup.contextWindow) turnHistoryStart false with
    | error failure => simp [hevict] at h
    | ok evicted =>
      obtain ⟨loop', dropped, newStart⟩ := evicted
      simp only [hevict, ok_bind] at h
      split_ifs at h with hover
      obtain ⟨hdropped, -, hmessages⟩ := evictOldest_eq_ok hevict
      refine ⟨loop', dropped, newStart, hevict, ?_, hmessages, Nat.not_lt.mp hover⟩
      rw [hdropped]
      exact isSafeDrop_evictionCount _ _ _ _ _
  · rintro ⟨loop', dropped, newStart, hok, -, -, hfits⟩
    refine ⟨(loop', dropped, newStart), ?_⟩
    have hunder : ¬ overflowRecoveryTarget backup.contextWindow <
        backup.estimate loop'.messages false := Nat.not_lt.mpr hfits
    simp only [hok, ok_bind]
    rw [if_neg hunder]

end Window

/-- When the prompt alone is counted, a number that meets the target is always selected. -/
lemma CanReach.exists_selects (h : loop.CanReach env target turnHistoryStart true) :
    ∃ drop, loop.Selects env target turnHistoryStart true drop := by
  classical
  obtain ⟨hsafe, hfits⟩ := Nat.find_spec h
  exact ⟨Nat.find h, hsafe, hfits, fun k hk hfitsk => ⟨rfl, fun hsafek =>
    Nat.find_min h hk ⟨hsafek, hfitsk⟩⟩⟩

/-- **An eviction that could meet its target does so exactly when it selects a number.** The
number has to be the first that meets the target at all, unless the prompt alone is counted;
a takeover goes on under the same condition. The capsule and the turn's own history stay. -/
theorem eviction_reaches_iff (turnId : TurnId) (target turnHistoryStart : Nat)
    (promptOnly : Bool) (backup : Backup) :
    (∀ loop' dropped newStart, loop.evictOldest env turnId target turnHistoryStart promptOnly =
        .ok (loop', dropped, newStart) →
      loop.messages.take loop.protectedEnd <+: loop'.messages ∧
        loop.messages.drop turnHistoryStart <:+ loop'.messages) ∧
    ((loop.CanReach env target turnHistoryStart promptOnly →
        loop.Evicts env turnId target turnHistoryStart promptOnly) ↔
      (loop.CanReach env target turnHistoryStart promptOnly →
        loop.HasSelected env target turnHistoryStart promptOnly)) ∧
    (loop.CanReach env target turnHistoryStart true →
      ∃ drop, loop.Selects env target turnHistoryStart true drop) ∧
    ((loop.CanReach (env.toBackup backup) (overflowRecoveryTarget backup.contextWindow)
          turnHistoryStart false →
        ∃ result, loop.rebudget env backup turnId turnHistoryStart = .ok result) ↔
      (loop.CanReach (env.toBackup backup) (overflowRecoveryTarget backup.contextWindow)
          turnHistoryStart false →
        loop.HasSelected (env.toBackup backup) (overflowRecoveryTarget backup.contextWindow)
          turnHistoryStart false)) :=
  ⟨fun _ _ _ h => evictOldest_keeps h, imp_congr_right fun _ => evicts_iff,
    CanReach.exists_selects env loop,
    imp_congr_right fun _ => rebudget_isOk_iff.trans evicts_iff⟩

end TurnLoop

namespace EvictionRun

/-- A window of a hundred tokens. -/
def backup : Backup := ⟨100, none, [], none⟩

def env : Env where
  session := "s"
  traceId := "t"
  fresh n := String.ofList (List.replicate n 'e')
  clock n := n
  configured _ := true
  putPayload _ := none
  estimate := backup.estimate
  estimateMessages messages := messages.length
  summarize _ := "summary"
  summarizeCycles _ _ := "summary"

/-- A long question, its answer and the message of the current turn. -/
def loop : TurnLoop where
  messages := [.user (String.ofList (List.replicate 400 'a')),
    ⟨.assistant, [.text "an answer"]⟩, .user "current turn"]
  messageSeqs := [none, none, none]
  checkpointFloor := 0
  checkpointCitedFrom := none
  contextEpoch := 0
  history := none
  envelopes := []
  epochIndex := 0
  activeModel := ⟨"p", "m"⟩
  trace := ⟨[], none, [], false, none, none⟩
  issued := 0

end EvictionRun

/-- The first number of messages that meets the target ends in front of the answer, so nothing
is dropped, though the whole turn could be. -/
theorem TurnLoop.eviction_misses_target :
    ¬ ∀ (env : Env) (loop : TurnLoop) (turnId : TurnId) (turnHistoryStart : Nat)
      (backup : Backup),
      loop.CanReach (env.toBackup backup) (overflowRecoveryTarget backup.contextWindow)
          turnHistoryStart false →
        loop.Evicts (env.toBackup backup) turnId (overflowRecoveryTarget backup.contextWindow)
            turnHistoryStart false ∧
          ∃ result, loop.rebudget env backup turnId turnHistoryStart = .ok result := by
  intro h
  have hreach : EvictionRun.loop.CanReach (EvictionRun.env.toBackup EvictionRun.backup)
      (overflowRecoveryTarget EvictionRun.backup.contextWindow) 2 false :=
    ⟨2, ⟨by decide +kernel, by decide +kernel⟩, by decide +kernel⟩
  obtain ⟨-, result, hresult⟩ := h _ _ "turn" _ _ hreach
  have herror : (EvictionRun.loop.rebudget EvictionRun.env EvictionRun.backup "turn" 2).isOk =
      false := by decide +kernel
  have hok : (EvictionRun.loop.rebudget EvictionRun.env EvictionRun.backup "turn" 2).isOk =
      true := (congrArg Except.isOk hresult).trans rfl
  exact Bool.false_ne_true (herror.symm.trans hok)

end Rupi
