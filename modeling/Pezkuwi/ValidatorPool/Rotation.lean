import Pezkuwi.ValidatorPool.Selection
import Pezkuwi.Machine.Log

/-!
# The validator pool: rotation and reputation over whole runs

`select_validators_for_era` skips a member selected in one of the last three eras, by its
`SelectionHistory`, and a member whose reputation is below 70. Both rules read per-account
storage that `leave_validator_pool` deletes and `join_validator_pool` writes afresh, so over the
pallet's event log they become laws of whole runs:

* the rotation law: an account in the sets of two eras, with no `ValidatorLeftPool` of it in
  between, is in eras at least three apart (`RotationLaw`);
* the reputation law: an account whose metrics were last updated to a reputation below 70, and
  that has not joined again since, is in no later era's set (`ReputationLaw`).

Both hold in every reachable state, where the current validator set is the one of the last era
started (`rotation_and_reputation_laws`). The leave in the rotation law cannot be dropped: three
stake validators that leave after era 1 and join again return with empty histories and are all
selected for era 2 (`rejoined_validator_reselected`).

## Main definitions

* `RotationLaw`, `ReputationLaw`: the two laws over a log
* `RotationInv`, `ReputationInv`: the invariants that carry them

## Main results

* `RotationInv.step`, `ReputationInv.step`: every step keeps the invariants
* `rotation_and_reputation_laws`: the laws in every reachable state
* `rejoined_validator_reselected`: an account in the validator sets of eras 1 and 2
* `rotation_and_reputation_laws_after_five_eras`: an account selected again four eras on, and
  one left out after a poor report
-/

namespace ValidatorPool

open Bounded Machine

variable {α : Type} [LinearOrder α] (cfg : Config)

/-- The rotation law: an account in the sets of two eras, and not leaving the pool between
them, is in eras at least three apart. -/
def RotationLaw (log : List (Event α)) : Prop :=
  ∀ i₁ V₁ mid i₂ V₂, Log.Precedes log (.newEraStarted i₁ V₁) mid (.newEraStarted i₂ V₂) →
    ∀ a, a ∈ V₁.allValidators → a ∈ V₂.allValidators → Event.validatorLeftPool a ∉ mid →
      i₁ + 3 ≤ i₂

/-- The reputation law: an account whose metrics were updated to a reputation below 70, with no
later update of its metrics and no new join, is in no later era's set. -/
def ReputationLaw (log : List (Event α)) : Prop :=
  ∀ a m mid i V, Log.Precedes log (.performanceUpdated a m) mid (.newEraStarted i V) →
    m.reputationScore < 70 → (∀ m', Event.performanceUpdated a m' ∉ mid) →
    (∀ c, Event.validatorJoinedPool a c ∉ mid) → a ∉ V.allValidators

omit [LinearOrder α] in
theorem RotationLaw.append {log : List (Event α)} (h : RotationLaw log) {e : Event α}
    (he : ∀ i V, e ≠ .newEraStarted i V) : RotationLaw (log ++ [e]) :=
  fun i₁ V₁ mid i₂ V₂ hprec => h i₁ V₁ mid i₂ V₂ (Log.precedes_append_of_ne hprec (he i₂ V₂).symm)

omit [LinearOrder α] in
theorem ReputationLaw.append {log : List (Event α)} (h : ReputationLaw log) {e : Event α}
    (he : ∀ i V, e ≠ .newEraStarted i V) : ReputationLaw (log ++ [e]) :=
  fun a m mid i V hprec => h a m mid i V (Log.precedes_append_of_ne hprec (he i V).symm)

/-! ## Selection histories -/

/-- The eligibility test, as arithmetic: every era of the history is three eras back, and the
reputation is at least 70. -/
theorem isEligible_iff {s : State α} {a : α} :
    isEligible s a = true ↔
      (∀ h ∈ s.selectionHistory a, h + 3 ≤ s.currentEra) ∧
        70 ≤ (s.performanceMetrics a).reputationScore := by
  simp only [isEligible, Bool.and_eq_true, Bool.not_eq_true', List.any_eq_false,
    decide_eq_true_eq]
  exact and_congr (forall₂_congr fun h _ => by omega) Iff.rfl

theorem mem_pushHistory {newEra x : Nat} {history : List Nat}
    (h : x ∈ pushHistory newEra history) : x = newEra ∨ x ∈ history := by
  unfold pushHistory at h
  split at h
  · rename_i history' hpush
    obtain ⟨-, rfl⟩ := BoundedVec.tryPush_eq_some.mp hpush
    simpa [or_comm] using h
  · -- the oldest era goes first
    rcases List.mem_append.mp h with h | h
    · exact .inr (List.mem_of_mem_tail h)
    · exact .inl (List.mem_singleton.mp h)

theorem self_mem_pushHistory (newEra : Nat) (history : List Nat) :
    newEra ∈ pushHistory newEra history := by
  unfold pushHistory
  split
  · rename_i history' hpush
    obtain ⟨-, rfl⟩ := BoundedVec.tryPush_eq_some.mp hpush
    simp
  · simp

@[simp] theorem recordSelection_cons (newEra : Nat) (v : α) (validators : List α)
    (history : α → List Nat) :
    recordSelection newEra (v :: validators) history =
      recordSelection newEra validators
        (Function.update history v (pushHistory newEra (history v))) :=
  rfl

theorem recordSelection_of_not_mem {newEra : Nat} {validators : List α}
    {history : α → List Nat} {a : α} (ha : a ∉ validators) :
    recordSelection newEra validators history a = history a := by
  induction validators generalizing history with
  | nil => rfl
  | cons v rest ih =>
    simp only [List.mem_cons, not_or] at ha
    rw [recordSelection_cons, ih ha.2, Function.update_of_ne ha.1]

/-- A recorded history holds the new era and what the history held. -/
theorem mem_recordSelection {newEra x : Nat} {validators : List α} {history : α → List Nat}
    {a : α} (h : x ∈ recordSelection newEra validators history a) :
    x = newEra ∨ x ∈ history a := by
  induction validators generalizing history with
  | nil => exact .inr h
  | cons v rest ih =>
    rw [recordSelection_cons] at h
    rcases ih h with rfl | h
    · exact .inl rfl
    · by_cases hav : a = v
      · subst hav
        rw [Function.update_self] at h
        exact mem_pushHistory h
      · rw [Function.update_of_ne hav] at h
        exact .inr h

theorem self_mem_recordSelection {newEra : Nat} {validators : List α} {history : α → List Nat}
    {a : α} (ha : a ∈ validators) : newEra ∈ recordSelection newEra validators history a := by
  induction validators generalizing history with
  | nil => simp at ha
  | cons v rest ih =>
    rw [recordSelection_cons]
    by_cases hrest : a ∈ rest
    · exact ih hrest
    · -- the last record of `a` is this one
      have hav : a = v := by simpa [hrest] using ha
      subst hav
      rw [recordSelection_of_not_mem hrest, Function.update_self]
      exact self_mem_pushHistory _ _

/-- An era of a history stays covered once a later era is recorded. -/
theorem exists_le_recordSelection {newEra i h : Nat} {validators : List α}
    {history : α → List Nat} {a : α} (hmem : h ∈ history a) (hi : i ≤ h) (hle : h ≤ newEra) :
    ∃ h' ∈ recordSelection newEra validators history a, i ≤ h' := by
  by_cases ha : a ∈ validators
  · exact ⟨newEra, self_mem_recordSelection ha, hi.trans hle⟩
  · exact ⟨h, by rwa [recordSelection_of_not_mem ha], hi⟩

/-! ## The rotation invariant -/

/-- The invariant behind the rotation law: the eras stay in `u32` and every history holds only
past eras; a member selected for an era and not gone since still has that era, or a later one,
in its history; the current set is the last era's. -/
structure RotationInv (s : State α) : Prop where
  era_le : s.currentEra ≤ maxValue 32
  history_le : ∀ a, ∀ h ∈ s.selectionHistory a, h ≤ s.currentEra
  recorded : ∀ a i V post, Log.Since s.events (.newEraStarted i V) post → a ∈ V.allValidators →
    Event.validatorLeftPool a ∉ post → ∃ h ∈ s.selectionHistory a, i ≤ h
  current : ∀ set, s.currentValidatorSet = some set →
    ∃ post, Log.Since s.events (.newEraStarted set.eraIndex set) post ∧
      ∀ i V, Event.newEraStarted i V ∉ post
  law : RotationLaw s.events

theorem rotationInv_genesis : RotationInv (genesis : State α) where
  era_le := Nat.zero_le _
  history_le _ _ h := nomatch h
  recorded _ _ _ _ h := absurd h Log.not_since_nil
  current _ h := nomatch h
  law _ _ _ _ _ h := absurd h Log.not_precedes_nil

namespace RotationInv

variable {cfg} {s : State α}

/-- A call that deposits another event than a new era, and writes no history but that of the
account leaving, keeps the invariant. -/
theorem of_event (hi : RotationInv s) {s' : State α} {e : Event α}
    (hevents : s'.events = s.events ++ [e]) (he : ∀ i V, e ≠ .newEraStarted i V)
    (hera : s'.currentEra = s.currentEra) (hcurrent : s'.currentValidatorSet = s.currentValidatorSet)
    (hhistory : ∀ a, s'.selectionHistory a = s.selectionHistory a ∨
      (e = .validatorLeftPool a ∧ s'.selectionHistory a = [])) :
    RotationInv s' where
  era_le := hera ▸ hi.era_le
  history_le a h hh := by
    rcases hhistory a with heq | ⟨-, heq⟩
    · rw [hera]
      exact hi.history_le a h (heq ▸ hh)
    · simp [heq] at hh
  recorded a i V post hsince ha hleft := by
    rw [hevents] at hsince
    obtain ⟨post', hsince', rfl⟩ := Log.since_append_of_ne hsince (he i V).symm
    obtain ⟨h, hmem, hle⟩ :=
      hi.recorded a i V post' hsince' ha fun hm => hleft (List.mem_append_left _ hm)
    rcases hhistory a with heq | ⟨rfl, -⟩
    · exact ⟨h, heq ▸ hmem, hle⟩
    · -- the account left after the era: nothing is owed
      exact absurd (List.mem_append_right _ (List.mem_singleton_self _)) hleft
  current set hset := by
    obtain ⟨post, hsince, hnone⟩ := hi.current set (hcurrent ▸ hset)
    refine ⟨post ++ [e], hevents ▸ Log.since_append_singleton.mpr (.inr ⟨post, hsince, rfl⟩),
      fun i V hmem => ?_⟩
    rcases List.mem_append.mp hmem with h | h
    · exact hnone i V h
    · exact he i V (List.mem_singleton.mp h).symm
  law := hevents ▸ hi.law.append he

/-- A new era keeps the invariant: its members are recorded with the new era, and each was
eligible, hence selected last at least three eras back. -/
theorem doNewEra (hi : RotationInv s) {seed : Hash} {s' : State α}
    (h : ValidatorPool.doNewEra cfg s seed = .ok s') : RotationInv s' := by
  obtain ⟨set, hselect, rfl⟩ := (doNewEra_ok cfg).mp h
  have hindex := (selectValidatorsForEra_perm cfg hselect).1
  have hgrow : s.currentEra ≤ saturatingAdd 32 s.currentEra 1 := by
    have := hi.era_le
    unfold saturatingAdd
    omega
  constructor
  · exact saturatingAdd_le_maxValue _ _ _
  · intro a h hh
    rcases mem_recordSelection hh with rfl | hh
    · exact le_rfl
    · exact (hi.history_le a h hh).trans hgrow
  · intro a i V post hsince ha hleft
    rcases Log.since_append_singleton.mp hsince with ⟨heq, rfl⟩ | ⟨post', hsince', rfl⟩
    · -- the new era itself
      cases heq
      exact ⟨_, self_mem_recordSelection ha, le_rfl⟩
    · obtain ⟨h, hmem, hle⟩ :=
        hi.recorded a i V post' hsince' ha fun hm => hleft (List.mem_append_left _ hm)
      exact exists_le_recordSelection hmem hle ((hi.history_le a h hmem).trans hgrow)
  · intro set' hset
    cases hset
    refine ⟨[], ?_, fun _ _ h => nomatch h⟩
    rw [hindex]
    exact Log.since_append_singleton.mpr (.inl ⟨rfl, rfl⟩)
  · intro i₁ V₁ mid i₂ V₂ hprec a ha₁ ha₂ hleft
    rcases Log.precedes_append_singleton.mp hprec with hold | ⟨hsince, heq⟩
    · exact hi.law i₁ V₁ mid i₂ V₂ hold a ha₁ ha₂ hleft
    · -- the later era is the new one: its member was last selected three eras back
      cases heq
      obtain ⟨h, hmem, hle⟩ := hi.recorded a i₁ V₁ mid hsince ha₁ hleft
      have hback := (isEligible_iff.mp (eligible_of_selectValidatorsForEra cfg hselect ha₂).2).1
        h hmem
      omega

theorem step (hi : RotationInv s) (a : Action α) : RotationInv (step cfg s a) := by
  cases a with
  | joinValidatorPool origin category src =>
    refine commit_of_ok hi fun s' h => ?_
    obtain ⟨who, -, -, -, -, rfl⟩ := (joinValidatorPool_ok cfg).mp h
    exact hi.of_event rfl (fun _ _ => nofun) rfl rfl fun _ => .inl rfl
  | leaveValidatorPool origin =>
    refine commit_of_ok hi fun s' h => ?_
    obtain ⟨who, -, -, rfl⟩ := leaveValidatorPool_ok.mp h
    refine hi.of_event rfl (fun _ _ => nofun) rfl rfl fun a => ?_
    by_cases ha : a = who
    · subst ha
      exact .inr ⟨rfl, Function.update_self _ _ _⟩
    · exact .inl (Function.update_of_ne ha _ _)
  | forceNewEra origin seed =>
    exact commit_of_ok hi fun s' h => hi.doNewEra ((forceNewEra_ok cfg).mp h).2
  | updateCategory origin newCategory src =>
    refine commit_of_ok hi fun s' h => ?_
    obtain ⟨who, -, oldCategory, -, -, rfl⟩ := (updateCategory_ok cfg).mp h
    exact hi.of_event rfl (fun _ _ => nofun) rfl rfl fun _ => .inl rfl
  | setPoolParameters origin eraLength =>
    refine commit_of_ok hi fun s' h => ?_
    obtain ⟨-, rfl⟩ := (setPoolParameters_ok cfg).mp h
    exact hi.of_event rfl (fun _ _ => nofun) rfl rfl fun _ => .inl rfl
  | updatePerformanceMetrics origin validator blocksProduced blocksMissed eraPoints =>
    refine commit_of_ok hi fun s' h => ?_
    obtain ⟨-, rfl⟩ := updatePerformanceMetrics_ok.mp h
    exact hi.of_event rfl (fun _ _ => nofun) rfl rfl fun _ => .inl rfl
  | initializeBlock blockNumber seed =>
    -- the block number is read by nothing here
    have hi' : RotationInv { s with blockNumber } :=
      ⟨hi.era_le, hi.history_le, hi.recorded, hi.current, hi.law⟩
    exact step_initializeBlock_of cfg hi hi' fun _ h => hi'.doNewEra h

end RotationInv

theorem rotationInv_of_reachable {s : State α} (hs : Reachable (step cfg) genesis s) :
    RotationInv s :=
  hs.invariant rotationInv_genesis fun _ a hi => hi.step a

/-! ## The reputation invariant -/

/-- The invariant behind the reputation law: an account's reputation is at most the one of its
last metrics update, unless it joined again since. -/
structure ReputationInv (s : State α) : Prop where
  reputation_le : ∀ a m post, Log.Since s.events (.performanceUpdated a m) post →
    (∀ m', Event.performanceUpdated a m' ∉ post) → (∀ c, Event.validatorJoinedPool a c ∉ post) →
    (s.performanceMetrics a).reputationScore ≤ m.reputationScore
  law : ReputationLaw s.events

theorem reputationInv_genesis : ReputationInv (genesis : State α) where
  reputation_le _ _ _ h := absurd h Log.not_since_nil
  law _ _ _ _ _ h := absurd h Log.not_precedes_nil

namespace ReputationInv

variable {cfg} {s : State α}

/-- A call that deposits no era and no metrics, and writes the metrics of no account but one
that joins or is reset to nothing, keeps the invariant. -/
theorem of_event (hi : ReputationInv s) {s' : State α} {e : Event α}
    (hevents : s'.events = s.events ++ [e]) (he : ∀ i V, e ≠ .newEraStarted i V)
    (hperf : ∀ a m, e ≠ .performanceUpdated a m)
    (hmetrics : ∀ a, s'.performanceMetrics a = s.performanceMetrics a ∨
      (∃ c, e = .validatorJoinedPool a c) ∨ (s'.performanceMetrics a).reputationScore = 0) :
    ReputationInv s' where
  reputation_le a m post hsince hnoperf hnojoin := by
    rw [hevents] at hsince
    obtain ⟨post', hsince', rfl⟩ := Log.since_append_of_ne hsince (hperf a m).symm
    rcases hmetrics a with heq | ⟨c, rfl⟩ | hzero
    · rw [heq]
      exact hi.reputation_le a m post' hsince' (fun m' h => hnoperf m' (List.mem_append_left _ h))
        fun c h => hnojoin c (List.mem_append_left _ h)
    · exact absurd (List.mem_append_right _ (List.mem_singleton_self _)) (hnojoin c)
    · rw [hzero]
      exact Nat.zero_le _
  law := hevents ▸ hi.law.append he

/-- A metrics update keeps the invariant: the updated account's reputation is the one its event
carries. -/
theorem updatePerformanceMetrics (hi : ReputationInv s) {origin : Origin α} {validator : α}
    {blocksProduced blocksMissed eraPoints : Nat} {s' : State α}
    (h : ValidatorPool.updatePerformanceMetrics s origin validator blocksProduced blocksMissed
      eraPoints = .ok s') : ReputationInv s' := by
  obtain ⟨-, rfl⟩ := updatePerformanceMetrics_ok.mp h
  constructor
  · intro a m post hsince hnoperf hnojoin
    rcases Log.since_append_singleton.mp hsince with ⟨heq, rfl⟩ | ⟨post', hsince', rfl⟩
    · -- the update itself
      cases heq
      simp
    · by_cases ha : a = validator
      · subst ha
        exact absurd (List.mem_append_right _ (List.mem_singleton_self _)) (hnoperf _)
      · dsimp only
        rw [Function.update_of_ne ha]
        exact hi.reputation_le a m post' hsince'
          (fun m' h => hnoperf m' (List.mem_append_left _ h))
          fun c h => hnojoin c (List.mem_append_left _ h)
  · exact hi.law.append fun _ _ => nofun

/-- A new era keeps the invariant: it writes no metrics, and a member whose last update fell
below 70 is not eligible. -/
theorem doNewEra (hi : ReputationInv s) {seed : Hash} {s' : State α}
    (h : ValidatorPool.doNewEra cfg s seed = .ok s') : ReputationInv s' := by
  obtain ⟨set, hselect, rfl⟩ := (doNewEra_ok cfg).mp h
  constructor
  · intro a m post hsince hnoperf hnojoin
    obtain ⟨post', hsince', rfl⟩ := Log.since_append_of_ne hsince nofun
    exact hi.reputation_le a m post' hsince' (fun m' h => hnoperf m' (List.mem_append_left _ h))
      fun c h => hnojoin c (List.mem_append_left _ h)
  · intro a m mid i V hprec hlow hnoperf hnojoin
    rcases Log.precedes_append_singleton.mp hprec with hold | ⟨hsince, heq⟩
    · exact hi.law a m mid i V hold hlow hnoperf hnojoin
    · -- the later era is the new one, whose members are eligible
      cases heq
      intro ha
      have hgood := (isEligible_iff.mp (eligible_of_selectValidatorsForEra cfg hselect ha).2).2
      have hbound := hi.reputation_le a m mid hsince hnoperf hnojoin
      omega

theorem step (hi : ReputationInv s) (a : Action α) : ReputationInv (step cfg s a) := by
  cases a with
  | joinValidatorPool origin category src =>
    refine commit_of_ok hi fun s' h => ?_
    obtain ⟨who, -, -, -, -, rfl⟩ := (joinValidatorPool_ok cfg).mp h
    refine hi.of_event rfl (fun _ _ => nofun) (fun _ _ => nofun) fun a => ?_
    by_cases ha : a = who
    · subst ha
      exact .inr (.inl ⟨category, rfl⟩)
    · exact .inl (Function.update_of_ne ha _ _)
  | leaveValidatorPool origin =>
    refine commit_of_ok hi fun s' h => ?_
    obtain ⟨who, -, -, rfl⟩ := leaveValidatorPool_ok.mp h
    refine hi.of_event rfl (fun _ _ => nofun) (fun _ _ => nofun) fun a => ?_
    by_cases ha : a = who
    · subst ha
      exact .inr (.inr (by simp [ValidatorPerformance.default]))
    · exact .inl (Function.update_of_ne ha _ _)
  | forceNewEra origin seed =>
    exact commit_of_ok hi fun s' h => hi.doNewEra ((forceNewEra_ok cfg).mp h).2
  | updateCategory origin newCategory src =>
    refine commit_of_ok hi fun s' h => ?_
    obtain ⟨who, -, oldCategory, -, -, rfl⟩ := (updateCategory_ok cfg).mp h
    exact hi.of_event rfl (fun _ _ => nofun) (fun _ _ => nofun) fun _ => .inl rfl
  | setPoolParameters origin eraLength =>
    refine commit_of_ok hi fun s' h => ?_
    obtain ⟨-, rfl⟩ := (setPoolParameters_ok cfg).mp h
    exact hi.of_event rfl (fun _ _ => nofun) (fun _ _ => nofun) fun _ => .inl rfl
  | updatePerformanceMetrics origin validator blocksProduced blocksMissed eraPoints =>
    exact commit_of_ok hi fun s' h => hi.updatePerformanceMetrics h
  | initializeBlock blockNumber seed =>
    have hi' : ReputationInv { s with blockNumber } := ⟨hi.reputation_le, hi.law⟩
    exact step_initializeBlock_of cfg hi hi' fun _ h => hi'.doNewEra h

end ReputationInv

theorem reputationInv_of_reachable {s : State α} (hs : Reachable (step cfg) genesis s) :
    ReputationInv s :=
  hs.invariant reputationInv_genesis fun _ a hi => hi.step a

/-- In every reachable state, over any interleaving of the calls and the blocks: an account in
two eras' sets, not leaving between them, is in eras at least three apart; an account whose
metrics were last updated to a reputation below 70, and that has not joined since, is in no
later era's set; and the current validator set is the one of the last era started. -/
theorem rotation_and_reputation_laws {s : State α} (hs : Reachable (step cfg) genesis s) :
    RotationLaw s.events ∧ ReputationLaw s.events ∧
      ∀ set, s.currentValidatorSet = some set →
        ∃ post, Log.Since s.events (.newEraStarted set.eraIndex set) post ∧
          ∀ i V, Event.newEraStarted i V ∉ post :=
  ⟨(rotationInv_of_reachable cfg hs).law, (reputationInv_of_reachable cfg hs).law,
    (rotationInv_of_reachable cfg hs).current⟩

/-! ## A validator selected in two eras in a row -/

/-- Accounts `0`, `1` and `2` join the pool as stake validators, with the runtime's minimum stake
and no trust threshold. -/
def stakeJoins : List (Action Nat) :=
  (List.range 3).map fun a =>
    .joinValidatorPool (.signed a) (.stakeValidator (10_000 * 1_000_000_000_000) 0) noScores

/-- The three stake validators, and the root starts era 1. -/
def firstEraState : State Nat :=
  run (step runtimeConfig) genesis (stakeJoins ++ [.forceNewEra .root fun _ => 0])

/-- Then all three leave and join again, and the root starts era 2. -/
def rejoinState : State Nat :=
  run (step runtimeConfig) firstEraState
    ((List.range 3).map (fun a => .leaveValidatorPool (.signed a)) ++ stakeJoins ++
      [.forceNewEra .root fun _ => 0])

/-- Account `0` is in the current validator set of era 1 and again in that of era 2. -/
theorem rejoined_validator_reselected :
    firstEraState.currentValidatorSet = some ⟨1, [1, 2, 0], [], []⟩ ∧
      rejoinState.currentValidatorSet = some ⟨2, [1, 2, 0], [], []⟩ ∧
      0 ∈ (⟨1, [1, 2, 0], [], []⟩ : ValidatorSet Nat).allValidators := by
  refine ⟨?_, ?_, by decide⟩
  · decide +kernel
  · decide +kernel

theorem rejoinState_reachable : Reachable (step runtimeConfig) genesis rejoinState := by
  rw [rejoinState, firstEraState, ← run_append]
  exact reachable_run _

/-! ## Five eras, with a poor report -/

/-- The accounts join the pool as stake validators, with the runtime's minimum stake and no
trust threshold. -/
def stakeJoinsOf (accounts : List Nat) : List (Action Nat) :=
  accounts.map fun a =>
    .joinValidatorPool (.signed a) (.stakeValidator (10_000 * 1_000_000_000_000) 0) noScores

/-- A new group of stake validators joins before each of the first four eras; before the fifth
the root reports account `3` with half of its blocks missed. -/
def rotationRun : List (Action Nat) :=
  stakeJoinsOf [0, 1, 2, 3] ++ [.forceNewEra .root fun _ => 0] ++
    stakeJoinsOf [4, 5, 6] ++ [.forceNewEra .root fun _ => 0] ++
    stakeJoinsOf [7, 8, 9] ++ [.forceNewEra .root fun _ => 0] ++
    stakeJoinsOf [10, 11, 12] ++
    [.forceNewEra .root fun _ => 0, .updatePerformanceMetrics .root 3 50 50 0,
      .forceNewEra .root fun _ => 0]

def rotationState : State Nat :=
  run (step runtimeConfig) genesis rotationRun

/-- Account `0`, selected in era 1, is selected again in era 5, four eras on and without
leaving; account `3`, selected in era 1 too and then reported at a reputation of 50, is left out
of era 5. -/
theorem rotation_and_reputation_laws_after_five_eras :
    (rotationState.selectionHistory 0 = [1, 5] ∧ rotationState.selectionHistory 3 = [1] ∧
      (rotationState.performanceMetrics 3).reputationScore = 50) ∧
    RotationLaw rotationState.events ∧ ReputationLaw rotationState.events ∧
      ∀ set, rotationState.currentValidatorSet = some set →
        ∃ post, Log.Since rotationState.events (.newEraStarted set.eraIndex set) post ∧
          ∀ i V, Event.newEraStarted i V ∉ post :=
  ⟨by decide +kernel, rotation_and_reputation_laws runtimeConfig (reachable_run rotationRun)⟩

theorem poolSize_counts_members_after_rejoin :
    runtimeConfig.maxPoolSize ≤ maxValue 32 ∧
      rejoinState.poolSize = rejoinState.poolMembers.keySet.card ∧
      rejoinState.poolSize ≤ runtimeConfig.maxPoolSize := by
  have hmax : runtimeConfig.maxPoolSize ≤ maxValue 32 := by
    rw [maxValue_32]
    decide
  exact ⟨hmax, poolSize_counts_members runtimeConfig hmax rejoinState_reachable⟩

end ValidatorPool
