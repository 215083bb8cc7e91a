import Pezkuwi.Session.Keys

/-!
# A change of the validator set takes effect two sessions later

`register_validators` and `deregister_validators` promise a change "from current session + 2".
The change goes through two rotations. At the end of session `i` the rotation makes the queued
validators active for session `i + 1` and asks `new_session(i + 2)` for the set of session
`i + 2`, which applies the collected lists to it; the members of that set with keys are queued.
Nothing but a rotation writes the active or the queued validators, so at the end of session
`i + 1` the second rotation makes exactly those queued validators active.

So the active set of session `i + 2` is fixed at the end of session `i`: it holds the validators
registered during session `i` and those queued then and not deregistered, among those with keys
at that moment, whatever happens during session `i + 1` (`validators_two_sessions_later`). A
validator both registered and deregistered during session `i` is active, since the removals are
applied first. The statement needs the session index to stay below `2 ^ 32 - 2`: at the wrap of
the `u32` index the manager is asked for session `0` and answers nothing. Along the way, neither
list ever holds a validator twice when the genesis validators are distinct
(`validators_nodup_of_reachable`).

## Main definitions

* `PipelineInv`: the active and the queued validators have no duplicates, and the index is a
  `u32`

## Main results

* `step_frame`: the calls leave the active and queued validators and the index alone
* `mem_queuedValidators_rotateSession`: the queued set after a rotation
* `validators_nodup_of_reachable`: no duplicates on any reachable state
* `validators_two_sessions_later`: the active set two sessions after a state
-/

namespace Session

open Machine Bounded

variable {α κ ι ρ : Type} [DecidableEq α] [DecidableEq ι] [DecidableEq ρ] {K : OpaqueKeys κ ι ρ}

/-! ## What only the rotation writes -/

/-- The calls, the manager's and the keys', write neither the active nor the queued validators
nor the session index. -/
theorem step_frame (s : State α κ ι ρ) {a : Action α κ} (ha : a ≠ .rotateSession) :
    (step K s a).validators = s.validators ∧ (step K s a).queuedKeys = s.queuedKeys ∧
      (step K s a).currentIndex = s.currentIndex := by
  cases a with
  | setKeys origin keys canIncConsumer =>
    refine commit_of_ok (P := fun t : State α κ ι ρ => t.validators = s.validators ∧
      t.queuedKeys = s.queuedKeys ∧ t.currentIndex = s.currentIndex) ⟨rfl, rfl, rfl⟩
      fun s' h => ?_
    obtain ⟨who, -, hset⟩ := setKeys_eq_ok.mp h
    obtain ⟨-, oldKeys, hinner⟩ := doSetKeys_eq_ok.mp hset
    obtain ⟨-, -, rfl⟩ := innerSetKeys_eq_ok.mp hinner
    exact ⟨rfl, rfl, rfl⟩
  | purgeKeys origin =>
    refine commit_of_ok (P := fun t : State α κ ι ρ => t.validators = s.validators ∧
      t.queuedKeys = s.queuedKeys ∧ t.currentIndex = s.currentIndex) ⟨rfl, rfl, rfl⟩
      fun s' h => ?_
    obtain ⟨who, -, hpurge⟩ := purgeKeys_eq_ok.mp h
    obtain ⟨oldKeys, -, rfl⟩ := doPurgeKeys_eq_ok.mp hpurge
    exact ⟨rfl, rfl, rfl⟩
  | registerValidators origin validators =>
    obtain ⟨manager, hmanager⟩ := step_registerValidators_eq K s origin validators
    rw [hmanager]
    exact ⟨rfl, rfl, rfl⟩
  | deregisterValidators origin validators =>
    obtain ⟨manager, hmanager⟩ := step_deregisterValidators_eq K s origin validators
    rw [hmanager]
    exact ⟨rfl, rfl, rfl⟩
  | rotateSession => exact absurd rfl ha

/-- A run without a rotation leaves the active and queued validators and the index alone. -/
theorem run_frame {as : List (Action α κ)} (has : ∀ a ∈ as, a ≠ .rotateSession) :
    ∀ s : State α κ ι ρ, (run (step K) s as).validators = s.validators ∧
      (run (step K) s as).queuedKeys = s.queuedKeys ∧
      (run (step K) s as).currentIndex = s.currentIndex := by
  induction as with
  | nil => intro s; exact ⟨rfl, rfl, rfl⟩
  | cons a as ih =>
    intro s
    obtain ⟨hv, hq, hi⟩ := step_frame (K := K) s (has a List.mem_cons_self)
    obtain ⟨hv', hq', hi'⟩ := ih (fun b hb => has b (List.mem_cons_of_mem a hb)) (step K s a)
    exact ⟨hv'.trans hv, hq'.trans hq, hi'.trans hi⟩

/-! ## No validator twice -/

omit [DecidableEq α] [DecidableEq ι] [DecidableEq ρ] in
/-- The validators queued from a list without duplicates have none. -/
theorem nodup_map_fst_queueKeys (s : State α κ ι ρ) {validators : List α}
    (h : validators.Nodup) : ((queueKeys s validators).map Prod.fst).Nodup := by
  rw [map_fst_queueKeys]
  exact h.filter _

/-- The active and the queued validators have no duplicates, and the index is a `u32`. -/
structure PipelineInv (s : State α κ ι ρ) : Prop where
  validators_nodup : s.validators.Nodup
  queued_nodup : (queuedValidators s).Nodup
  currentIndex_lt : s.currentIndex < 2 ^ 32

namespace PipelineInv

variable {s : State α κ ι ρ}

omit [DecidableEq ι] [DecidableEq ρ] in
/-- The set the rotation queues from has no duplicates, whether the manager answers or not. -/
theorem nodup_nextValidators (hi : PipelineInv s) (newIndex : Nat) :
    ((ValidatorManager.newSession newIndex (queuedValidators s) s.manager).1.getD
      (queuedValidators s)).Nodup := by
  by_cases hindex : newIndex ≤ 1
  · rw [ValidatorManager.newSession_of_le_one hindex]
    exact hi.queued_nodup
  · obtain ⟨next, hnext, hnodup, -⟩ :=
      ValidatorManager.newSession_of_one_lt (Nat.lt_of_not_le hindex) hi.queued_nodup s.manager
    rw [hnext]
    exact hnodup

omit [DecidableEq ι] [DecidableEq ρ] in
theorem rotateSession (hi : PipelineInv s) : PipelineInv (Session.rotateSession s) where
  validators_nodup := hi.queued_nodup
  queued_nodup := by
    unfold queuedValidators
    rw [rotateSession_queuedKeys]
    exact nodup_map_fst_queueKeys s (hi.nodup_nextValidators _)
  currentIndex_lt := Nat.mod_lt _ (Nat.two_pow_pos 32)

theorem step (hi : PipelineInv s) (a : Action α κ) : PipelineInv (Session.step K s a) := by
  by_cases ha : a = .rotateSession
  · subst ha
    exact hi.rotateSession
  · obtain ⟨hv, hq, hindex⟩ := step_frame (K := K) s ha
    exact ⟨hv ▸ hi.validators_nodup, by unfold queuedValidators; exact hq ▸ hi.queued_nodup,
      hindex ▸ hi.currentIndex_lt⟩

end PipelineInv

/-- The genesis build queues and activates the configured validators, with the index at 0. -/
theorem pipelineInv_genesisBuild {cfg : GenesisConfig α κ} (hnodup : (cfg.keys.map Prod.fst).Nodup)
    {s₀ : State α κ ι ρ} (hgen : genesisBuild K cfg = .ok s₀) : PipelineInv s₀ := by
  obtain ⟨s, hfold, rfl⟩ := genesisBuild_eq_ok.mp hgen
  -- the registrations of the genesis keys leave the index at its default
  have hindex : s.currentIndex = 0 := by
    refine foldlM_invariant (P := fun t : State α κ ι ρ => t.currentIndex = 0)
      (fun t e t' ht h => ?_) rfl hfold
    obtain ⟨oldKeys, hinner⟩ := genesisSetKeys_eq_ok.mp h
    obtain ⟨-, -, rfl⟩ := innerSetKeys_eq_ok.mp hinner
    exact ht
  exact ⟨hnodup, nodup_map_fst_queueKeys s hnodup, hindex ▸ Nat.two_pow_pos 32⟩

theorem pipelineInv_of_reachable {cfg : GenesisConfig α κ}
    (hnodup : (cfg.keys.map Prod.fst).Nodup) {s₀ s : State α κ ι ρ}
    (hgen : genesisBuild K cfg = .ok s₀) (hs : Reachable (step K) s₀ s) : PipelineInv s :=
  hs.invariant (pipelineInv_genesisBuild hnodup hgen) fun _ a hi => hi.step a

/-- From a genesis with distinct validators, no validator is ever active twice or queued twice. -/
theorem validators_nodup_of_reachable {cfg : GenesisConfig α κ}
    (hnodup : (cfg.keys.map Prod.fst).Nodup) {s₀ s : State α κ ι ρ}
    (hgen : genesisBuild K cfg = .ok s₀) (hs : Reachable (step K) s₀ s) :
    s.validators.Nodup ∧ (s.queuedKeys.map Prod.fst).Nodup :=
  have hi := pipelineInv_of_reachable hnodup hgen hs
  ⟨hi.validators_nodup, hi.queued_nodup⟩

/-- Account `3` registers keys, is registered twice in one call, validator `1` is deregistered
twice in one call, and two sessions rotate. -/
def churnedState : State Nat (KeyType → Nat) KeyType Nat :=
  run (step runtimeKeys) twoValidatorState
    [.setKeys (.signed 3) (fun _ => 3) true, .registerValidators .root [3, 3],
      .deregisterValidators .root [1, 1], .rotateSession, .rotateSession]

/-- The repeated entries of the manager's lists reach neither list: after the two rotations the
active set is `2` and `3`, each once. -/
theorem validators_nodup_after_changes :
    (twoValidatorGenesis.keys.map Prod.fst).Nodup ∧
      churnedState.validators = [2, 3] ∧
      churnedState.validators.Nodup ∧
      (churnedState.queuedKeys.map Prod.fst).Nodup :=
  ⟨by decide, by decide, validators_nodup_of_reachable (K := runtimeKeys) (by decide)
    genesisBuild_twoValidatorGenesis (reachable_run_from .init _)⟩

/-! ## Two sessions later -/

omit [DecidableEq ι] [DecidableEq ρ] in
/-- While the index does not wrap, the rotation queues the validators to add and the queued
ones not to retire, among those with keys. -/
theorem mem_queuedValidators_rotateSession {s : State α κ ι ρ} (hi : PipelineInv s)
    (hindex : s.currentIndex + 2 < 2 ^ 32) (v : α) :
    v ∈ queuedValidators (rotateSession s) ↔
      (v ∈ s.manager.validatorsToAdd ∨
        (v ∈ queuedValidators s ∧ v ∉ s.manager.validatorsToRetire)) ∧
      (s.nextKeys v).isSome := by
  have hnext : wrappingAdd 32 (wrappingAdd 32 s.currentIndex 1) 1 = s.currentIndex + 2 := by
    rw [wrappingAdd_of_lt (by omega : s.currentIndex + 1 < 2 ^ 32),
      wrappingAdd_of_lt (by omega : s.currentIndex + 1 + 1 < 2 ^ 32)]
  obtain ⟨next, hanswer, -, hmem⟩ :=
    ValidatorManager.newSession_of_one_lt (by omega : 1 < s.currentIndex + 2) hi.queued_nodup
      s.manager
  unfold queuedValidators
  rw [rotateSession_queuedKeys, hnext, hanswer, Option.getD_some, map_fst_queueKeys,
    List.mem_filter, hmem]
  rfl

/-- The active set two rotations after a reachable state `s`, with any calls but rotations
between them: it holds exactly the validators with keys in `s` that were registered in `s`'s
session, or were queued in `s` and not deregistered. Nothing done during the session between
the two rotations changes it. -/
theorem validators_two_sessions_later {cfg : GenesisConfig α κ}
    (hnodup : (cfg.keys.map Prod.fst).Nodup) {s₀ s : State α κ ι ρ}
    (hgen : genesisBuild K cfg = .ok s₀) (hs : Reachable (step K) s₀ s)
    (hindex : s.currentIndex + 2 < 2 ^ 32) (as : List (Action α κ))
    (has : ∀ a ∈ as, a ≠ .rotateSession) :
    (run (step K) s (.rotateSession :: as ++ [.rotateSession])).currentIndex =
        s.currentIndex + 2 ∧
      ∀ v, v ∈ (run (step K) s (.rotateSession :: as ++ [.rotateSession])).validators ↔
        (v ∈ s.manager.validatorsToAdd ∨
          (v ∈ queuedValidators s ∧ v ∉ s.manager.validatorsToRetire)) ∧
        (s.nextKeys v).isSome := by
  have hi := pipelineInv_of_reachable hnodup hgen hs
  -- the run is a rotation, the calls, and a second rotation
  have hrun : run (step K) s (.rotateSession :: as ++ [.rotateSession]) =
      Session.rotateSession (run (step K) (Session.rotateSession s) as) := by
    rw [List.cons_append, run_cons, run_append, run_cons, run_nil]
    rfl
  obtain ⟨-, hqueued, hcurrent⟩ := run_frame has (K := K) (Session.rotateSession s)
  rw [hrun]
  refine ⟨?_, fun v => ?_⟩
  · rw [rotateSession_currentIndex, hcurrent, rotateSession_currentIndex,
      wrappingAdd_of_lt (by omega : s.currentIndex + 1 < 2 ^ 32),
      wrappingAdd_of_lt (by omega : s.currentIndex + 1 + 1 < 2 ^ 32)]
  · rw [rotateSession_validators, queuedValidators, hqueued]
    exact mem_queuedValidators_rotateSession hi hindex v

/-- Account `3` registers keys and is registered, and validator `1` is deregistered, during the
first session. -/
def changedFirstSession : State Nat (KeyType → Nat) KeyType Nat :=
  run (step runtimeKeys) twoValidatorState
    [.setKeys (.signed 3) (fun _ => 3) true, .registerValidators .root [3],
      .deregisterValidators .root [1]]

/-- In the changed first session, validator `1` is deregistered and `3` registered with keys:
two sessions later the active set is `2` and `3`. -/
theorem validators_two_sessions_later_after_changes :
    (twoValidatorGenesis.keys.map Prod.fst).Nodup ∧ changedFirstSession.currentIndex + 2 < 2 ^ 32 ∧
      (∀ a ∈ ([] : List (Action Nat (KeyType → Nat))), a ≠ .rotateSession) ∧
      (run (step runtimeKeys) changedFirstSession [.rotateSession, .rotateSession]).currentIndex =
          changedFirstSession.currentIndex + 2 ∧
      ∀ v, v ∈ (run (step runtimeKeys) changedFirstSession
          (.rotateSession :: [] ++ [.rotateSession])).validators ↔
        (v ∈ changedFirstSession.manager.validatorsToAdd ∨
          (v ∈ queuedValidators changedFirstSession ∧
            v ∉ changedFirstSession.manager.validatorsToRetire)) ∧
        (changedFirstSession.nextKeys v).isSome :=
  have h := validators_two_sessions_later (K := runtimeKeys) (by decide)
    genesisBuild_twoValidatorGenesis (reachable_run_from .init _) (by decide) [] (by simp)
  ⟨by decide, by decide, by simp, h.1, h.2⟩

end Session
