import Pezkuwi.Session.Model
import Pezkuwi.Storage.Index

/-!
# Every session key has one owner

`set_keys` refuses a key that `KeyOwner` gives to another validator, and the loops of
`inner_set_keys` and `do_purge_keys` keep `KeyOwner` the reverse map of `NextKeys`: the first
loop gives each new key to its account and frees the old key it replaces, skipping a key that
does not change, and the second frees every key of the purged account. Each turn of either loop
touches only the keys of its own key type, so over the distinct key types of the runtime the
loops compute the library's pointwise writes `putOwners` and `eraseOwners`
(`foldl_setKeyOwner_eq_putOwners`, `foldl_clearKeyOwner_eq_eraseOwners`).

On every state the runtime reaches from its genesis, `key_owner` then answers for a key exactly
the account whose next keys hold it, no two accounts' next keys share a key of one type, and
neither do the keys queued for the next session, which the rotation copies from `NextKeys`
(`session_keys_unique`). Since the records determine their reverse map, an account without keys
that sets keys and purges them leaves no stale entry behind: the storage is back where it was
(`set_purge_keys_round_trip`).

## Main definitions

* `KeysDistinct`: no two entries of a list of keys share a key of one type
* `KeysInv`: `KeyOwner` is the reverse map of `NextKeys`, and the queued keys are distinct

## Main results

* `foldl_setKeyOwner_eq_putOwners`, `foldl_clearKeyOwner_eq_eraseOwners`: the two loops
* `KeysInv.step`: every action keeps the invariant
* `session_keys_unique`: the invariant's content on every reachable state
* `set_purge_keys_round_trip`: keys set by an account without any, then purged, leave the
  storage as it was
-/

namespace Session

open Machine ReverseIndex

variable {α κ ι ρ : Type} {K : OpaqueKeys κ ι ρ}

/-! ## The invariant -/


variable (K) in
/-- No two entries of a list of keys share a key of one type, unless they are of one account. -/
def KeysDistinct (l : List (α × κ)) : Prop :=
  ∀ {v w : α} {k k' : κ}, (v, k) ∈ l → (w, k') ∈ l →
    ∀ id ∈ K.keyIds, K.getRaw k id = K.getRaw k' id → v = w

/-- The keys queued from the next keys are distinct when `KeyOwner` is their reverse map. -/
theorem keysDistinct_queueKeys {s : State α κ ι ρ}
    (h : IsInverse K.keyIds K.getRaw s.nextKeys s.keyOwner) (validators : List α) :
    KeysDistinct K (queueKeys s validators) := by
  intro v w k k' hv hw id hid hpart
  exact h.unique (mem_queueKeys.mp hv).2 (mem_queueKeys.mp hw).2 hid hpart

variable (K) in
/-- `KeyOwner` is the reverse map of `NextKeys`, and the queued keys are distinct. -/
structure KeysInv (s : State α κ ι ρ) : Prop where
  keyOwner_inverse : IsInverse K.keyIds K.getRaw s.nextKeys s.keyOwner
  queued_distinct : KeysDistinct K s.queuedKeys

theorem keysInv_empty : KeysInv K (State.empty : State α κ ι ρ) where
  keyOwner_inverse := isInverse_empty
  queued_distinct hv := nomatch hv

/-! ## The two loops over the key types -/

variable [DecidableEq ι] [DecidableEq ρ]

/-- A turn of the loop of `inner_set_keys` writes only keys of its own type. -/
theorem local_setKeyOwner (who : α) (keys : κ) (oldKeys : Option κ) :
    Local fun id owners => setKeyOwner K who keys oldKeys owners id where
  apply_of_ne id owners j r hj := by
    cases oldKeys with
    | none => simp [setKeyOwner, hj]
    | some old =>
      simp only [setKeyOwner, Option.map_some]
      split_ifs
      · rfl
      · simp [hj]
  congr id owners owners' r h := by
    cases oldKeys with
    | none => simp [setKeyOwner, Function.update_apply, h]
    | some old =>
      simp only [setKeyOwner, Option.map_some]
      split_ifs
      · exact h r
      · simp [Function.update_apply, h]

/-- A turn of the loop of `do_purge_keys` frees only a key of its own type. -/
theorem local_clearKeyOwner (oldKeys : κ) :
    Local fun id (owners : ι × ρ → Option α) =>
      Function.update owners (id, K.getRaw oldKeys id) none where
  apply_of_ne id owners j r hj := by simp [hj]
  congr id owners owners' r h := by simp only [Function.update_apply, h]

/-- Over distinct key types, and while `KeyOwner` is the reverse map of `NextKeys`, the loop of
`inner_set_keys` writes the keys as `putOwners` does. Where the loop skips a key that does not
change, `putOwners` gives it to the account again, which already owns it. -/
theorem foldl_setKeyOwner_eq_putOwners (hK : K.keyIds.Nodup) {nextKeys : α → Option κ}
    {owners : ι × ρ → Option α} (hinv : IsInverse K.keyIds K.getRaw nextKeys owners)
    (who : α) (keys : κ) :
    K.keyIds.foldl (setKeyOwner K who keys (nextKeys who)) owners =
      putOwners K.keyIds K.getRaw (nextKeys who) who keys owners := by
  funext ⟨j, r⟩
  refine (foldl_apply_of_local (local_setKeyOwner who keys (nextKeys who)) hK owners j r).trans ?_
  by_cases hj : j ∈ K.keyIds
  · rw [if_pos hj]
    unfold setKeyOwner putOwners
    cases hold : nextKeys who with
    | none => simp [Function.update_apply, hj]
    | some old =>
      by_cases hsame : K.getRaw keys j = K.getRaw old j
      · -- the skipped key: `who` owns it already
        have howned : owners (j, K.getRaw old j) = some who := hinv.owner_of_record hold j hj
        by_cases hr : r = K.getRaw keys j
        · simp [hj, hsame, hr, howned]
        · have hold' : K.getRaw old j ≠ r := fun h => hr (hsame.trans h).symm
          simp [hj, hsame, hold', Ne.symm hold']
      · simp [Function.update_apply, hj, hsame, @eq_comm _ r]
  · simp [putOwners, hj]

/-- Over distinct key types, the loop of `do_purge_keys` frees the keys as `eraseOwners` does. -/
theorem foldl_clearKeyOwner_eq_eraseOwners (hK : K.keyIds.Nodup) (oldKeys : κ)
    (owners : ι × ρ → Option α) :
    K.keyIds.foldl (fun owners id => Function.update owners (id, K.getRaw oldKeys id) none)
        owners =
      eraseOwners K.keyIds K.getRaw oldKeys owners := by
  funext ⟨j, r⟩
  refine (foldl_apply_of_local (local_clearKeyOwner oldKeys) hK owners j r).trans ?_
  by_cases hj : j ∈ K.keyIds
  · simp [eraseOwners, Function.update_apply, hj, @eq_comm _ r]
  · simp [eraseOwners, hj]

variable [DecidableEq α]

namespace KeysInv

variable {s : State α κ ι ρ}

/-- A registration of keys that passes the check for duplicates keeps the invariant. -/
theorem innerSetKeys (hK : K.keyIds.Nodup) (hi : KeysInv K s) {who : α} {keys : κ}
    {oldKeys : Option κ} {s' : State α κ ι ρ}
    (h : Session.innerSetKeys K s who keys = .ok (oldKeys, s')) : KeysInv K s' := by
  obtain ⟨hfree, -, rfl⟩ := innerSetKeys_eq_ok.mp h
  refine ⟨?_, hi.queued_distinct⟩
  dsimp only
  rw [foldl_setKeyOwner_eq_putOwners hK hi.keyOwner_inverse]
  refine hi.keyOwner_inverse.put fun id hid b hb => ?_
  -- the check `map_or(true, |owner| owner == who)` passed for this key
  simpa [hb] using hfree id hid

theorem doPurgeKeys (hK : K.keyIds.Nodup) (hi : KeysInv K s) {account : α}
    {s' : State α κ ι ρ} (h : Session.doPurgeKeys K s account = .ok s') : KeysInv K s' := by
  obtain ⟨oldKeys, hold, rfl⟩ := doPurgeKeys_eq_ok.mp h
  refine ⟨?_, hi.queued_distinct⟩
  dsimp only
  rw [foldl_clearKeyOwner_eq_eraseOwners hK]
  exact hi.keyOwner_inverse.erase hold

omit [DecidableEq ι] [DecidableEq ρ] in
/-- The rotation leaves the keys alone and queues distinct ones. -/
theorem rotateSession (hi : KeysInv K s) : KeysInv K (Session.rotateSession s) where
  keyOwner_inverse := hi.keyOwner_inverse
  queued_distinct := by
    rw [rotateSession_queuedKeys]
    exact keysDistinct_queueKeys hi.keyOwner_inverse _

/-- Every action keeps the invariant: the key calls through the two loops, the manager's calls
since they write only the manager's lists, and the rotation. -/
theorem step (hK : K.keyIds.Nodup) (hi : KeysInv K s) (a : Action α κ) :
    KeysInv K (Session.step K s a) := by
  cases a with
  | setKeys origin keys canIncConsumer =>
    refine commit_of_ok hi fun s' h => ?_
    obtain ⟨who, -, hset⟩ := setKeys_eq_ok.mp h
    obtain ⟨-, oldKeys, hinner⟩ := doSetKeys_eq_ok.mp hset
    exact hi.innerSetKeys hK hinner
  | purgeKeys origin =>
    refine commit_of_ok hi fun s' h => ?_
    obtain ⟨who, -, hpurge⟩ := purgeKeys_eq_ok.mp h
    exact hi.doPurgeKeys hK hpurge
  | registerValidators origin validators =>
    obtain ⟨manager, hmanager⟩ := step_registerValidators_eq K s origin validators
    rw [hmanager]
    exact ⟨hi.keyOwner_inverse, hi.queued_distinct⟩
  | deregisterValidators origin validators =>
    obtain ⟨manager, hmanager⟩ := step_deregisterValidators_eq K s origin validators
    rw [hmanager]
    exact ⟨hi.keyOwner_inverse, hi.queued_distinct⟩
  | rotateSession => exact hi.rotateSession

end KeysInv

/-- The genesis build registers its keys through `inner_set_keys` and queues distinct ones. -/
theorem keysInv_genesisBuild (hK : K.keyIds.Nodup) {cfg : GenesisConfig α κ}
    {s₀ : State α κ ι ρ} (hgen : genesisBuild K cfg = .ok s₀) : KeysInv K s₀ := by
  obtain ⟨s, hfold, rfl⟩ := genesisBuild_eq_ok.mp hgen
  have hs : KeysInv K s := by
    refine foldlM_invariant (fun t e t' ht h => ?_) keysInv_empty hfold
    obtain ⟨oldKeys, hinner⟩ := genesisSetKeys_eq_ok.mp h
    exact ht.innerSetKeys hK hinner
  exact ⟨hs.keyOwner_inverse, keysDistinct_queueKeys hs.keyOwner_inverse _⟩

theorem keysInv_of_reachable (hK : K.keyIds.Nodup) {cfg : GenesisConfig α κ}
    {s₀ s : State α κ ι ρ} (hgen : genesisBuild K cfg = .ok s₀) (hs : Reachable (step K) s₀ s) :
    KeysInv K s :=
  hs.invariant (keysInv_genesisBuild hK hgen) fun _ a hi => hi.step hK a

/-- On every state reached from a genesis build, over distinct key types: `KeyOwner` names for a
key exactly the account whose next keys hold it; no two accounts' next keys share a key of one
type; and no two validators queued for the next session do. -/
theorem session_keys_unique (hK : K.keyIds.Nodup) {cfg : GenesisConfig α κ}
    {s₀ s : State α κ ι ρ} (hgen : genesisBuild K cfg = .ok s₀) (hs : Reachable (step K) s₀ s) :
    (∀ id r v, s.keyOwner (id, r) = some v ↔
      id ∈ K.keyIds ∧ ∃ k, s.nextKeys v = some k ∧ K.getRaw k id = r) ∧
    (∀ v w k k', s.nextKeys v = some k → s.nextKeys w = some k' →
      ∀ id ∈ K.keyIds, K.getRaw k id = K.getRaw k' id → v = w) ∧
    (∀ v w k k', (v, k) ∈ s.queuedKeys → (w, k') ∈ s.queuedKeys →
      ∀ id ∈ K.keyIds, K.getRaw k id = K.getRaw k' id → v = w) := by
  have hi := keysInv_of_reachable hK hgen hs
  refine ⟨fun id r v => ⟨hi.keyOwner_inverse.record_of_owner, ?_⟩,
    fun v w k k' hv hw id hid => hi.keyOwner_inverse.unique hv hw hid,
    fun v w k k' hv hw => hi.queued_distinct hv hw⟩
  rintro ⟨hid, k, hk, rfl⟩
  exact hi.keyOwner_inverse.owner_of_record hk id hid

/-- A genesis of two validators, `1` and `2`, each with all its keys equal to its number. -/
def twoValidatorGenesis : GenesisConfig Nat (KeyType → Nat) where
  keys := [(1, fun _ => 1), (2, fun _ => 2)]
  nonAuthorityKeys := []

/-- The state the genesis build makes of it. -/
def twoValidatorState : State Nat (KeyType → Nat) KeyType Nat :=
  match genesisBuild runtimeKeys twoValidatorGenesis with
  | .ok s => s
  | .error _ => State.empty

theorem genesisBuild_twoValidatorGenesis :
    genesisBuild runtimeKeys twoValidatorGenesis = .ok twoValidatorState := rfl

/-- After account `3` registers keys of its own, the keys are still unique. -/
theorem session_keys_unique_after_registration :
    runtimeKeys.keyIds.Nodup ∧
      let s := step runtimeKeys twoValidatorState (.setKeys (.signed 3) (fun _ => 3) true)
      (∀ id r v, s.keyOwner (id, r) = some v ↔
        id ∈ runtimeKeys.keyIds ∧ ∃ k, s.nextKeys v = some k ∧ runtimeKeys.getRaw k id = r) ∧
      (∀ v w k k', s.nextKeys v = some k → s.nextKeys w = some k' →
        ∀ id ∈ runtimeKeys.keyIds, runtimeKeys.getRaw k id = runtimeKeys.getRaw k' id → v = w) ∧
      (∀ v w k k', (v, k) ∈ s.queuedKeys → (w, k') ∈ s.queuedKeys →
        ∀ id ∈ runtimeKeys.keyIds, runtimeKeys.getRaw k id = runtimeKeys.getRaw k' id → v = w) :=
  ⟨runtimeKeys_keyIds_nodup, session_keys_unique runtimeKeys_keyIds_nodup
    genesisBuild_twoValidatorGenesis (.step _ .init)⟩

/-! ## Setting keys, then purging them -/

/-- On every state reached from a genesis build, over distinct key types: when an account without
next keys sets keys, purging them succeeds and restores the storage exactly. The purge frees what
the registration took, and no stale entry of `KeyOwner` survives, since the reverse map is
determined by `NextKeys`, which is back where it was. -/
theorem set_purge_keys_round_trip (hK : K.keyIds.Nodup) {cfg : GenesisConfig α κ}
    {s₀ s s' : State α κ ι ρ} (hgen : genesisBuild K cfg = .ok s₀) (hs : Reachable (step K) s₀ s)
    {who : α} {keys : κ} {canIncConsumer : Bool} (hnone : s.nextKeys who = none)
    (h : setKeys K s (.signed who) keys canIncConsumer = .ok s') :
    purgeKeys K s' (.signed who) = .ok s ∧
      run (step K) s [.setKeys (.signed who) keys canIncConsumer, .purgeKeys (.signed who)] =
        s := by
  have hi := keysInv_of_reachable hK hgen hs
  obtain ⟨who', hwho, hset⟩ := setKeys_eq_ok.mp h
  cases hwho
  obtain ⟨-, oldKeys, hinner⟩ := doSetKeys_eq_ok.mp hset
  have hi' := hi.innerSetKeys hK hinner
  obtain ⟨-, -, rfl⟩ := innerSetKeys_eq_ok.mp hinner
  -- the purge takes the keys just set
  obtain ⟨t, hpurge⟩ : ∃ t, doPurgeKeys K { s with
      keyOwner := K.keyIds.foldl (setKeyOwner K who keys (s.nextKeys who)) s.keyOwner,
      nextKeys := Function.update s.nextKeys who (some keys) } who = .ok t :=
    ⟨_, doPurgeKeys_eq_ok.mpr ⟨keys, Function.update_self _ _ _, rfl⟩⟩
  have hnext : t.nextKeys = s.nextKeys := by
    obtain ⟨_, hkeys, rfl⟩ := doPurgeKeys_eq_ok.mp hpurge
    rw [Function.update_idem, Function.update_eq_self_iff, hnone]
  have howner : t.keyOwner = s.keyOwner :=
    (hnext ▸ (hi'.doPurgeKeys hK hpurge).keyOwner_inverse).eq hi.keyOwner_inverse
  have hts : t = s := by
    -- the purge writes only the two maps
    have hframe : t = { s with nextKeys := t.nextKeys, keyOwner := t.keyOwner } := by
      obtain ⟨_, -, rfl⟩ := doPurgeKeys_eq_ok.mp hpurge
      rfl
    rw [hframe, hnext, howner]
  subst hts
  have hpurge' : purgeKeys K _ (.signed who) = .ok t := purgeKeys_eq_ok.mpr ⟨who, rfl, hpurge⟩
  refine ⟨hpurge', ?_⟩
  rw [run_cons, run_cons, run_nil]
  show commit (purgeKeys K (commit (setKeys K t (.signed who) keys canIncConsumer) t) _) _ = t
  rw [h, commit_ok, hpurge', commit_ok]

/-- After the two-validator genesis, account `3`, which has no keys, sets keys and purges them:
the storage is back where it was. -/
theorem set_purge_keys_round_trip_for_new_account :
    runtimeKeys.keyIds.Nodup ∧ twoValidatorState.nextKeys 3 = none ∧
      ∃ s', setKeys runtimeKeys twoValidatorState (.signed 3) (fun _ => 3) true = .ok s' ∧
        purgeKeys runtimeKeys s' (.signed 3) = .ok twoValidatorState ∧
        run (step runtimeKeys) twoValidatorState
          [.setKeys (.signed 3) (fun _ => 3) true, .purgeKeys (.signed 3)] = twoValidatorState := by
  have hnone : twoValidatorState.nextKeys 3 = none := rfl
  have hset : setKeys runtimeKeys twoValidatorState (.signed 3) (fun _ => 3) true =
      .ok (commit (setKeys runtimeKeys twoValidatorState (.signed 3) (fun _ => 3) true)
        twoValidatorState) := rfl
  exact ⟨runtimeKeys_keyIds_nodup, hnone, _, hset, set_purge_keys_round_trip
    runtimeKeys_keyIds_nodup genesisBuild_twoValidatorGenesis .init hnone hset⟩

end Session
