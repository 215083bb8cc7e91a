import Pezkuwi.Storage.Vec
import Pezkuwi.Machine.Reach
import Pezkuwi.Arith.Bounded

/-!
# The session pipeline of the Pezkuwichain runtime

The runtime's validator set changes at session boundaries. `pallet-session` keeps the active
validators, the validators queued for the next session with their keys, and the session keys each
account has registered for the sessions to come (`NextKeys`), together with the reverse map
`KeyOwner` from each key back to its owner, through which `set_keys` refuses a key that another
validator holds. When BABE ends a session, `rotate_session` makes the queued validators active,
asks the session manager for the set of the session after next and queues its members that have
keys. The runtime's session manager is the `validator_manager` pallet behind
`NoteHistoricalRoot`: the root registers and deregisters validators, and the lists it collects
are applied to the active set at the next rotation, so that a change made in session `i` is
active from session `i + 2`.

The model follows `src/substrate/frame/session/src/lib.rs` and
`src/pezkuwi/runtime/pezkuwichain/src/validator_manager.rs` with the runtime's configuration:
`ValidatorIdOf` is the identity, `PrivilegedOrigin` is the root, the session keys' ownership proof
is the default one, which accepts every proof, and `NoteHistoricalRoot` passes the manager's
validator lists through unchanged. The session keys are a type `κ` read kind by kind through
`OpaqueKeys`. Whether `frame_system` can add a consumer reference to the caller, which
`set_keys` asks, is an argument of the call; the reference counts themselves, the historical
session roots, the events and the session handlers of the other pallets are left out. The session
index is a `u32` with the source's plain addition.

## Main definitions

* `ValidatorManager.State`, `ValidatorManager.registerValidators`,
  `ValidatorManager.deregisterValidators`, `ValidatorManager.newSession`: the session manager
* `Session.OpaqueKeys`, `Session.State`: the key format and the session pallet's storage
* `Session.innerSetKeys`, `Session.doSetKeys`, `Session.setKeys`, `Session.doPurgeKeys`,
  `Session.purgeKeys`, `Session.rotateSession`, `Session.genesisBuild`: the calls, the rotation
  and the genesis build
* `Session.Action`, `Session.step`: the calls with their origins and the rotations, with rollback
  on failure
-/

namespace ValidatorManager

open Machine BoundedVec

variable {α : Type}

/-- The pallet's storage: `ValidatorsToRetire` and `ValidatorsToAdd`, both empty at genesis. -/
structure State (α : Type) where
  validatorsToRetire : List α
  validatorsToAdd : List α
  deriving DecidableEq, Repr

/-- The storage at genesis. -/
def State.empty : State α :=
  ⟨[], []⟩

/-- The one way the pallet's calls fail: an origin other than the root. -/
inductive Error where
  | badOrigin
  deriving DecidableEq, Repr

/-- `register_validators`: each validator is appended to `ValidatorsToAdd`, in order and without
a check for duplicates. -/
def registerValidators (s : State α) (origin : Origin α) (validators : List α) :
    Except Error (State α) := do
  ensureRoot origin .badOrigin
  pure { s with validatorsToAdd := s.validatorsToAdd ++ validators }

/-- `deregister_validators`: each validator is appended to `ValidatorsToRetire`. -/
def deregisterValidators (s : State α) (origin : Origin α) (validators : List α) :
    Except Error (State α) := do
  ensureRoot origin .badOrigin
  pure { s with validatorsToRetire := s.validatorsToRetire ++ validators }

theorem registerValidators_eq_ok {s s' : State α} {origin : Origin α} {validators : List α} :
    registerValidators s origin validators = .ok s' ↔
      origin = .root ∧ s' = { s with validatorsToAdd := s.validatorsToAdd ++ validators } := by
  simp only [registerValidators, bind_eq_ok, ensureRoot_eq_ok, pure_eq_ok, exists_const,
    @eq_comm _ s']

theorem deregisterValidators_eq_ok {s s' : State α} {origin : Origin α} {validators : List α} :
    deregisterValidators s origin validators = .ok s' ↔
      origin = .root ∧
        s' = { s with validatorsToRetire := s.validatorsToRetire ++ validators } := by
  simp only [deregisterValidators, bind_eq_ok, ensureRoot_eq_ok, pure_eq_ok, exists_const,
    @eq_comm _ s']

variable [DecidableEq α]

/-- `SessionManager::new_session` for the session `newIndex`, from the active validators
`validators` (`Session::validators()`): nothing below index 2; otherwise the validators to retire
are taken out one by one with `swap_remove`, then those to add are pushed where absent, and both
lists are emptied. -/
def newSession (newIndex : Nat) (validators : List α) (s : State α) : Option (List α) × State α :=
  if newIndex ≤ 1 then (none, s)
  else
    let validators := s.validatorsToRetire.foldl swapRemoveValue validators
    let validators := s.validatorsToAdd.foldl pushIfAbsent validators
    (some validators, State.empty)

/-- From index 2 on, `new_session` answers with a list without duplicates, when the active list
has none, holding exactly the validators to add and the active ones not to retire; the order of
the two loops makes an addition win over a retirement of the same validator. -/
theorem newSession_of_one_lt {newIndex : Nat} (hindex : 1 < newIndex) {validators : List α}
    (hnodup : validators.Nodup) (s : State α) :
    ∃ next, newSession newIndex validators s = (some next, State.empty) ∧ next.Nodup ∧
      ∀ v, v ∈ next ↔ v ∈ s.validatorsToAdd ∨ (v ∈ validators ∧ v ∉ s.validatorsToRetire) := by
  refine ⟨_, if_neg (Nat.not_le.mpr hindex), ?_, fun v => ?_⟩
  · exact nodup_foldl_pushIfAbsent _ (nodup_foldl_swapRemoveValue _ hnodup)
  · rw [mem_foldl_pushIfAbsent, mem_foldl_swapRemoveValue hnodup, or_comm]

theorem newSession_of_le_one {newIndex : Nat} (hindex : newIndex ≤ 1) (validators : List α)
    (s : State α) : newSession newIndex validators s = (none, s) :=
  if_pos hindex

end ValidatorManager

namespace Session

open Machine Bounded

/-- `OpaqueKeys`: the key types of the session keys, `key_ids()`, and the raw key of each type,
`get_raw`. -/
structure OpaqueKeys (κ ι ρ : Type) where
  keyIds : List ι
  getRaw : κ → ι → ρ

variable {α κ ι ρ : Type} (K : OpaqueKeys κ ι ρ)

/-- The session pallet's storage with the validator manager's: `Validators`, `CurrentIndex`,
`QueuedKeys`, `NextKeys` and `KeyOwner`. -/
structure State (α κ ι ρ : Type) where
  validators : List α
  currentIndex : Nat
  queuedKeys : List (α × κ)
  nextKeys : α → Option κ
  keyOwner : ι × ρ → Option α
  manager : ValidatorManager.State α

/-- The storage before the genesis build: every value at its default. -/
def State.empty : State α κ ι ρ where
  validators := []
  currentIndex := 0
  queuedKeys := []
  nextKeys _ := none
  keyOwner _ := none
  manager := ValidatorManager.State.empty

/-- The pallet's errors that the runtime's calls can raise: `InvalidProof` cannot, since the
ownership proof of the runtime's keys is always valid, and `NoAssociatedValidatorId` cannot,
since `ValidatorIdOf` is the identity. -/
inductive Error where
  | duplicatedKey
  | noKeys
  | noAccount
  | badOrigin
  deriving DecidableEq, Repr

/-- `load_keys`: the keys registered for the sessions to come. -/
def loadKeys (s : State α κ ι ρ) (v : α) : Option κ :=
  s.nextKeys v

/-- The validators queued for the next session. -/
def queuedValidators (s : State α κ ι ρ) : List α :=
  s.queuedKeys.map Prod.fst

/-- The validators among `validators` that have keys, with their keys: the `filter_map` over
`load_keys` that queues the next session's keys. -/
def queueKeys (s : State α κ ι ρ) (validators : List α) : List (α × κ) :=
  validators.filterMap fun a => (loadKeys s a).map (a, ·)

/-- The genesis configuration: the validators with their keys, and the accounts whose keys are
registered without being validators (`AccountId` and `ValidatorId` are one type). -/
structure GenesisConfig (α κ : Type) where
  keys : List (α × κ)
  nonAuthorityKeys : List (α × κ)

/-- What the runtime does to the session pallet and the validator manager: their calls, with
their origins, and the rotation that the session's block hook makes when BABE ends a
session. -/
inductive Action (α κ : Type) where
  | setKeys (origin : Origin α) (keys : κ) (canIncConsumer : Bool)
  | purgeKeys (origin : Origin α)
  | registerValidators (origin : Origin α) (validators : List α)
  | deregisterValidators (origin : Origin α) (validators : List α)
  | rotateSession

/-- A call of the manager writes only the manager's lists, whether it succeeds or not. -/
theorem commit_manager_eq (s : State α κ ι ρ)
    (r : Except ValidatorManager.Error (ValidatorManager.State α)) :
    ∃ manager, commit (r.map fun manager => { s with manager }) s = { s with manager } := by
  cases r with
  | error e => exact ⟨s.manager, rfl⟩
  | ok manager => exact ⟨manager, rfl⟩

@[simp] theorem mem_queueKeys {s : State α κ ι ρ} {validators : List α} {v : α} {k : κ} :
    (v, k) ∈ queueKeys s validators ↔ v ∈ validators ∧ s.nextKeys v = some k := by
  simp [queueKeys, loadKeys, and_comm]

/-- The validators queued from a list are those of the list that have keys, in its order. -/
theorem map_fst_queueKeys (s : State α κ ι ρ) (validators : List α) :
    (queueKeys s validators).map Prod.fst = validators.filter fun v => (s.nextKeys v).isSome := by
  induction validators with
  | nil => rfl
  | cons v validators ih =>
    cases hv : s.nextKeys v <;> simp [queueKeys, loadKeys, hv, ← ih]

/-- The key types of the runtime's `SessionKeys`, in the order of its fields. -/
inductive KeyType where
  | grandpa
  | babe
  | paraValidator
  | paraAssignment
  | authorityDiscovery
  | beefy
  deriving DecidableEq, Repr

/-- The runtime's `SessionKeys`: one raw key for each of its six key types. -/
def runtimeKeys : OpaqueKeys (KeyType → Nat) KeyType Nat where
  keyIds := [.grandpa, .babe, .paraValidator, .paraAssignment, .authorityDiscovery, .beefy]
  getRaw keys id := keys id

theorem runtimeKeys_keyIds_nodup : runtimeKeys.keyIds.Nodup := by
  decide

/-! ## The rotation -/

variable [DecidableEq α]

/-- `rotate_session`: the queued validators become active, the index grows by one, the session
manager is asked for the set of the session after the new one (the active set again when it has
no answer), and the members of that set with keys are queued. -/
def rotateSession (s : State α κ ι ρ) : State α κ ι ρ :=
  let validators := queuedValidators s
  let sessionIndex := wrappingAdd 32 s.currentIndex 1
  let (maybeNextValidators, manager) :=
    ValidatorManager.newSession (wrappingAdd 32 sessionIndex 1) validators s.manager
  let nextValidators := maybeNextValidators.getD validators
  { s with validators, currentIndex := sessionIndex, queuedKeys := queueKeys s nextValidators,
           manager }

@[simp] theorem rotateSession_validators (s : State α κ ι ρ) :
    (rotateSession s).validators = queuedValidators s := rfl

@[simp] theorem rotateSession_currentIndex (s : State α κ ι ρ) :
    (rotateSession s).currentIndex = wrappingAdd 32 s.currentIndex 1 := rfl

@[simp] theorem rotateSession_nextKeys (s : State α κ ι ρ) :
    (rotateSession s).nextKeys = s.nextKeys := rfl

@[simp] theorem rotateSession_keyOwner (s : State α κ ι ρ) :
    (rotateSession s).keyOwner = s.keyOwner := rfl

/-- The rotation queues the members with keys of the manager's answer, or of the active set when
the manager has none. -/
theorem rotateSession_queuedKeys (s : State α κ ι ρ) :
    (rotateSession s).queuedKeys = queueKeys s
      ((ValidatorManager.newSession (wrappingAdd 32 (wrappingAdd 32 s.currentIndex 1) 1)
        (queuedValidators s) s.manager).1.getD (queuedValidators s)) := rfl

/-! ## The key calls and the genesis build -/

variable [DecidableEq ι] [DecidableEq ρ]

/-- One turn of the second loop of `inner_set_keys`, for the key type `id`: a key equal to the
old one is skipped (`continue`); otherwise the old key is freed and the new one given to `who`. -/
def setKeyOwner (who : α) (keys : κ) (oldKeys : Option κ) (owners : ι × ρ → Option α)
    (id : ι) : ι × ρ → Option α :=
  let key := K.getRaw keys id
  match oldKeys.map (K.getRaw · id) with
  | some old =>
    if key = old then owners
    else Function.update (Function.update owners (id, old) none) (id, key) (some who)
  | none => Function.update owners (id, key) (some who)

/-- `inner_set_keys`: every new key must be free or already `who`'s (`DuplicatedKey`); then the
owners are rewritten key type by key type and the keys stored. The old keys are returned. -/
def innerSetKeys (s : State α κ ι ρ) (who : α) (keys : κ) :
    Except Error (Option κ × State α κ ι ρ) := do
  let oldKeys := loadKeys s who
  K.keyIds.forM fun id =>
    ensure ((s.keyOwner (id, K.getRaw keys id)).all (· == who) = true) .duplicatedKey
  let keyOwner := K.keyIds.foldl (setKeyOwner K who keys oldKeys) s.keyOwner
  pure (oldKeys, { s with keyOwner, nextKeys := Function.update s.nextKeys who (some keys) })

/-- `do_set_keys`: the account must be able to take a consumer reference (`NoAccount`), which
`canIncConsumer` reports. -/
def doSetKeys (s : State α κ ι ρ) (account : α) (keys : κ) (canIncConsumer : Bool) :
    Except Error (State α κ ι ρ) := do
  ensure (canIncConsumer = true) .noAccount
  let registered ← innerSetKeys K s account keys
  pure registered.2

/-- `set_keys`, for a signed origin. -/
def setKeys (s : State α κ ι ρ) (origin : Origin α) (keys : κ) (canIncConsumer : Bool) :
    Except Error (State α κ ι ρ) := do
  let who ← ensureSigned origin .badOrigin
  doSetKeys K s who keys canIncConsumer

/-- `do_purge_keys`: the keys are taken (`NoKeys` when there are none) and each of them freed. -/
def doPurgeKeys (s : State α κ ι ρ) (account : α) : Except Error (State α κ ι ρ) := do
  let oldKeys ← okOr (s.nextKeys account) .noKeys
  let keyOwner := K.keyIds.foldl
    (fun owners id => Function.update owners (id, K.getRaw oldKeys id) none) s.keyOwner
  pure { s with nextKeys := Function.update s.nextKeys account none, keyOwner }

/-- `purge_keys`, for a signed origin. -/
def purgeKeys (s : State α κ ι ρ) (origin : Origin α) : Except Error (State α κ ι ρ) := do
  let who ← ensureSigned origin .badOrigin
  doPurgeKeys K s who

/-- One registration of the genesis build, which panics on a duplicated key. -/
def genesisSetKeys (s : State α κ ι ρ) (entry : α × κ) : Except Error (State α κ ι ρ) := do
  let registered ← innerSetKeys K s entry.1 entry.2
  pure registered.2

/-- The genesis build: every configured key is registered; the manager has no set for sessions 0
and 1, so both are the configured validators; those with keys are queued. -/
def genesisBuild (cfg : GenesisConfig α κ) : Except Error (State α κ ι ρ) := do
  let s ← (cfg.keys ++ cfg.nonAuthorityKeys).foldlM (genesisSetKeys K) State.empty
  let (initialValidators0, manager) := ValidatorManager.newSession 0 s.validators s.manager
  let initialValidators0 := initialValidators0.getD (cfg.keys.map Prod.fst)
  let (initialValidators1, manager) := ValidatorManager.newSession 1 s.validators manager
  let initialValidators1 := initialValidators1.getD initialValidators0
  pure { s with validators := initialValidators0, queuedKeys := queueKeys s initialValidators1,
                manager }

/-- One action; a failed call leaves the state as it was. -/
def step (s : State α κ ι ρ) : Action α κ → State α κ ι ρ
  | .setKeys origin keys canIncConsumer => commit (setKeys K s origin keys canIncConsumer) s
  | .purgeKeys origin => commit (purgeKeys K s origin) s
  | .registerValidators origin validators =>
    commit ((ValidatorManager.registerValidators s.manager origin validators).map
      fun manager => { s with manager }) s
  | .deregisterValidators origin validators =>
    commit ((ValidatorManager.deregisterValidators s.manager origin validators).map
      fun manager => { s with manager }) s
  | .rotateSession => rotateSession s

/-! ## What each call does -/

theorem step_registerValidators_eq (s : State α κ ι ρ) (origin : Origin α) (validators : List α) :
    ∃ manager, step K s (.registerValidators origin validators) = { s with manager } :=
  commit_manager_eq s _

theorem step_deregisterValidators_eq (s : State α κ ι ρ) (origin : Origin α)
    (validators : List α) :
    ∃ manager, step K s (.deregisterValidators origin validators) = { s with manager } :=
  commit_manager_eq s _

variable {K}

theorem innerSetKeys_eq_ok {s s' : State α κ ι ρ} {who : α} {keys : κ} {oldKeys : Option κ} :
    innerSetKeys K s who keys = .ok (oldKeys, s') ↔
      (∀ id ∈ K.keyIds, (s.keyOwner (id, K.getRaw keys id)).all (· == who) = true) ∧
        oldKeys = s.nextKeys who ∧
        s' = { s with keyOwner := K.keyIds.foldl (setKeyOwner K who keys (s.nextKeys who))
                                    s.keyOwner,
                      nextKeys := Function.update s.nextKeys who (some keys) } := by
  simp only [innerSetKeys, loadKeys, bind_eq_ok, forM_eq_ok, ensure_eq_ok, pure_eq_ok,
    Prod.mk.injEq, exists_const, @eq_comm _ oldKeys, @eq_comm _ s']

theorem doSetKeys_eq_ok {s s' : State α κ ι ρ} {account : α} {keys : κ} {canIncConsumer : Bool} :
    doSetKeys K s account keys canIncConsumer = .ok s' ↔
      canIncConsumer = true ∧ ∃ oldKeys, innerSetKeys K s account keys = .ok (oldKeys, s') := by
  simp only [doSetKeys, bind_eq_ok, ensure_eq_ok, pure_eq_ok, exists_const]
  refine and_congr_right fun _ => ⟨?_, ?_⟩
  · rintro ⟨⟨oldKeys, t⟩, h, rfl⟩
    exact ⟨oldKeys, h⟩
  · rintro ⟨oldKeys, h⟩
    exact ⟨(oldKeys, s'), h, rfl⟩

theorem setKeys_eq_ok {s s' : State α κ ι ρ} {origin : Origin α} {keys : κ}
    {canIncConsumer : Bool} :
    setKeys K s origin keys canIncConsumer = .ok s' ↔
      ∃ who, origin = .signed who ∧ doSetKeys K s who keys canIncConsumer = .ok s' := by
  simp only [setKeys, bind_eq_ok, ensureSigned_eq_ok]

theorem doPurgeKeys_eq_ok {s s' : State α κ ι ρ} {account : α} :
    doPurgeKeys K s account = .ok s' ↔
      ∃ oldKeys, s.nextKeys account = some oldKeys ∧
        s' = { s with nextKeys := Function.update s.nextKeys account none,
                      keyOwner := K.keyIds.foldl
                        (fun owners id => Function.update owners (id, K.getRaw oldKeys id) none)
                        s.keyOwner } := by
  simp only [doPurgeKeys, bind_eq_ok, okOr_eq_ok, pure_eq_ok, @eq_comm _ s']

theorem purgeKeys_eq_ok {s s' : State α κ ι ρ} {origin : Origin α} :
    purgeKeys K s origin = .ok s' ↔ ∃ who, origin = .signed who ∧ doPurgeKeys K s who = .ok s' := by
  simp only [purgeKeys, bind_eq_ok, ensureSigned_eq_ok]

/-- The genesis build registers the configured keys; the validators of sessions 0 and 1 are the
configured ones, since the manager answers nothing below session 2. -/
theorem genesisBuild_eq_ok {cfg : GenesisConfig α κ} {s₀ : State α κ ι ρ} :
    genesisBuild K cfg = .ok s₀ ↔
      ∃ s, (cfg.keys ++ cfg.nonAuthorityKeys).foldlM (genesisSetKeys K) State.empty = .ok s ∧
        s₀ = { s with validators := cfg.keys.map Prod.fst,
                      queuedKeys := queueKeys s (cfg.keys.map Prod.fst) } := by
  simp only [genesisBuild, ValidatorManager.newSession_of_le_one (Nat.zero_le 1),
    ValidatorManager.newSession_of_le_one (le_refl 1), Option.getD_none, bind_eq_ok, pure_eq_ok,
    @eq_comm _ s₀]

theorem genesisSetKeys_eq_ok {s s' : State α κ ι ρ} {entry : α × κ} :
    genesisSetKeys K s entry = .ok s' ↔
      ∃ oldKeys, innerSetKeys K s entry.1 entry.2 = .ok (oldKeys, s') := by
  simp only [genesisSetKeys, bind_eq_ok, pure_eq_ok]
  constructor
  · rintro ⟨⟨oldKeys, t⟩, h, rfl⟩
    exact ⟨oldKeys, h⟩
  · rintro ⟨oldKeys, h⟩
    exact ⟨(oldKeys, s'), h, rfl⟩

end Session
