import Pezkuwi.Storage.Map
import Pezkuwi.Storage.Vec
import Pezkuwi.Machine.Reach
import Pezkuwi.Arith.Bounded

/-!
# The validator pool

`pallet-validator-pool` keeps a pool of candidate validators in three categories and selects a
validator set for each era. An account joins in a category whose requirements it meets, as the
trust, tiki and referral pallets report them; the root records each validator's performance,
from which a reputation follows, and starts new eras, as the block hook does once an era has
lasted `EraLength` blocks. The selection walks the pool, skips the members selected in one of the
last three eras and those of a reputation below 70, fills each category up to its share of
`MaxValidators`, shuffles each category with the bytes of a random hash and records the new era
in the history of every selected validator.

The model follows `src/pezkuwi/pallets/validator-pool/src/lib.rs` and `types.rs` with the
runtime's configuration (`PoolManagerOrigin` is the root). The pool is iterated in the order of
`StorageMap`, the key order standing for the hash order of `PoolMembers`. What the other pallets
report is an argument of the calls that read it, `Sources`, and the random hash an argument of
the calls that start an era. `u32` counters saturate where the source saturates and wrap where it
uses plain arithmetic; block numbers are natural numbers. The events are kept, in order, as the
pallet deposits them. The Perwerde source, which no call reads, is left out.

## Main definitions

* `ValidatorPoolCategory`, `ValidatorPerformance`, `ValidatorSet`, `Event`: the pallet's types
* `State`: the storage and the events
* `validateCategoryRequirements`, `isEligible`, `collectCandidates`, `shuffleValidators`,
  `selectValidatorsForEra`, `doNewEra`: the internal methods
* `joinValidatorPool`, `leaveValidatorPool`, `forceNewEra`, `updateCategory`,
  `setPoolParameters`, `updatePerformanceMetrics`, `onInitialize`: the calls and the hook
* `Action`, `step`: the calls with their origins and the blocks, with rollback on failure
-/

namespace ValidatorPool

open Bounded Machine

/-- `ValidatorPoolCategory`. -/
inductive ValidatorPoolCategory where
  | stakeValidator (minStake trustThreshold : Nat)
  | parliamentaryValidator
  | meritValidator (specialTikis : List Nat) (communityThreshold : Nat)
  deriving DecidableEq, Repr

/-- The three categories a validator set is made of, as `select_validators_for_era` sorts the
pool into them. -/
inductive Bucket where
  | stake
  | parliamentary
  | merit
  deriving DecidableEq, Repr

/-- The bucket of a category. -/
def ValidatorPoolCategory.bucket : ValidatorPoolCategory → Bucket
  | .stakeValidator .. => .stake
  | .parliamentaryValidator => .parliamentary
  | .meritValidator .. => .merit

/-- `ValidatorPerformance`; its default is all zeros. -/
structure ValidatorPerformance where
  blocksProduced : Nat
  blocksMissed : Nat
  eraPoints : Nat
  lastActiveEra : Nat
  reputationScore : Nat
  deriving DecidableEq, Repr

/-- `ValidatorPerformance::default`, what `PerformanceMetrics` reads for an account without an
entry. -/
def ValidatorPerformance.default : ValidatorPerformance :=
  ⟨0, 0, 0, 0, 0⟩

/-- `ValidatorSet`. -/
structure ValidatorSet (α : Type) where
  eraIndex : Nat
  stakeValidators : List α
  parliamentaryValidators : List α
  meritValidators : List α
  deriving DecidableEq, Repr

/-- `all_validators`: the three categories, one after the other. -/
def ValidatorSet.allValidators {α : Type} (set : ValidatorSet α) : List α :=
  set.stakeValidators ++ set.parliamentaryValidators ++ set.meritValidators

/-- `Event`. -/
inductive Event (α : Type) where
  | validatorJoinedPool (validator : α) (category : ValidatorPoolCategory)
  | validatorLeftPool (validator : α)
  | newEraStarted (eraIndex : Nat) (validatorSet : ValidatorSet α)
  | performanceUpdated (validator : α) (metrics : ValidatorPerformance)
  | poolParametersUpdated (maxValidators : Nat) (eraLength : Nat)
  | categoryUpdated (validator : α) (oldCategory newCategory : ValidatorPoolCategory)
  deriving DecidableEq, Repr

/-- `Error`, and the failure of an origin check. -/
inductive Error where
  | alreadyInPool
  | notInPool
  | poolFull
  | insufficientStake
  | insufficientTrustScore
  | missingRequiredTiki
  | insufficientCommunitySupport
  | eraTransitionTooEarly
  | invalidCategory
  | notEnoughValidators
  | badOrigin
  deriving DecidableEq, Repr

/-- The pallet's constants: `MaxValidators`, `MaxPoolSize` and `MinStakeAmount`. -/
structure Config where
  maxValidators : Nat
  maxPoolSize : Nat
  minStakeAmount : Nat

/-- What the other pallets report while one call runs: `TrustSource::trust_score_of`,
`TikiSource::get_tiki_score` and `ReferralSource::get_referral_count`. -/
structure Sources (α : Type) where
  trustScoreOf : α → Nat
  getTikiScore : α → Nat
  getReferralCount : α → Nat

/-- The 32 bytes of a `T::Hash`, as `T::Randomness::random` returns them. -/
abbrev Hash :=
  Fin 32 → Fin 256

/-- The pallet's storage, the block number and the events deposited so far.
`performanceMetrics` and `selectionHistory` are value queries: an account without an entry reads
the default. -/
structure State (α : Type) [LinearOrder α] where
  blockNumber : Nat
  currentEra : Nat
  eraStart : Nat
  currentValidatorSet : Option (ValidatorSet α)
  poolMembers : StorageMap α ValidatorPoolCategory
  performanceMetrics : α → ValidatorPerformance
  selectionHistory : α → List Nat
  poolSize : Nat
  eraLength : Nat
  events : List (Event α)

variable {α : Type} [LinearOrder α]

/-- The empty storage. -/
def genesis : State α :=
  ⟨0, 0, 0, none, ∅, fun _ => .default, fun _ => [], 0, 0, []⟩

variable (cfg : Config)

/-! ## Admission -/

/-- `validate_category_requirements`. The stake and trust bounds of a stake validator and the
referral bound of a merit validator are those the caller's category carries; of the tikis only
the score is read, and a merit validator's `special_tikis` not at all. -/
def validateCategoryRequirements (src : Sources α) (who : α) :
    ValidatorPoolCategory → Except Error Unit
  | .stakeValidator minStake trustThreshold => do
    ensure (cfg.minStakeAmount ≤ minStake) .insufficientStake
    ensure (trustThreshold ≤ src.trustScoreOf who) .insufficientTrustScore
  | .parliamentaryValidator => ensure (0 < src.getTikiScore who) .missingRequiredTiki
  | .meritValidator _ communityThreshold => do
    ensure (0 < src.getTikiScore who) .missingRequiredTiki
    ensure (communityThreshold ≤ src.getReferralCount who) .insufficientCommunitySupport

/-- `join_validator_pool`, signed by the joining account: a new member starts with a reputation
of 100 and no blocks. -/
def joinValidatorPool (src : Sources α) (s : State α) (origin : Origin α)
    (category : ValidatorPoolCategory) : Except Error (State α) := do
  let who ← ensureSigned origin .badOrigin
  ensure (s.poolMembers.get? who = none) .alreadyInPool
  ensure (s.poolSize < cfg.maxPoolSize) .poolFull
  validateCategoryRequirements cfg src who category
  return { s with
    poolMembers := s.poolMembers.insert who category
    poolSize := saturatingAdd 32 s.poolSize 1
    performanceMetrics := Function.update s.performanceMetrics who ⟨0, 0, 0, s.currentEra, 100⟩
    events := s.events ++ [.validatorJoinedPool who category] }

/-- `leave_validator_pool`, signed by the leaving member: its metrics and its selection history
go with it. -/
def leaveValidatorPool (s : State α) (origin : Origin α) : Except Error (State α) := do
  let who ← ensureSigned origin .badOrigin
  ensure (s.poolMembers.get? who).isSome .notInPool
  return { s with
    poolMembers := s.poolMembers.remove who
    poolSize := s.poolSize - 1
    performanceMetrics := Function.update s.performanceMetrics who .default
    selectionHistory := Function.update s.selectionHistory who []
    events := s.events ++ [.validatorLeftPool who] }

/-- `update_category`, signed by a member, under the new category's requirements. -/
def updateCategory (src : Sources α) (s : State α) (origin : Origin α)
    (newCategory : ValidatorPoolCategory) : Except Error (State α) := do
  let who ← ensureSigned origin .badOrigin
  let oldCategory ← okOr (s.poolMembers.get? who) .notInPool
  validateCategoryRequirements cfg src who newCategory
  return { s with
    poolMembers := s.poolMembers.insert who newCategory
    events := s.events ++ [.categoryUpdated who oldCategory newCategory] }

/-- `set_pool_parameters`, by the root. -/
def setPoolParameters (s : State α) (origin : Origin α) (eraLength : Nat) :
    Except Error (State α) := do
  ensureRoot origin .badOrigin
  return { s with
    eraLength
    events := s.events ++ [.poolParametersUpdated cfg.maxValidators eraLength] }

/-! ## Performance -/

/-- The `PerformanceMetrics::mutate` of `update_performance_metrics`: the block counts rise,
saturating, and the reputation becomes the success rate, computed with a wrapping `u32` sum and
product, unless that sum is zero. -/
def updateMetrics (currentEra blocksProduced blocksMissed eraPoints : Nat)
    (metrics : ValidatorPerformance) : ValidatorPerformance :=
  let metrics := { metrics with
    blocksProduced := saturatingAdd 32 metrics.blocksProduced blocksProduced
    blocksMissed := saturatingAdd 32 metrics.blocksMissed blocksMissed
    eraPoints
    lastActiveEra := currentEra }
  let totalBlocks := wrappingAdd 32 metrics.blocksProduced metrics.blocksMissed
  if 0 < totalBlocks then
    { metrics with
      reputationScore := min (wrappingMul 32 metrics.blocksProduced 100 / totalBlocks) 100 }
  else metrics

/-- `update_performance_metrics`, by the root, of any account. -/
def updatePerformanceMetrics (s : State α) (origin : Origin α) (validator : α)
    (blocksProduced blocksMissed eraPoints : Nat) : Except Error (State α) := do
  ensureRoot origin .badOrigin
  let metrics := updateMetrics s.currentEra blocksProduced blocksMissed eraPoints
    (s.performanceMetrics validator)
  return { s with
    performanceMetrics := Function.update s.performanceMetrics validator metrics
    events := s.events ++ [.performanceUpdated validator metrics] }

/-! ## Selection -/

/-- The share of `MaxValidators` each category is filled to: ten, six and five in twenty-one,
with the products in `u32`. -/
def bucketTarget : Bucket → Nat
  | .stake => wrappingMul 32 cfg.maxValidators 10 / 21
  | .parliamentary => wrappingMul 32 cfg.maxValidators 6 / 21
  | .merit => cfg.maxValidators - wrappingMul 32 cfg.maxValidators 10 / 21 -
      wrappingMul 32 cfg.maxValidators 6 / 21

/-- The bound of each category's vector in `ValidatorSet`. -/
def bucketBound : Bucket → Nat
  | .stake => 10
  | .parliamentary => 6
  | .merit => 5

/-- The rotation and performance rules of `select_validators_for_era`: a member selected in one
of the last three eras, by the saturating difference to the current era, or of a reputation
below 70 is skipped. -/
def isEligible (s : State α) (validator : α) : Bool :=
  !((s.selectionHistory validator).any fun era => decide (s.currentEra - era < 3)) &&
    decide (70 ≤ (s.performanceMetrics validator).reputationScore)

/-- The walk over `PoolMembers`: an eligible member is pushed onto its category's list while the
list is below the category's target. -/
def collectCandidates (s : State α) :
    List (α × ValidatorPoolCategory) → (Bucket → List α) → Bucket → List α
  | [], candidates => candidates
  | (validator, category) :: rest, candidates =>
    collectCandidates s rest
      (if isEligible s validator ∧ (candidates category.bucket).length <
          bucketTarget cfg category.bucket then
        Function.update candidates category.bucket (candidates category.bucket ++ [validator])
      else candidates)

/-- The loop of `shuffle_validators` from position `i + 1` down to `1`: position `i + 1` is
swapped with the position a byte of the seed picks, and the shared index moves on. -/
def shuffleLoop (seed : Hash) : Nat → List α → Nat → List α × Nat
  | 0, validators, index => (validators, index)
  | i + 1, validators, index =>
    let randomByte := (seed ⟨index % 32, Nat.mod_lt _ (by decide)⟩).val
    shuffleLoop seed i (BoundedVec.swap validators (i + 1) (randomByte % (i + 2)))
      (saturatingAdd 32 index 1)

/-- `shuffle_validators`: the positions from the last down to `1`, with the index it is given. -/
def shuffleValidators (seed : Hash) (validators : List α) (index : Nat) : List α × Nat :=
  shuffleLoop seed (validators.length - 1) validators index

/-- The end of `select_validators_for_era`: the minimum of three validators, and the bounds of
`ValidatorSet` that its `try_into` conversions check. -/
def buildValidatorSet (currentEra : Nat)
    (stakeValidators parliamentaryValidators meritValidators : List α) :
    Except Error (ValidatorSet α) := do
  ensure (3 ≤ stakeValidators.length + parliamentaryValidators.length + meritValidators.length)
    .notEnoughValidators
  ensure (stakeValidators.length ≤ bucketBound .stake) .notEnoughValidators
  ensure (parliamentaryValidators.length ≤ bucketBound .parliamentary) .notEnoughValidators
  ensure (meritValidators.length ≤ bucketBound .merit) .notEnoughValidators
  return ⟨saturatingAdd 32 currentEra 1, stakeValidators, parliamentaryValidators,
    meritValidators⟩

/-- `select_validators_for_era`: the categories are collected, shuffled in turn with one shared
index into the seed, truncated to their targets and checked. -/
def selectValidatorsForEra (s : State α) (seed : Hash) : Except Error (ValidatorSet α) := do
  let candidates := collectCandidates cfg s s.poolMembers.entries fun _ => []
  let (stakeValidators, index) := shuffleValidators seed (candidates .stake) 0
  let (parliamentaryValidators, index) := shuffleValidators seed (candidates .parliamentary) index
  let (meritValidators, _) := shuffleValidators seed (candidates .merit) index
  buildValidatorSet s.currentEra (stakeValidators.take (bucketTarget cfg .stake))
    (parliamentaryValidators.take (bucketTarget cfg .parliamentary))
    (meritValidators.take (bucketTarget cfg .merit))

/-- The `SelectionHistory::mutate` of one selected validator: the era is pushed, and when the
history already holds five eras the oldest goes first. -/
def pushHistory (newEra : Nat) (history : List Nat) : List Nat :=
  match BoundedVec.tryPush 5 history newEra with
  | some history => history
  | none => history.tail ++ [newEra]

/-- The histories after recording `newEra` for each validator in turn. -/
def recordSelection (newEra : Nat) (validators : List α) (history : α → List Nat) :
    α → List Nat :=
  validators.foldl (fun history validator =>
    Function.update history validator (pushHistory newEra (history validator))) history

/-- `do_new_era`: the selection is the only step that can fail, and it fails before anything is
written. -/
def doNewEra (s : State α) (seed : Hash) : Except Error (State α) := do
  let newEra := saturatingAdd 32 s.currentEra 1
  let newValidatorSet ← selectValidatorsForEra cfg s seed
  return { s with
    currentEra := newEra
    eraStart := s.blockNumber
    currentValidatorSet := some newValidatorSet
    selectionHistory := recordSelection newEra newValidatorSet.allValidators s.selectionHistory
    events := s.events ++ [.newEraStarted newEra newValidatorSet] }

/-- `force_new_era`, by the root. -/
def forceNewEra (s : State α) (origin : Origin α) (seed : Hash) : Except Error (State α) := do
  ensureRoot origin .badOrigin
  doNewEra cfg s seed

/-- `on_initialize`: once the block number reaches `era_start + era_length`, a block-number sum
in `u32` that wraps, a new era starts; a failure of `do_new_era` is ignored, and it has written
nothing. -/
def onInitialize (s : State α) (seed : Hash) : State α :=
  if wrappingAdd 32 s.eraStart s.eraLength ≤ s.blockNumber ∧ 0 < s.eraLength then
    commit (doNewEra cfg s seed) s
  else s

/-- The runtime's constants: `MaxValidatorsPerEra`, `MaxValidatorPoolSize` and
`MinValidatorStakeAmount`, ten thousand `HEZ` of `10^12` units. -/
def runtimeConfig : Config :=
  ⟨21, 500, 10_000 * 1_000_000_000_000⟩

/-! ## Runs -/

/-- The calls with their origins, the sources and random hashes they read, and the start of a
new block, whose hook runs with the hash of that block. -/
inductive Action (α : Type) where
  | joinValidatorPool (origin : Origin α) (category : ValidatorPoolCategory) (src : Sources α)
  | leaveValidatorPool (origin : Origin α)
  | forceNewEra (origin : Origin α) (seed : Hash)
  | updateCategory (origin : Origin α) (newCategory : ValidatorPoolCategory) (src : Sources α)
  | setPoolParameters (origin : Origin α) (eraLength : Nat)
  | updatePerformanceMetrics (origin : Origin α) (validator : α)
      (blocksProduced blocksMissed eraPoints : Nat)
  | initializeBlock (blockNumber : Nat) (seed : Hash)

/-- One step: a failed call is rolled back; a new block has a larger number, and its hook
runs. -/
def step (s : State α) : Action α → State α
  | .joinValidatorPool origin category src =>
    commit (joinValidatorPool cfg src s origin category) s
  | .leaveValidatorPool origin => commit (leaveValidatorPool s origin) s
  | .forceNewEra origin seed => commit (forceNewEra cfg s origin seed) s
  | .updateCategory origin newCategory src => commit (updateCategory cfg src s origin newCategory) s
  | .setPoolParameters origin eraLength => commit (setPoolParameters cfg s origin eraLength) s
  | .updatePerformanceMetrics origin validator blocksProduced blocksMissed eraPoints =>
    commit (updatePerformanceMetrics s origin validator blocksProduced blocksMissed eraPoints) s
  | .initializeBlock blockNumber seed =>
    if s.blockNumber < blockNumber then onInitialize cfg { s with blockNumber } seed else s

end ValidatorPool
