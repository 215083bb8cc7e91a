import Pezkuwi.Storage.Map
import Pezkuwi.Machine.Reach
import Pezkuwi.Arith.Bounded
import Pezkuwi.IdentityKyc.Model

/-!
# Trust scores and their running total

`pallet-trust` keeps one trust score per account and `TotalActiveTrustScore`, a running total
that each change of a score moves: the old score is taken off with a saturating subtraction and
the new one added with a saturating addition. A score is computed from four components that
other pallets report (staking, referral, education and roles), for citizens only: in the runtime
a citizen is an account whose `identity-kyc` level is `Approved`. The bulk update walks the KYC
map in batches and saves a cursor between calls.

The model follows `src/pezkuwi/pallets/trust/src/lib.rs` with the runtime's types: `Score` is
`u128`, so the final conversion never fails, and the components are `u32`. What the other pallets
report is an argument of every call, `Sources`, and may change arbitrarily between calls. The
KYC map is iterated in the order of `StorageMap`, the key order standing for the store's hash
order. Events are left out.

## Main definitions

* `Sources`: the KYC map and the four score components, as one call sees them
* `State`: `TrustScores`, `TotalActiveTrustScore`, `LastProcessedAccount`, `BatchUpdateInProgress`
* `calculateTrustScore`, `updateScoreForAccount`: one account's score, and its update
* `updateAllLoop`, `updateAllTrustScores`, `periodicTrustScoreUpdate`: the batched update
* `Action`, `step`: the calls and the `TrustScoreUpdater` hook, with rollback on failure
-/

namespace Trust

open Bounded Machine IdentityKyc

/-- `Error`, and the failure of the origin check. -/
inductive Error where
  | calculationOverflow
  | notACitizen
  | updateInProgress
  | badOrigin
  deriving DecidableEq, Repr

/-- What the other pallets report while one call runs: the KYC map of `identity-kyc`, and the
staking, referral, education and role components, each a `u32`. -/
structure Sources (α : Type) [LinearOrder α] where
  kycStatuses : StorageMap α KycLevel
  stakingScore : α → Nat
  referralScore : α → Nat
  perwerdeScore : α → Nat
  tikiScore : α → Nat
  stakingScore_le : ∀ who, stakingScore who ≤ maxValue 32
  referralScore_le : ∀ who, referralScore who ≤ maxValue 32
  perwerdeScore_le : ∀ who, perwerdeScore who ≤ maxValue 32
  tikiScore_le : ∀ who, tikiScore who ≤ maxValue 32

/-- The pallet's constant `ScoreMultiplierBase` (1000 in the runtime). -/
structure Config where
  scoreMultiplierBase : Nat

/-- The pallet's storage. -/
structure State (α : Type) [LinearOrder α] where
  trustScores : StorageMap α Nat
  totalActiveTrustScore : Nat
  lastProcessedAccount : Option α
  batchUpdateInProgress : Bool

variable {α : Type} [LinearOrder α]

/-- The storage at genesis: `start_periodic_updates` writes nothing. -/
def genesis : State α :=
  ⟨∅, 0, none, false⟩

/-- `CitizenshipProvider::is_citizen` of the runtime: the KYC level, read with its default, is
`Approved`. -/
def Sources.isCitizen (src : Sources α) (who : α) : Bool :=
  src.kycStatuses.getD who .notStarted == .approved

/-- `trust_score_of`: the stored score, zero by default. -/
def trustScoreOf (s : State α) (who : α) : Nat :=
  s.trustScores.getD who 0

/-- The weighted sum of `calculate_trust_score`, in saturating `u128` arithmetic. -/
def weightedSum (staking referral perwerde tiki : Nat) : Nat :=
  saturatingAdd 128
    (saturatingAdd 128
      (saturatingAdd 128 (saturatingMul 128 staking 100) (saturatingMul 128 referral 300))
      (saturatingMul 128 perwerde 300))
    (saturatingMul 128 tiki 300)

variable (cfg : Config)

/-- `calculate_trust_score`: zero without stake; otherwise the stake times the weighted sum,
over the multiplier base. -/
def calculateTrustScore (src : Sources α) (who : α) : Except Error Nat := do
  ensure (src.isCitizen who) .notACitizen
  if src.stakingScore who = 0 then pure 0 else
  let weighted := weightedSum (src.stakingScore who) (src.referralScore who)
    (src.perwerdeScore who) (src.tikiScore who)
  -- `Score` is `u128`, so the conversion of the quotient cannot fail
  okOr (checkedDiv (saturatingMul 128 (src.stakingScore who) weighted) cfg.scoreMultiplierBase)
    .calculationOverflow

/-- `update_score_for_account`: a changed score is stored and moves the running total. It
returns the new score. -/
def updateScoreForAccount (src : Sources α) (s : State α) (who : α) :
    Except Error (Nat × State α) := do
  let oldScore := trustScoreOf s who
  let newScore ← calculateTrustScore cfg src who
  if oldScore ≠ newScore then
    let newTotal := saturatingAdd 128 (s.totalActiveTrustScore - oldScore) newScore
    pure (newScore, { s with
      trustScores := s.trustScores.insert who newScore
      totalActiveTrustScore := newTotal })
  else pure (newScore, s)

/-- `calculate_optimal_batch_size`: the number of approved accounts, cast to `u32`, picks the
batch size. -/
def calculateOptimalBatchSize (src : Sources α) : Nat :=
  let totalUsers := (src.kycStatuses.entries.filter fun e => e.2 == .approved).length % 2 ^ 32
  if totalUsers ≤ 100 then totalUsers
  else if totalUsers ≤ 1000 then 100
  else if totalUsers ≤ 10000 then 200
  else 500

/-- The loop of `update_all_trust_scores` over the remaining KYC entries, carrying `found_start`
and `updated_count`; it returns the state and `all_processed`. -/
def updateAllLoop (src : Sources α) (startKey : Option α) (batchSize : Nat) :
    List (α × KycLevel) → Bool → Nat → State α → State α × Bool
  | [], _, _, s => (s, true)
  | (account, kycLevel) :: rest, foundStart, updatedCount, s =>
    if !foundStart then
      -- the walk skips up to the cursor, and the cursor itself
      updateAllLoop src startKey batchSize rest (some account == startKey) updatedCount s
    else if batchSize ≤ updatedCount then
      ({ s with lastProcessedAccount := some account }, false)
    else if kycLevel = .approved then
      -- a failed update is ignored; it has written nothing
      updateAllLoop src startKey batchSize rest true (wrappingAdd 32 updatedCount 1)
        (commit ((updateScoreForAccount cfg src s account).map Prod.snd) s)
    else updateAllLoop src startKey batchSize rest true updatedCount s

/-- `update_all_trust_scores` after its origin check: one batch from the cursor, which is
cleared once the walk reaches the end. -/
def updateAllTrustScores (src : Sources α) (s : State α) : State α :=
  let batchSize := calculateOptimalBatchSize src
  let startKey := s.lastProcessedAccount
  let (s, allProcessed) :=
    updateAllLoop cfg src startKey batchSize src.kycStatuses.entries startKey.isNone 0 s
  if allProcessed then { s with lastProcessedAccount := none, batchUpdateInProgress := false }
  else { s with batchUpdateInProgress := true }

/-- `periodic_trust_score_update` after its origin check: a new walk starts only when none is
in progress. -/
def periodicTrustScoreUpdate (src : Sources α) (s : State α) : Except Error (State α) := do
  ensure (s.batchUpdateInProgress = false) .updateInProgress
  pure (updateAllTrustScores cfg src s)

/-! ## Runs -/

/-- The calls with their origins, and the `TrustScoreUpdater` hook that other pallets call when
a component changes; each carries what the other pallets report at that point. -/
inductive Action (α : Type) [LinearOrder α] where
  | forceRecalculateTrustScore (origin : Origin α) (src : Sources α) (who : α)
  | updateAllTrustScores (origin : Origin α) (src : Sources α)
  | periodicTrustScoreUpdate (origin : Origin α) (src : Sources α)
  | onScoreComponentChanged (src : Sources α) (who : α)

/-- One step: the calls check for the root origin and are rolled back on failure; the hook logs
a failure and writes nothing. -/
def step (s : State α) : Action α → State α
  | .forceRecalculateTrustScore origin src who =>
    commit (ensureRoot origin .badOrigin >>= fun _ =>
      (updateScoreForAccount cfg src s who).map Prod.snd) s
  | .updateAllTrustScores origin src =>
    commit (ensureRoot origin Error.badOrigin >>= fun _ => pure (updateAllTrustScores cfg src s)) s
  | .periodicTrustScoreUpdate origin src =>
    commit (ensureRoot origin .badOrigin >>= fun _ => periodicTrustScoreUpdate cfg src s) s
  | .onScoreComponentChanged src who =>
    commit ((updateScoreForAccount cfg src s who).map Prod.snd) s

end Trust
