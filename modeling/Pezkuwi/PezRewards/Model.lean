import Pezkuwi.Frame.Assets

/-!
# PEZ rewards: the epoch state machine

`pallet-pez-rewards` pays PEZ from one incentive pot to the accounts that recorded a trust
score in an epoch. An epoch is `Open` while scores are recorded; `finalize_epoch` sends 10% of
the pot to the registered parliamentary NFT owners, fixes the reward per trust point of the
epoch from the rest, puts the epoch in `ClaimPeriod` and opens the next one; `claim_reward`
pays one recorded score within the claim window; `close_epoch` sweeps the whole pot to the
clawback recipient once the window is over.

The model follows `src/pezkuwi/pallets/pez-rewards/src/lib.rs`. Storage items are fields of
`State`; the `EpochInfo` value is `none` until it is first written, since
`initialize_rewards_system` asks whether it exists. PEZ balances are one asset of
`pallet-assets` (`Assets.Ledger`). Balances are `u128` and block numbers `u32` as in the
runtime; `*` on balances wraps as in a build without overflow checks. The trust score source
is read at each `record_trust_score`, and its value is the argument of that action.

## Main definitions

* `State`, `Config`, `genesis`: the pallet's storage, its constants, the empty storage
* `doInitializeRewardsSystem`, `doRecordTrustScore`, `doFinalizeEpoch`, `doClaimReward`,
  `doCloseEpoch`, `doRegisterParliamentaryNftOwner`: the calls
* `Action`, `step`: the calls, deposits into the pot and the passing of blocks, dispatched
  with rollback on failure
-/

namespace PezRewards

open Bounded Machine

/-- `BLOCKS_PER_EPOCH`. -/
def blocksPerEpoch : Nat := 432000

/-- `CLAIM_PERIOD_BLOCKS`. -/
def claimPeriodBlocks : Nat := 100800

/-- `PARLIAMENTARY_NFT_COUNT`. -/
def parliamentaryNftCount : Nat := 201

/-- `PARLIAMENTARY_REWARD_PERCENT`. -/
def parliamentaryRewardPercent : Nat := 10

/-- `EpochData`. -/
structure EpochData where
  currentEpoch : Nat
  epochStartBlock : Nat
  totalEpochsCompleted : Nat
  deriving DecidableEq, Repr

/-- `EpochRewardPool`. -/
structure EpochRewardPool where
  epochIndex : Nat
  totalRewardPool : Nat
  totalTrustScore : Nat
  rewardPerTrustPoint : Nat
  participantsCount : Nat
  claimDeadline : Nat
  deriving DecidableEq, Repr

/-- `EpochState`; `Open` is the default of the `EpochStatus` map. -/
inductive EpochState where
  | open
  | claimPeriod
  | closed
  deriving DecidableEq, Repr

/-- `Error`, with the token errors of `pallet-assets` passed through. -/
inductive Error where
  | epochNotFinished
  | rewardAlreadyClaimed
  | rewardPoolNotCalculated
  | noTrustScoreForEpoch
  | claimPeriodExpired
  | epochAlreadyClosed
  | insufficientIncentivePot
  | calculationOverflow
  | alreadyInitialized
  | noRewardToClaim
  | token (e : Assets.TokenError)
  deriving DecidableEq, Repr

/-- `Event`. -/
inductive Event (α : Type) where
  | newEpochStarted (epochIndex startBlock : Nat)
  | epochRewardPoolCalculated (epochIndex totalPool totalTrustScore participantsCount
      claimDeadline : Nat)
  | rewardClaimed (user : α) (epochIndex amount : Nat)
  | epochClosed (epochIndex unclaimedAmount : Nat) (clawbackRecipient : α)
  | trustScoreRecorded (user : α) (epochIndex trustScore : Nat)
  | parliamentaryNftRewardDistributed (nftId : Nat) (owner : α) (amount epoch : Nat)
  | parliamentaryOwnerRegistered (nftId : Nat) (owner : α)
  deriving DecidableEq, Repr

/-- The constants of the runtime the pallet reads. -/
structure Config (α : Type) where
  /-- `incentive_pot_account_id()`. -/
  incentivePot : α
  /-- `ClawbackRecipient`. -/
  clawbackRecipient : α
  /-- The `min_balance` of the PEZ asset. -/
  minBalance : Nat

/-- The pallet's storage, the PEZ asset and the block number. -/
structure State (α : Type) [LinearOrder α] where
  blockNumber : Nat
  epochInfo : Option EpochData
  epochRewardPools : StorageMap Nat EpochRewardPool
  userEpochScores : Nat → StorageMap α Nat
  claimedRewards : Nat → StorageMap α Nat
  epochStatus : StorageMap Nat EpochState
  parliamentaryNftOwners : StorageMap Nat α
  pez : Assets.Ledger α
  events : List (Event α)

variable {α : Type} [LinearOrder α]

/-- The storage before any call, over the PEZ balances of genesis. -/
def genesis (pez : Assets.Ledger α) : State α :=
  ⟨0, none, ∅, fun _ => ∅, fun _ => ∅, ∅, ∅, pez, []⟩

namespace State

/-- `EpochInfo::get()`: the stored value, or the default `EpochData`. -/
def epochData (s : State α) : EpochData :=
  s.epochInfo.getD ⟨0, 0, 0⟩

/-- `EpochStatus::get(e)`: the stored state, or `Open`. -/
def statusOf (s : State α) (e : Nat) : EpochState :=
  s.epochStatus.getD e .open

end State

variable (cfg : Config α)

/-! ## The calls -/

/-- `do_initialize_rewards_system`. -/
def doInitializeRewardsSystem (s : State α) : Except Error (State α) :=
  if s.epochInfo.isSome then .error .alreadyInitialized
  else .ok { s with
    epochInfo := some ⟨0, s.blockNumber, 0⟩
    epochStatus := s.epochStatus.insert 0 .open
    events := s.events ++ [.newEpochStarted 0 s.blockNumber] }

/-- `do_record_trust_score`, with `trustScore` the value the trust score source returns. -/
def doRecordTrustScore (s : State α) (who : α) (trustScore : Nat) : Except Error (State α) :=
  let currentEpoch := s.epochData.currentEpoch
  if s.statusOf currentEpoch ≠ .open then .error .epochAlreadyClosed
  else .ok { s with
    userEpochScores := Function.update s.userEpochScores currentEpoch
      ((s.userEpochScores currentEpoch).insert who trustScore)
    events := s.events ++ [.trustScoreRecorded who currentEpoch trustScore] }

/-- The loop of `distribute_parliamentary_rewards` over the NFT ids: each registered owner is
paid `perNftReward` from the pot, and the first failed transfer fails the call. -/
def payParliamentaryNftOwners (epoch perNftReward : Nat) :
    List Nat → State α → Except Error (State α)
  | [], s => .ok s
  | nftId :: rest, s =>
    match s.parliamentaryNftOwners.get? nftId with
    | none => payParliamentaryNftOwners epoch perNftReward rest s
    | some owner =>
      match Assets.transfer cfg.minBalance s.pez cfg.incentivePot owner perNftReward
          .expendable with
      | .error e => .error (.token e)
      | .ok pez => payParliamentaryNftOwners epoch perNftReward rest { s with
          pez := pez
          events := s.events ++ [.parliamentaryNftRewardDistributed nftId owner perNftReward epoch] }

/-- `distribute_parliamentary_rewards`. -/
def distributeParliamentaryRewards (epoch totalIncentivePool : Nat) (s : State α) :
    Except Error (State α) :=
  let parliamentaryAllocation :=
    wrappingMul 128 totalIncentivePool parliamentaryRewardPercent / 100
  let perNftReward := parliamentaryAllocation / parliamentaryNftCount
  payParliamentaryNftOwners cfg epoch perNftReward (List.range' 1 parliamentaryNftCount) s

/-- The reward pool `do_finalize_epoch` stores for an epoch whose scores are `scores`, finalized
at block `currentBlock` from a pot of `totalRewardPool`. -/
def rewardPoolOf (epoch totalRewardPool currentBlock : Nat) (scores : StorageMap α Nat) :
    EpochRewardPool :=
  let trustScorePool := wrappingMul 128 totalRewardPool 90 / 100
  -- the two running sums of the loop over `UserEpochScores::iter_prefix`
  let totalTrustScore := saturatingSum 128 (scores.entries.map Prod.snd)
  let participantsCount := saturatingSum 32 (scores.entries.map fun _ => 1)
  let rewardPerTrustPoint := if 0 < totalTrustScore then trustScorePool / totalTrustScore else 0
  ⟨epoch, trustScorePool, totalTrustScore, rewardPerTrustPoint, participantsCount,
    saturatingAdd 32 currentBlock claimPeriodBlocks⟩

/-- `do_finalize_epoch`. -/
def doFinalizeEpoch (s : State α) : Except Error (State α) := do
  let epochData := s.epochData
  let currentEpoch := epochData.currentEpoch
  let currentBlock := s.blockNumber
  ensure (blocksPerEpoch ≤ currentBlock - epochData.epochStartBlock) .epochNotFinished
  ensure (s.statusOf currentEpoch = .open) .epochAlreadyClosed
  let totalRewardPool := s.pez.balance cfg.incentivePot
  ensure (0 < totalRewardPool) .insufficientIncentivePot
  let s ← distributeParliamentaryRewards cfg currentEpoch totalRewardPool s
  let pool := rewardPoolOf currentEpoch totalRewardPool currentBlock
    (s.userEpochScores currentEpoch)
  let newEpoch := saturatingAdd 32 currentEpoch 1
  return { s with
    epochRewardPools := s.epochRewardPools.insert currentEpoch pool
    epochStatus := (s.epochStatus.insert currentEpoch .claimPeriod).insert newEpoch .open
    epochInfo := some ⟨newEpoch, currentBlock,
      saturatingAdd 32 epochData.totalEpochsCompleted 1⟩
    events := s.events ++ [.epochRewardPoolCalculated currentEpoch pool.totalRewardPool
      pool.totalTrustScore pool.participantsCount pool.claimDeadline,
      .newEpochStarted newEpoch currentBlock] }

/-- `do_claim_reward`. -/
def doClaimReward (s : State α) (who : α) (epochIndex : Nat) : Except Error (State α) := do
  ensure (s.statusOf epochIndex = .claimPeriod) .claimPeriodExpired
  ensure ((s.claimedRewards epochIndex).get? who = none) .rewardAlreadyClaimed
  let rewardPool ← okOr (s.epochRewardPools.get? epochIndex) .rewardPoolNotCalculated
  ensure (s.blockNumber ≤ rewardPool.claimDeadline) .claimPeriodExpired
  let userTrustScore ← okOr ((s.userEpochScores epochIndex).get? who) .noTrustScoreForEpoch
  let rewardAmount ← okOr (checkedMul 128 rewardPool.rewardPerTrustPoint userTrustScore)
    .calculationOverflow
  ensure (0 < rewardAmount) .noRewardToClaim
  let pez ← (Assets.transfer cfg.minBalance s.pez cfg.incentivePot who rewardAmount
    .expendable).mapError .token
  return { s with
    pez := pez
    claimedRewards := Function.update s.claimedRewards epochIndex
      ((s.claimedRewards epochIndex).insert who rewardAmount)
    events := s.events ++ [.rewardClaimed who epochIndex rewardAmount] }

/-- `do_close_epoch`: the whole balance of the pot goes to the clawback recipient. -/
def doCloseEpoch (s : State α) (epochIndex : Nat) : Except Error (State α) := do
  ensure (s.statusOf epochIndex = .claimPeriod) .epochAlreadyClosed
  let rewardPool ← okOr (s.epochRewardPools.get? epochIndex) .rewardPoolNotCalculated
  ensure (rewardPool.claimDeadline < s.blockNumber) .claimPeriodExpired
  let remainingBalance := s.pez.balance cfg.incentivePot
  let pez ← if 0 < remainingBalance then
      (Assets.transfer cfg.minBalance s.pez cfg.incentivePot cfg.clawbackRecipient
        remainingBalance .expendable).mapError .token
    else pure s.pez
  return { s with
    pez := pez
    epochStatus := s.epochStatus.insert epochIndex .closed
    events := s.events ++ [.epochClosed epochIndex remainingBalance cfg.clawbackRecipient] }

/-- `do_register_parliamentary_nft_owner`. -/
def doRegisterParliamentaryNftOwner (s : State α) (nftId : Nat) (owner : α) : State α :=
  { s with
    parliamentaryNftOwners := s.parliamentaryNftOwners.insert nftId owner
    events := s.events ++ [.parliamentaryOwnerRegistered nftId owner] }

/-! ## Runs -/

/-- What can happen to the pallet: a call with its required origin, a transfer of PEZ into the
pot by other code (such as the monthly releases of `pallet-pez-treasury`), or a later block. -/
inductive Action (α : Type) where
  | initializeRewardsSystem
  | recordTrustScore (who : α) (trustScore : Nat)
  | finalizeEpoch
  | claimReward (who : α) (epochIndex : Nat)
  | closeEpoch (epochIndex : Nat)
  | registerParliamentaryNftOwner (nftId : Nat) (owner : α)
  | depositToPot (source : α) (amount : Nat)
  | advance (blockNumber : Nat)

/-- One step: a failed call is rolled back by the dispatch layer, a block number only grows and
stays a `u32`. -/
def step (s : State α) : Action α → State α
  | .initializeRewardsSystem => commit (doInitializeRewardsSystem s) s
  | .recordTrustScore who trustScore => commit (doRecordTrustScore s who trustScore) s
  | .finalizeEpoch => commit (doFinalizeEpoch cfg s) s
  | .claimReward who epochIndex => commit (doClaimReward cfg s who epochIndex) s
  | .closeEpoch epochIndex => commit (doCloseEpoch cfg s epochIndex) s
  | .registerParliamentaryNftOwner nftId owner => doRegisterParliamentaryNftOwner s nftId owner
  | .depositToPot source amount =>
    match Assets.transfer cfg.minBalance s.pez source cfg.incentivePot amount .expendable with
    | .ok pez => { s with pez := pez }
    | .error _ => s
  | .advance b => if s.blockNumber ≤ b ∧ b ≤ maxValue 32 then { s with blockNumber := b } else s

end PezRewards
