import Pezkuwi.Frame.Assets

/-!
# PEZ treasury: genesis distribution and monthly releases

`pallet-pez-treasury` mints the PEZ supply once, into the treasury, the presale and the founder
accounts, and then pays a monthly amount from the treasury to the incentive and government pots:
75% and the rest. The monthly amount starts at half the treasury allocation spread over 48
months and halves when a call finds 48 months more elapsed than the periods counted so far;
each call halves at most once. Every release is recorded under its month index, and
`total_released` sums what was paid.

The model follows `src/pezkuwi/pallets/pez-treasury/src/lib.rs`. The PEZ asset is the
`pallet-assets` ledger of `Pezkuwi.Frame.Assets`; the five accounts are the runtime's, derived
from four distinct pallet ids and two fixed accounts, and the treasury account is none of the
other four. Block numbers are the runtime's `u32`: blocks pass up to `u32::MAX`. The month counter
and the period arithmetic are `u32`, with `+` and `*` wrapping as a build without overflow checks
does; balances are `u128`. Events are left out.

## Main definitions

* `Config`, `State`: the accounts and the asset's minimum balance; the pallet's storage
* `doGenesisDistribution`, `doInitializeTreasury`, `doMonthlyRelease`: the calls
* `Action`, `step`: the calls with their origins, dispatched with rollback on failure
-/

namespace PezTreasury

open Bounded Machine

/-- `HALVING_PERIOD_MONTHS`. -/
def halvingPeriodMonths : Nat := 48

/-- `BLOCKS_PER_MONTH`. -/
def blocksPerMonth : Nat := 432000

/-- `TREASURY_ALLOCATION`, in the asset's twelve-decimal units. -/
def treasuryAllocation : Nat := 4812500000 * 10 ^ 12

/-- `PRESALE_ALLOCATION`. -/
def presaleAllocation : Nat := 93750000 * 10 ^ 12

/-- `FOUNDER_ALLOCATION`. -/
def founderAllocation : Nat := 93750000 * 10 ^ 12

/-- `HalvingData`; its default is all zeros. -/
structure HalvingData where
  currentPeriod : Nat
  periodStartBlock : Nat
  monthlyAmount : Nat
  totalReleased : Nat
  deriving DecidableEq, Repr

/-- `MonthlyRelease`. -/
structure MonthlyRelease where
  monthIndex : Nat
  releaseBlock : Nat
  amountReleased : Nat
  incentiveAmount : Nat
  governmentAmount : Nat
  deriving DecidableEq, Repr

/-- `Error`, a token error of a mint, and the failure of the origin check. -/
inductive Error where
  | treasuryAlreadyInitialized
  | treasuryNotInitialized
  | monthlyReleaseAlreadyDone
  | insufficientTreasuryBalance
  | invalidHalvingPeriod
  | releaseTooEarly
  | genesisDistributionAlreadyDone
  | token (e : Assets.TokenError)
  | badOrigin
  deriving DecidableEq, Repr

/-- The runtime's accounts and the PEZ asset's `min_balance`. The treasury account, derived
from its own pallet id, is none of the other four. -/
structure Config (α : Type) where
  minBalance : Nat
  treasuryAccount : α
  incentivePot : α
  governmentPot : α
  presaleAccount : α
  founderAccount : α
  treasury_fresh : treasuryAccount ∉ [incentivePot, governmentPot, presaleAccount, founderAccount]

/-- The pallet's storage, the PEZ ledger and the block number. -/
structure State (α : Type) [LinearOrder α] where
  blockNumber : Nat
  pez : Assets.Ledger α
  halvingInfo : HalvingData
  monthlyReleases : StorageMap Nat MonthlyRelease
  nextReleaseMonth : Nat
  treasuryStartBlock : Option Nat
  genesisDistributionDone : Bool

variable {α : Type} [LinearOrder α]

/-- The storage at genesis, over a PEZ ledger. -/
def genesis (pez : Assets.Ledger α) : State α :=
  ⟨0, pez, ⟨0, 0, 0, 0⟩, ∅, 0, none, false⟩

variable (cfg : Config α)

/-- `do_genesis_distribution`: the three allocations are minted once. -/
def doGenesisDistribution (s : State α) : Except Error (State α) := do
  ensure (s.genesisDistributionDone = false) .genesisDistributionAlreadyDone
  let pez ← (Assets.mintInto cfg.minBalance s.pez cfg.treasuryAccount treasuryAllocation).mapError
    .token
  let pez ← (Assets.mintInto cfg.minBalance pez cfg.presaleAccount presaleAllocation).mapError
    .token
  let pez ← (Assets.mintInto cfg.minBalance pez cfg.founderAccount founderAllocation).mapError
    .token
  return { s with pez, genesisDistributionDone := true }

/-- `do_initialize_treasury`: the first monthly amount is half the allocation over 48 months.
The divisions by nonzero constants cannot fail. -/
def doInitializeTreasury (s : State α) : Except Error (State α) := do
  ensure (s.treasuryStartBlock = none) .treasuryAlreadyInitialized
  let monthlyAmount := treasuryAllocation / 2 / halvingPeriodMonths
  return { s with
    treasuryStartBlock := some s.blockNumber
    halvingInfo := ⟨0, s.blockNumber, monthlyAmount, 0⟩
    nextReleaseMonth := 0 }

/-- The halving step of `do_monthly_release`: a new period starts when the months elapsed reach
48 past the periods counted, whatever the month index. -/
def nextHalving (halvingData : HalvingData) (monthsPassed currentBlock : Nat) : HalvingData :=
  let currentPeriodPassedMonths :=
    monthsPassed - wrappingMul 32 halvingData.currentPeriod halvingPeriodMonths
  if halvingPeriodMonths ≤ currentPeriodPassedMonths then
    { halvingData with
      currentPeriod := saturatingAdd 32 halvingData.currentPeriod 1
      monthlyAmount := halvingData.monthlyAmount / 2
      periodStartBlock := currentBlock }
  else halvingData

/-- The 75% of the monthly amount that goes to the incentive pot: `checked_mul(75)` then
`checked_div(100)`. -/
def incentiveShare (monthlyAmount : Nat) : Option Nat :=
  (checkedMul 128 monthlyAmount 75).map (· / 100)

/-- `do_monthly_release`: month `NextReleaseMonth` is paid once at least that many months and one
have passed since the start. -/
def doMonthlyRelease (s : State α) : Except Error (State α) := do
  let startBlock ← okOr s.treasuryStartBlock .treasuryNotInitialized
  let currentBlock := s.blockNumber
  let nextMonth := s.nextReleaseMonth
  ensure (s.monthlyReleases.get? nextMonth = none) .monthlyReleaseAlreadyDone
  let blocksPassed := currentBlock - startBlock
  let monthsPassed := blocksPassed / blocksPerMonth
  -- the conversion of the months to `u32`
  ensure (monthsPassed ≤ maxValue 32) .invalidHalvingPeriod
  ensure (wrappingAdd 32 nextMonth 1 ≤ monthsPassed) .releaseTooEarly
  let halvingData := nextHalving s.halvingInfo monthsPassed currentBlock
  let monthlyAmount := halvingData.monthlyAmount
  let incentiveAmount ← okOr (incentiveShare monthlyAmount) .invalidHalvingPeriod
  let governmentAmount := monthlyAmount - incentiveAmount
  let pez ← (Assets.transfer cfg.minBalance s.pez cfg.treasuryAccount cfg.incentivePot
    incentiveAmount .preserve).mapError fun _ => .insufficientTreasuryBalance
  let pez ← (Assets.transfer cfg.minBalance pez cfg.treasuryAccount cfg.governmentPot
    governmentAmount .preserve).mapError fun _ => .insufficientTreasuryBalance
  let halvingData := { halvingData with
    totalReleased := saturatingAdd 128 halvingData.totalReleased monthlyAmount }
  let releaseInfo : MonthlyRelease :=
    ⟨nextMonth, currentBlock, monthlyAmount, incentiveAmount, governmentAmount⟩
  return { s with
    pez
    halvingInfo := halvingData
    monthlyReleases := s.monthlyReleases.insert nextMonth releaseInfo
    nextReleaseMonth := wrappingAdd 32 nextMonth 1 }

/-! ## Runs -/

/-- The calls with their origins, and the passing of blocks. -/
inductive Action (α : Type) where
  | initializeTreasury (origin : Origin α)
  | releaseMonthlyFunds (origin : Origin α)
  | forceGenesisDistribution (origin : Origin α)
  | advance (blockNumber : Nat)

/-- One step: each call checks `ForceOrigin`, the root, and a failed call is rolled back; a
block number only grows, within `u32`. -/
def step (s : State α) : Action α → State α
  | .initializeTreasury origin =>
    commit (ensureRoot origin .badOrigin >>= fun _ => doInitializeTreasury s) s
  | .releaseMonthlyFunds origin =>
    commit (ensureRoot origin .badOrigin >>= fun _ => doMonthlyRelease cfg s) s
  | .forceGenesisDistribution origin =>
    commit (ensureRoot origin .badOrigin >>= fun _ => doGenesisDistribution cfg s) s
  | .advance b =>
    if s.blockNumber ≤ b ∧ b ≤ maxValue 32 then { s with blockNumber := b } else s

end PezTreasury
