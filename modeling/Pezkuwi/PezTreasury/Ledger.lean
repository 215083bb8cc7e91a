import Pezkuwi.PezTreasury.Model

/-!
# PEZ treasury: the release ledger

Each successful `release_monthly_funds` moves the month's amount out of the treasury, in two
transfers that keep the treasury alive and so take exactly what they pay, adds it to
`total_released` and records it under the next month index. The ledger that results holds in
every reachable state: the months recorded are exactly those below `NextReleaseMonth`,
`total_released` is the sum of their amounts, each record splits its amount into the two pots'
shares, and, once the allocations are minted, the treasury's balance and `total_released` add up
to `TREASURY_ALLOCATION`, so that no more than the allocation is ever released. The last needs
the treasury account empty before the mint: the allocation is minted on top of what it holds.

The books are kept uniformly: before the mint the treasury is empty and nothing is released, a
release then having to pay nothing. `total_released` cannot saturate, being bounded by the
allocation; the month counter cannot wrap, being bounded by the months in `u32::MAX` blocks.

The amount released follows the halving rule of `do_monthly_release`, which reads the months
passed since the start at the block of the call, not the month index released: a release starts
a new period, and halves the amount once, when those months reach 48 past the periods counted
(`release_follows_halving_rule`). Released on time, month 47 is already paid at half rate;
released late, month 0 is (`halving_follows_call_time`).

## Main definitions

* `LedgerInv`: the release ledger, with the bounds and the state before initialization that
  carry it
* `periodAfter`, `HalvingInv`: the period a release ends in, and the halving state it keeps

## Main results

* `doGenesisDistribution_ok`, `doInitializeTreasury_ok`, `doMonthlyRelease_ok`: what a
  successful call did
* `LedgerInv.step`, `ledgerInv_of_reachable`: every step keeps the ledger
* `release_ledger`: the ledger in every reachable state
* `release_follows_halving_rule`: the amount of each release, by the months passed at its call
-/

namespace PezTreasury

open Bounded Machine

variable {α : Type} [LinearOrder α] {cfg : Config α} {s s' : State α}

/-! ## What each call does -/

section Calls

omit [LinearOrder α] in
/-- The treasury account is none of the two pots and the two other minted accounts. -/
theorem Config.treasury_ne (cfg : Config α) :
    cfg.treasuryAccount ≠ cfg.incentivePot ∧ cfg.treasuryAccount ≠ cfg.governmentPot ∧
      cfg.treasuryAccount ≠ cfg.presaleAccount ∧ cfg.treasuryAccount ≠ cfg.founderAccount := by
  have h := cfg.treasury_fresh
  simp only [List.mem_cons, List.not_mem_nil, or_false, not_or] at h
  exact h

@[simp] theorem totalReleased_nextHalving (halvingData : HalvingData) (monthsPassed currentBlock : Nat) :
    (nextHalving halvingData monthsPassed currentBlock).totalReleased = halvingData.totalReleased := by
  unfold nextHalving
  dsimp only
  split_ifs <;> rfl

/-- The allocation fits in a `u128`. -/
theorem treasuryAllocation_le_maxValue : treasuryAllocation ≤ maxValue 128 := by
  decide

/-- The months in `u32::MAX` blocks. -/
theorem monthsPerU32 : maxValue 32 / blocksPerMonth = 9942 := by
  decide

/-- The incentive pot's share is at most the monthly amount. -/
theorem incentiveShare_le {monthlyAmount incentiveAmount : Nat}
    (h : incentiveShare monthlyAmount = some incentiveAmount) : incentiveAmount ≤ monthlyAmount := by
  obtain ⟨product, hmul, rfl⟩ := Option.map_eq_some_iff.mp h
  rw [checkedMul_eq_some] at hmul
  rw [hmul.2]
  omega

/-- A successful genesis distribution happened once and minted the three allocations. -/
theorem doGenesisDistribution_ok (h : doGenesisDistribution cfg s = .ok s') :
    s.genesisDistributionDone = false ∧ ∃ pez₁ pez₂ pez₃,
      Assets.mintInto cfg.minBalance s.pez cfg.treasuryAccount treasuryAllocation = .ok pez₁ ∧
      Assets.mintInto cfg.minBalance pez₁ cfg.presaleAccount presaleAllocation = .ok pez₂ ∧
      Assets.mintInto cfg.minBalance pez₂ cfg.founderAccount founderAllocation = .ok pez₃ ∧
      s' = { s with pez := pez₃, genesisDistributionDone := true } := by
  simp only [doGenesisDistribution, bind_eq_ok, ensure_eq_ok, mapError_eq_ok, pure_eq_ok,
    exists_const] at h
  obtain ⟨hdone, pez₁, h₁, pez₂, h₂, pez₃, h₃, rfl⟩ := h
  exact ⟨hdone, pez₁, pez₂, pez₃, h₁, h₂, h₃, rfl⟩

/-- A successful initialization happened once; it starts the first period with nothing
released. -/
theorem doInitializeTreasury_ok (h : doInitializeTreasury s = .ok s') :
    s.treasuryStartBlock = none ∧ s' = { s with
      treasuryStartBlock := some s.blockNumber
      halvingInfo := ⟨0, s.blockNumber, treasuryAllocation / 2 / halvingPeriodMonths, 0⟩
      nextReleaseMonth := 0 } := by
  simp only [doInitializeTreasury, bind_eq_ok, ensure_eq_ok, pure_eq_ok, exists_const] at h
  obtain ⟨hnone, rfl⟩ := h
  exact ⟨hnone, rfl⟩

/-- A successful release paid the month `NextReleaseMonth`, due since the start, in two
transfers out of the treasury, and recorded it. -/
theorem doMonthlyRelease_ok (h : doMonthlyRelease cfg s = .ok s') :
    ∃ startBlock incentiveAmount pez₁ pez₂,
      s.treasuryStartBlock = some startBlock ∧
      s.monthlyReleases.get? s.nextReleaseMonth = none ∧
      (s.blockNumber - startBlock) / blocksPerMonth ≤ maxValue 32 ∧
      wrappingAdd 32 s.nextReleaseMonth 1 ≤ (s.blockNumber - startBlock) / blocksPerMonth ∧
      let halvingData :=
        nextHalving s.halvingInfo ((s.blockNumber - startBlock) / blocksPerMonth) s.blockNumber
      incentiveShare halvingData.monthlyAmount = some incentiveAmount ∧
      Assets.transfer cfg.minBalance s.pez cfg.treasuryAccount cfg.incentivePot incentiveAmount
        .preserve = .ok pez₁ ∧
      Assets.transfer cfg.minBalance pez₁ cfg.treasuryAccount cfg.governmentPot
        (halvingData.monthlyAmount - incentiveAmount) .preserve = .ok pez₂ ∧
      s' = { s with
        pez := pez₂
        halvingInfo := { halvingData with
          totalReleased := saturatingAdd 128 halvingData.totalReleased halvingData.monthlyAmount }
        monthlyReleases := s.monthlyReleases.insert s.nextReleaseMonth
          ⟨s.nextReleaseMonth, s.blockNumber, halvingData.monthlyAmount, incentiveAmount,
            halvingData.monthlyAmount - incentiveAmount⟩
        nextReleaseMonth := wrappingAdd 32 s.nextReleaseMonth 1 } := by
  simp only [doMonthlyRelease, bind_eq_ok, okOr_eq_ok, ensure_eq_ok, mapError_eq_ok, pure_eq_ok,
    exists_const] at h
  obtain ⟨startBlock, hstart, hnone, hmonths, hdue, incentiveAmount, hshare, pez₁, h₁, pez₂, h₂,
    rfl⟩ := h
  exact ⟨startBlock, incentiveAmount, pez₁, pez₂, hstart, hnone, hmonths, hdue, hshare, h₁, h₂, rfl⟩

/-- The two transfers of a release take exactly the monthly amount from the treasury. -/
theorem balance_treasury_release {pez pez₁ pez₂ : Assets.Ledger α}
    {monthlyAmount incentiveAmount : Nat}
    (hshare : incentiveShare monthlyAmount = some incentiveAmount)
    (h₁ : Assets.transfer cfg.minBalance pez cfg.treasuryAccount cfg.incentivePot incentiveAmount
      .preserve = .ok pez₁)
    (h₂ : Assets.transfer cfg.minBalance pez₁ cfg.treasuryAccount cfg.governmentPot
      (monthlyAmount - incentiveAmount) .preserve = .ok pez₂) :
    monthlyAmount ≤ pez.balance cfg.treasuryAccount ∧
      pez₂.balance cfg.treasuryAccount = pez.balance cfg.treasuryAccount - monthlyAmount := by
  obtain ⟨hinc, hgov, -, -⟩ := cfg.treasury_ne
  have hle := incentiveShare_le hshare
  obtain ⟨hle₁, hbal₁⟩ :=
    Assets.balance_source_transfer_keepAlive cfg.minBalance (by decide) h₁ hinc
  obtain ⟨hle₂, hbal₂⟩ :=
    Assets.balance_source_transfer_keepAlive cfg.minBalance (by decide) h₂ hgov
  rw [hbal₁] at hle₂ hbal₂
  constructor <;> omega

/-- The genesis mints put the treasury allocation, and only it, into the treasury. -/
theorem balance_treasury_genesis {pez pez₁ pez₂ pez₃ : Assets.Ledger α}
    (h₁ : Assets.mintInto cfg.minBalance pez cfg.treasuryAccount treasuryAllocation = .ok pez₁)
    (h₂ : Assets.mintInto cfg.minBalance pez₁ cfg.presaleAccount presaleAllocation = .ok pez₂)
    (h₃ : Assets.mintInto cfg.minBalance pez₂ cfg.founderAccount founderAllocation = .ok pez₃) :
    pez₃.balance cfg.treasuryAccount = pez.balance cfg.treasuryAccount + treasuryAllocation := by
  obtain ⟨-, -, hpresale, hfounder⟩ := cfg.treasury_ne
  rw [Assets.balance_mintInto cfg.minBalance h₃, if_neg hfounder,
    Assets.balance_mintInto cfg.minBalance h₂, if_neg hpresale,
    Assets.balance_mintInto cfg.minBalance h₁, if_pos rfl]

end Calls

/-! ## The release ledger -/

/-- The release ledger, with what carries it: blocks stay within `u32`, so the month counter
stays small; before initialization nothing is released; and the treasury's balance and
`total_released` add up to the allocation once it is minted and to nothing before. -/
structure LedgerInv (cfg : Config α) (s : State α) : Prop where
  blockNumber_le : s.blockNumber ≤ maxValue 32
  next_le : s.nextReleaseMonth ≤ maxValue 32 / blocksPerMonth
  uninitialized : s.treasuryStartBlock = none →
    s.halvingInfo.totalReleased = 0 ∧ s.nextReleaseMonth = 0
  keys : ∀ m, (s.monthlyReleases.get? m).isSome ↔ m < s.nextReleaseMonth
  split : ∀ m r, s.monthlyReleases.get? m = some r →
    r.incentiveAmount + r.governmentAmount = r.amountReleased
  total_eq : s.halvingInfo.totalReleased = s.monthlyReleases.sumBy fun _ r => r.amountReleased
  books : s.pez.balance cfg.treasuryAccount + s.halvingInfo.totalReleased =
    if s.genesisDistributionDone then treasuryAllocation else 0

theorem ledgerInv_genesis {pez : Assets.Ledger α} (hpez : pez.balance cfg.treasuryAccount = 0) :
    LedgerInv cfg (genesis pez) where
  blockNumber_le := Nat.zero_le _
  next_le := Nat.zero_le _
  uninitialized _ := ⟨rfl, rfl⟩
  keys m := by simp [genesis]
  split _ _ h := nomatch h
  total_eq := rfl
  books := hpez

namespace LedgerInv

variable (hi : LedgerInv cfg s)
include hi

/-- Released never exceeds what the treasury was given. -/
theorem totalReleased_le : s.halvingInfo.totalReleased ≤ treasuryAllocation := by
  have hbooks := hi.books
  split_ifs at hbooks <;> omega

/-- No release is recorded before initialization. -/
theorem get?_of_uninitialized (hnone : s.treasuryStartBlock = none) (m : Nat) :
    s.monthlyReleases.get? m = none := by
  have hkeys := hi.keys m
  rw [(hi.uninitialized hnone).2] at hkeys
  simpa using hkeys

theorem doGenesisDistribution (h : doGenesisDistribution cfg s = .ok s') : LedgerInv cfg s' := by
  obtain ⟨hdone, pez₁, pez₂, pez₃, h₁, h₂, h₃, rfl⟩ := doGenesisDistribution_ok h
  have hbal := balance_treasury_genesis h₁ h₂ h₃
  -- before the mint the treasury held nothing and nothing was released
  have hbooks := hi.books
  rw [hdone, if_neg Bool.false_ne_true] at hbooks
  exact { hi with
    books := by
      dsimp only
      rw [if_pos rfl]
      omega }

theorem doInitializeTreasury (h : doInitializeTreasury s = .ok s') : LedgerInv cfg s' := by
  obtain ⟨hnone, rfl⟩ := doInitializeTreasury_ok h
  obtain ⟨htotal, hnext⟩ := hi.uninitialized hnone
  exact { hi with
    next_le := Nat.zero_le _
    uninitialized := fun h => nomatch h
    keys := fun m => by
      show (s.monthlyReleases.get? m).isSome ↔ m < 0
      rw [hi.get?_of_uninitialized hnone m]
      simp
    total_eq := by
      show 0 = s.monthlyReleases.sumBy fun _ r => r.amountReleased
      rw [← htotal, hi.total_eq]
    books := by
      have hbooks := hi.books
      rw [htotal] at hbooks
      exact hbooks }

/-- A release keeps the ledger: the treasury pays the monthly amount and `total_released` grows
by it without saturating; the month is recorded under the next index, which grows by one
without wrapping. -/
theorem doMonthlyRelease (h : doMonthlyRelease cfg s = .ok s') : LedgerInv cfg s' := by
  obtain ⟨startBlock, incentiveAmount, pez₁, pez₂, hstart, hnone, -, hdue, hshare, h₁, h₂, rfl⟩ :=
    doMonthlyRelease_ok h
  set halvingData :=
    nextHalving s.halvingInfo ((s.blockNumber - startBlock) / blocksPerMonth) s.blockNumber
  obtain ⟨hpaid, hbal⟩ := balance_treasury_release hshare h₁ h₂
  -- the month is due, and fewer months than fit in `u32::MAX` blocks have passed
  have hmonths : (s.blockNumber - startBlock) / blocksPerMonth ≤ maxValue 32 / blocksPerMonth :=
    Nat.div_le_div_right ((Nat.sub_le _ _).trans hi.blockNumber_le)
  have hsmall : s.nextReleaseMonth + 1 < 2 ^ 32 := by
    have := hi.next_le
    rw [monthsPerU32] at this
    omega
  have hnext : wrappingAdd 32 s.nextReleaseMonth 1 = s.nextReleaseMonth + 1 :=
    Nat.mod_eq_of_lt hsmall
  rw [hnext] at hdue
  -- `total_released` stays below the allocation, so the addition is exact
  have hfit : halvingData.totalReleased + halvingData.monthlyAmount ≤ maxValue 128 := by
    have hbooks := hi.books
    rw [totalReleased_nextHalving]
    have hle : s.halvingInfo.totalReleased + halvingData.monthlyAmount ≤ treasuryAllocation := by
      split_ifs at hbooks <;> omega
    exact hle.trans treasuryAllocation_le_maxValue
  have hadd : saturatingAdd 128 halvingData.totalReleased halvingData.monthlyAmount =
      s.halvingInfo.totalReleased + halvingData.monthlyAmount := by
    rw [saturatingAdd_of_le hfit, totalReleased_nextHalving]
  refine ⟨hi.blockNumber_le, ?_, fun h => (nomatch hstart.symm.trans h), fun m => ?_,
    fun m r hr => ?_, ?_, ?_⟩
  · show wrappingAdd 32 s.nextReleaseMonth 1 ≤ _
    rw [hnext]
    omega
  · show ((s.monthlyReleases.insert s.nextReleaseMonth _).get? m).isSome ↔
      m < wrappingAdd 32 s.nextReleaseMonth 1
    rw [hnext, StorageMap.get?_insert]
    split_ifs with hm
    · simp [hm]
    · rw [hi.keys m]
      omega
  · change (s.monthlyReleases.insert s.nextReleaseMonth _).get? m = some r at hr
    rw [StorageMap.get?_insert] at hr
    split_ifs at hr
    · -- the new record: the incentive share, and the rest
      cases hr
      show incentiveAmount + (halvingData.monthlyAmount - incentiveAmount) =
        halvingData.monthlyAmount
      have := incentiveShare_le hshare
      omega
    · exact hi.split m r hr
  · show saturatingAdd 128 halvingData.totalReleased halvingData.monthlyAmount =
      (s.monthlyReleases.insert s.nextReleaseMonth _).sumBy fun _ r => r.amountReleased
    rw [hadd, StorageMap.sumBy_insert_of_none hnone, hi.total_eq]
  · dsimp only
    rw [hadd, hbal, ← hi.books]
    omega

/-- Every step keeps the ledger. -/
theorem step (a : Action α) : LedgerInv cfg (step cfg s a) := by
  cases a with
  | initializeTreasury origin =>
    refine commit_of_ok hi fun s' h => ?_
    obtain ⟨-, -, h⟩ := bind_eq_ok.mp h
    exact hi.doInitializeTreasury h
  | releaseMonthlyFunds origin =>
    refine commit_of_ok hi fun s' h => ?_
    obtain ⟨-, -, h⟩ := bind_eq_ok.mp h
    exact hi.doMonthlyRelease h
  | forceGenesisDistribution origin =>
    refine commit_of_ok hi fun s' h => ?_
    obtain ⟨-, -, h⟩ := bind_eq_ok.mp h
    exact hi.doGenesisDistribution h
  | advance b =>
    dsimp only [PezTreasury.step]
    split_ifs with hb
    · exact { hi with blockNumber_le := hb.2 }
    · exact hi

end LedgerInv

theorem ledgerInv_of_reachable {pez : Assets.Ledger α}
    (hpez : pez.balance cfg.treasuryAccount = 0) (hs : Reachable (step cfg) (genesis pez) s) :
    LedgerInv cfg s :=
  Reachable.invariant (ledgerInv_genesis hpez) (fun _ a hi => hi.step a) hs

/-- **The release ledger.** From a PEZ ledger in which the treasury account is empty, in every
reachable state: the months recorded are exactly those below `NextReleaseMonth`,
`total_released` is the sum of their amounts, each record's two shares add up to its amount,
once the genesis distribution is done the treasury's balance and `total_released` add up to
`TREASURY_ALLOCATION`, and `total_released` never exceeds it. -/
theorem release_ledger {pez : Assets.Ledger α} (hpez : pez.balance cfg.treasuryAccount = 0)
    (hs : Reachable (step cfg) (genesis pez) s) :
    (∀ m, (s.monthlyReleases.get? m).isSome ↔ m < s.nextReleaseMonth) ∧
    s.halvingInfo.totalReleased = s.monthlyReleases.sumBy (fun _ r => r.amountReleased) ∧
    (∀ m r, s.monthlyReleases.get? m = some r →
      r.incentiveAmount + r.governmentAmount = r.amountReleased) ∧
    (s.genesisDistributionDone = true →
      s.pez.balance cfg.treasuryAccount + s.halvingInfo.totalReleased = treasuryAllocation) ∧
    s.halvingInfo.totalReleased ≤ treasuryAllocation := by
  have hi := ledgerInv_of_reachable hpez hs
  refine ⟨hi.keys, hi.total_eq, hi.split, fun hdone => ?_, hi.totalReleased_le⟩
  have hbooks := hi.books
  rwa [hdone, if_pos rfl] at hbooks

/-! ## The first release -/

/-- Five accounts, the treasury first, and the PEZ minimum balance of 1. -/
def sampleConfig : Config Nat := ⟨1, 0, 1, 2, 3, 4, by decide⟩

/-- The allocations are minted, the treasury is initialized at block 0 and the first month is
released a month later. -/
def firstReleaseRun : List (Action Nat) :=
  [.forceGenesisDistribution .root, .initializeTreasury .root, .advance 432000,
    .releaseMonthlyFunds .root]

/-- The state after `firstReleaseRun`, from an empty PEZ ledger. -/
def firstReleaseState : State Nat :=
  run (step sampleConfig) (genesis ⟨∅, 0⟩) firstReleaseRun

example : firstReleaseState.nextReleaseMonth = 1 ∧
    firstReleaseState.halvingInfo.totalReleased = treasuryAllocation / 2 / halvingPeriodMonths := by
  decide +kernel

theorem release_ledger_after_first_release :
    Assets.Ledger.balance (⟨∅, 0⟩ : Assets.Ledger Nat) sampleConfig.treasuryAccount = 0 ∧
    (∀ m, (firstReleaseState.monthlyReleases.get? m).isSome ↔
      m < firstReleaseState.nextReleaseMonth) ∧
    firstReleaseState.halvingInfo.totalReleased =
      firstReleaseState.monthlyReleases.sumBy (fun _ r => r.amountReleased) ∧
    (∀ m r, firstReleaseState.monthlyReleases.get? m = some r →
      r.incentiveAmount + r.governmentAmount = r.amountReleased) ∧
    (firstReleaseState.genesisDistributionDone = true →
      firstReleaseState.pez.balance sampleConfig.treasuryAccount +
        firstReleaseState.halvingInfo.totalReleased = treasuryAllocation) ∧
    firstReleaseState.halvingInfo.totalReleased ≤ treasuryAllocation :=
  ⟨rfl, release_ledger rfl (reachable_run firstReleaseRun)⟩

/-! ## The halving schedule -/

/-- Every month released on time: month `m` at the start of month `m + 1`. -/
def onTimeRun : List (Action Nat) :=
  [.forceGenesisDistribution .root, .initializeTreasury .root] ++
    (List.range 48).flatMap fun m =>
      [.advance ((m + 1) * blocksPerMonth), .releaseMonthlyFunds .root]

def onTimeState : State Nat :=
  run (step sampleConfig) (genesis ⟨∅, 0⟩) onTimeRun

/-- Month 0 released only once 48 months have passed. -/
def lateState : State Nat :=
  run (step sampleConfig) (genesis ⟨∅, 0⟩)
    [.forceGenesisDistribution .root, .initializeTreasury .root,
      .advance (halvingPeriodMonths * blocksPerMonth), .releaseMonthlyFunds .root]

/-- The halving follows the months elapsed at the call, not the month index: released on time,
month 46 pays the first rate and month 47 already half of it; released late, month 0 pays half. -/
theorem halving_follows_call_time :
    (onTimeState.monthlyReleases.get? 46).map MonthlyRelease.amountReleased =
        some (treasuryAllocation / 2 / halvingPeriodMonths) ∧
      (onTimeState.monthlyReleases.get? 47).map MonthlyRelease.amountReleased =
        some (treasuryAllocation / 2 / halvingPeriodMonths / 2) ∧
      (lateState.monthlyReleases.get? 0).map MonthlyRelease.amountReleased =
        some (treasuryAllocation / 2 / halvingPeriodMonths / 2) := by
  decide +kernel

/-! ## The halving rule -/

/-- The period a release ends in, by the rule `do_monthly_release` applies: one period more once
the months passed since the start reach 48 past the periods already counted. -/
def periodAfter (currentPeriod monthsPassed : Nat) : Nat :=
  if halvingPeriodMonths * (currentPeriod + 1) ≤ monthsPassed then currentPeriod + 1
  else currentPeriod

/-- While the periods counted stay within the months passed, the halving step neither wraps nor
saturates: it ends in `periodAfter`, and a monthly amount that is some `a` halved once per period
stays so. -/
theorem nextHalving_spec {halvingData : HalvingData} {monthsPassed a : Nat} (currentBlock : Nat)
    (hperiod : halvingData.currentPeriod * halvingPeriodMonths ≤ monthsPassed)
    (hmonths : monthsPassed ≤ maxValue 32)
    (hamount : halvingData.monthlyAmount = a / 2 ^ halvingData.currentPeriod) :
    (nextHalving halvingData monthsPassed currentBlock).currentPeriod =
        periodAfter halvingData.currentPeriod monthsPassed ∧
      (nextHalving halvingData monthsPassed currentBlock).monthlyAmount =
        a / 2 ^ periodAfter halvingData.currentPeriod monthsPassed := by
  have h48 : halvingPeriodMonths = 48 := rfl
  have hp : halvingData.currentPeriod * 48 ≤ monthsPassed := hperiod
  rw [maxValue_32] at hmonths
  have hmul : wrappingMul 32 halvingData.currentPeriod halvingPeriodMonths =
      halvingData.currentPeriod * halvingPeriodMonths := wrappingMul_of_lt (by omega)
  have hsucc : saturatingAdd 32 halvingData.currentPeriod 1 = halvingData.currentPeriod + 1 :=
    saturatingAdd_of_le (by rw [maxValue_32]; omega)
  unfold nextHalving periodAfter
  dsimp only
  rw [hmul, hsucc, h48]
  by_cases hhalf : 48 * (halvingData.currentPeriod + 1) ≤ monthsPassed
  · -- a new period: the amount is halved once more
    rw [if_pos (by omega), if_pos hhalf]
    refine ⟨rfl, ?_⟩
    dsimp only
    rw [hamount, Nat.div_div_eq_div_mul, Nat.pow_succ]
  · rw [if_neg (by omega), if_neg hhalf]
    exact ⟨rfl, hamount⟩

/-- The halving state of an initialized treasury: the monthly amount is the first one halved once
per period counted, and the periods counted are at most the months passed over 48. -/
structure HalvingInv (s : State α) : Prop where
  monthlyAmount_eq : ∀ startBlock, s.treasuryStartBlock = some startBlock →
    s.halvingInfo.monthlyAmount =
      treasuryAllocation / 2 / halvingPeriodMonths / 2 ^ s.halvingInfo.currentPeriod
  period_le : ∀ startBlock, s.treasuryStartBlock = some startBlock →
    s.halvingInfo.currentPeriod * halvingPeriodMonths ≤
      (s.blockNumber - startBlock) / blocksPerMonth

theorem halvingInv_genesis (pez : Assets.Ledger α) : HalvingInv (genesis pez) where
  monthlyAmount_eq _ h := nomatch h
  period_le _ h := nomatch h

/-- The period a release ends in is still within the months passed. -/
theorem periodAfter_mul_le {currentPeriod monthsPassed : Nat}
    (h : currentPeriod * halvingPeriodMonths ≤ monthsPassed) :
    periodAfter currentPeriod monthsPassed * halvingPeriodMonths ≤ monthsPassed := by
  unfold periodAfter
  split_ifs with hhalf
  · rw [Nat.mul_comm]
    exact hhalf
  · exact h

/-- A release from a halving state keeps the start and the block, ends in `periodAfter` the
months passed, and pays and records the first amount halved once per period. -/
theorem HalvingInv.release (hi : HalvingInv s) (h : doMonthlyRelease cfg s = .ok s') :
    ∃ startBlock, s.treasuryStartBlock = some startBlock ∧
      s'.treasuryStartBlock = s.treasuryStartBlock ∧ s'.blockNumber = s.blockNumber ∧
      s'.halvingInfo.currentPeriod =
        periodAfter s.halvingInfo.currentPeriod ((s.blockNumber - startBlock) / blocksPerMonth) ∧
      s'.halvingInfo.monthlyAmount =
        treasuryAllocation / 2 / halvingPeriodMonths / 2 ^ s'.halvingInfo.currentPeriod ∧
      (s'.monthlyReleases.get? s.nextReleaseMonth).map MonthlyRelease.amountReleased =
        some s'.halvingInfo.monthlyAmount := by
  obtain ⟨startBlock, -, -, -, hstart, -, hmonths, -, -, -, -, rfl⟩ := doMonthlyRelease_ok h
  obtain ⟨hperiod, hamount⟩ := nextHalving_spec s.blockNumber
    (hi.period_le startBlock hstart) hmonths (hi.monthlyAmount_eq startBlock hstart)
  refine ⟨startBlock, hstart, rfl, rfl, hperiod, hamount.trans (by rw [hperiod]), ?_⟩
  rw [StorageMap.get?_insert, if_pos rfl]
  rfl

/-- Every step keeps the halving state: the initialization starts period zero at the first
amount, a release halves by `nextHalving_spec`, and passing blocks only adds months. -/
theorem HalvingInv.step (hi : HalvingInv s) (a : Action α) : HalvingInv (step cfg s a) := by
  cases a with
  | initializeTreasury origin =>
    refine commit_of_ok hi fun s' h => ?_
    obtain ⟨-, -, h⟩ := bind_eq_ok.mp h
    obtain ⟨-, rfl⟩ := doInitializeTreasury_ok h
    exact ⟨fun _ _ => (Nat.div_one _).symm, fun _ _ => (Nat.zero_mul _).trans_le (Nat.zero_le _)⟩
  | forceGenesisDistribution origin =>
    refine commit_of_ok hi fun s' h => ?_
    obtain ⟨-, -, h⟩ := bind_eq_ok.mp h
    obtain ⟨-, -, -, -, -, -, -, rfl⟩ := doGenesisDistribution_ok h
    exact ⟨hi.monthlyAmount_eq, hi.period_le⟩
  | releaseMonthlyFunds origin =>
    refine commit_of_ok hi fun s' h => ?_
    obtain ⟨-, -, h⟩ := bind_eq_ok.mp h
    obtain ⟨startBlock, hstart, hstart', hblock, hperiod, hamount, -⟩ := hi.release h
    refine ⟨fun _ _ => hamount, fun b hb => ?_⟩
    -- the start block is the one the release read
    obtain rfl : b = startBlock := Option.some_injective _ ((hb.symm.trans hstart').trans hstart)
    rw [hperiod, hblock]
    exact periodAfter_mul_le (hi.period_le b hstart)
  | advance b =>
    dsimp only [PezTreasury.step]
    split_ifs with hb
    · refine ⟨hi.monthlyAmount_eq, fun start hstart => ?_⟩
      exact (hi.period_le start hstart).trans
        (Nat.div_le_div_right (Nat.sub_le_sub_right hb.1 start))
    · exact hi

theorem halvingInv_of_reachable {pez : Assets.Ledger α}
    (hs : Reachable (step cfg) (genesis pez) s) : HalvingInv s :=
  Reachable.invariant (halvingInv_genesis pez) (fun _ a hi => hi.step a) hs

/-- **The halving rule.** In every reachable state of a treasury initialized at `startBlock`, the
monthly amount is the first one, `TREASURY_ALLOCATION / 2 / 48`, halved once per period counted,
and the periods counted are at most the months passed over 48. A release at the current block
ends in `periodAfter`, one period more exactly when the months passed since `startBlock` reach 48
past the periods counted, and records for month `NextReleaseMonth` the amount of that period. The
schedule follows the block each call is made at, with one halving at most per call, and not the
month index released. -/
theorem release_follows_halving_rule {pez : Assets.Ledger α}
    (hs : Reachable (step cfg) (genesis pez) s) {startBlock : Nat}
    (hstart : s.treasuryStartBlock = some startBlock) :
    s.halvingInfo.monthlyAmount =
        treasuryAllocation / 2 / halvingPeriodMonths / 2 ^ s.halvingInfo.currentPeriod ∧
      s.halvingInfo.currentPeriod * halvingPeriodMonths ≤
        (s.blockNumber - startBlock) / blocksPerMonth ∧
      ∀ s', doMonthlyRelease cfg s = .ok s' →
        s'.halvingInfo.currentPeriod = periodAfter s.halvingInfo.currentPeriod
            ((s.blockNumber - startBlock) / blocksPerMonth) ∧
          (s'.monthlyReleases.get? s.nextReleaseMonth).map MonthlyRelease.amountReleased =
            some (treasuryAllocation / 2 / halvingPeriodMonths / 2 ^ periodAfter
              s.halvingInfo.currentPeriod ((s.blockNumber - startBlock) / blocksPerMonth)) := by
  have hi := halvingInv_of_reachable hs
  refine ⟨hi.monthlyAmount_eq startBlock hstart, hi.period_le startBlock hstart,
    fun s' h => ?_⟩
  obtain ⟨b, hb, -, -, hperiod, hamount, hrecord⟩ := hi.release h
  obtain rfl : b = startBlock := Option.some_injective _ (hb.symm.trans hstart)
  rw [hrecord, hamount, hperiod]
  exact ⟨rfl, rfl⟩

/-- The treasury initialized at block 0, and 48 months passed: the release ends in period one. -/
def dueLateState : State Nat :=
  run (step sampleConfig) (genesis ⟨∅, 0⟩)
    [.forceGenesisDistribution .root, .initializeTreasury .root,
      .advance (halvingPeriodMonths * blocksPerMonth)]

theorem release_follows_halving_rule_when_late :
    dueLateState.treasuryStartBlock = some 0 ∧
      (dueLateState.halvingInfo.monthlyAmount =
          treasuryAllocation / 2 / halvingPeriodMonths / 2 ^ dueLateState.halvingInfo.currentPeriod ∧
        dueLateState.halvingInfo.currentPeriod * halvingPeriodMonths ≤
          (dueLateState.blockNumber - 0) / blocksPerMonth ∧
        ∀ s', doMonthlyRelease sampleConfig dueLateState = .ok s' →
          s'.halvingInfo.currentPeriod = periodAfter dueLateState.halvingInfo.currentPeriod
              ((dueLateState.blockNumber - 0) / blocksPerMonth) ∧
            (s'.monthlyReleases.get? dueLateState.nextReleaseMonth).map
                MonthlyRelease.amountReleased =
              some (treasuryAllocation / 2 / halvingPeriodMonths / 2 ^ periodAfter
                dueLateState.halvingInfo.currentPeriod
                ((dueLateState.blockNumber - 0) / blocksPerMonth))) := by
  have hstart : dueLateState.treasuryStartBlock = some 0 := by decide +kernel
  exact ⟨hstart, release_follows_halving_rule (reachable_run _) hstart⟩

end PezTreasury
