import Pezkuwi.Frame.Balances

/-!
# The runtime's staking imbalance handlers

`pallet-staking` hands the imbalances it creates to three handlers of the runtime:

* `StakingSlash` gets the `Credit` of a slash: the slashed tokens left the staker's account but
  are still counted in `TotalIssuance`;
* `StakingRewardRemainder` gets the `Credit` of `issue(remainder)`: the issuance already rose,
  and no account holds the tokens yet;
* `StakingReward` gets the `Debt` of the payouts: the stakers' accounts were credited, and the
  issuance has not risen yet.

`StakingSlash` and `StakingRewardRemainder` build a fresh `NegativeImbalance` of the credit's
value and give it to the treasury, which resolves it into its account without touching the
issuance; they then drop the credit itself, which lowers the issuance. The treasury's tokens are
then counted nowhere: the issuance ends `v` below the sum of the balances
(`creditToTreasury_totalIssuance_add`). `StakingReward` deposits the payouts' amount into the
treasury a second time, and the `PositiveImbalance` of that deposit and the debt both raise the
issuance: the books balance, but `v` more is minted than the stakers received
(`stakingRewardOnUnbalanced_books`).

## Main definitions

* `treasuryOnUnbalanced`: `Treasury`'s `OnUnbalanced` for a `NegativeImbalance`
* `stakingSlashOnUnbalanced`, `stakingRewardRemainderOnUnbalanced`,
  `stakingRewardOnUnbalanced`: the three handlers

## Main results

* `creditToTreasury_totalIssuance_add`: a credit handler leaves the issuance short of the
  balances by the credit
* `stakingRewardOnUnbalanced_books`: the reward handler balances the books with twice the reward
  minted
-/

namespace Pezkuwichain

open Bounded Balances

variable {α : Type} [LinearOrder α] (existentialDeposit : Nat) (treasury : α)

/-- `Treasury`'s `OnUnbalanced` for a `NegativeImbalance` of `value`: `try_drop` forgets a zero
imbalance, and `on_nonzero_unbalanced` resolves any other into the treasury account. -/
def treasuryOnUnbalanced (L : Ledger α) (value : Nat) : Ledger α :=
  if value = 0 then L else resolveCreating existentialDeposit L treasury value

/-- The body of `StakingRewardRemainder::on_unbalanced` and `StakingSlash::on_unbalanced`: a new
`NegativeImbalance` of the credit's value goes to the treasury, then `amount.drop_zero()` hands
back a nonzero credit, which is dropped. -/
def creditToTreasury (L : Ledger α) (amount : Nat) : Ledger α :=
  decreaseIssuance (treasuryOnUnbalanced existentialDeposit treasury L amount) amount

/-- `StakingRewardRemainder::on_unbalanced`. -/
def stakingRewardRemainderOnUnbalanced (L : Ledger α) (amount : Nat) : Ledger α :=
  creditToTreasury existentialDeposit treasury L amount

/-- `StakingSlash::on_unbalanced`. -/
def stakingSlashOnUnbalanced (L : Ledger α) (amount : Nat) : Ledger α :=
  creditToTreasury existentialDeposit treasury L amount

/-- `StakingReward::on_unbalanced` for a `Debt` of `amount`: the `PositiveImbalance` that
`deposit_creating` into the treasury returns is dropped at once (`let _ =`), then the debt is. -/
def stakingRewardOnUnbalanced (L : Ledger α) (amount : Nat) : Ledger α :=
  let (L', deposited) := depositCreating existentialDeposit L treasury amount
  increaseIssuance (increaseIssuance L' deposited) amount

/-! ## What the handlers do to the books -/

variable {existentialDeposit treasury}

/-- When the treasury takes the credit's value, a credit handler adds it to the treasury and
lowers the issuance by it. -/
theorem creditToTreasury_of_deposited {L : Ledger α} {amount : Nat}
    (hdep : (depositCreating existentialDeposit L treasury amount).2 = amount) :
    (creditToTreasury existentialDeposit treasury L amount).totalBalance =
        L.totalBalance + amount ∧
      (creditToTreasury existentialDeposit treasury L amount).totalIssuance =
        L.totalIssuance - amount := by
  unfold creditToTreasury treasuryOnUnbalanced
  split_ifs with h0
  · subst h0
    exact ⟨rfl, rfl⟩
  · obtain ⟨hbal, hiss⟩ := resolveCreating_of_deposited existentialDeposit hdep
    rw [totalBalance_decreaseIssuance, totalIssuance_decreaseIssuance, hbal, hiss]
    exact ⟨rfl, rfl⟩

/-- A credit of `amount` is outstanding when the issuance exceeds the balances by it. Handling
it through the treasury leaves the issuance short of the balances by the same amount, where
the books require the two to be equal. -/
theorem creditToTreasury_totalIssuance_add {L : Ledger α} {amount : Nat}
    (hcredit : L.totalIssuance = L.totalBalance + amount)
    (hdep : (depositCreating existentialDeposit L treasury amount).2 = amount) :
    (creditToTreasury existentialDeposit treasury L amount).totalIssuance + amount =
      (creditToTreasury existentialDeposit treasury L amount).totalBalance := by
  obtain ⟨hbal, hiss⟩ := creditToTreasury_of_deposited hdep
  rw [hbal, hiss]
  omega

/-- A debt of `amount` is outstanding when the balances exceed the issuance by it. The reward
handler balances the books, but only by minting the amount a second time, into the treasury. -/
theorem stakingRewardOnUnbalanced_books {L : Ledger α} {amount : Nat}
    (hdebt : L.totalIssuance + amount = L.totalBalance)
    (hdep : (depositCreating existentialDeposit L treasury amount).2 = amount)
    (hfit : L.totalIssuance + 2 * amount ≤ maxValue 128) :
    (stakingRewardOnUnbalanced existentialDeposit treasury L amount).Balanced ∧
      (stakingRewardOnUnbalanced existentialDeposit treasury L amount).totalBalance =
        L.totalBalance + amount := by
  obtain ⟨hbal, hiss⟩ := totalBalance_depositCreating existentialDeposit L treasury amount
  rw [hdep] at hbal
  -- neither drop saturates
  have h1 : saturatingAdd 128 L.totalIssuance amount = L.totalIssuance + amount :=
    saturatingAdd_of_le (by omega)
  have h2 : saturatingAdd 128 (L.totalIssuance + amount) amount =
      L.totalIssuance + 2 * amount := by
    rw [saturatingAdd_of_le (by omega : L.totalIssuance + amount + amount ≤ maxValue 128)]
    omega
  have hadd : saturatingAdd 128
      (saturatingAdd 128 (depositCreating existentialDeposit L treasury amount).1.totalIssuance
        amount) amount = L.totalIssuance + 2 * amount := by
    rw [hiss, h1, h2]
  unfold stakingRewardOnUnbalanced Ledger.Balanced
  rw [totalIssuance_increaseIssuance, totalIssuance_increaseIssuance,
    totalBalance_increaseIssuance, totalBalance_increaseIssuance, hdep, hadd, hbal]
  omega

/-! ## From balanced books -/

section FromBalanced

variable {L : Ledger α} (hL : L.Balanced)
include hL

/-- A slash handled by `StakingSlash` leaves the issuance short of the balances by what was
slashed, whenever the treasury can take it. -/
theorem stakingSlashOnUnbalanced_after_slash (who : α) (value : Nat)
    (hdep : (depositCreating existentialDeposit (slash L who value).1 treasury
      (slash L who value).2).2 = (slash L who value).2) :
    (stakingSlashOnUnbalanced existentialDeposit treasury (slash L who value).1
        (slash L who value).2).totalIssuance + (slash L who value).2 =
      (stakingSlashOnUnbalanced existentialDeposit treasury (slash L who value).1
        (slash L who value).2).totalBalance :=
  creditToTreasury_totalIssuance_add (slash_credit hL who value) hdep

/-- A remainder issued and handled by `StakingRewardRemainder` leaves the issuance short of the
balances by the remainder, whenever the treasury can take it. -/
theorem stakingRewardRemainderOnUnbalanced_after_issue (value : Nat)
    (hdep : (depositCreating existentialDeposit (issue L value).1 treasury
      (issue L value).2).2 = (issue L value).2) :
    (stakingRewardRemainderOnUnbalanced existentialDeposit treasury (issue L value).1
        (issue L value).2).totalIssuance + (issue L value).2 =
      (stakingRewardRemainderOnUnbalanced existentialDeposit treasury (issue L value).1
        (issue L value).2).totalBalance :=
  creditToTreasury_totalIssuance_add (issue_credit hL value) hdep

/-- A payout handled by `StakingReward` keeps the books balanced, and the treasury receives the
paid amount again, newly minted. -/
theorem stakingRewardOnUnbalanced_after_payout (staker : α) (value : Nat)
    (hdep : (depositCreating existentialDeposit (depositCreating existentialDeposit L staker
      value).1 treasury (depositCreating existentialDeposit L staker value).2).2 =
        (depositCreating existentialDeposit L staker value).2)
    (hfit : L.totalIssuance + 2 * (depositCreating existentialDeposit L staker value).2 ≤
      maxValue 128) :
    (stakingRewardOnUnbalanced existentialDeposit treasury
        (depositCreating existentialDeposit L staker value).1
        (depositCreating existentialDeposit L staker value).2).Balanced ∧
      (stakingRewardOnUnbalanced existentialDeposit treasury
          (depositCreating existentialDeposit L staker value).1
          (depositCreating existentialDeposit L staker value).2).totalBalance =
        L.totalBalance + 2 * (depositCreating existentialDeposit L staker value).2 := by
  -- the payout leaves a debt of what it credited
  obtain ⟨hbal, hiss⟩ := totalBalance_depositCreating existentialDeposit L staker value
  unfold Ledger.Balanced at hL
  obtain ⟨hbooks, htotal⟩ := stakingRewardOnUnbalanced_books (by omega) hdep (by omega)
  exact ⟨hbooks, by omega⟩

end FromBalanced

/-! ## One slash, one remainder and one payout of a single token -/

/-- Account `0` is the treasury with the existential deposit of 1, account `1` a staker with
10; the books balance. -/
def sampleLedger : Ledger Nat := ⟨((∅ : StorageMap Nat Nat).insert 0 1).insert 1 10, 11, by decide⟩

/-- From balanced books, a slash of 1 handled by `StakingSlash` and a remainder of 1 issued and
handled by `StakingRewardRemainder` each leave the issuance one below the balances, and a
payout of 1 handled by `StakingReward` raises the issuance by 2. -/
theorem staking_handlers_at_one :
    sampleLedger.Balanced ∧
      ¬ (stakingSlashOnUnbalanced 1 0 (slash sampleLedger 1 1).1
          (slash sampleLedger 1 1).2).Balanced ∧
      ¬ (stakingRewardRemainderOnUnbalanced 1 0 (issue sampleLedger 1).1
          (issue sampleLedger 1).2).Balanced ∧
      (stakingRewardOnUnbalanced 1 0 (depositCreating 1 sampleLedger 1 1).1
          (depositCreating 1 sampleLedger 1 1).2).totalIssuance =
        sampleLedger.totalIssuance + 2 := by
  have hL : sampleLedger.Balanced := by decide
  -- each handler is given one token, which the treasury can take
  have hslash : (slash sampleLedger 1 1).2 = 1 := by decide
  have hissue : (issue sampleLedger 1).2 = 1 := by decide
  have hpaid : (depositCreating 1 sampleLedger 1 1).2 = 1 := by decide
  have hs := @stakingSlashOnUnbalanced_after_slash _ _ 1 0 _ hL 1 1 (by decide)
  have hr := @stakingRewardRemainderOnUnbalanced_after_issue _ _ 1 0 _ hL 1 (by decide)
  obtain ⟨hbooks, htotal⟩ :=
    @stakingRewardOnUnbalanced_after_payout _ _ 1 0 _ hL 1 1 (by decide) (by decide)
  refine ⟨hL, fun hb => ?_, fun hb => ?_, ?_⟩
  · -- the slash: the issuance ends one below the balances
    unfold Ledger.Balanced at hb
    omega
  · -- the remainder: likewise
    unfold Ledger.Balanced at hb
    omega
  · -- the payout: balanced books, with two tokens more than before
    unfold Ledger.Balanced at hbooks hL
    rw [hbooks, htotal, hpaid, hL]

end Pezkuwichain
