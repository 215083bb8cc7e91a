import Pezkuwi.Storage.Map
import Pezkuwi.Arith.Bounded
import Pezkuwi.Machine.Reach
import Pezkuwi.Frame.Assets

/-!
# The native token of `pallet-balances`, and the imbalances that move its issuance

`pallet-balances` keeps the balance of every account and `TotalIssuance`, which the books
require to be the sum of the balances. Code that creates or destroys tokens does so in two
halves: it changes the balances, and it returns an *imbalance* whose drop changes the issuance
to match. This module models the halves the runtime's staking handlers use, with each drop
made an explicit write:

* the `fungible` imbalances: a `Credit` (tokens issued but in no account) lowers
  `TotalIssuance` when dropped (`DecreaseIssuance`), a `Debt` (tokens in accounts but not
  issued) raises it (`IncreaseIssuance`);
* the legacy `Currency` imbalances: `PositiveImbalance` raises `TotalIssuance` when dropped,
  `NegativeImbalance` lowers it; `offset` cancels the two against each other;
* `deposit_creating`, `resolve_creating`, and the `slash` and `issue` that produce credits.

An account that exists holds at least the existential deposit, so a deposit into it leaves no
dust; holds are not modelled, a slash taking from the account's balance. Transfers go through
`fungible::Mutate::transfer` for accounts with no holds, freezes or consumers, whose only
provider is this pallet: a debit that leaves less than the existential deposit reaps the account
and drops the rest as dust, which `DustRemoval = ()` takes out of the issuance.

## Main definitions

* `Ledger`: the balances and `TotalIssuance`
* `increaseIssuance`, `decreaseIssuance`: the drop of an imbalance
* `depositCreating`, `resolveCreating`, `slash`, `issue`

## Main results

* `totalBalance_depositCreating`: a deposit moves the sum of the balances by the imbalance it
  returns, and leaves the issuance alone
* `resolveCreating_of_deposited`: resolving a `NegativeImbalance` into an account that can take
  it credits the account and leaves the issuance alone
-/

namespace Balances

open Bounded

/-- The storage of the native token: the balances of the accounts that exist and
`TotalIssuance`, a `u128`. -/
structure Ledger (α : Type) [LinearOrder α] where
  accounts : StorageMap α Nat
  totalIssuance : Nat
  totalIssuance_le : totalIssuance ≤ maxValue 128

variable {α : Type} [LinearOrder α]

namespace Ledger

/-- The balance of `who`: zero for an account that does not exist. -/
def balance (L : Ledger α) (who : α) : Nat :=
  L.accounts.getD who 0

/-- The sum of all balances. -/
def totalBalance (L : Ledger α) : Nat :=
  L.accounts.sumBy fun _ b => b

/-- The books balance: `TotalIssuance` is the sum of all balances. -/
def Balanced (L : Ledger α) : Prop :=
  L.totalIssuance = L.totalBalance

instance (L : Ledger α) : Decidable L.Balanced := inferInstanceAs (Decidable (_ = _))

end Ledger

/-! ## Dropping an imbalance -/

/-- `IncreaseIssuance::handle`, and `Drop for PositiveImbalance`: the issuance rises by the
amount, saturating at `u128::MAX`. -/
def increaseIssuance (L : Ledger α) (amount : Nat) : Ledger α :=
  { L with
    totalIssuance := saturatingAdd 128 L.totalIssuance amount
    totalIssuance_le := saturatingAdd_le_maxValue _ _ _ }

/-- `DecreaseIssuance::handle`, and `Drop for NegativeImbalance`: the issuance falls by the
amount, saturating at zero. -/
def decreaseIssuance (L : Ledger α) (amount : Nat) : Ledger α :=
  { L with
    totalIssuance := L.totalIssuance - amount
    totalIssuance_le := (Nat.sub_le _ _).trans L.totalIssuance_le }

/-- `NegativeImbalance::offset` against a `PositiveImbalance`, and the drop of what is left. -/
def dropOffset (L : Ledger α) (negative positive : Nat) : Ledger α :=
  if positive < negative then decreaseIssuance L (negative - positive)
  else if negative < positive then increaseIssuance L (positive - negative)
  else L

/-! ## Deposits, slashes and issuance -/

variable (existentialDeposit : Nat)

/-- `Currency::deposit_creating`: the balance of `who` rises by `value`, and a
`PositiveImbalance` of `value` is returned. A zero value, a new account below the existential
deposit and an overflow change nothing and return a zero imbalance. -/
def depositCreating (L : Ledger α) (who : α) (value : Nat) : Ledger α × Nat :=
  if value = 0 then (L, 0)
  else match L.accounts.get? who with
    | none =>
      if value < existentialDeposit then (L, 0)
      else ({ L with accounts := L.accounts.insert who value }, value)
    | some free =>
      if maxValue 128 < free + value then (L, 0)
      else ({ L with accounts := L.accounts.insert who (free + value) }, value)

/-- `Currency::resolve_creating`: the value is deposited into `who` and the `NegativeImbalance`
is offset against the deposit's `PositiveImbalance`. -/
def resolveCreating (L : Ledger α) (who : α) (value : Nat) : Ledger α :=
  let (L', deposited) := depositCreating existentialDeposit L who value
  dropOffset L' value deposited

/-- `BalancedHold::slash`, best effort: at most the balance of `who` is taken, and returned as a
`Credit`. -/
def slash (L : Ledger α) (who : α) (value : Nat) : Ledger α × Nat :=
  let taken := min value (L.balance who)
  ({ L with accounts := L.accounts.insert who (L.balance who - taken) }, taken)

/-- `Balanced::issue`: the issuance rises, saturating, and a `Credit` of the rise is returned. -/
def issue (L : Ledger α) (value : Nat) : Ledger α × Nat :=
  (increaseIssuance L value, saturatingAdd 128 L.totalIssuance value - L.totalIssuance)

/-! ## Transfers -/

/-- `ExistenceRequirement` of `Currency::transfer`. -/
inductive ExistenceRequirement where
  | keepAlive
  | allowDeath
  deriving DecidableEq, Repr

/-- `can_withdraw`, read through `into_result(keep_nonzero)`. -/
def canWithdraw (L : Ledger α) (who : α) (amount : Nat) (keepNonzero : Bool) :
    Except Assets.TokenError Unit :=
  if amount = 0 then .ok ()
  else if L.totalIssuance < amount then .error .underflow
  else if L.balance who < amount then .error .fundsUnavailable
  else if L.balance who - amount < existentialDeposit ∧ keepNonzero then .error .notExpendable
  else .ok ()

/-- `can_deposit` of an amount that already exists (`Extant`). -/
def canDeposit (L : Ledger α) (who : α) (amount : Nat) : Except Assets.TokenError Unit :=
  if amount = 0 then .ok ()
  else if maxValue 128 < L.balance who + amount then .error .overflow
  else if L.balance who + amount < existentialDeposit then .error .belowMinimum
  else .ok ()

/-- `write_balance`: a balance below the existential deposit reaps the account, and its dust
leaves the issuance. -/
def writeBalance (L : Ledger α) (who : α) (amount : Nat) : Ledger α :=
  if amount < existentialDeposit then
    { accounts := L.accounts.remove who
      totalIssuance := L.totalIssuance - amount
      totalIssuance_le := (Nat.sub_le _ _).trans L.totalIssuance_le }
  else { L with accounts := L.accounts.insert who amount }

/-- `reducible_balance` with `Polite`: all of the balance when the account may die, all but the
existential deposit otherwise. -/
def reducibleBalance (L : Ledger α) (who : α) (preservation : Assets.Preservation) : Nat :=
  if preservation = .expendable then L.balance who else L.balance who - existentialDeposit

/-- `decrease_balance` with `BestEffort`: at most the reducible balance is taken. -/
def decreaseBalance (L : Ledger α) (who : α) (amount : Nat) (preservation : Assets.Preservation) :
    Ledger α :=
  let amount := min amount (reducibleBalance existentialDeposit L who preservation)
  writeBalance existentialDeposit L who (L.balance who - amount)

/-- `increase_balance` with `BestEffort`: a credit that leaves the account below the existential
deposit, or that changes nothing, is skipped. -/
def increaseBalance (L : Ledger α) (who : α) (amount : Nat) : Ledger α :=
  let newBalance := saturatingAdd 128 (L.balance who) amount
  if newBalance < existentialDeposit then L
  else if newBalance = L.balance who then L
  else writeBalance existentialDeposit L who newBalance

/-- `fungible::Mutate::transfer`. -/
def transfer (L : Ledger α) (source dest : α) (amount : Nat) (preservation : Assets.Preservation) :
    Except Assets.TokenError (Ledger α) := do
  canWithdraw existentialDeposit L source amount (preservation ≠ .expendable)
  canDeposit existentialDeposit L dest amount
  if source = dest then return L
  let L := decreaseBalance existentialDeposit L source amount preservation
  return increaseBalance existentialDeposit L dest amount

/-- `Currency::transfer`: nothing for a zero value or a transfer to oneself; otherwise the
`fungible` transfer, which keeps the source alive for `KeepAlive`. -/
def currencyTransfer (L : Ledger α) (transactor dest : α) (value : Nat)
    (existenceRequirement : ExistenceRequirement) : Except Assets.TokenError (Ledger α) :=
  if value = 0 ∨ transactor = dest then .ok L
  else
    let preservation : Assets.Preservation := match existenceRequirement with
      | .keepAlive => .preserve
      | .allowDeath => .expendable
    transfer existentialDeposit L transactor dest value preservation

/-! ## What the writes do to the books -/

section Books

@[simp] theorem totalIssuance_increaseIssuance (L : Ledger α) (amount : Nat) :
    (increaseIssuance L amount).totalIssuance = saturatingAdd 128 L.totalIssuance amount := rfl

@[simp] theorem totalIssuance_decreaseIssuance (L : Ledger α) (amount : Nat) :
    (decreaseIssuance L amount).totalIssuance = L.totalIssuance - amount := rfl

@[simp] theorem totalBalance_increaseIssuance (L : Ledger α) (amount : Nat) :
    (increaseIssuance L amount).totalBalance = L.totalBalance := rfl

@[simp] theorem totalBalance_decreaseIssuance (L : Ledger α) (amount : Nat) :
    (decreaseIssuance L amount).totalBalance = L.totalBalance := rfl

/-- Writing the balance of `who` moves the sum of the balances by the difference. -/
theorem totalBalance_insert (L : Ledger α) (who : α) (b : Nat) :
    ({ L with accounts := L.accounts.insert who b } : Ledger α).totalBalance + L.balance who =
      L.totalBalance + b := by
  have h := StorageMap.sumBy_insert (fun _ b => b) L.accounts who b
  unfold Ledger.totalBalance Ledger.balance StorageMap.getD
  cases hb : L.accounts.get? who with
  | none => simpa [hb] using h
  | some b' => simpa [hb] using h

/-- What `deposit_creating` can do: nothing, or credit `who` with the whole value. -/
theorem depositCreating_cases (L : Ledger α) (who : α) (value : Nat) :
    depositCreating existentialDeposit L who value = (L, 0) ∨
      depositCreating existentialDeposit L who value =
        ({ L with accounts := L.accounts.insert who (L.balance who + value) }, value) := by
  unfold depositCreating
  by_cases h0 : value = 0
  · exact .inl (if_pos h0)
  rw [if_neg h0]
  cases hget : L.accounts.get? who with
  | none =>
    by_cases hed : value < existentialDeposit
    · exact .inl (if_pos hed)
    · -- a new account opens with the value
      refine .inr ?_
      simp [hed, Ledger.balance, StorageMap.getD, hget]
  | some free =>
    by_cases hover : maxValue 128 < free + value
    · exact .inl (if_pos hover)
    · refine .inr ?_
      simp [hover, Ledger.balance, StorageMap.getD, hget]

/-- A deposit moves the sum of the balances by the imbalance it returns, and leaves the issuance
alone. -/
theorem totalBalance_depositCreating (L : Ledger α) (who : α) (value : Nat) :
    (depositCreating existentialDeposit L who value).1.totalBalance =
        L.totalBalance + (depositCreating existentialDeposit L who value).2 ∧
      (depositCreating existentialDeposit L who value).1.totalIssuance = L.totalIssuance := by
  rcases depositCreating_cases existentialDeposit L who value with h | h <;> rw [h]
  · exact ⟨rfl, rfl⟩
  · refine ⟨?_, rfl⟩
    have := totalBalance_insert L who (L.balance who + value)
    dsimp only
    omega

/-- Resolving a `NegativeImbalance` into an account that takes the whole deposit credits the
account and leaves the issuance alone: the two imbalances cancel. -/
theorem resolveCreating_of_deposited {L : Ledger α} {who : α} {value : Nat}
    (h : (depositCreating existentialDeposit L who value).2 = value) :
    (resolveCreating existentialDeposit L who value).totalBalance = L.totalBalance + value ∧
      (resolveCreating existentialDeposit L who value).totalIssuance = L.totalIssuance := by
  unfold resolveCreating
  rcases depositCreating_cases existentialDeposit L who value with hd | hd <;> rw [hd] at h ⊢
  · -- nothing was deposited, so there was nothing to resolve
    dsimp only at h
    subst h
    exact ⟨rfl, rfl⟩
  · have := totalBalance_insert L who (L.balance who + value)
    simp only [dropOffset, lt_irrefl, if_false, and_true]
    omega

/-- A slash from balanced books leaves a credit of what it took outstanding. -/
theorem slash_credit {L : Ledger α} (hL : L.Balanced) (who : α) (value : Nat) :
    (slash L who value).1.totalIssuance = (slash L who value).1.totalBalance + (slash L who value).2 := by
  have h := totalBalance_insert L who (L.balance who - min value (L.balance who))
  have htaken : min value (L.balance who) ≤ L.balance who := min_le_right _ _
  unfold Ledger.Balanced at hL
  dsimp only [slash]
  omega

/-- Issuing from balanced books leaves a credit of the rise outstanding; the issuance, a
`u128`, only rises. -/
theorem issue_credit {L : Ledger α} (hL : L.Balanced) (value : Nat) :
    (issue L value).1.totalIssuance = (issue L value).1.totalBalance + (issue L value).2 := by
  have hle : L.totalIssuance ≤ saturatingAdd 128 L.totalIssuance value :=
    le_min (Nat.le_add_right _ _) L.totalIssuance_le
  unfold Ledger.Balanced at hL
  dsimp only [issue]
  rw [totalIssuance_increaseIssuance, totalBalance_increaseIssuance]
  omega

end Books

/-! ## What a transfer does to the balances -/

section Transfers

theorem balance_writeBalance (L : Ledger α) (who who' : α) (amount : Nat) :
    (writeBalance existentialDeposit L who amount).balance who' =
      if who' = who then (if amount < existentialDeposit then 0 else amount)
      else L.balance who' := by
  unfold writeBalance Ledger.balance StorageMap.getD
  split_ifs with hed hw hw
  · rw [StorageMap.get?_remove, if_pos hw]
    rfl
  · rw [StorageMap.get?_remove, if_neg hw]
  · rw [StorageMap.get?_insert, if_pos hw]
    rfl
  · rw [StorageMap.get?_insert, if_neg hw]

theorem canWithdraw_ok {L : Ledger α} {who : α} {amount : Nat} {keep : Bool}
    (h : canWithdraw existentialDeposit L who amount keep = .ok ()) :
    amount ≤ L.balance who ∧
      (keep = true → amount ≠ 0 → existentialDeposit ≤ L.balance who - amount) := by
  unfold canWithdraw at h
  split_ifs at h with h₀ h₁ h₂ h₃
  · exact ⟨by omega, fun _ h => absurd h₀ h⟩
  · exact ⟨by omega, fun hk _ => by simp_all⟩

theorem canDeposit_ok {L : Ledger α} {who : α} {amount : Nat}
    (h : canDeposit existentialDeposit L who amount = .ok ()) (h0 : amount ≠ 0) :
    L.balance who + amount ≤ maxValue 128 ∧ existentialDeposit ≤ L.balance who + amount := by
  unfold canDeposit at h
  split_ifs at h with h₀ h₁ h₂
  · exact absurd h₀ h0
  · exact ⟨by omega, by omega⟩

/-- A successful transfer between two accounts passed both checks, and debits the source before
crediting the destination. -/
theorem transfer_ok {L L' : Ledger α} {source dest : α} {amount : Nat} {p : Assets.Preservation}
    (h : transfer existentialDeposit L source dest amount p = .ok L') (hne : source ≠ dest) :
    canWithdraw existentialDeposit L source amount (p ≠ .expendable) = .ok () ∧
      canDeposit existentialDeposit L dest amount = .ok () ∧
      L' = increaseBalance existentialDeposit
        (decreaseBalance existentialDeposit L source amount p) dest amount := by
  simp only [transfer, Machine.bind_eq_ok] at h
  obtain ⟨u, hw, v, hd, hr⟩ := h
  rw [if_neg hne] at hr
  exact ⟨hw, hd, (Except.ok.inj hr).symm⟩

/-- A successful `Currency::transfer` of a nonzero value between two accounts is the `fungible`
transfer. -/
theorem currencyTransfer_ok {L L' : Ledger α} {transactor dest : α} {value : Nat}
    {req : ExistenceRequirement}
    (h : currencyTransfer existentialDeposit L transactor dest value req = .ok L') :
    (value = 0 ∨ transactor = dest) ∧ L' = L ∨
      ∃ p, value ≠ 0 ∧ transactor ≠ dest ∧ (req = .allowDeath ↔ p = .expendable) ∧
        transfer existentialDeposit L transactor dest value p = .ok L' := by
  unfold currencyTransfer at h
  split_ifs at h with hskip
  · exact .inl ⟨hskip, (Except.ok.inj h).symm⟩
  · obtain ⟨h0, hne⟩ := not_or.mp hskip
    refine .inr ⟨_, h0, hne, ?_, h⟩
    cases req <;> simp

/-- The destination of a transfer gets exactly the amount: the deposit check ruled out an
overflow and a credit below the existential deposit. -/
theorem balance_dest_transfer {L L' : Ledger α} {source dest : α} {amount : Nat}
    {p : Assets.Preservation} (h : transfer existentialDeposit L source dest amount p = .ok L')
    (hne : source ≠ dest) (h0 : amount ≠ 0) : L'.balance dest = L.balance dest + amount := by
  obtain ⟨-, hd, rfl⟩ := transfer_ok existentialDeposit h hne
  obtain ⟨hmax, hed⟩ := canDeposit_ok existentialDeposit hd h0
  -- the debit of the source leaves the destination alone
  have hdest : (decreaseBalance existentialDeposit L source amount p).balance dest =
      L.balance dest := by
    rw [decreaseBalance]
    rw [balance_writeBalance, if_neg (Ne.symm hne)]
  unfold increaseBalance
  dsimp only
  rw [hdest, saturatingAdd_of_le hmax, if_neg (Nat.not_lt.mpr hed), if_neg (by omega),
    balance_writeBalance, if_pos rfl, if_neg (Nat.not_lt.mpr hed)]

/-- A transfer leaves every account but its two parties alone. -/
theorem balance_other_transfer {L L' : Ledger α} {source dest who : α} {amount : Nat}
    {p : Assets.Preservation} (h : transfer existentialDeposit L source dest amount p = .ok L')
    (hs : who ≠ source) (hd : who ≠ dest) : L'.balance who = L.balance who := by
  by_cases hsd : source = dest
  · simp only [transfer, Machine.bind_eq_ok, if_pos hsd, Machine.pure_eq_ok] at h
    obtain ⟨-, -, -, -, rfl⟩ := h
    rfl
  · obtain ⟨-, -, rfl⟩ := transfer_ok existentialDeposit h hsd
    have hdebit : (decreaseBalance existentialDeposit L source amount p).balance who =
        L.balance who := by
      rw [decreaseBalance]
      rw [balance_writeBalance, if_neg hs]
    unfold increaseBalance
    dsimp only
    split_ifs
    · exact hdebit
    · exact hdebit
    · rw [balance_writeBalance, if_neg hd, hdebit]

/-- Under an existential deposit of at most one a transfer takes exactly the amount from its
source: the only balance below the deposit is zero, so no dust is lost. -/
theorem balance_source_transfer (hed : existentialDeposit ≤ 1) {L L' : Ledger α}
    {source dest : α} {amount : Nat} {p : Assets.Preservation}
    (h : transfer existentialDeposit L source dest amount p = .ok L') (hne : source ≠ dest) :
    amount ≤ L.balance source ∧ L'.balance source = L.balance source - amount := by
  obtain ⟨hw, -, rfl⟩ := transfer_ok existentialDeposit h hne
  obtain ⟨hle, hkeep⟩ := canWithdraw_ok existentialDeposit hw
  refine ⟨hle, ?_⟩
  -- the credit is to the other party
  have hcredit : ∀ L₁ : Ledger α, (increaseBalance existentialDeposit L₁ dest amount).balance
      source = L₁.balance source := by
    intro L₁
    unfold increaseBalance
    dsimp only
    split_ifs
    · rfl
    · rfl
    · rw [balance_writeBalance, if_neg hne]
  -- the whole amount is reducible: all of the balance, or all but a deposit the source keeps
  have hreducible : amount ≤ reducibleBalance existentialDeposit L source p := by
    unfold reducibleBalance
    split_ifs with hp
    · exact hle
    · by_cases h0 : amount = 0
      · omega
      · have := hkeep (by simpa using hp) h0
        omega
  rw [hcredit, decreaseBalance]
  rw [balance_writeBalance, if_pos rfl, min_eq_left hreducible]
  split_ifs <;> omega

/-- The destination of a `Currency::transfer` of a nonzero value from another account gets
exactly the value. -/
theorem balance_dest_currencyTransfer {L L' : Ledger α} {transactor dest : α} {value : Nat}
    {req : ExistenceRequirement}
    (h : currencyTransfer existentialDeposit L transactor dest value req = .ok L')
    (h0 : value ≠ 0) (hne : transactor ≠ dest) : L'.balance dest = L.balance dest + value := by
  rcases currencyTransfer_ok existentialDeposit h with ⟨hskip, -⟩ | ⟨p, -, -, -, ht⟩
  · exact absurd hskip (not_or.mpr ⟨h0, hne⟩)
  · exact balance_dest_transfer existentialDeposit ht hne h0

/-- Under an existential deposit of at most one the source of a `Currency::transfer` of a
nonzero value to another account loses exactly the value. -/
theorem balance_source_currencyTransfer (hed : existentialDeposit ≤ 1) {L L' : Ledger α}
    {transactor dest : α} {value : Nat} {req : ExistenceRequirement}
    (h : currencyTransfer existentialDeposit L transactor dest value req = .ok L')
    (h0 : value ≠ 0) (hne : transactor ≠ dest) :
    value ≤ L.balance transactor ∧ L'.balance transactor = L.balance transactor - value := by
  rcases currencyTransfer_ok existentialDeposit h with ⟨hskip, -⟩ | ⟨p, -, -, -, ht⟩
  · exact absurd hskip (not_or.mpr ⟨h0, hne⟩)
  · exact balance_source_transfer existentialDeposit hed ht hne

/-- A `Currency::transfer` never lowers the balance of an account that does not pay. -/
theorem balance_le_currencyTransfer {L L' : Ledger α} {transactor dest who : α} {value : Nat}
    {req : ExistenceRequirement}
    (h : currencyTransfer existentialDeposit L transactor dest value req = .ok L')
    (hwho : who ≠ transactor) : L.balance who ≤ L'.balance who := by
  rcases currencyTransfer_ok existentialDeposit h with ⟨-, rfl⟩ | ⟨p, h0, hne, -, ht⟩
  · exact le_rfl
  · by_cases hdest : who = dest
    · subst hdest
      rw [balance_dest_transfer existentialDeposit ht hne h0]
      exact Nat.le_add_right _ _
    · rw [balance_other_transfer existentialDeposit ht hwho hdest]

end Transfers

end Balances
