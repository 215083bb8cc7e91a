import Pezkuwi.Storage.Map
import Pezkuwi.Arith.Bounded
import Pezkuwi.Machine.Reach

/-!
# One asset of `pallet-assets`, through the `fungibles` traits

The pallets of this runtime move their tokens with `fungibles::Mutate::{transfer, mint_into,
burn_from}` on `pallet-assets`. For one live asset with no freezes, holds or blocked accounts,
the state those calls read and write is the asset's `supply` and the `Account` balances, and
their behaviour is fixed by the asset's `min_balance`:

* a debit that would leave less than `min_balance` fails when the account must be kept alive,
  and otherwise takes the whole balance, the dust included, and reaps the account;
* a credit that would open an account with less than `min_balance` fails;
* `transfer` credits the destination with the amount only, so dust taken from the source is
  neither credited nor burned; `burn_from` burns the dust with the amount.

## Main definitions

* `Ledger`: the supply and the account balances of the asset
* `transfer`, `mintInto`, `burnFrom`: the three calls
* `Ledger.balance`: `fungibles::Inspect::balance`

## Main results

* `transfer_ok`: a successful transfer between two accounts debits the source and credits
  the destination by the amount, leaving every other balance as it was
* `balance_source_le_transfer`: under a minimum balance of at most one no dust arises, and a
  transfer takes at most the amount from its source
* `balance_dest_le_transfer`: a transfer never lowers its destination's balance
-/

namespace Assets

/-- `frame_support::traits::tokens::Preservation`. -/
inductive Preservation where
  | expendable
  | protect
  | preserve
  deriving DecidableEq, Repr

/-- The token and arithmetic errors of the modelled paths. -/
inductive TokenError where
  | fundsUnavailable
  | notExpendable
  | belowMinimum
  | overflow
  | underflow
  deriving DecidableEq, Repr

/-- The storage of one asset: `Asset(id).supply` and the `Account(id, ·)` balances. An
account that is not in `accounts` does not exist. -/
structure Ledger (α : Type) [LinearOrder α] where
  accounts : StorageMap α Nat
  supply : Nat

variable {α : Type} [LinearOrder α]

open Bounded

namespace Ledger

/-- `fungibles::Inspect::balance`: zero for an account that does not exist. -/
def balance (L : Ledger α) (who : α) : Nat :=
  L.accounts.getD who 0

end Ledger

variable (minBalance : Nat)

/-- `can_increase` for a nonzero amount: the supply (when minting) and the account must not
overflow, and a new account must reach `min_balance`. -/
def canIncrease (L : Ledger α) (who : α) (amount : Nat) (increaseSupply : Bool) :
    Except TokenError Unit :=
  if increaseSupply ∧ maxValue 128 < L.supply + amount then .error .overflow
  else match L.accounts.get? who with
    | some b => if maxValue 128 < b + amount then .error .overflow else .ok ()
    | none => if amount < minBalance then .error .belowMinimum else .ok ()

/-- `can_decrease` with `keep_alive = false`, read through `into_result(keep_nonzero)`. -/
def canWithdraw (L : Ledger α) (who : α) (amount : Nat) (keepNonzero : Bool) :
    Except TokenError Unit :=
  if L.supply < amount then .error .underflow
  else if amount = 0 then .ok ()
  else if L.balance who < amount then .error .fundsUnavailable
  else if L.balance who - amount < minBalance ∧ keepNonzero then .error .notExpendable
  else .ok ()

/-- The write of `decrease_balance` once its checks passed: the balance falls by the amount,
and an account left under `min_balance` is reaped with its dust. -/
def debit (L : Ledger α) (who : α) (amount : Nat) : Ledger α :=
  if amount = 0 then L
  else if L.balance who - amount < minBalance then { L with accounts := L.accounts.remove who }
  else { L with accounts := L.accounts.insert who (L.balance who - amount) }

/-- The write of `increase_balance`; the credit is skipped when `can_increase` refuses it, as
`transfer` ignores that error. -/
def credit (L : Ledger α) (who : α) (amount : Nat) : Ledger α :=
  if amount = 0 then L
  else match canIncrease minBalance L who amount true with
    | .ok () => { L with accounts := L.accounts.insert who (L.balance who + amount) }
    | .error _ => L

/-- `fungibles::Mutate::transfer`. -/
def transfer (L : Ledger α) (source dest : α) (amount : Nat) (preservation : Preservation) :
    Except TokenError (Ledger α) := do
  canWithdraw minBalance L source amount (preservation ≠ .expendable)
  canIncrease minBalance L dest amount false
  if source = dest then return L
  return credit minBalance (debit minBalance L source amount) dest amount

/-- `fungibles::Mutate::mint_into`. -/
def mintInto (L : Ledger α) (who : α) (amount : Nat) : Except TokenError (Ledger α) := do
  if maxValue 128 < L.supply + amount then throw .overflow
  if amount = 0 then return L
  canIncrease minBalance L who amount true
  return { accounts := L.accounts.insert who (L.balance who + amount),
           supply := L.supply + amount }

/-- `fungibles::Mutate::burn_from` with `Expendable`, `Exact` and `Force`: the amount and the
dust it leaves are burned. -/
def burnFrom (L : Ledger α) (who : α) (amount : Nat) : Except TokenError (Ledger α) := do
  if L.balance who < amount then throw .fundsUnavailable
  if L.supply < amount then throw .overflow
  let burned := if L.balance who - amount < minBalance then L.balance who else amount
  return { debit minBalance L who amount with supply := L.supply - burned }

/-! ## Balances after a write -/

theorem balance_insert (L : Ledger α) (who who' : α) (b : Nat) :
    ({ L with accounts := L.accounts.insert who b } : Ledger α).balance who' =
      if who' = who then b else L.balance who' := by
  unfold Ledger.balance StorageMap.getD
  rw [StorageMap.get?_insert]
  split_ifs <;> rfl

theorem balance_remove (L : Ledger α) (who who' : α) :
    ({ L with accounts := L.accounts.remove who } : Ledger α).balance who' =
      if who' = who then 0 else L.balance who' := by
  unfold Ledger.balance StorageMap.getD
  rw [StorageMap.get?_remove]
  split_ifs <;> rfl

@[simp] theorem supply_debit (L : Ledger α) (who : α) (amount : Nat) :
    (debit minBalance L who amount).supply = L.supply := by
  unfold debit
  split_ifs <;> rfl

@[simp] theorem supply_credit (L : Ledger α) (who : α) (amount : Nat) :
    (credit minBalance L who amount).supply = L.supply := by
  unfold credit
  split
  · rfl
  · split <;> rfl

theorem balance_debit_other (L : Ledger α) {who who' : α} (h : who' ≠ who) (amount : Nat) :
    (debit minBalance L who amount).balance who' = L.balance who' := by
  unfold debit
  split_ifs
  · rfl
  · rw [balance_remove, if_neg h]
  · rw [balance_insert, if_neg h]

theorem balance_debit_self_add (L : Ledger α) (who : α) (amount : Nat)
    (h : amount ≤ L.balance who) :
    (debit minBalance L who amount).balance who + amount ≤ L.balance who := by
  unfold debit
  split_ifs
  · omega
  · rw [balance_remove, if_pos rfl]
    omega
  · rw [balance_insert, if_pos rfl]
    omega

/-- Under a minimum balance of at most one a debit takes exactly the amount: the only balance
below the minimum is zero, so there is no dust. -/
theorem balance_debit_self (hmin : minBalance ≤ 1) (L : Ledger α) (who : α) {amount : Nat}
    (h : amount ≤ L.balance who) :
    (debit minBalance L who amount).balance who = L.balance who - amount := by
  unfold debit
  split_ifs with h0 hdust
  · omega
  · -- a reaped account held exactly the amount
    rw [balance_remove, if_pos rfl]
    omega
  · rw [balance_insert, if_pos rfl]

theorem balance_le_credit (L : Ledger α) (who : α) (amount : Nat) :
    L.balance who ≤ (credit minBalance L who amount).balance who := by
  unfold credit
  split
  · exact le_rfl
  · split
    · rw [balance_insert, if_pos rfl]
      omega
    · exact le_rfl

theorem balance_credit_other (L : Ledger α) {who who' : α} (h : who' ≠ who) (amount : Nat) :
    (credit minBalance L who amount).balance who' = L.balance who' := by
  unfold credit
  split
  · rfl
  · split
    · rw [balance_insert, if_neg h]
    · rfl

theorem canWithdraw_ok {L : Ledger α} {who : α} {amount : Nat} {keep : Bool}
    (h : canWithdraw minBalance L who amount keep = .ok ()) :
    amount ≤ L.balance who ∧ (keep = true → amount ≠ 0 → minBalance ≤ L.balance who - amount) := by
  unfold canWithdraw at h
  split_ifs at h with h₁ h₂ h₃ h₄
  · exact ⟨by omega, fun _ h => absurd h₂ h⟩
  · exact ⟨by omega, fun hk _ => by simp_all⟩

/-- A successful mint: the supply and the new balance fit in a `u128`, and a nonzero amount is
credited to the account and added to the supply. -/
theorem mintInto_ok {L L' : Ledger α} {who : α} {amount : Nat}
    (h : mintInto minBalance L who amount = .ok L') :
    L.supply + amount ≤ maxValue 128 ∧
      L' = if amount = 0 then L
        else { accounts := L.accounts.insert who (L.balance who + amount),
               supply := L.supply + amount } := by
  by_cases hover : maxValue 128 < L.supply + amount
  · simp [mintInto, hover, throw, throwThe, MonadExceptOf.throw, bind, Except.bind] at h
  refine ⟨Nat.le_of_not_lt hover, ?_⟩
  by_cases h0 : amount = 0
  · subst h0
    rw [Nat.add_zero] at hover
    simp [mintInto, hover, pure, Except.pure] at h
    rw [if_pos rfl, h]
  · simp [mintInto, hover, h0, Machine.bind_eq_ok, pure, Except.pure] at h
    rw [if_neg h0, h.2]

/-- A mint credits its account with the amount and leaves every other balance. -/
theorem balance_mintInto {L L' : Ledger α} {who : α} {amount : Nat}
    (h : mintInto minBalance L who amount = .ok L') (who' : α) :
    L'.balance who' = if who' = who then L.balance who + amount else L.balance who' := by
  obtain ⟨-, rfl⟩ := mintInto_ok minBalance h
  split_ifs with h0 hw hw
  · rw [h0, Nat.add_zero, hw]
  · rfl
  · exact balance_insert L who who' _ ▸ if_pos hw
  · exact balance_insert L who who' _ ▸ if_neg hw

/-- A successful burn: the account held the amount, and the supply falls by the amount and the
dust the account was left with, which under a minimum balance of at most one is nothing. -/
theorem burnFrom_ok {L L' : Ledger α} {who : α} {amount : Nat}
    (h : burnFrom minBalance L who amount = .ok L') :
    amount ≤ L.balance who ∧ amount ≤ L.supply ∧ L'.supply ≤ L.supply - amount ∧
      (minBalance ≤ 1 → L'.supply = L.supply - amount) := by
  by_cases hbal : L.balance who < amount
  · simp [burnFrom, hbal, throw, throwThe, MonadExceptOf.throw, bind, Except.bind] at h
  by_cases hsup : L.supply < amount
  · simp [burnFrom, hbal, hsup, throw, throwThe, MonadExceptOf.throw, bind, Except.bind] at h
  simp only [burnFrom, hbal, hsup, if_false, Machine.pure_eq_ok] at h
  obtain ⟨-, -, -, -, rfl⟩ := h
  refine ⟨Nat.le_of_not_lt hbal, Nat.le_of_not_lt hsup, ?_, fun hmin => ?_⟩
  · -- the dust only adds to what is burned
    dsimp only
    split_ifs <;> omega
  · dsimp only
    split_ifs <;> omega

/-- A successful transfer between two accounts debits the source and credits the destination,
and leaves every other balance as it was. -/
theorem transfer_ok {L L' : Ledger α} {source dest : α} {amount : Nat} {p : Preservation}
    (h : transfer minBalance L source dest amount p = .ok L') (hne : source ≠ dest) :
    canWithdraw minBalance L source amount (p ≠ .expendable) = .ok () ∧
      L' = credit minBalance (debit minBalance L source amount) dest amount := by
  simp only [transfer, Machine.bind_eq_ok] at h
  obtain ⟨u, hw, v, -, hr⟩ := h
  rw [if_neg hne] at hr
  exact ⟨hw, (Except.ok.inj hr).symm⟩

/-- A transfer that keeps its source alive takes exactly the amount from it: the source keeps at
least `min_balance`, so no dust is swept with it. -/
theorem balance_source_transfer_keepAlive {L L' : Ledger α} {source dest : α} {amount : Nat}
    {p : Preservation} (hp : p ≠ .expendable)
    (h : transfer minBalance L source dest amount p = .ok L') (hne : source ≠ dest) :
    amount ≤ L.balance source ∧ L'.balance source = L.balance source - amount := by
  obtain ⟨hw, rfl⟩ := transfer_ok minBalance h hne
  obtain ⟨hle, hkeep⟩ := canWithdraw_ok minBalance hw
  refine ⟨hle, ?_⟩
  rw [balance_credit_other minBalance _ hne]
  unfold debit
  split_ifs with h0 hdust
  · rw [h0, Nat.sub_zero]
  · exact absurd (hkeep (by simpa using hp) h0) (Nat.not_le.mpr hdust)
  · rw [balance_insert, if_pos rfl]

/-- A transfer from an account to itself changes nothing. -/
theorem transfer_self_ok {L L' : Ledger α} {who : α} {amount : Nat} {p : Preservation}
    (h : transfer minBalance L who who amount p = .ok L') : L' = L := by
  simp only [transfer, Machine.bind_eq_ok, if_true, Machine.pure_eq_ok] at h
  obtain ⟨-, -, -, -, hL⟩ := h
  exact hL.symm

/-- A successful transfer pays its source itself and changes nothing, or debits its source and
credits another account. -/
theorem transfer_cases {L L' : Ledger α} {source dest : α} {amount : Nat} {p : Preservation}
    (h : transfer minBalance L source dest amount p = .ok L') :
    (source = dest ∧ L' = L) ∨
      (source ≠ dest ∧ canWithdraw minBalance L source amount (p ≠ .expendable) = .ok () ∧
        L' = credit minBalance (debit minBalance L source amount) dest amount) := by
  by_cases hsd : source = dest
  · subst hsd
    exact .inl ⟨rfl, transfer_self_ok minBalance h⟩
  · exact .inr ⟨hsd, transfer_ok minBalance h hsd⟩

/-- Under a minimum balance of at most one a transfer takes at most the amount from its
source: exactly the amount, or nothing when the source pays itself. -/
theorem balance_source_le_transfer (hmin : minBalance ≤ 1) {L L' : Ledger α} {source dest : α}
    {amount : Nat} {p : Preservation} (h : transfer minBalance L source dest amount p = .ok L') :
    L.balance source ≤ L'.balance source + amount := by
  rcases transfer_cases minBalance h with ⟨rfl, rfl⟩ | ⟨hsd, hw, rfl⟩
  · omega
  · have hle : amount ≤ L.balance source := (canWithdraw_ok minBalance hw).1
    rw [balance_credit_other minBalance _ hsd, balance_debit_self minBalance hmin L source hle]
    omega

/-- A transfer never lowers the balance of its destination; the credit may be skipped, and the
debit is of another account. -/
theorem balance_dest_le_transfer {L L' : Ledger α} {source dest : α} {amount : Nat}
    {p : Preservation} (h : transfer minBalance L source dest amount p = .ok L') :
    L.balance dest ≤ L'.balance dest := by
  rcases transfer_cases minBalance h with ⟨rfl, rfl⟩ | ⟨hsd, -, rfl⟩
  · exact le_rfl
  · calc L.balance dest
        = (debit minBalance L source amount).balance dest :=
          (balance_debit_other minBalance L (Ne.symm hsd) amount).symm
      _ ≤ _ := balance_le_credit minBalance _ dest amount

/-- A transfer moves no supply. -/
theorem supply_transfer {L L' : Ledger α} {source dest : α} {amount : Nat} {p : Preservation}
    (h : transfer minBalance L source dest amount p = .ok L') : L'.supply = L.supply := by
  rcases transfer_cases minBalance h with ⟨rfl, rfl⟩ | ⟨-, -, rfl⟩
  · rfl
  · rw [supply_credit, supply_debit]

end Assets
