import Pezkuwi.Frame.Balances

/-!
# Accounts above their minimum, and round trips

Both token pallets reap an account whose balance falls below a minimum: the existential deposit
of `pallet-balances`, the `min_balance` of an asset. So in every ledger the writes build, an
account that exists holds at least the minimum (`WellFormed`), and a balance below it is the zero
balance of an account that does not exist. Such a ledger is determined by its balances and its
issuance (`Balances.Ledger.WellFormed.ext`), and a write that brings every balance back brings the
ledger back.

That is what makes the two round trips of the wrapper pallet exact. A native transfer that keeps
its source alive is undone by the transfer back that lets the account it credited die
(`Balances.currencyTransfer_keepAlive_undo`): the credited account returns to its old balance,
which is zero or at least the deposit, so no dust is lost on the way. A mint is undone by the
burn of the same amount (`Assets.burnFrom_mintInto`).

## Main definitions

* `Balances.Ledger.WellFormed`, `Assets.Ledger.WellFormed`: every account holds its minimum

## Main results

* `Balances.Ledger.WellFormed.currencyTransfer`, `Assets.Ledger.WellFormed.transfer` and the
  others: the writes keep a ledger well formed
* `Balances.transfer_exact`: a transfer whose source ends at zero or above the deposit moves
  exactly the amount and no issuance
* `Balances.currencyTransfer_keepAlive_undo`, `Assets.burnFrom_mintInto`: the round trips
-/

open Bounded

variable {α : Type} [LinearOrder α]

namespace Balances

variable {existentialDeposit : Nat}

/-- Every account that exists holds at least the existential deposit and fits in a `u128`: a
debit reaps an account that falls below the deposit, and a credit saturates. -/
def Ledger.WellFormed (existentialDeposit : Nat) (L : Ledger α) : Prop :=
  ∀ who b, L.accounts.get? who = some b → existentialDeposit ≤ b ∧ b ≤ maxValue 128

theorem Ledger.ext {L L' : Ledger α} (ha : L.accounts = L'.accounts)
    (hi : L.totalIssuance = L'.totalIssuance) : L = L' := by
  cases L
  cases L'
  subst ha hi
  rfl

/-- A nonzero balance is the balance of an account that exists. -/
theorem get?_of_balance_ne_zero {L : Ledger α} {who : α} (h : L.balance who ≠ 0) :
    L.accounts.get? who = some (L.balance who) := by
  cases hget : L.accounts.get? who with
  | none => simp [Ledger.balance, StorageMap.getD, hget] at h
  | some b => simp [Ledger.balance, StorageMap.getD, hget]

namespace Ledger.WellFormed

variable {L : Ledger α}

theorem balance_le (hL : L.WellFormed existentialDeposit) (who : α) :
    L.balance who ≤ maxValue 128 := by
  cases hget : L.accounts.get? who with
  | none => simp [Ledger.balance, StorageMap.getD, hget]
  | some b =>
    rw [Ledger.balance, StorageMap.getD, hget, Option.getD_some]
    exact (hL who b hget).2

/-- A balance below the existential deposit is the zero balance of an account that does not
exist. -/
theorem get?_eq_none (hL : L.WellFormed existentialDeposit) {who : α}
    (hlt : L.balance who < existentialDeposit) : L.accounts.get? who = none := by
  cases hget : L.accounts.get? who with
  | none => rfl
  | some b =>
    rw [Ledger.balance, StorageMap.getD, hget, Option.getD_some] at hlt
    exact absurd (hL who b hget).1 (Nat.not_le.mpr hlt)

theorem balance_eq_zero (hL : L.WellFormed existentialDeposit) {who : α}
    (hlt : L.balance who < existentialDeposit) : L.balance who = 0 := by
  rw [Ledger.balance, StorageMap.getD, hL.get?_eq_none hlt, Option.getD_none]

/-- Under a nonzero existential deposit a well-formed ledger is determined by its balances and
its issuance: an account exists exactly when its balance is nonzero. -/
theorem ext (hed : 0 < existentialDeposit) {L' : Ledger α} (hL : L.WellFormed existentialDeposit)
    (hL' : L'.WellFormed existentialDeposit) (hb : ∀ who, L.balance who = L'.balance who)
    (hi : L.totalIssuance = L'.totalIssuance) : L = L' := by
  refine Ledger.ext (StorageMap.ext_get? fun who => ?_) hi
  by_cases h0 : L.balance who = 0
  · rw [hL.get?_eq_none (h0 ▸ hed), hL'.get?_eq_none ((hb who).symm.trans h0 ▸ hed)]
  · rw [get?_of_balance_ne_zero h0, get?_of_balance_ne_zero ((hb who) ▸ h0), hb who]

theorem writeBalance (hL : L.WellFormed existentialDeposit) (who : α) {amount : Nat}
    (hmax : amount ≤ maxValue 128) :
    (Balances.writeBalance existentialDeposit L who amount).WellFormed existentialDeposit := by
  intro who' b h
  unfold Balances.writeBalance at h
  split_ifs at h with hlt
  · -- the account is reaped
    rw [StorageMap.get?_remove] at h
    split_ifs at h
    exact hL who' b h
  · rw [StorageMap.get?_insert] at h
    split_ifs at h
    · cases h
      exact ⟨Nat.not_lt.mp hlt, hmax⟩
    · exact hL who' b h

theorem decreaseBalance (hL : L.WellFormed existentialDeposit) (who : α) (amount : Nat)
    (p : Assets.Preservation) :
    (Balances.decreaseBalance existentialDeposit L who amount p).WellFormed
      existentialDeposit :=
  hL.writeBalance who ((Nat.sub_le _ _).trans (hL.balance_le who))

theorem increaseBalance (hL : L.WellFormed existentialDeposit) (who : α) (amount : Nat) :
    (Balances.increaseBalance existentialDeposit L who amount).WellFormed existentialDeposit := by
  unfold Balances.increaseBalance
  dsimp only
  split_ifs
  · exact hL
  · exact hL
  · exact hL.writeBalance who (saturatingAdd_le_maxValue _ _ _)

theorem transfer (hL : L.WellFormed existentialDeposit) {L' : Ledger α} {source dest : α}
    {amount : Nat} {p : Assets.Preservation}
    (h : Balances.transfer existentialDeposit L source dest amount p = .ok L') :
    L'.WellFormed existentialDeposit := by
  by_cases hne : source = dest
  · simp only [Balances.transfer, Machine.bind_eq_ok, if_pos hne, Machine.pure_eq_ok] at h
    obtain ⟨-, -, -, -, rfl⟩ := h
    exact hL
  · obtain ⟨-, -, rfl⟩ := transfer_ok existentialDeposit h hne
    exact (hL.decreaseBalance source amount p).increaseBalance dest amount

theorem currencyTransfer (hL : L.WellFormed existentialDeposit) {L' : Ledger α}
    {transactor dest : α} {value : Nat} {req : ExistenceRequirement}
    (h : Balances.currencyTransfer existentialDeposit L transactor dest value req = .ok L') :
    L'.WellFormed existentialDeposit := by
  rcases currencyTransfer_ok existentialDeposit h with ⟨-, rfl⟩ | ⟨p, -, -, -, ht⟩
  · exact hL
  · exact hL.transfer ht

end Ledger.WellFormed

/-! ## Transfers that leave no dust -/

theorem le_totalIssuance_of_canWithdraw {L : Ledger α} {who : α} {amount : Nat} {keep : Bool}
    (h : canWithdraw existentialDeposit L who amount keep = .ok ()) (h0 : amount ≠ 0) :
    amount ≤ L.totalIssuance := by
  unfold canWithdraw at h
  split_ifs at h with h₀ h₁
  · exact absurd h₀ h0
  · exact Nat.le_of_not_lt h₁

theorem canWithdraw_of_le {L : Ledger α} {who : α} {amount : Nat} {keep : Bool}
    (hi : amount ≤ L.totalIssuance) (hb : amount ≤ L.balance who)
    (hkeep : keep = true → existentialDeposit ≤ L.balance who - amount) :
    canWithdraw existentialDeposit L who amount keep = .ok () := by
  unfold canWithdraw
  rw [if_neg (Nat.not_lt.mpr hi), if_neg (Nat.not_lt.mpr hb)]
  split_ifs with h₀ hdust
  · rfl
  · exact absurd (hkeep hdust.2) (Nat.not_le.mpr hdust.1)
  · rfl

theorem canDeposit_of_le {L : Ledger α} {who : α} {amount : Nat}
    (hmax : L.balance who + amount ≤ maxValue 128)
    (hed : existentialDeposit ≤ L.balance who + amount) :
    canDeposit existentialDeposit L who amount = .ok () := by
  unfold canDeposit
  rw [if_neg (Nat.not_lt.mpr hmax), if_neg (Nat.not_lt.mpr hed)]
  split_ifs <;> rfl

/-- A transfer whose checks pass. -/
theorem transfer_of_checks {L : Ledger α} {source dest : α} {amount : Nat}
    {p : Assets.Preservation}
    (hw : canWithdraw existentialDeposit L source amount (p ≠ .expendable) = .ok ())
    (hd : canDeposit existentialDeposit L dest amount = .ok ()) (hne : source ≠ dest) :
    transfer existentialDeposit L source dest amount p = .ok (increaseBalance existentialDeposit
      (decreaseBalance existentialDeposit L source amount p) dest amount) := by
  simp only [transfer, hw, hd, if_neg hne]
  rfl

/-- The withdrawal check covers the whole amount: the account may die, or it keeps the deposit. -/
theorem le_reducibleBalance_of_canWithdraw {L : Ledger α} {who : α} {amount : Nat}
    {p : Assets.Preservation}
    (h : canWithdraw existentialDeposit L who amount (p ≠ .expendable) = .ok ()) :
    amount ≤ reducibleBalance existentialDeposit L who p := by
  obtain ⟨hle, hkeep⟩ := canWithdraw_ok existentialDeposit h
  unfold reducibleBalance
  split_ifs with hp
  · exact hle
  · by_cases h0 : amount = 0
    · omega
    · have := hkeep (by simpa using hp) h0
      omega

/-- A credit that passed the deposit check leaves the issuance alone: it writes a balance at or
above the existential deposit, or nothing. -/
theorem totalIssuance_increaseBalance {L : Ledger α} {who : α} {amount : Nat} :
    (increaseBalance existentialDeposit L who amount).totalIssuance = L.totalIssuance := by
  unfold increaseBalance writeBalance
  dsimp only
  split_ifs <;> rfl

/-- A transfer whose source ends at zero or at least at the deposit takes exactly the amount from
it and moves no issuance: no dust is reaped. -/
theorem transfer_exact {L L' : Ledger α} {source dest : α} {amount : Nat}
    {p : Assets.Preservation} (h : transfer existentialDeposit L source dest amount p = .ok L')
    (hne : source ≠ dest)
    (hfit : existentialDeposit ≤ L.balance source - amount ∨ L.balance source - amount = 0) :
    L'.balance source = L.balance source - amount ∧ L'.totalIssuance = L.totalIssuance := by
  obtain ⟨hw, -, rfl⟩ := transfer_ok existentialDeposit h hne
  have hreducible := le_reducibleBalance_of_canWithdraw hw
  -- the debit writes the source's new balance, which is not dust
  have hdebit : decreaseBalance existentialDeposit L source amount p =
      writeBalance existentialDeposit L source (L.balance source - amount) := by
    rw [decreaseBalance, min_eq_left hreducible]
  refine ⟨?_, ?_⟩
  · have hcredit : ∀ L₁ : Ledger α, (increaseBalance existentialDeposit L₁ dest amount).balance
        source = L₁.balance source := by
      intro L₁
      unfold increaseBalance
      dsimp only
      split_ifs
      · rfl
      · rfl
      · rw [balance_writeBalance, if_neg hne]
    rw [hcredit, hdebit, balance_writeBalance, if_pos rfl]
    split_ifs with hlt <;> omega
  · rw [totalIssuance_increaseBalance, hdebit]
    unfold writeBalance
    split_ifs with hlt
    · dsimp only
      omega
    · rfl

/-- A `Currency::transfer` that keeps its source alive is undone exactly by the transfer of the
same value back that lets the account it credited die. The credited account returns to its old
balance, zero or at least the deposit, and the source gets back all it paid. -/
theorem currencyTransfer_keepAlive_undo (hed : 0 < existentialDeposit) {L L₁ : Ledger α}
    (hL : L.WellFormed existentialDeposit) {source dest : α} {value : Nat}
    (h : currencyTransfer existentialDeposit L source dest value .keepAlive = .ok L₁) :
    currencyTransfer existentialDeposit L₁ dest source value .allowDeath = .ok L := by
  rcases currencyTransfer_ok existentialDeposit h with ⟨hskip, rfl⟩ | ⟨p, h0, hne, hp, ht⟩
  · -- nothing moved, and nothing moves back
    rw [currencyTransfer, if_pos (hskip.imp_right Eq.symm)]
  have hkeep : p ≠ .expendable := fun hexp => nomatch hp.mpr hexp
  -- the way there: the source keeps at least the deposit
  obtain ⟨hw, hd, -⟩ := transfer_ok existentialDeposit ht hne
  obtain ⟨hle, hkept⟩ := canWithdraw_ok existentialDeposit hw
  have hsource : existentialDeposit ≤ L.balance source - value := hkept (by simpa using hkeep) h0
  obtain ⟨hsource₁, hissue₁⟩ := transfer_exact ht hne (.inl hsource)
  have hdest₁ := balance_dest_transfer existentialDeposit ht hne h0
  have hL₁ := hL.transfer ht
  -- the way back passes both checks
  have hissue : value ≤ L₁.totalIssuance :=
    hissue₁ ▸ le_totalIssuance_of_canWithdraw hw h0
  have hw' : canWithdraw existentialDeposit L₁ dest value
      (Assets.Preservation.expendable ≠ .expendable) = .ok () :=
    canWithdraw_of_le hissue (hdest₁ ▸ Nat.le_add_left _ _) fun h => absurd h (by decide)
  have hrestore : L₁.balance source + value = L.balance source := by omega
  have hd' : canDeposit existentialDeposit L₁ source value = .ok () :=
    canDeposit_of_le (hrestore ▸ hL.balance_le source) (hrestore ▸ hsource.trans (Nat.sub_le _ _))
  have hback := transfer_of_checks hw' hd' (Ne.symm hne)
  rw [currencyTransfer, if_neg (not_or.mpr ⟨h0, Ne.symm hne⟩)]
  refine hback.trans (congrArg Except.ok ?_)
  -- the credited account returns to its old balance, which is zero or at least the deposit
  have hfit : existentialDeposit ≤ L₁.balance dest - value ∨ L₁.balance dest - value = 0 := by
    rw [hdest₁, Nat.add_sub_cancel]
    by_cases hlt : L.balance dest < existentialDeposit
    · exact .inr (hL.balance_eq_zero hlt)
    · exact .inl (Nat.not_lt.mp hlt)
  obtain ⟨hdest₂, hissue₂⟩ := transfer_exact hback (Ne.symm hne) hfit
  have hsource₂ := balance_dest_transfer existentialDeposit hback (Ne.symm hne) h0
  refine (hL₁.transfer hback).ext hed hL (fun who => ?_) (hissue₂.trans hissue₁)
  by_cases hws : who = source
  · subst hws
    omega
  by_cases hwd : who = dest
  · subst hwd
    rw [hdest₂, hdest₁, Nat.add_sub_cancel]
  · rw [balance_other_transfer existentialDeposit hback hwd hws,
      balance_other_transfer existentialDeposit ht hws hwd]

end Balances

namespace Assets

variable {minBalance : Nat}

/-- Every account that exists holds at least `min_balance`: a debit reaps an account that falls
below it, and a credit to a new account must reach it. -/
def Ledger.WellFormed (minBalance : Nat) (L : Ledger α) : Prop :=
  ∀ who b, L.accounts.get? who = some b → minBalance ≤ b

theorem Ledger.ext {L L' : Ledger α} (ha : L.accounts = L'.accounts) (hs : L.supply = L'.supply) :
    L = L' := by
  cases L
  cases L'
  subst ha hs
  rfl

namespace Ledger.WellFormed

variable {L : Ledger α}

/-- A balance below `min_balance` is the zero balance of an account that does not exist. -/
theorem get?_eq_none (hL : L.WellFormed minBalance) {who : α}
    (hlt : L.balance who < minBalance) : L.accounts.get? who = none := by
  cases hget : L.accounts.get? who with
  | none => rfl
  | some b =>
    rw [Ledger.balance, StorageMap.getD, hget, Option.getD_some] at hlt
    exact absurd (hL who b hget) (Nat.not_le.mpr hlt)

theorem balance_eq_zero (hL : L.WellFormed minBalance) {who : α}
    (hlt : L.balance who < minBalance) : L.balance who = 0 := by
  rw [Ledger.balance, StorageMap.getD, hL.get?_eq_none hlt, Option.getD_none]

/-- What `can_increase` lets through reaches `min_balance`: the account exists and holds it, or
the amount reaches it. -/
theorem le_balance_add_of_canIncrease (hL : L.WellFormed minBalance) {who : α} {amount : Nat}
    {increaseSupply : Bool} (h : canIncrease minBalance L who amount increaseSupply = .ok ()) :
    minBalance ≤ L.balance who + amount := by
  unfold canIncrease at h
  cases hget : L.accounts.get? who with
  | none =>
    -- a new account: the amount reaches the minimum
    simp only [hget] at h
    split_ifs at h with hover hlt
    rw [Ledger.balance, StorageMap.getD, hget, Option.getD_none, Nat.zero_add]
    exact Nat.not_lt.mp hlt
  | some b =>
    rw [Ledger.balance, StorageMap.getD, hget, Option.getD_some]
    exact (hL who b hget).trans (Nat.le_add_right _ _)

theorem debit (hL : L.WellFormed minBalance) (who : α) (amount : Nat) :
    (Assets.debit minBalance L who amount).WellFormed minBalance := by
  unfold Assets.debit
  split_ifs with h0 hlt
  · exact hL
  · -- the account is reaped
    intro who' b h
    rw [StorageMap.get?_remove] at h
    split_ifs at h
    exact hL who' b h
  · intro who' b h
    rw [StorageMap.get?_insert] at h
    split_ifs at h
    · cases h
      exact Nat.not_lt.mp hlt
    · exact hL who' b h

/-- A write of the balance of `who` that reaches `min_balance`. -/
theorem insert (hL : L.WellFormed minBalance) {who : α} {b : Nat} (hb : minBalance ≤ b)
    (supply : Nat) : (⟨L.accounts.insert who b, supply⟩ : Ledger α).WellFormed minBalance := by
  intro who' b' h
  rw [StorageMap.get?_insert] at h
  split_ifs at h
  · cases h
    exact hb
  · exact hL who' b' h

theorem credit (hL : L.WellFormed minBalance) (who : α) (amount : Nat) :
    (Assets.credit minBalance L who amount).WellFormed minBalance := by
  unfold Assets.credit
  split
  · exact hL
  · split
    · rename_i hinc
      exact hL.insert (hL.le_balance_add_of_canIncrease hinc) L.supply
    · exact hL

theorem transfer (hL : L.WellFormed minBalance) {L' : Ledger α} {source dest : α}
    {amount : Nat} {p : Preservation}
    (h : Assets.transfer minBalance L source dest amount p = .ok L') :
    L'.WellFormed minBalance := by
  rcases transfer_cases minBalance h with ⟨-, rfl⟩ | ⟨-, -, rfl⟩
  · exact hL
  · exact (hL.debit source amount).credit dest amount

theorem mintInto (hL : L.WellFormed minBalance) {L' : Ledger α} {who : α} {amount : Nat}
    (h : Assets.mintInto minBalance L who amount = .ok L') : L'.WellFormed minBalance := by
  by_cases hover : maxValue 128 < L.supply + amount
  · simp [Assets.mintInto, hover, throw, throwThe, MonadExceptOf.throw, bind, Except.bind] at h
  by_cases h0 : amount = 0
  · obtain ⟨-, rfl⟩ := mintInto_ok minBalance h
    rw [if_pos h0]
    exact hL
  · simp only [Assets.mintInto, hover, h0, if_false, Machine.bind_eq_ok, Machine.pure_eq_ok] at h
    obtain ⟨⟨⟩, hinc, rfl⟩ := h
    exact hL.insert (hL.le_balance_add_of_canIncrease hinc) _

theorem burnFrom (hL : L.WellFormed minBalance) {L' : Ledger α} {who : α} {amount : Nat}
    (h : Assets.burnFrom minBalance L who amount = .ok L') : L'.WellFormed minBalance := by
  by_cases hbal : L.balance who < amount
  · simp [Assets.burnFrom, hbal, throw, throwThe, MonadExceptOf.throw, bind, Except.bind] at h
  by_cases hsup : L.supply < amount
  · simp [Assets.burnFrom, hbal, hsup, throw, throwThe, MonadExceptOf.throw, bind,
      Except.bind] at h
  simp only [Assets.burnFrom, hbal, hsup, if_false, Machine.pure_eq_ok] at h
  obtain ⟨-, -, -, -, rfl⟩ := h
  exact hL.debit who amount

end Ledger.WellFormed

/-- A nonzero balance is the balance of an account that exists. -/
theorem get?_of_balance_ne_zero {L : Ledger α} {who : α} (h : L.balance who ≠ 0) :
    L.accounts.get? who = some (L.balance who) := by
  cases hget : L.accounts.get? who with
  | none => simp [Ledger.balance, StorageMap.getD, hget] at h
  | some b => simp [Ledger.balance, StorageMap.getD, hget]

/-- A burn of at most the account's balance and the supply: the account is debited, and the
supply falls by the amount, or by all the account held when the debit leaves dust. -/
theorem burnFrom_of_le {L : Ledger α} {who : α} {amount : Nat} (hb : amount ≤ L.balance who)
    (hs : amount ≤ L.supply) :
    burnFrom minBalance L who amount = .ok { debit minBalance L who amount with
      supply := L.supply -
        if L.balance who - amount < minBalance then L.balance who else amount } := by
  simp only [burnFrom, Nat.not_lt.mpr hb, Nat.not_lt.mpr hs, if_false]
  rfl

/-- A mint is undone exactly by the burn of the same amount: the account returns to its old
balance, zero or at least `min_balance`, and no dust is burned with it. -/
theorem burnFrom_mintInto (hmin : 0 < minBalance) {L L₁ : Ledger α}
    (hL : L.WellFormed minBalance) {who : α} {amount : Nat}
    (h : mintInto minBalance L who amount = .ok L₁) : burnFrom minBalance L₁ who amount = .ok L := by
  obtain ⟨-, rfl⟩ := mintInto_ok minBalance h
  by_cases h0 : amount = 0
  · -- nothing was minted: the burn of nothing burns no dust, as there is none
    subst h0
    rw [if_pos rfl, burnFrom_of_le (Nat.zero_le _) (Nat.zero_le _)]
    refine congrArg Except.ok (Ledger.ext ?_ ?_)
    · rw [debit, if_pos rfl]
    · show L.supply - _ = L.supply
      split_ifs with hlt
      · rw [hL.balance_eq_zero (by simpa using hlt), Nat.sub_zero]
      · rfl
  rw [if_neg h0]
  have hbal : (⟨L.accounts.insert who (L.balance who + amount), L.supply + amount⟩ :
      Ledger α).balance who = L.balance who + amount := by
    simp [Ledger.balance, StorageMap.getD]
  have hle : amount ≤ (⟨L.accounts.insert who (L.balance who + amount), L.supply + amount⟩ :
      Ledger α).balance who := by
    rw [hbal]
    exact Nat.le_add_left _ _
  rw [burnFrom_of_le hle (Nat.le_add_left _ _), hbal, Nat.add_sub_cancel]
  refine congrArg Except.ok (Ledger.ext ?_ ?_)
  · rw [debit, if_neg h0, hbal, Nat.add_sub_cancel]
    split_ifs with hlt
    · -- the account did not exist, and is reaped again
      refine StorageMap.ext_get? fun who' => ?_
      rw [StorageMap.get?_remove, StorageMap.get?_insert]
      split_ifs with hw
      · rw [hw, hL.get?_eq_none hlt]
      · rfl
    · refine StorageMap.ext_get? fun who' => ?_
      rw [StorageMap.get?_insert, StorageMap.get?_insert]
      split_ifs with hw
      · rw [hw, get?_of_balance_ne_zero (by omega)]
      · rfl
  · show L.supply + amount - _ = L.supply
    split_ifs with hlt
    · rw [hL.balance_eq_zero hlt, Nat.zero_add, Nat.add_sub_cancel]
    · exact Nat.add_sub_cancel _ _

end Assets
