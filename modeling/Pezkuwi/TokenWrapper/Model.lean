import Pezkuwi.Frame.Assets
import Pezkuwi.Frame.Balances

/-!
# Wrapping the native token into an asset

`pallet-token-wrapper` locks native HEZ in its own account and mints the same amount of the
asset wHEZ (`WrapperAssetId`), and burns wHEZ to pay HEZ back, counting what it holds in
`TotalLocked`. `wrap` transfers the native amount keeping the caller alive, adds it to
`TotalLocked` and mints; `unwrap` burns the wrapped amount (`Expendable`, `Exact`, `Force`),
takes it from `TotalLocked` and transfers the native amount back allowing the pallet's account to
die. A failed call is rolled back.

The model follows `src/pezkuwi/pallets/token-wrapper/src/lib.rs`. HEZ is the native token of
`Pezkuwi.Frame.Balances` and wHEZ one asset of `Pezkuwi.Frame.Assets`, created with no supply;
`Currency::free_balance` is the balance, as no holds are modelled. Other code may move HEZ and wHEZ
between accounts; runs never sign for the pallet's account, which has no key, and other code never
moves HEZ out of it. Events are left out.

## Main definitions

* `Config`, `State`: the existential deposit, wHEZ's `min_balance` and the pallet's account; the
  two ledgers and `TotalLocked`
* `wrap`, `unwrap`: the calls after their origin checks
* `Action`, `step`, `Allowed`: the calls and the moves of other code, and what runs may do
-/

namespace TokenWrapper

open Bounded Machine

/-- `Error`, and the failure of the origin check. -/
inductive Error where
  | insufficientBalance
  | insufficientWrappedBalance
  | transferFailed
  | mintFailed
  | burnFailed
  | zeroAmount
  | badOrigin
  deriving DecidableEq, Repr

/-- The native token's existential deposit, wHEZ's `min_balance`, and `account_id()`. -/
structure Config (α : Type) where
  existentialDeposit : Nat
  minBalance : Nat
  palletAccount : α

/-- The native ledger, the wHEZ ledger and `TotalLocked`. -/
structure State (α : Type) [LinearOrder α] where
  balances : Balances.Ledger α
  wrapped : Assets.Ledger α
  totalLocked : Nat

variable {α : Type} [LinearOrder α]

/-- The storage at genesis, over a native ledger: no wHEZ, nothing locked. -/
def genesis (balances : Balances.Ledger α) : State α :=
  ⟨balances, ⟨∅, 0⟩, 0⟩

/-- `total_wrapped`: the total issuance of wHEZ. -/
def totalWrapped (s : State α) : Nat :=
  s.wrapped.supply

variable (cfg : Config α)

/-- `wrap` after `ensure_signed`: lock the native amount, count it, and mint it. -/
def wrap (s : State α) (who : α) (amount : Nat) : Except Error (State α) := do
  ensure (amount ≠ 0) .zeroAmount
  ensure (amount ≤ s.balances.balance who) .insufficientBalance
  let balances ← (Balances.currencyTransfer cfg.existentialDeposit s.balances who
    cfg.palletAccount amount .keepAlive).mapError fun _ => .transferFailed
  let totalLocked := saturatingAdd 128 s.totalLocked amount
  let wrapped ← (Assets.mintInto cfg.minBalance s.wrapped who amount).mapError
    fun _ => .mintFailed
  pure ⟨balances, wrapped, totalLocked⟩

/-- `unwrap` after `ensure_signed`: burn the wrapped amount, uncount it, and pay the native
amount back. -/
def unwrap (s : State α) (who : α) (amount : Nat) : Except Error (State α) := do
  ensure (amount ≠ 0) .zeroAmount
  let wrappedBalance := s.wrapped.balance who
  ensure (amount ≤ wrappedBalance) .insufficientWrappedBalance
  let wrapped ← (Assets.burnFrom cfg.minBalance s.wrapped who amount).mapError
    fun _ => .burnFailed
  let totalLocked := s.totalLocked - amount
  let balances ← (Balances.currencyTransfer cfg.existentialDeposit s.balances cfg.palletAccount
    who amount .allowDeath).mapError fun _ => .transferFailed
  pure ⟨balances, wrapped, totalLocked⟩

/-! ## Runs -/

/-- The two calls, and the moves of HEZ and wHEZ between accounts that other code makes. -/
inductive Action (α : Type) where
  | wrap (origin : Origin α) (amount : Nat)
  | unwrap (origin : Origin α) (amount : Nat)
  | transferNative (source dest : α) (amount : Nat)
      (existenceRequirement : Balances.ExistenceRequirement)
  | transferWrapped (source dest : α) (amount : Nat) (preservation : Assets.Preservation)

/-- One step; a failed call or move is rolled back. -/
def step (s : State α) : Action α → State α
  | .wrap origin amount =>
    commit (ensureSigned origin .badOrigin >>= fun who => wrap cfg s who amount) s
  | .unwrap origin amount =>
    commit (ensureSigned origin .badOrigin >>= fun who => unwrap cfg s who amount) s
  | .transferNative source dest amount existenceRequirement =>
    commit ((Balances.currencyTransfer cfg.existentialDeposit s.balances source dest amount
      existenceRequirement).map fun balances => { s with balances }) s
  | .transferWrapped source dest amount preservation =>
    commit ((Assets.transfer cfg.minBalance s.wrapped source dest amount preservation).map
      fun wrapped => { s with wrapped }) s

/-- What runs may do: nobody signs for the pallet's account, and other code moves no HEZ out of
it. -/
def Allowed (_ : State α) : Action α → Prop
  | .wrap origin _ => origin ≠ .signed cfg.palletAccount
  | .unwrap origin _ => origin ≠ .signed cfg.palletAccount
  | .transferNative source _ _ _ => source ≠ cfg.palletAccount
  | .transferWrapped _ _ _ _ => True

end TokenWrapper
