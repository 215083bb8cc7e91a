import Pezkuwi.TokenWrapper.Model

/-!
# What backs wHEZ

`wrap` adds the amount to `TotalLocked`, to the pallet's native balance and to the wHEZ supply
alike, so the three move together there. `unwrap` does not: it takes the amount off `TotalLocked`,
but the burn takes off the supply the amount *and* the dust it leaves in the caller's wHEZ account
when that falls below `min_balance`, and the native transfer, which lets the pallet's account
die, reaps that account with its dust when its balance falls below the existential deposit. So
`TotalLocked` stays an upper bound of the wHEZ supply on every run, but it equals the supply only
when `min_balance` is at most one, and the pallet's native balance covers it only when the
existential deposit is at most one: then a balance below the minimum is zero and no dust arises.
The runtime creates wHEZ with a `min_balance` of one, but its existential deposit is one cent: one
unwrap that leaves the pallet less than that loses the rest of the locked funds, and the wHEZ
still out can no longer be unwrapped (`dust_unbacks_totalLocked`).

## Main definitions

* `BackingInv`: the supply within `TotalLocked`, and the two equalities that hold without dust

## Main results

* `wrap_ok`, `unwrap_ok`: what a successful call did
* `BackingInv.step`, `backingInv_of_reachable`: the invariant over every allowed run
* `wrapped_backing`: the backing laws on every allowed run
* `dust_unbacks_totalLocked`: one wrap and one unwrap that leave `TotalLocked` unbacked
-/

namespace TokenWrapper

open Bounded Machine

variable {α : Type} [LinearOrder α] (cfg : Config α)

/-! ## The calls -/

/-- A successful `wrap` moved the native amount to the pallet's account, minted it and added it
to `TotalLocked`. -/
theorem wrap_ok {s s' : State α} {who : α} {amount : Nat} (h : wrap cfg s who amount = .ok s') :
    amount ≠ 0 ∧
      Balances.currencyTransfer cfg.existentialDeposit s.balances who cfg.palletAccount amount
        .keepAlive = .ok s'.balances ∧
      Assets.mintInto cfg.minBalance s.wrapped who amount = .ok s'.wrapped ∧
      s'.totalLocked = saturatingAdd 128 s.totalLocked amount := by
  simp only [wrap, bind_eq_ok, ensure_eq_ok, mapError_eq_ok, pure_eq_ok, exists_const] at h
  obtain ⟨h0, -, balances, htransfer, wrapped, hmint, rfl⟩ := h
  exact ⟨h0, htransfer, hmint, rfl⟩

/-- A successful `unwrap` burned the amount, took it off `TotalLocked`, and moved the native
amount from the pallet's account back to the caller. -/
theorem unwrap_ok {s s' : State α} {who : α} {amount : Nat}
    (h : unwrap cfg s who amount = .ok s') :
    amount ≠ 0 ∧ Assets.burnFrom cfg.minBalance s.wrapped who amount = .ok s'.wrapped ∧
      Balances.currencyTransfer cfg.existentialDeposit s.balances cfg.palletAccount who amount
        .allowDeath = .ok s'.balances ∧
      s'.totalLocked = s.totalLocked - amount := by
  simp only [unwrap, bind_eq_ok, ensure_eq_ok, mapError_eq_ok, pure_eq_ok, exists_const] at h
  obtain ⟨h0, -, wrapped, hburn, balances, htransfer, rfl⟩ := h
  exact ⟨h0, hburn, htransfer, rfl⟩

/-! ## The invariant -/

/-- `TotalLocked` bounds the wHEZ supply; without wHEZ dust it equals the supply, and without
native dust the pallet's account holds it. -/
structure BackingInv (s : State α) : Prop where
  supply_le : s.wrapped.supply ≤ s.totalLocked
  locked_eq : cfg.minBalance ≤ 1 → s.totalLocked = s.wrapped.supply
  locked_le : cfg.existentialDeposit ≤ 1 → s.totalLocked ≤ s.balances.balance cfg.palletAccount

theorem backingInv_genesis (balances : Balances.Ledger α) : BackingInv cfg (genesis balances) where
  supply_le := le_rfl
  locked_eq _ := rfl
  locked_le _ := Nat.zero_le _

namespace BackingInv

variable {cfg} {s : State α}

/-- `wrap` by any account but the pallet's keeps the invariant: the native balance, the supply
and `TotalLocked` all grow by the amount, the last one saturating. -/
theorem wrap (hi : BackingInv cfg s) {who : α} {amount : Nat} {s' : State α}
    (hwho : who ≠ cfg.palletAccount) (h : TokenWrapper.wrap cfg s who amount = .ok s') :
    BackingInv cfg s' := by
  obtain ⟨h0, htransfer, hmint, hlocked⟩ := wrap_ok cfg h
  obtain ⟨hfits, hwrapped⟩ := Assets.mintInto_ok cfg.minBalance hmint
  have hsupply : s'.wrapped.supply = s.wrapped.supply + amount := by
    rw [hwrapped, if_neg h0]
  have hpallet := Balances.balance_dest_currencyTransfer cfg.existentialDeposit htransfer h0 hwho
  refine ⟨?_, fun hmin => ?_, fun hed => ?_⟩
  · -- the clamp of `TotalLocked` is above the supply, which fits
    rw [hsupply, hlocked, saturatingAdd]
    have := hi.supply_le
    omega
  · rw [hsupply, hlocked, hi.locked_eq hmin, saturatingAdd_of_le hfits]
  · have hsat := saturatingAdd_le_add 128 s.totalLocked amount
    have := hi.locked_le hed
    omega

/-- `unwrap` by any account but the pallet's keeps the invariant: `TotalLocked` falls by the
amount, the supply by at least the amount, and the pallet's balance by exactly the amount when
there is no native dust. -/
theorem unwrap (hi : BackingInv cfg s) {who : α} {amount : Nat} {s' : State α}
    (hwho : who ≠ cfg.palletAccount) (h : TokenWrapper.unwrap cfg s who amount = .ok s') :
    BackingInv cfg s' := by
  obtain ⟨h0, hburn, htransfer, hlocked⟩ := unwrap_ok cfg h
  obtain ⟨-, hle, hsupply, hexact⟩ := Assets.burnFrom_ok cfg.minBalance hburn
  refine ⟨?_, fun hmin => ?_, fun hed => ?_⟩
  · have := hi.supply_le
    omega
  · rw [hexact hmin, hlocked, hi.locked_eq hmin]
  · obtain ⟨-, hpallet⟩ := Balances.balance_source_currencyTransfer cfg.existentialDeposit hed
      htransfer h0 (Ne.symm hwho)
    have := hi.locked_le hed
    omega

/-- A move of HEZ by other code, out of any account but the pallet's, keeps the invariant: it
can only add to the pallet's balance. -/
theorem transferNative (hi : BackingInv cfg s) {source dest : α} {amount : Nat}
    {req : Balances.ExistenceRequirement} {balances : Balances.Ledger α}
    (hsource : source ≠ cfg.palletAccount)
    (h : Balances.currencyTransfer cfg.existentialDeposit s.balances source dest amount req =
      .ok balances) :
    BackingInv cfg { s with balances } := by
  have hpallet := Balances.balance_le_currencyTransfer cfg.existentialDeposit h (Ne.symm hsource)
  exact ⟨hi.supply_le, hi.locked_eq, fun hed => (hi.locked_le hed).trans hpallet⟩

/-- A move of wHEZ by other code keeps the invariant: it moves no supply. -/
theorem transferWrapped (hi : BackingInv cfg s) {source dest : α} {amount : Nat}
    {p : Assets.Preservation} {wrapped : Assets.Ledger α}
    (h : Assets.transfer cfg.minBalance s.wrapped source dest amount p = .ok wrapped) :
    BackingInv cfg { s with wrapped } := by
  have hsupply : wrapped.supply = s.wrapped.supply := Assets.supply_transfer cfg.minBalance h
  refine ⟨?_, fun hmin => ?_, hi.locked_le⟩
  · show wrapped.supply ≤ s.totalLocked
    rw [hsupply]
    exact hi.supply_le
  · show s.totalLocked = wrapped.supply
    rw [hsupply]
    exact hi.locked_eq hmin

/-- Every allowed step keeps the invariant. -/
theorem step (hi : BackingInv cfg s) (a : Action α) (ha : Allowed cfg s a) :
    BackingInv cfg (step cfg s a) := by
  cases a with
  | wrap origin amount =>
    refine commit_of_ok hi fun s' h => ?_
    obtain ⟨who, horigin, h⟩ := bind_eq_ok.mp h
    rw [ensureSigned_eq_ok] at horigin
    subst horigin
    exact hi.wrap (fun hwho => ha (congrArg Origin.signed hwho)) h
  | unwrap origin amount =>
    refine commit_of_ok hi fun s' h => ?_
    obtain ⟨who, horigin, h⟩ := bind_eq_ok.mp h
    rw [ensureSigned_eq_ok] at horigin
    subst horigin
    exact hi.unwrap (fun hwho => ha (congrArg Origin.signed hwho)) h
  | transferNative source dest amount req =>
    refine commit_of_ok hi fun s' h => ?_
    obtain ⟨balances, htransfer, rfl⟩ := map_eq_ok.mp h
    exact hi.transferNative ha htransfer
  | transferWrapped source dest amount p =>
    refine commit_of_ok hi fun s' h => ?_
    obtain ⟨wrapped, htransfer, rfl⟩ := map_eq_ok.mp h
    exact hi.transferWrapped htransfer

end BackingInv

theorem backingInv_of_reachable {balances : Balances.Ledger α} {s : State α}
    (hs : ReachableUnder (Allowed cfg) (step cfg) (genesis balances) s) : BackingInv cfg s :=
  hs.invariant (backingInv_genesis cfg balances) fun _ a hi ha => hi.step a ha

/-- On every allowed run `TotalLocked` is at least the wHEZ supply; it equals the supply when
wHEZ's `min_balance` is at most one, and the pallet's account holds it when the existential
deposit is at most one. -/
theorem wrapped_backing {balances : Balances.Ledger α} {s : State α}
    (hs : ReachableUnder (Allowed cfg) (step cfg) (genesis balances) s) :
    totalWrapped s ≤ s.totalLocked ∧
      (cfg.minBalance ≤ 1 → s.totalLocked = totalWrapped s) ∧
      (cfg.existentialDeposit ≤ 1 → s.totalLocked ≤ s.balances.balance cfg.palletAccount) := by
  have hi := backingInv_of_reachable cfg hs
  exact ⟨hi.supply_le, hi.locked_eq, hi.locked_le⟩

/-! ## Dust -/

/-- A native ledger in which account `1` holds 1000. -/
def sampleBalances : Balances.Ledger Nat :=
  ⟨(∅ : StorageMap Nat Nat).insert 1 1000, 1000, by decide⟩

/-- An existential deposit of 10 and the runtime's wHEZ `min_balance` of 1, with the pallet's
account `0`. -/
def dustConfig : Config Nat :=
  ⟨10, 1, 0⟩

/-- Account `1` wraps 100 and unwraps 95: the pallet's account is left with 5, below the
existential deposit. -/
def dustRun : List (Action Nat) :=
  [.wrap (.signed 1) 100, .unwrap (.signed 1) 95]

/-- The state after the dust run. -/
def dustState : State Nat :=
  run (step dustConfig) (genesis sampleBalances) dustRun

theorem dustRun_allowed :
    ReachableUnder (Allowed dustConfig) (step dustConfig) (genesis sampleBalances) dustState := by
  refine .step (Action.unwrap (.signed 1) 95) (.step (Action.wrap (.signed 1) 100) .init ?_) ?_
  · show Origin.signed 1 ≠ .signed 0
    decide
  · show Origin.signed 1 ≠ .signed 0
    decide

/-- The backing laws after the dust run. -/
theorem wrapped_backing_after_dust :
    totalWrapped dustState ≤ dustState.totalLocked ∧
      (dustConfig.minBalance ≤ 1 → dustState.totalLocked = totalWrapped dustState) ∧
      (dustConfig.existentialDeposit ≤ 1 →
        dustState.totalLocked ≤ dustState.balances.balance dustConfig.palletAccount) :=
  wrapped_backing dustConfig dustRun_allowed

/-- After the dust run 5 is still locked and 5 wHEZ are out, but the pallet's account was reaped
with its last 5: the holder's unwrap of its 5 wHEZ fails. -/
theorem dust_unbacks_totalLocked :
    dustState.totalLocked = 5 ∧ totalWrapped dustState = 5 ∧ dustState.wrapped.balance 1 = 5 ∧
      dustState.balances.balance dustConfig.palletAccount = 0 ∧
      unwrap dustConfig dustState 1 5 = .error .transferFailed := by
  refine ⟨by decide, by decide, by decide, by decide, ?_⟩
  -- the pallet's account holds nothing to pay with
  rfl

end TokenWrapper
