import Pezkuwi.TokenWrapper.Backing
import Pezkuwi.Frame.Existence

/-!
# Unwrapping what was just wrapped

`wrap` locks HEZ in the pallet's account and mints wHEZ; `unwrap` burns wHEZ and pays HEZ back.
On every run both ledgers stay well formed, every account holding its minimum
(`WellFormed.step`). There a wrap followed by the unwrap of the same amount by the same account
restores the storage exactly (`wrap_unwrap_round_trip`): the pallet's account returns to its old
balance, which is zero or at least the existential deposit, so the native transfer back reaps
no dust; the caller's wHEZ account returns to zero or to a balance at least `min_balance`, so the
burn takes no dust; and `TotalLocked` returns to its old value unless the wrap saturated it at
`u128::MAX`. Dust is lost only when an unwrap leaves less than the minimum behind, as in
`dust_unbacks_totalLocked`.

## Main definitions

* `WellFormed`: both ledgers well formed

## Main results

* `WellFormed.step`, `wellFormed_of_reachable`: the ledgers are well formed on every run
* `unwrap_wrap`: the unwrap of what a wrap locked succeeds and restores the storage
* `wrap_unwrap_round_trip`: the two steps together, on every reachable state
-/

namespace TokenWrapper

open Bounded Machine

variable {α : Type} [LinearOrder α] {cfg : Config α} {s s' : State α}

/-- Every native account holds at least the existential deposit, within a `u128`, and every wHEZ
account at least `min_balance`. -/
structure WellFormed (cfg : Config α) (s : State α) : Prop where
  balances : s.balances.WellFormed cfg.existentialDeposit
  wrapped : s.wrapped.WellFormed cfg.minBalance

theorem wellFormed_genesis {balances : Balances.Ledger α}
    (hb : balances.WellFormed cfg.existentialDeposit) : WellFormed cfg (genesis balances) :=
  ⟨hb, fun _ _ h => nomatch h⟩

namespace WellFormed

theorem wrap (hi : WellFormed cfg s) {who : α} {amount : Nat}
    (h : TokenWrapper.wrap cfg s who amount = .ok s') : WellFormed cfg s' := by
  obtain ⟨-, htransfer, hmint, -⟩ := wrap_ok cfg h
  exact ⟨hi.balances.currencyTransfer htransfer, hi.wrapped.mintInto hmint⟩

theorem unwrap (hi : WellFormed cfg s) {who : α} {amount : Nat}
    (h : TokenWrapper.unwrap cfg s who amount = .ok s') : WellFormed cfg s' := by
  obtain ⟨-, hburn, htransfer, -⟩ := unwrap_ok cfg h
  exact ⟨hi.balances.currencyTransfer htransfer, hi.wrapped.burnFrom hburn⟩

/-- Every step keeps both ledgers well formed, whoever signs it. -/
theorem step (hi : WellFormed cfg s) (a : Action α) : WellFormed cfg (step cfg s a) := by
  cases a with
  | wrap origin amount =>
    refine commit_of_ok hi fun s' h => ?_
    obtain ⟨who, -, h⟩ := bind_eq_ok.mp h
    exact hi.wrap h
  | unwrap origin amount =>
    refine commit_of_ok hi fun s' h => ?_
    obtain ⟨who, -, h⟩ := bind_eq_ok.mp h
    exact hi.unwrap h
  | transferNative source dest amount req =>
    refine commit_of_ok hi fun s' h => ?_
    obtain ⟨balances, htransfer, rfl⟩ := map_eq_ok.mp h
    exact ⟨hi.balances.currencyTransfer htransfer, hi.wrapped⟩
  | transferWrapped source dest amount p =>
    refine commit_of_ok hi fun s' h => ?_
    obtain ⟨wrapped, htransfer, rfl⟩ := map_eq_ok.mp h
    exact ⟨hi.balances, hi.wrapped.transfer htransfer⟩

end WellFormed

theorem wellFormed_of_reachable {balances : Balances.Ledger α}
    (hb : balances.WellFormed cfg.existentialDeposit)
    (hs : Reachable (step cfg) (genesis balances) s) : WellFormed cfg s :=
  hs.invariant (wellFormed_genesis hb) fun _ a hi => hi.step a

/-- An `unwrap` whose burn and transfer succeed. -/
theorem unwrap_of_ok {who : α} {amount : Nat} {wrapped : Assets.Ledger α}
    {balances : Balances.Ledger α} (h0 : amount ≠ 0) (hle : amount ≤ s.wrapped.balance who)
    (hburn : Assets.burnFrom cfg.minBalance s.wrapped who amount = .ok wrapped)
    (htransfer : Balances.currencyTransfer cfg.existentialDeposit s.balances cfg.palletAccount
      who amount .allowDeath = .ok balances) :
    unwrap cfg s who amount = .ok ⟨balances, wrapped, s.totalLocked - amount⟩ := by
  simp only [unwrap, bind_eq_ok, ensure_eq_ok, mapError_eq_ok, pure_eq_ok, exists_const]
  exact ⟨h0, hle, wrapped, hburn, balances, htransfer, rfl⟩

/-- The unwrap of what a wrap locked succeeds and restores the storage exactly, on well-formed
ledgers and when the wrap did not saturate `TotalLocked`. The burn undoes the mint, the transfer
back undoes the transfer that kept the caller alive, and the subtraction undoes the addition. -/
theorem unwrap_wrap (hed : 0 < cfg.existentialDeposit) (hmin : 0 < cfg.minBalance)
    (hi : WellFormed cfg s) {who : α} {amount : Nat}
    (hlocked : s.totalLocked + amount ≤ maxValue 128) (h : wrap cfg s who amount = .ok s') :
    unwrap cfg s' who amount = .ok s := by
  obtain ⟨h0, htransfer, hmint, htotal⟩ := wrap_ok cfg h
  have hle : amount ≤ s'.wrapped.balance who := by
    rw [Assets.balance_mintInto cfg.minBalance hmint, if_pos rfl]
    exact Nat.le_add_left _ _
  rw [unwrap_of_ok h0 hle (Assets.burnFrom_mintInto hmin hi.wrapped hmint)
    (Balances.currencyTransfer_keepAlive_undo hed hi.balances htransfer), htotal,
    saturatingAdd_of_le hlocked, Nat.add_sub_cancel]

theorem step_wrap_signed (who : α) (amount : Nat) :
    step cfg s (.wrap (.signed who) amount) = commit (wrap cfg s who amount) s :=
  rfl

theorem step_unwrap_signed (who : α) (amount : Nat) :
    step cfg s (.unwrap (.signed who) amount) = commit (unwrap cfg s who amount) s :=
  rfl

/-- On every reachable state of the wrapper whose ledgers started well formed, under a nonzero
existential deposit and `min_balance`: when an account's wrap succeeds without saturating
`TotalLocked`, the unwrap of the same amount succeeds, and the two steps leave the storage
(both ledgers, with their issuance and supply, and `TotalLocked`) exactly as it was. -/
theorem wrap_unwrap_round_trip {balances : Balances.Ledger α} (hed : 0 < cfg.existentialDeposit)
    (hmin : 0 < cfg.minBalance) (hgen : balances.WellFormed cfg.existentialDeposit)
    (hs : Reachable (step cfg) (genesis balances) s) {who : α} {amount : Nat}
    (hlocked : s.totalLocked + amount ≤ maxValue 128) (h : wrap cfg s who amount = .ok s') :
    unwrap cfg s' who amount = .ok s ∧
      run (step cfg) s [.wrap (.signed who) amount, .unwrap (.signed who) amount] = s := by
  have hunwrap := unwrap_wrap hed hmin (wellFormed_of_reachable hgen hs) hlocked h
  refine ⟨hunwrap, ?_⟩
  rw [run_cons, run_cons, run_nil, step_wrap_signed, h, commit_ok, step_unwrap_signed, hunwrap,
    commit_ok]

/-- The native ledger of the dust run is well formed. -/
theorem sampleBalances_wellFormed :
    sampleBalances.WellFormed dustConfig.existentialDeposit := by
  intro who b h
  simp only [sampleBalances, StorageMap.emptyc_eq, StorageMap.get?_insert,
    StorageMap.get?_empty] at h
  split_ifs at h
  cases h
  decide

/-- After the dust run account `1` wraps 10 and unwraps 10: the storage is back where it was. -/
theorem wrap_unwrap_round_trip_after_dust :
    0 < dustConfig.existentialDeposit ∧ 0 < dustConfig.minBalance ∧
      dustState.totalLocked + 10 ≤ maxValue 128 ∧
      ∃ s', wrap dustConfig dustState 1 10 = .ok s' ∧ unwrap dustConfig s' 1 10 = .ok dustState ∧
        run (step dustConfig) dustState [.wrap (.signed 1) 10, .unwrap (.signed 1) 10] =
          dustState := by
  have hlocked : dustState.totalLocked + 10 ≤ maxValue 128 := by decide
  have hwrap : wrap dustConfig dustState 1 10 =
      .ok (commit (wrap dustConfig dustState 1 10) dustState) := rfl
  exact ⟨by decide, by decide, hlocked, _, hwrap,
    wrap_unwrap_round_trip (by decide) (by decide) sampleBalances_wellFormed
      dustRun_allowed.reachable hlocked hwrap⟩

end TokenWrapper
