import Pezkuwi.Tiki.Registry

/-!
# Origins by tiki

`EnsureTiki<T, I>` is the origin check `pallet-tiki` offers other pallets: a signed origin passes
when its signer is the `TikiHolder` of the role `I::tiki()`. The runtime's markers are
`SerokRole`, `WezirRole` and `ParlementerRole`.

`TikiHolder` is written for unique roles only (`is_unique_role`: `Serok`, `SerokiMeclise`,
`Xezinedar`, `Balyoz`), while `has_tiki` reads `UserTikis`. On every reachable state the registry
invariant makes the two agree for a unique role, and for any other role `TikiHolder` stays empty,
so the check refuses every origin however the role is held (`tryOrigin_iff_unique_hasTiki`).
`Wezir` and `Parlementer` are not unique: a granted `Wezir` or `Parlementer` never passes
`EnsureTiki` (`ensureTiki_disagrees_with_hasTiki`).

## Main definitions

* `RoleMarker`, `RoleMarker.tiki`: the markers and their `GetTiki::tiki`
* `tryOrigin`: `EnsureTiki::try_origin`

## Main results

* `RegistryInv.tryOrigin_signed_iff`: the check is `has_tiki` of a unique role
* `tryOrigin_iff_unique_hasTiki`: the same on every reachable state of the two pallets
* `ensureTiki_disagrees_with_hasTiki`: a citizen holding all three roles passes `SerokRole` only
-/

namespace PalletTiki

open Machine

variable {α : Type} [LinearOrder α]

/-- The role markers of `ensure.rs`. -/
inductive RoleMarker where
  | serokRole
  | wezirRole
  | parlementerRole
  deriving DecidableEq, Repr

/-- `GetTiki::tiki` of each marker. -/
def RoleMarker.tiki : RoleMarker → Tiki
  | .serokRole => .serok
  | .wezirRole => .wezir
  | .parlementerRole => .parlementer

/-- `EnsureTiki::try_origin` for the role `requiredTiki`: the signer, when it is the role's
`TikiHolder`; any other origin is handed back. -/
def tryOrigin (s : State α) (requiredTiki : Tiki) (o : Origin α) : Except (Origin α) α :=
  match o with
  | .signed who =>
    match s.tikiHolder requiredTiki with
    | some holder => if holder = who then .ok who else .error o
    | none => .error o
  | .root => .error o

/-- The check passes exactly for the signature of the role's holder, and returns the signer. -/
theorem tryOrigin_eq_ok {s : State α} {requiredTiki : Tiki} {o : Origin α} {who : α} :
    tryOrigin s requiredTiki o = .ok who ↔
      o = .signed who ∧ s.tikiHolder requiredTiki = some who := by
  cases o with
  | root => simp [tryOrigin]
  | signed signer =>
    unfold tryOrigin
    -- the holder decides, and the answer is the signer
    cases hholder : s.tikiHolder requiredTiki with
    | none => simp
    | some holder =>
      by_cases h : holder = signer
      · subst h
        simp [eq_comm]
      · simp only [if_neg h, reduceCtorEq, false_iff, not_and, Origin.signed.injEq,
          Option.some.injEq]
        rintro rfl
        exact h

namespace RegistryInv

variable {s : State α}

/-- A role nobody may hold alone has no `TikiHolder`. -/
theorem tikiHolder_of_not_unique (hi : RegistryInv s) {r : Tiki} (hr : isUniqueRole r = false) :
    s.tikiHolder r = none := by
  cases hholder : s.tikiHolder r with
  | none => rfl
  | some a =>
    have hu := (hi.holder_mem hholder).1
    rw [hr] at hu
    exact absurd hu Bool.false_ne_true

/-- Under the registry invariant the check of a signed origin is `has_tiki` of a unique role. -/
theorem tryOrigin_signed_iff (hi : RegistryInv s) (r : Tiki) (a : α) :
    (∃ who, tryOrigin s r (.signed a) = .ok who) ↔
      isUniqueRole r = true ∧ hasTiki s a r = true := by
  simp only [tryOrigin_eq_ok, Origin.signed.injEq, hasTiki, List.contains_iff_mem]
  constructor
  · rintro ⟨who, rfl, hholder⟩
    exact hi.holder_mem hholder
  · rintro ⟨hu, hmem⟩
    exact ⟨a, rfl, hi.mem_holder hu hmem⟩

end RegistryInv

end PalletTiki

namespace Pezkuwichain

open Machine PalletTiki

variable {α : Type} [LinearOrder α] {cfg : PalletTiki.Config}

/-- On every state the calls of identity-kyc and tiki reach, `EnsureTiki` passes a signed account
for a role exactly when the role is unique and the account holds it: `SerokRole` agrees with
`has_tiki`, and `WezirRole` and `ParlementerRole` pass nobody. -/
theorem tryOrigin_iff_unique_hasTiki (hmax : 0 < cfg.maxTikisPerUser) {s : Citizenship α}
    (hs : Reachable (citizenshipStep cfg) Citizenship.genesis s) (r : Tiki) (a : α) :
    ((∃ who, tryOrigin s.tiki r (.signed a) = .ok who) ↔
        isUniqueRole r = true ∧ hasTiki s.tiki a r = true) ∧
      (isUniqueRole r = false → ∀ o, ∃ o', tryOrigin s.tiki r o = .error o') := by
  have hi := registryInv_of_reachable hmax hs
  refine ⟨hi.tryOrigin_signed_iff r a, fun hr o => ?_⟩
  -- with no holder every origin is handed back
  have hnone := hi.tikiHolder_of_not_unique hr
  cases o with
  | root => exact ⟨_, rfl⟩
  | signed who => exact ⟨.signed who, by simp only [tryOrigin, hnone]⟩

theorem tryOrigin_iff_unique_hasTiki_after_serok :
    0 < tikiConfig.maxTikisPerUser ∧
      ((∃ who, tryOrigin serokState.tiki .serok (.signed 1) = .ok who) ↔
        isUniqueRole .serok = true ∧ hasTiki serokState.tiki 1 .serok = true) ∧
      (isUniqueRole .serok = false →
        ∀ o, ∃ o', tryOrigin serokState.tiki .serok o = .error o') :=
  ⟨by decide, tryOrigin_iff_unique_hasTiki (by decide) (reachable_run _) .serok 1⟩

/-! ## A citizen with three roles -/

/-- After the `Serok` run, the root grants account `1` the elected role `Parlementer` and the
appointed role `Wezir`. -/
def ministerRun : List (CitizenshipAction Nat) :=
  serokRun ++ [.grantElectedRole .root 1 .parlementer, .grantTiki .root 1 .wezir]

def ministerState : Citizenship Nat :=
  run (citizenshipStep tikiConfig) Citizenship.genesis ministerRun

/-- Account `1` holds the roles of all three markers, and `EnsureTiki` passes it for `SerokRole`
only: `Wezir` and `Parlementer` have no `TikiHolder`. -/
theorem ensureTiki_disagrees_with_hasTiki :
    Reachable (citizenshipStep tikiConfig) Citizenship.genesis ministerState ∧
      (∀ marker : RoleMarker, hasTiki ministerState.tiki 1 marker.tiki = true) ∧
      tryOrigin ministerState.tiki RoleMarker.serokRole.tiki (.signed 1) = .ok 1 ∧
      tryOrigin ministerState.tiki RoleMarker.wezirRole.tiki (.signed 1) = .error (.signed 1) ∧
      tryOrigin ministerState.tiki RoleMarker.parlementerRole.tiki (.signed 1) =
        .error (.signed 1) :=
  ⟨reachable_run _, fun marker => by cases marker <;> decide, by decide, by decide, by decide⟩

end Pezkuwichain
