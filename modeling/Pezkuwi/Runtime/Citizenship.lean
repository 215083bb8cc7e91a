import Pezkuwi.IdentityKyc.Model
import Pezkuwi.Tiki.Model

/-!
# Citizenship across identity-kyc and tiki

The runtime keeps citizenship in two pallets. `pallet-identity-kyc` holds the KYC levels, and
its `CitizenNftProvider` is `pallet-tiki`: approving a KYC application mints the citizenship NFT,
and a failure of that mint is logged and does not undo the approval. `pallet-tiki` reads the KYC
levels in `apply_for_citizenship`, and every block its `on_initialize` walks them and mints for
each approved account without an NFT.

The model composes `Pezkuwi.IdentityKyc.Model` and `Pezkuwi.Tiki.Model` as
`src/pezkuwi/runtime/pezkuwichain/src/lib.rs` wires them: both admin origins are the root, and the
`OnKycApproved` hook of `pallet-referral` is left out.

## Main definitions

* `Citizenship`: the storage of the two pallets
* `CitizenshipAction`, `citizenshipStep`: the calls of both pallets and tiki's block hook
-/

namespace Pezkuwichain

open Machine IdentityKyc PalletTiki

/-- The storage of `pallet-identity-kyc` and `pallet-tiki`. -/
structure Citizenship (α : Type) [LinearOrder α] where
  kyc : IdentityKyc.State α
  tiki : PalletTiki.State α

variable {α : Type} [LinearOrder α]

/-- Both pallets at genesis. -/
def Citizenship.genesis : Citizenship α :=
  ⟨IdentityKyc.genesis, PalletTiki.genesis⟩

/-- The calls of the two pallets, and tiki's `on_initialize`. Each mint carries whether the
collection's other checks accept it. -/
inductive CitizenshipAction (α : Type) where
  | grantTiki (origin : Origin α) (dest : α) (tiki : Tiki)
  | revokeTiki (origin : Origin α) (target : α) (tiki : Tiki)
  | forceMintCitizenNft (origin : Origin α) (dest : α) (accepts : Bool)
  | grantElectedRole (origin : Origin α) (dest : α) (tiki : Tiki)
  | grantEarnedRole (origin : Origin α) (dest : α) (tiki : Tiki)
  | applyForCitizenship (origin : Origin α) (accepts : Bool)
  | onInitialize (accepts : α → Bool)
  | setIdentity (origin : Origin α)
  | applyForKyc (origin : Origin α) (reserved : Bool)
  | approveKyc (origin : Origin α) (who : α) (accepts : Bool)
  | rejectKyc (origin : Origin α) (who : α)
  | revokeKyc (origin : Origin α) (who : α)

/-- A tiki call, committed to the tiki storage or rolled back. -/
def Citizenship.withTiki (s : Citizenship α) (r : Except PalletTiki.Error (PalletTiki.State α)) :
    Citizenship α :=
  commit (r.map fun tiki => { s with tiki }) s

/-- An identity-kyc call, committed to the identity-kyc storage or rolled back. -/
def Citizenship.withKyc (s : Citizenship α)
    (r : Except IdentityKyc.Error (IdentityKyc.State α)) : Citizenship α :=
  commit (r.map fun kyc => { s with kyc }) s

@[simp] theorem Citizenship.tiki_withTiki (s : Citizenship α)
    (r : Except PalletTiki.Error (PalletTiki.State α)) : (s.withTiki r).tiki = commit r s.tiki := by
  cases r <;> rfl

@[simp] theorem Citizenship.tiki_withKyc (s : Citizenship α)
    (r : Except IdentityKyc.Error (IdentityKyc.State α)) : (s.withKyc r).tiki = s.tiki := by
  cases r <;> rfl

variable (cfg : PalletTiki.Config)

/-- One step of the two pallets. -/
def citizenshipStep (s : Citizenship α) : CitizenshipAction α → Citizenship α
  | .grantTiki origin dest tiki =>
    s.withTiki (ensureRoot origin .badOrigin >>= fun _ => PalletTiki.grantTiki cfg s.tiki dest tiki)
  | .revokeTiki origin target tiki =>
    s.withTiki (ensureRoot origin .badOrigin >>= fun _ => PalletTiki.revokeTiki s.tiki target tiki)
  | .forceMintCitizenNft origin dest accepts =>
    s.withTiki (ensureRoot origin .badOrigin >>= fun _ =>
      PalletTiki.forceMintCitizenNft cfg s.tiki dest accepts)
  | .grantElectedRole origin dest tiki =>
    s.withTiki (ensureRoot origin .badOrigin >>= fun _ =>
      PalletTiki.grantElectedRole cfg s.tiki dest tiki)
  | .grantEarnedRole origin dest tiki =>
    s.withTiki (ensureRoot origin .badOrigin >>= fun _ =>
      PalletTiki.grantEarnedRole cfg s.tiki dest tiki)
  | .applyForCitizenship origin accepts =>
    s.withTiki (ensureSigned origin .badOrigin >>= fun who =>
      PalletTiki.applyForCitizenship cfg s.tiki who (kycStatusOf s.kyc who) accepts)
  | .onInitialize accepts =>
    { s with tiki := checkAndMintCitizenNfts cfg s.tiki s.kyc.kycStatuses accepts }
  | .setIdentity origin =>
    s.withKyc (ensureSigned origin .badOrigin >>= fun who => IdentityKyc.setIdentity s.kyc who)
  | .applyForKyc origin reserved =>
    s.withKyc (ensureSigned origin .badOrigin >>= fun who =>
      IdentityKyc.applyForKyc s.kyc who reserved)
  | .approveKyc origin who accepts =>
    -- the approval stands even when the mint of its hook fails
    commit ((ensureRoot origin IdentityKyc.Error.badOrigin >>= fun _ =>
      IdentityKyc.approveKyc s.kyc who).map fun kyc =>
        ⟨kyc, commit (mintCitizenNftForUser cfg s.tiki who accepts) s.tiki⟩) s
  | .rejectKyc origin who =>
    s.withKyc (ensureRoot origin .badOrigin >>= fun _ => IdentityKyc.rejectKyc s.kyc who)
  | .revokeKyc origin who =>
    s.withKyc (ensureRoot origin .badOrigin >>= fun _ => IdentityKyc.revokeKyc s.kyc who)

end Pezkuwichain
