import Pezkuwi.Storage.Map
import Pezkuwi.Storage.Vec
import Pezkuwi.Machine.Reach
import Pezkuwi.Arith.Bounded
import Pezkuwi.IdentityKyc.Model

/-!
# Tiki: citizenship NFTs and roles

`pallet-tiki` gives every citizen an NFT of its collection and keeps the roles (tikis) of each
account. Minting a citizenship NFT records its item id in `CitizenNft`, advances `NextItemId`
and adds the `Welati` role; the other roles are granted and revoked by the admin origin, each
role by the one method its assignment type allows. Four roles are unique: `TikiHolder` names the
one account that holds each of them.

The model follows `src/pezkuwi/pallets/tiki/src/lib.rs` with the runtime's `AdminOrigin`, the
root. Role names are spelled in ASCII. Of `pallet-nfts` the model keeps the items of the Tiki
collection and their owners: a mint of an existing item fails, and its other checks (the
collection's mint settings, deposits) are an argument of each mint, `accepts`. The item's lock
attribute and metadata are left out; with the runtime's `pallet-nfts` limits (keys of 64, values
and strings of 256 bytes) writing them cannot fail, and their text is read by nobody here.
`T::Lookup` maps an address to itself. Events are left out.

## Main definitions

* `Tiki`, `isUniqueRole`, `getRoleAssignmentType`, `canGrantRoleType`, `getBonusForTiki`
* `State`: `CitizenNft`, `UserTikis`, `TikiHolder`, `NextItemId`, and the collection's items
* `mintCitizenNftForUser`, `internalGrantRole`, `internalRevokeRole`: the shared paths
* `grantTiki`, `grantElectedRole`, `grantEarnedRole`, `revokeTiki`, `forceMintCitizenNft`,
  `applyForCitizenship`, `checkAndMintCitizenNfts`: the calls and the block hook
-/

namespace PalletTiki

open Bounded Machine BoundedVec IdentityKyc

/-- `Tiki`, the roles. -/
inductive Tiki where
  | welati | parlementer | serokiMeclise | serok | wezir | endameDiwane | dadger
  | dozger | hiquqnas | noter | xezinedar | bacgir | gerinendeyeCavkaniye | operatoreTore
  | pisporeEwlehiyaSiber | gerinendeyeDaneye | berdevk | qeydkar | balyoz | navbeynkar
  | parezvaneCandi | mufetis | kaliteKontrolker | mela | feqi | perwerdekar | rewsenbir
  | revebereProjeye | serokeKomele | moderatoreCivake | axa | peseng | sewirmend | hekem | mamoste
  | bazargan
  | serokWeziran | wezireDarayiye | wezireParez | wezireDad | wezireBelaw | wezireTend | wezireAva
  | wezireCand
  deriving DecidableEq, Repr

/-- `RoleAssignmentType`. -/
inductive RoleAssignmentType where
  | automatic
  | appointed
  | elected
  | earned
  deriving DecidableEq, Repr

/-- `is_unique_role`: the roles one account at a time may hold. -/
def isUniqueRole : Tiki → Bool
  | .serok | .serokiMeclise | .xezinedar | .balyoz => true
  | _ => false

/-- `get_role_assignment_type`. -/
def getRoleAssignmentType : Tiki → RoleAssignmentType
  | .welati => .automatic
  | .parlementer | .serokiMeclise | .serok => .elected
  | .axa | .mamoste | .rewsenbir | .serokeKomele | .moderatoreCivake => .earned
  | _ => .appointed

/-- `can_grant_role_type`: the table grants a role exactly by its own assignment type. -/
def canGrantRoleType (tiki : Tiki) (assignmentType : RoleAssignmentType) : Bool :=
  getRoleAssignmentType tiki == assignmentType

/-- `get_bonus_for_tiki`: a role's contribution to the trust score. -/
def getBonusForTiki : Tiki → Nat
  | .axa => 250
  | .revebereProjeye => 250
  | .moderatoreCivake => 200
  | .serokeKomele => 100
  | .mela => 50
  | .feqi => 50
  | .endameDiwane => 175
  | .dadger => 150
  | .dozger => 120
  | .hiquqnas => 75
  | .serok => 200
  | .wezir => 100
  | .serokWeziran => 125
  | .wezireDarayiye => 100
  | .wezireParez => 100
  | .wezireDad => 100
  | .wezireBelaw => 100
  | .wezireTend => 100
  | .wezireAva => 100
  | .wezireCand => 100
  | .serokiMeclise => 150
  | .parlementer => 100
  | .xezinedar => 100
  | .pisporeEwlehiyaSiber => 100
  | .mufetis => 90
  | .balyoz => 80
  | .berdevk => 70
  | .mamoste => 70
  | .operatoreTore => 60
  | .noter => 50
  | .bacgir => 50
  | .perwerdekar => 40
  | .rewsenbir => 40
  | .gerinendeyeCavkaniye => 40
  | .gerinendeyeDaneye => 40
  | .kaliteKontrolker => 30
  | .navbeynkar => 30
  | .hekem => 30
  | .qeydkar => 25
  | .parezvaneCandi => 25
  | .sewirmend => 20
  | .bazargan => 60
  | .welati => 10
  | _ => 5

/-- `Error`, the two failures of a `pallet-nfts` mint, and the failure of the origin check. -/
inductive Error where
  | roleAlreadyTaken
  | notTheHolder
  | roleNotAssigned
  | exceedsMaxRolesPerUser
  | kycNotCompleted
  | citizenNftAlreadyExists
  | citizenNftNotFound
  | userAlreadyHasRole
  | insufficientTrustScore
  | invalidRoleAssignmentMethod
  | nftAlreadyExists
  | nftRejected
  | badOrigin
  deriving DecidableEq, Repr

/-- The pallet's constant `MaxTikisPerUser` (100 in the runtime). -/
structure Config where
  maxTikisPerUser : Nat

/-- The pallet's storage, and the owners of the items of the Tiki collection in `pallet-nfts`. -/
structure State (α : Type) [LinearOrder α] where
  citizenNft : α → Option Nat
  userTikis : α → List Tiki
  tikiHolder : Tiki → Option α
  nextItemId : Nat
  items : Nat → Option α

variable {α : Type} [LinearOrder α]

/-- The storage at genesis. -/
def genesis : State α :=
  ⟨fun _ => none, fun _ => [], fun _ => none, 0, fun _ => none⟩

/-- `is_citizen`: the account has a citizenship NFT. -/
def isCitizen (s : State α) (who : α) : Bool :=
  (s.citizenNft who).isSome

/-- `has_tiki`. -/
def hasTiki (s : State α) (who : α) (tiki : Tiki) : Bool :=
  (s.userTikis who).contains tiki

/-- `get_tiki_score`: the bonuses of the account's roles, summed in `u32`. -/
def getTikiScore (s : State α) (who : α) : Nat :=
  wrappingSum 32 ((s.userTikis who).map getBonusForTiki)

/-- `pallet_nfts::mint` of `item` in the Tiki collection to `owner`: an existing item is
refused, and so is a mint the collection's other checks refuse. -/
def nftsMint (items : Nat → Option α) (item : Nat) (owner : α) (accepts : Bool) :
    Except Error (Nat → Option α) := do
  ensure (items item = none) .nftAlreadyExists
  ensure (accepts = true) .nftRejected
  pure (Function.update items item (some owner))

variable (cfg : Config)

/-- `mint_citizen_nft_for_user`: the next item is minted to the user, recorded, and the `Welati`
role added if the user's list has room. -/
def mintCitizenNftForUser (s : State α) (user : α) (accepts : Bool) : Except Error (State α) := do
  ensure (s.citizenNft user = none) .citizenNftAlreadyExists
  let nextIdU32 := s.nextItemId
  let items ← nftsMint s.items nextIdU32 user accepts
  -- `try_push` of `Welati`, whose failure is ignored
  let tikis := (tryPush cfg.maxTikisPerUser (s.userTikis user) .welati).getD (s.userTikis user)
  pure { s with
    items
    citizenNft := Function.update s.citizenNft user (some nextIdU32)
    nextItemId := saturatingAdd 32 nextIdU32 1
    userTikis := Function.update s.userTikis user tikis }

/-- `internal_grant_role`: a citizen gets a role it lacks, if the list has room and, for a
unique role, nobody holds it. -/
def internalGrantRole (s : State α) (destAccount : α) (tiki : Tiki) : Except Error (State α) := do
  ensure ((s.citizenNft destAccount).isSome = true) .citizenNftNotFound
  if isUniqueRole tiki then
    ensure ((s.tikiHolder tiki).isNone = true) .roleAlreadyTaken
  let userTikis := s.userTikis destAccount
  ensure (tiki ∉ userTikis) .userAlreadyHasRole
  let tikis ← okOr (tryPush cfg.maxTikisPerUser userTikis tiki) .exceedsMaxRolesPerUser
  let tikiHolder :=
    if isUniqueRole tiki then Function.update s.tikiHolder tiki (some destAccount)
    else s.tikiHolder
  pure { s with userTikis := Function.update s.userTikis destAccount tikis, tikiHolder }

/-- `internal_revoke_role`: a role the account holds, other than `Welati`, is swap-removed from
its list, and a unique role's holder cleared. -/
def internalRevokeRole (s : State α) (targetAccount : α) (tiki : Tiki) :
    Except Error (State α) := do
  let userTikis := s.userTikis targetAccount
  let _position ← okOr (userTikis.findIdx? (· == tiki)) .roleNotAssigned
  ensure (tiki ≠ .welati) .roleNotAssigned
  let tikis := match userTikis.findIdx? (· == tiki) with
    | some pos => swapRemove userTikis pos
    | none => userTikis
  let tikiHolder :=
    if isUniqueRole tiki then Function.update s.tikiHolder tiki none else s.tikiHolder
  -- `update_nft_metadata` reads the account's citizenship NFT
  ensure ((s.citizenNft targetAccount).isSome = true) .citizenNftNotFound
  pure { s with userTikis := Function.update s.userTikis targetAccount tikis, tikiHolder }

/-- The grant calls: a role is granted by the method of its assignment type only. -/
def grantRoleOfType (assignmentType : RoleAssignmentType) (s : State α) (dest : α) (tiki : Tiki) :
    Except Error (State α) := do
  ensure (canGrantRoleType tiki assignmentType = true) .invalidRoleAssignmentMethod
  internalGrantRole cfg s dest tiki

/-- `grant_tiki` after the admin origin: appointed roles. -/
def grantTiki (s : State α) (dest : α) (tiki : Tiki) : Except Error (State α) :=
  grantRoleOfType cfg .appointed s dest tiki

/-- `grant_elected_role` after the admin origin: elected roles. -/
def grantElectedRole (s : State α) (dest : α) (tiki : Tiki) : Except Error (State α) :=
  grantRoleOfType cfg .elected s dest tiki

/-- `grant_earned_role` after the admin origin: earned roles. -/
def grantEarnedRole (s : State α) (dest : α) (tiki : Tiki) : Except Error (State α) :=
  grantRoleOfType cfg .earned s dest tiki

/-- `revoke_tiki` after the admin origin. -/
def revokeTiki (s : State α) (target : α) (tiki : Tiki) : Except Error (State α) :=
  internalRevokeRole s target tiki

/-- `force_mint_citizen_nft` after the admin origin. -/
def forceMintCitizenNft (s : State α) (dest : α) (accepts : Bool) : Except Error (State α) :=
  mintCitizenNftForUser cfg s dest accepts

/-- `apply_for_citizenship` after `ensure_signed`: an account whose KYC is approved mints its
NFT. -/
def applyForCitizenship (s : State α) (who : α) (kycStatus : KycLevel) (accepts : Bool) :
    Except Error (State α) := do
  ensure (kycStatus = .approved) .kycNotCompleted
  mintCitizenNftForUser cfg s who accepts

/-- `check_and_mint_citizen_nfts`, run by `on_initialize`: every approved account without an NFT
gets one; a failed mint is logged, and has written nothing. -/
def checkAndMintCitizenNfts (s : State α) (kycStatuses : StorageMap α KycLevel)
    (accepts : α → Bool) : State α :=
  kycStatuses.entries.foldl (fun s entry =>
    if entry.2 = .approved ∧ s.citizenNft entry.1 = none then
      commit (mintCitizenNftForUser cfg s entry.1 (accepts entry.1)) s
    else s) s

end PalletTiki
