import Pezkuwi.Runtime.Citizenship

/-!
# The tiki registry

`pallet-tiki` keeps one fact in two maps: `UserTikis` lists each account's roles, and
`TikiHolder` names the holder of each unique role. With `CitizenNft` and the items of the Tiki
collection they are written by three shared paths only, `mint_citizen_nft_for_user`,
`internal_grant_role` and `internal_revoke_role`. `RegistryInv` states how the maps agree:

* `TikiHolder` names unique roles only, each listed by its holder, and an account that lists a
  unique role is its holder, so a unique role has one holder at most;
* no list repeats a role;
* an account lists `Welati` exactly when it has a citizenship NFT, and only such an account
  lists any role;
* the item of an account's citizenship NFT is owned by it in the collection, so no two accounts
  share an item id.

Each shared path keeps the invariant, and so does every call of the two pallets as the runtime
composes them (`registryInv_citizenshipStep`). The `Welati` law needs `MaxTikisPerUser` to be
positive: `try_push` into a list with no room drops `Welati` silently. The last law rests on
`pallet-nfts` refusing a mint of an existing item: `NextItemId` saturates at `u32::MAX`, and from
then on every mint is refused.

## Main definitions

* `RegistryInv`: the agreement of `UserTikis`, `TikiHolder`, `CitizenNft` and the items

## Main results

* `mintCitizenNftForUser_ok`, `internalGrantRole_ok`, `internalRevokeRole_ok`: what each shared
  path checked and wrote
* `RegistryInv.mintCitizenNftForUser`, `RegistryInv.internalGrantRole`,
  `RegistryInv.internalRevokeRole`, `RegistryInv.checkAndMintCitizenNfts`: the step lemmas
* `registryInv_of_reachable`, `tiki_registry_invariant`: the laws on every reachable state
-/

namespace PalletTiki

open Bounded Machine BoundedVec IdentityKyc

variable {α : Type} [LinearOrder α] (cfg : Config)

/-! ## What each shared path writes -/

omit [LinearOrder α] in
theorem nftsMint_ok {items items' : Nat → Option α} {item : Nat} {owner : α} {accepts : Bool}
    (h : nftsMint items item owner accepts = .ok items') :
    items item = none ∧ items' = Function.update items item (some owner) := by
  simp only [nftsMint, bind_eq_ok, ensure_eq_ok, pure_eq_ok, exists_const] at h
  obtain ⟨hfresh, -, rfl⟩ := h
  exact ⟨hfresh, rfl⟩

/-- A successful mint found the user without an NFT and the next item free, minted that item to
the user, recorded it, advanced the counter and pushed `Welati` where the list had room. -/
theorem mintCitizenNftForUser_ok {s s' : State α} {user : α} {accepts : Bool}
    (h : mintCitizenNftForUser cfg s user accepts = .ok s') :
    s.citizenNft user = none ∧ s.items s.nextItemId = none ∧
      s' = { s with
        items := Function.update s.items s.nextItemId (some user)
        citizenNft := Function.update s.citizenNft user (some s.nextItemId)
        nextItemId := saturatingAdd 32 s.nextItemId 1
        userTikis := Function.update s.userTikis user
          ((tryPush cfg.maxTikisPerUser (s.userTikis user) .welati).getD (s.userTikis user)) } := by
  simp only [mintCitizenNftForUser, bind_eq_ok, ensure_eq_ok, pure_eq_ok, exists_const] at h
  obtain ⟨hnone, items, hmint, rfl⟩ := h
  obtain ⟨hfresh, rfl⟩ := nftsMint_ok hmint
  exact ⟨hnone, hfresh, rfl⟩

/-- A successful grant found a citizen without the role, room in its list and, for a unique
role, no holder; it appended the role and, for a unique role, recorded the holder. -/
theorem internalGrantRole_ok {s s' : State α} {dest : α} {tiki : Tiki}
    (h : internalGrantRole cfg s dest tiki = .ok s') :
    (s.citizenNft dest).isSome = true ∧ (isUniqueRole tiki = true → s.tikiHolder tiki = none) ∧
      tiki ∉ s.userTikis dest ∧ (s.userTikis dest).length < cfg.maxTikisPerUser ∧
      s' = { s with
        userTikis := Function.update s.userTikis dest (s.userTikis dest ++ [tiki])
        tikiHolder := if isUniqueRole tiki then Function.update s.tikiHolder tiki (some dest)
          else s.tikiHolder } := by
  unfold internalGrantRole at h
  -- the uniqueness check runs for a unique role only
  by_cases hu : isUniqueRole tiki = true
  · rw [if_pos hu] at h
    simp only [bind_eq_ok, ensure_eq_ok, okOr_eq_ok, tryPush_eq_some, pure_eq_ok,
      exists_const] at h
    obtain ⟨hcit, hfree, hnew, tikis, ⟨hroom, rfl⟩, rfl⟩ := h
    exact ⟨hcit, fun _ => Option.isNone_iff_eq_none.mp hfree, hnew, hroom, rfl⟩
  · rw [if_neg hu] at h
    simp only [bind_eq_ok, ensure_eq_ok, okOr_eq_ok, tryPush_eq_some, pure_eq_ok,
      exists_const] at h
    obtain ⟨hcit, hnew, tikis, ⟨hroom, rfl⟩, rfl⟩ := h
    exact ⟨hcit, fun hu' => absurd hu' hu, hnew, hroom, rfl⟩

/-- A successful revocation found the role at a position of the account's list, not `Welati`,
and a citizen; it swap-removed that position and, for a unique role, cleared the holder. -/
theorem internalRevokeRole_ok {s s' : State α} {target : α} {tiki : Tiki}
    (h : internalRevokeRole s target tiki = .ok s') :
    ∃ pos, (s.userTikis target).findIdx? (· == tiki) = some pos ∧ tiki ≠ .welati ∧
      (s.citizenNft target).isSome = true ∧
      s' = { s with
        userTikis := Function.update s.userTikis target (swapRemove (s.userTikis target) pos)
        tikiHolder := if isUniqueRole tiki then Function.update s.tikiHolder tiki none
          else s.tikiHolder } := by
  simp only [internalRevokeRole, bind_eq_ok, ensure_eq_ok, okOr_eq_ok, pure_eq_ok,
    exists_const] at h
  obtain ⟨pos, hpos, hne, hcit, rfl⟩ := h
  refine ⟨pos, hpos, hne, hcit, ?_⟩
  -- the second search finds the same position
  rw [hpos]

/-- Grants and revocations leave `CitizenNft` alone. -/
theorem citizenNft_internalGrantRole {s s' : State α} {dest : α} {tiki : Tiki}
    (h : internalGrantRole cfg s dest tiki = .ok s') : s'.citizenNft = s.citizenNft := by
  obtain ⟨-, -, -, -, rfl⟩ := internalGrantRole_ok cfg h
  rfl

theorem citizenNft_grantRoleOfType {s s' : State α} {assignmentType : RoleAssignmentType}
    {dest : α} {tiki : Tiki} (h : grantRoleOfType cfg assignmentType s dest tiki = .ok s') :
    s'.citizenNft = s.citizenNft := by
  simp only [grantRoleOfType, bind_eq_ok, ensure_eq_ok, exists_const] at h
  exact citizenNft_internalGrantRole cfg h.2

theorem citizenNft_internalRevokeRole {s s' : State α} {target : α} {tiki : Tiki}
    (h : internalRevokeRole s target tiki = .ok s') : s'.citizenNft = s.citizenNft := by
  obtain ⟨-, -, -, -, rfl⟩ := internalRevokeRole_ok h
  rfl

/-- A mint makes the user a citizen, and nobody else. -/
theorem citizenNft_mintCitizenNftForUser {s s' : State α} {user : α} {accepts : Bool}
    (h : mintCitizenNftForUser cfg s user accepts = .ok s') {a : α}
    (ha : (s'.citizenNft a).isSome = true) : a = user ∨ (s.citizenNft a).isSome = true := by
  obtain ⟨-, -, rfl⟩ := mintCitizenNftForUser_ok cfg h
  by_cases hau : a = user
  · exact .inl hau
  · dsimp only at ha
    rw [Function.update_of_ne hau] at ha
    exact .inr ha

omit [LinearOrder α] in
/-- The holder map after a write at a unique role: the other roles keep their holders. -/
theorem holder_update_of_ne {holder : Tiki → Option α} {tiki r : Tiki} {v : Option α}
    (hr : ¬(isUniqueRole tiki = true ∧ r = tiki)) :
    (if isUniqueRole tiki then Function.update holder tiki v else holder) r = holder r := by
  split_ifs with hu
  · exact Function.update_of_ne (fun h => hr ⟨hu, h⟩) _ _
  · rfl

omit [LinearOrder α] in
theorem holder_update_self {holder : Tiki → Option α} {tiki : Tiki} {v : Option α}
    (hu : isUniqueRole tiki = true) :
    (if isUniqueRole tiki then Function.update holder tiki v else holder) tiki = v := by
  rw [if_pos hu, Function.update_self]

/-! ## The invariant -/

/-- How `UserTikis`, `TikiHolder`, `CitizenNft` and the collection's items agree. -/
structure RegistryInv (s : State α) : Prop where
  /-- `TikiHolder` names unique roles only, each listed by its holder. -/
  holder_mem : ∀ {r a}, s.tikiHolder r = some a → isUniqueRole r = true ∧ r ∈ s.userTikis a
  /-- An account that lists a unique role is its holder. -/
  mem_holder : ∀ {r a}, isUniqueRole r = true → r ∈ s.userTikis a → s.tikiHolder r = some a
  nodup : ∀ a, (s.userTikis a).Nodup
  welati_mem : ∀ a, Tiki.welati ∈ s.userTikis a ↔ (s.citizenNft a).isSome = true
  citizen_of_mem : ∀ {r a}, r ∈ s.userTikis a → (s.citizenNft a).isSome = true
  /-- The item of a citizenship NFT is owned by its citizen. -/
  item_owner : ∀ {a i}, s.citizenNft a = some i → s.items i = some a

theorem registryInv_genesis : RegistryInv (genesis : State α) where
  holder_mem h := by simp [genesis] at h
  mem_holder _ h := by simp [genesis] at h
  nodup _ := List.nodup_nil
  welati_mem _ := by simp [genesis]
  citizen_of_mem h := by simp [genesis] at h
  item_owner h := by simp [genesis] at h

namespace RegistryInv

variable {cfg} {s : State α}

/-- An account without a citizenship NFT holds no role. -/
theorem userTikis_eq_nil (hi : RegistryInv s) {a : α} (h : s.citizenNft a = none) :
    s.userTikis a = [] :=
  List.eq_nil_iff_forall_not_mem.mpr fun r hr => by simpa [h] using hi.citizen_of_mem hr

/-- Two accounts that list one unique role are one account. -/
theorem holder_unique (hi : RegistryInv s) {r : Tiki} {a b : α} (hu : isUniqueRole r = true)
    (ha : r ∈ s.userTikis a) (hb : r ∈ s.userTikis b) : a = b :=
  Option.some.inj ((hi.mem_holder hu ha).symm.trans (hi.mem_holder hu hb))

/-- Two accounts with one citizenship item are one account. -/
theorem citizenNft_inj (hi : RegistryInv s) {a b : α} {i : Nat} (ha : s.citizenNft a = some i)
    (hb : s.citizenNft b = some i) : a = b :=
  Option.some.inj ((hi.item_owner ha).symm.trans (hi.item_owner hb))

/-- A mint keeps the invariant, given room for `Welati`: the new citizen held no role, so its list
becomes `[Welati]`, and its item was free, so no older citizen owned it. -/
theorem mintCitizenNftForUser (hmax : 0 < cfg.maxTikisPerUser) (hi : RegistryInv s) {user : α}
    {accepts : Bool} {s' : State α} (h : PalletTiki.mintCitizenNftForUser cfg s user accepts = .ok s') :
    RegistryInv s' := by
  obtain ⟨hnone, hfresh, rfl⟩ := mintCitizenNftForUser_ok cfg h
  have hempty := hi.userTikis_eq_nil hnone
  have hpush : (tryPush cfg.maxTikisPerUser (s.userTikis user) .welati).getD (s.userTikis user) =
      [.welati] := by
    rw [hempty, tryPush_eq_some.mpr ⟨hmax, rfl⟩]
    rfl
  rw [hpush]
  constructor <;> dsimp only
  · -- the holders keep their roles, since the new citizen held none
    intro r a hr
    obtain ⟨hu, hm⟩ := hi.holder_mem hr
    have ha : a ≠ user := by
      rintro rfl
      simp [hempty] at hm
    exact ⟨hu, by rwa [Function.update_of_ne ha]⟩
  · intro r a hu hm
    by_cases ha : a = user
    · -- the new citizen lists `Welati` only, which is not unique
      subst ha
      rw [Function.update_self, List.mem_singleton] at hm
      subst hm
      simp [isUniqueRole] at hu
    · rw [Function.update_of_ne ha] at hm
      exact hi.mem_holder hu hm
  · exact (Function.forall_update_iff _ fun _ l => List.Nodup l).mpr
      ⟨List.nodup_singleton _, fun a _ => hi.nodup a⟩
  · intro a
    by_cases ha : a = user
    · subst ha
      simp
    · rw [Function.update_of_ne ha, Function.update_of_ne ha]
      exact hi.welati_mem a
  · intro r a hm
    by_cases ha : a = user
    · subst ha
      simp
    · rw [Function.update_of_ne ha] at hm ⊢
      exact hi.citizen_of_mem hm
  · intro a i hai
    by_cases ha : a = user
    · subst ha
      rw [Function.update_self, Option.some.injEq] at hai
      subst hai
      exact Function.update_self _ _ _
    · -- an older citizen's item is not the one minted
      rw [Function.update_of_ne ha] at hai
      have hold := hi.item_owner hai
      have hne : i ≠ s.nextItemId := by
        rintro rfl
        rw [hfresh] at hold
        cases hold
      rw [Function.update_of_ne hne]
      exact hold

/-- A grant keeps the invariant: the role was new to the citizen's list, and a unique role had no
holder. -/
theorem internalGrantRole (hi : RegistryInv s) {dest : α} {tiki : Tiki} {s' : State α}
    (h : PalletTiki.internalGrantRole cfg s dest tiki = .ok s') : RegistryInv s' := by
  obtain ⟨hcit, hfree, hnew, -, rfl⟩ := internalGrantRole_ok cfg h
  -- appending to the citizen's list keeps every role every account listed
  have hkeep : ∀ {r a}, r ∈ s.userTikis a →
      r ∈ Function.update s.userTikis dest (s.userTikis dest ++ [tiki]) a := by
    intro r a hm
    by_cases ha : a = dest
    · subst ha
      rw [Function.update_self]
      exact List.mem_append_left _ hm
    · rwa [Function.update_of_ne ha]
  constructor <;> dsimp only
  · intro r a hr
    by_cases hrt : isUniqueRole tiki = true ∧ r = tiki
    · obtain ⟨hu, rfl⟩ := hrt
      rw [holder_update_self hu, Option.some.injEq] at hr
      subst hr
      exact ⟨hu, by simp⟩
    · rw [holder_update_of_ne hrt] at hr
      obtain ⟨hu, hm⟩ := hi.holder_mem hr
      exact ⟨hu, hkeep hm⟩
  · intro r a hu hm
    by_cases ha : a = dest
    · subst ha
      rw [Function.update_self, List.mem_append, List.mem_singleton] at hm
      rcases hm with hm | rfl
      · -- a role the citizen held before is not the one granted
        have hrt : ¬(isUniqueRole tiki = true ∧ r = tiki) := fun ⟨_, hrt⟩ => hnew (hrt ▸ hm)
        rw [holder_update_of_ne hrt]
        exact hi.mem_holder hu hm
      · exact holder_update_self hu
    · rw [Function.update_of_ne ha] at hm
      -- another account's unique role is not the one granted, which had no holder
      have hrt : ¬(isUniqueRole tiki = true ∧ r = tiki) := by
        rintro ⟨htu, rfl⟩
        simpa [hfree htu] using hi.mem_holder hu hm
      rw [holder_update_of_ne hrt]
      exact hi.mem_holder hu hm
  · -- the granted role was not on the citizen's list
    have hnodup : (s.userTikis dest ++ [tiki]).Nodup := by
      rw [← List.concat_eq_append]
      exact (hi.nodup dest).concat hnew
    exact (Function.forall_update_iff _ fun _ l => List.Nodup l).mpr
      ⟨hnodup, fun a _ => hi.nodup a⟩
  · intro a
    by_cases ha : a = dest
    · -- the citizen listed `Welati` already
      subst ha
      rw [Function.update_self, List.mem_append]
      exact ⟨fun _ => hcit, fun _ => .inl ((hi.welati_mem a).mpr hcit)⟩
    · rw [Function.update_of_ne ha]
      exact hi.welati_mem a
  · intro r a hm
    by_cases ha : a = dest
    · subst ha
      exact hcit
    · rw [Function.update_of_ne ha] at hm
      exact hi.citizen_of_mem hm
  · exact hi.item_owner

/-- A revocation keeps the invariant: the list loses exactly the role revoked, since it held it
once, and a unique role loses its holder with it. -/
theorem internalRevokeRole (hi : RegistryInv s) {target : α} {tiki : Tiki} {s' : State α}
    (h : PalletTiki.internalRevokeRole s target tiki = .ok s') : RegistryInv s' := by
  obtain ⟨pos, hpos, hne, hcit, rfl⟩ := internalRevokeRole_ok h
  obtain ⟨hlt, hat⟩ := getElem_of_position_eq_some hpos
  have hheld : tiki ∈ s.userTikis target := hat ▸ List.getElem_mem hlt
  have hmem : ∀ r, r ∈ swapRemove (s.userTikis target) pos ↔
      r ∈ s.userTikis target ∧ r ≠ tiki := by
    intro r
    rw [mem_swapRemove (hi.nodup target) hlt, hat]
  constructor <;> dsimp only
  · intro r a hr
    by_cases hrt : isUniqueRole tiki = true ∧ r = tiki
    · obtain ⟨hu, rfl⟩ := hrt
      rw [holder_update_self hu] at hr
      cases hr
    · rw [holder_update_of_ne hrt] at hr
      obtain ⟨hu, hm⟩ := hi.holder_mem hr
      refine ⟨hu, ?_⟩
      by_cases ha : a = target
      · subst ha
        rw [Function.update_self, hmem]
        exact ⟨hm, fun hr => hrt ⟨hr ▸ hu, hr⟩⟩
      · rwa [Function.update_of_ne ha]
  · intro r a hu hm
    by_cases ha : a = target
    · subst ha
      rw [Function.update_self, hmem] at hm
      rw [holder_update_of_ne fun hrt => hm.2 hrt.2]
      exact hi.mem_holder hu hm.1
    · rw [Function.update_of_ne ha] at hm
      -- the role revoked is the target's, so another account's unique role is another
      have hrt : ¬(isUniqueRole tiki = true ∧ r = tiki) := by
        rintro ⟨-, rfl⟩
        exact ha (hi.holder_unique hu hm hheld)
      rw [holder_update_of_ne hrt]
      exact hi.mem_holder hu hm
  · exact (Function.forall_update_iff _ fun _ l => List.Nodup l).mpr
      ⟨nodup_swapRemove (hi.nodup target) hlt, fun a _ => hi.nodup a⟩
  · intro a
    by_cases ha : a = target
    · -- `Welati` is never revoked
      subst ha
      rw [Function.update_self, hmem, and_iff_left (Ne.symm hne)]
      exact hi.welati_mem a
    · rw [Function.update_of_ne ha]
      exact hi.welati_mem a
  · intro r a hm
    by_cases ha : a = target
    · subst ha
      exact hcit
    · rw [Function.update_of_ne ha] at hm
      exact hi.citizen_of_mem hm
  · exact hi.item_owner

/-! ## The calls and the block hook -/

theorem grantRoleOfType (hi : RegistryInv s) {assignmentType : RoleAssignmentType} {dest : α}
    {tiki : Tiki} {s' : State α}
    (h : PalletTiki.grantRoleOfType cfg assignmentType s dest tiki = .ok s') : RegistryInv s' := by
  simp only [PalletTiki.grantRoleOfType, bind_eq_ok, ensure_eq_ok, exists_const] at h
  exact hi.internalGrantRole h.2

theorem applyForCitizenship (hmax : 0 < cfg.maxTikisPerUser) (hi : RegistryInv s) {who : α}
    {kycStatus : KycLevel} {accepts : Bool} {s' : State α}
    (h : PalletTiki.applyForCitizenship cfg s who kycStatus accepts = .ok s') : RegistryInv s' := by
  simp only [PalletTiki.applyForCitizenship, bind_eq_ok, ensure_eq_ok, exists_const] at h
  exact hi.mintCitizenNftForUser hmax h.2

/-- The block hook keeps the invariant: every mint it commits does, and a failed one wrote
nothing. -/
theorem checkAndMintCitizenNfts (hmax : 0 < cfg.maxTikisPerUser) (hi : RegistryInv s)
    (kycStatuses : StorageMap α KycLevel) (accepts : α → Bool) :
    RegistryInv (PalletTiki.checkAndMintCitizenNfts cfg s kycStatuses accepts) := by
  unfold PalletTiki.checkAndMintCitizenNfts
  -- the walk over the KYC levels, one account at a time
  induction kycStatuses.entries generalizing s with
  | nil => exact hi
  | cons entry entries ih =>
    rw [List.foldl_cons]
    apply ih
    split_ifs
    · exact commit_of_ok hi fun _ hmint => hi.mintCitizenNftForUser hmax hmint
    · exact hi

end RegistryInv

end PalletTiki

namespace Pezkuwichain

open Machine PalletTiki

variable {α : Type} [LinearOrder α] {cfg : PalletTiki.Config}

/-- Every call of the two pallets keeps the registry invariant: the tiki calls by the step
lemmas, the KYC approval through the mint of its hook, and the other identity-kyc calls by
leaving the tiki storage alone. -/
theorem registryInv_citizenshipStep (hmax : 0 < cfg.maxTikisPerUser) {s : Citizenship α}
    (hi : RegistryInv s.tiki) (a : CitizenshipAction α) :
    RegistryInv (citizenshipStep cfg s a).tiki := by
  cases a <;> simp only [citizenshipStep, Citizenship.tiki_withTiki, Citizenship.tiki_withKyc]
  case grantTiki | grantElectedRole | grantEarnedRole =>
    exact commit_bind_of_ok hi fun _ _ h => hi.grantRoleOfType h
  case revokeTiki => exact commit_bind_of_ok hi fun _ _ h => hi.internalRevokeRole h
  case forceMintCitizenNft => exact commit_bind_of_ok hi fun _ _ h => hi.mintCitizenNftForUser hmax h
  case applyForCitizenship => exact commit_bind_of_ok hi fun _ _ h => hi.applyForCitizenship hmax h
  case onInitialize => exact hi.checkAndMintCitizenNfts hmax _ _
  case setIdentity | applyForKyc | rejectKyc | revokeKyc => exact hi
  case approveKyc origin who accepts =>
    -- the approval leaves the tiki storage to the mint of its hook
    refine commit_of_ok (P := fun c : Citizenship α => RegistryInv c.tiki) hi fun c hc => ?_
    obtain ⟨kyc, -, rfl⟩ := map_eq_ok.mp hc
    exact commit_of_ok hi fun _ hmint => hi.mintCitizenNftForUser hmax hmint

theorem registryInv_of_reachable (hmax : 0 < cfg.maxTikisPerUser) {s : Citizenship α}
    (hs : Reachable (citizenshipStep cfg) Citizenship.genesis s) : RegistryInv s.tiki :=
  hs.invariant (P := fun c : Citizenship α => RegistryInv c.tiki) registryInv_genesis
    fun _ a hi => registryInv_citizenshipStep hmax hi a

/-- The tiki registry laws on every state the calls of `pallet-tiki`, the identity-kyc calls and
tiki's block hook reach: a unique role's holder is the account listing it, no list repeats a role,
an account lists `Welati` exactly when it has a citizenship NFT and lists roles only then, and no
two accounts share a citizenship item. -/
theorem tiki_registry_invariant (hmax : 0 < cfg.maxTikisPerUser) {s : Citizenship α}
    (hs : Reachable (citizenshipStep cfg) Citizenship.genesis s) :
    (∀ r a, isUniqueRole r = true → (s.tiki.tikiHolder r = some a ↔ r ∈ s.tiki.userTikis a)) ∧
      (∀ r a b, isUniqueRole r = true → r ∈ s.tiki.userTikis a → r ∈ s.tiki.userTikis b →
        a = b) ∧
      (∀ a, (s.tiki.userTikis a).Nodup) ∧
      (∀ a, Tiki.welati ∈ s.tiki.userTikis a ↔ (s.tiki.citizenNft a).isSome = true) ∧
      (∀ a, s.tiki.userTikis a ≠ [] → (s.tiki.citizenNft a).isSome = true) ∧
      (∀ a b i, s.tiki.citizenNft a = some i → s.tiki.citizenNft b = some i → a = b) := by
  have hi := registryInv_of_reachable hmax hs
  refine ⟨fun r a hu => ⟨fun h => (hi.holder_mem h).2, hi.mem_holder hu⟩,
    fun r a b hu ha hb => hi.holder_unique hu ha hb, hi.nodup, hi.welati_mem,
    fun a hne => ?_, fun a b i ha hb => hi.citizenNft_inj ha hb⟩
  obtain ⟨r, hr⟩ := List.exists_mem_of_ne_nil _ hne
  exact hi.citizen_of_mem hr

/-- The runtime's `MaxTikisPerUser`. -/
def tikiConfig : PalletTiki.Config :=
  ⟨100⟩

/-- Account `1` sets an identity and applies for KYC; the root approves it, which mints its
citizenship NFT, and grants it the unique elected role `Serok`. -/
def serokRun : List (CitizenshipAction Nat) :=
  [.setIdentity (.signed 1), .applyForKyc (.signed 1) true, .approveKyc .root 1 true,
    .grantElectedRole .root 1 .serok]

def serokState : Citizenship Nat :=
  run (citizenshipStep tikiConfig) Citizenship.genesis serokRun

example : serokState.tiki.tikiHolder .serok = some 1 ∧
    serokState.tiki.userTikis 1 = [.welati, .serok] := by
  decide

theorem tiki_registry_after_serok :
    0 < tikiConfig.maxTikisPerUser ∧
      (∀ r a, isUniqueRole r = true →
        (serokState.tiki.tikiHolder r = some a ↔ r ∈ serokState.tiki.userTikis a)) ∧
      (∀ r a b, isUniqueRole r = true → r ∈ serokState.tiki.userTikis a →
        r ∈ serokState.tiki.userTikis b → a = b) ∧
      (∀ a, (serokState.tiki.userTikis a).Nodup) ∧
      (∀ a, Tiki.welati ∈ serokState.tiki.userTikis a ↔
        (serokState.tiki.citizenNft a).isSome = true) ∧
      (∀ a, serokState.tiki.userTikis a ≠ [] → (serokState.tiki.citizenNft a).isSome = true) ∧
      (∀ a b i, serokState.tiki.citizenNft a = some i → serokState.tiki.citizenNft b = some i →
        a = b) :=
  ⟨by decide, tiki_registry_invariant (by decide) (reachable_run _)⟩

end Pezkuwichain
