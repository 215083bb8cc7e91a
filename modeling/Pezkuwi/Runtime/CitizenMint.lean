import Pezkuwi.Runtime.KycAgreement

/-!
# The block hook makes every approved account a citizen

`check_and_mint_citizen_nfts`, which tiki's `on_initialize` runs in every block, walks the KYC
map and mints a citizenship NFT for every approved account without one. A mint takes the item
`NextItemId` of the Tiki collection and advances the counter, saturating at `u32::MAX`, and
`pallet-nfts` refuses an item that exists. On every reachable state the items from the counter up
to `u32::MAX` are free (`FreshItems`): every mint takes the item at the counter and moves the
counter past it. So one run of the hook makes every approved account a citizen
(`approved_citizens_after_hook`), as long as `pallet-nfts` accepts the mints and the counter has
room for the approved accounts still waiting: each of them takes the next free item, and an
account that is a citizen stays one. With `citizen_kyc_approved_or_revoked` this is the other
direction of the agreement of the two pallets, one block late.

## Main definitions

* `FreshItems`: the items from `NextItemId` on are free
* `awaitingMint`: the approved entries of a part of the KYC map whose account has no NFT

## Main results

* `mintCitizenNftForUser_of_fresh`: a mint whose checks pass succeeds
* `citizenNft_walk`: the hook's walk makes a citizen of every approved entry it meets
* `freshItems_citizenshipStep`, `freshItems_of_reachable`: the free items on every run
* `approved_citizens_after_hook`: after the hook every approved account is a citizen
-/

namespace PalletTiki

open Bounded Machine IdentityKyc

variable {α : Type} [LinearOrder α] (cfg : Config)

/-! ## The free items -/

/-- The items of the Tiki collection from `NextItemId` up to `u32::MAX` are free. -/
def FreshItems (s : State α) : Prop :=
  ∀ i, s.nextItemId ≤ i → i < maxValue 32 → s.items i = none

theorem freshItems_genesis : FreshItems (genesis : State α) :=
  fun _ _ _ => rfl

/-- A write that keeps the items and the counter keeps the free items. -/
theorem FreshItems.of_frame {s s' : State α} (hi : FreshItems s) (hitems : s'.items = s.items)
    (hnext : s'.nextItemId = s.nextItemId) : FreshItems s' := by
  intro i hle hlt
  rw [hitems]
  exact hi i (hnext ▸ hle) hlt

/-- A mint takes the item at the counter and moves the counter past it. -/
theorem FreshItems.mintCitizenNftForUser {s s' : State α} (hi : FreshItems s) {user : α}
    {accepts : Bool} (h : mintCitizenNftForUser cfg s user accepts = .ok s') : FreshItems s' := by
  obtain ⟨-, -, rfl⟩ := mintCitizenNftForUser_ok cfg h
  intro i hle hlt
  dsimp only at hle ⊢
  rw [saturatingAdd] at hle
  -- the counter moved past the item it took, so `i` lies above that item
  have hne : i ≠ s.nextItemId := by omega
  rw [Function.update_of_ne hne]
  exact hi i (by omega) hlt

/-- A grant writes the roles only. -/
theorem FreshItems.grantRoleOfType {s s' : State α} (hi : FreshItems s)
    {assignmentType : RoleAssignmentType} {dest : α} {tiki : Tiki}
    (h : grantRoleOfType cfg assignmentType s dest tiki = .ok s') : FreshItems s' := by
  simp only [PalletTiki.grantRoleOfType, bind_eq_ok, ensure_eq_ok, exists_const] at h
  obtain ⟨-, -, -, -, rfl⟩ := internalGrantRole_ok cfg h.2
  exact hi.of_frame rfl rfl

/-- The hook keeps the free items: every mint it commits does. -/
theorem FreshItems.checkAndMintCitizenNfts {s : State α} (hi : FreshItems s)
    (kycStatuses : StorageMap α KycLevel) (accepts : α → Bool) :
    FreshItems (PalletTiki.checkAndMintCitizenNfts cfg s kycStatuses accepts) := by
  unfold PalletTiki.checkAndMintCitizenNfts
  induction kycStatuses.entries generalizing s with
  | nil => exact hi
  | cons entry entries ih =>
    rw [List.foldl_cons]
    apply ih
    split_ifs
    · exact commit_of_ok hi fun _ hmint => hi.mintCitizenNftForUser cfg hmint
    · exact hi

/-! ## The walk of the hook -/

/-- A mint whose checks pass succeeds: the user has no NFT, the item at the counter is free and
`pallet-nfts` accepts it. -/
theorem mintCitizenNftForUser_of_fresh {s : State α} {user : α}
    (hnone : s.citizenNft user = none) (hfree : s.items s.nextItemId = none) :
    mintCitizenNftForUser cfg s user true = .ok { s with
      items := Function.update s.items s.nextItemId (some user)
      citizenNft := Function.update s.citizenNft user (some s.nextItemId)
      nextItemId := saturatingAdd 32 s.nextItemId 1
      userTikis := Function.update s.userTikis user
        ((BoundedVec.tryPush cfg.maxTikisPerUser (s.userTikis user) .welati).getD
          (s.userTikis user)) } := by
  simp only [mintCitizenNftForUser, nftsMint, hnone, hfree, ensure, if_true, bind, pure]
  rfl

/-- A mint, committed or rolled back, keeps every citizen a citizen. -/
theorem isSome_citizenNft_commit_mint {s : State α} {user a : α} {accepts : Bool}
    (ha : (s.citizenNft a).isSome = true) :
    ((commit (mintCitizenNftForUser cfg s user accepts) s).citizenNft a).isSome = true := by
  refine commit_of_ok (P := fun t : State α => (t.citizenNft a).isSome = true) ha
    fun t h => ?_
  obtain ⟨-, -, rfl⟩ := mintCitizenNftForUser_ok cfg h
  by_cases hau : a = user
  · subst hau
    simp
  · simpa [Function.update_of_ne hau] using ha

/-- The approved entries of `l` whose account has no citizenship NFT in `t`. -/
def awaitingMint (t : State α) (l : List (α × KycLevel)) : Nat :=
  l.countP fun e => e.2 = .approved ∧ t.citizenNft e.1 = none

theorem awaitingMint_cons (t : State α) (account : α) (kycLevel : KycLevel)
    (l : List (α × KycLevel)) :
    awaitingMint t ((account, kycLevel) :: l) =
      awaitingMint t l + if kycLevel = .approved ∧ t.citizenNft account = none then 1 else 0 := by
  simp only [awaitingMint, List.countP_cons, decide_eq_true_eq]

/-- The count reads the NFTs of the entries' accounts only. -/
theorem awaitingMint_congr {t t' : State α} {l : List (α × KycLevel)}
    (h : ∀ e ∈ l, t'.citizenNft e.1 = t.citizenNft e.1) : awaitingMint t' l = awaitingMint t l :=
  List.countP_congr fun e he => by rw [h e he]

variable (accepts : α → Bool)

/-- Over entries with distinct accounts, from a state whose items from the counter on are free
and whose counter has room for the waiting entries, and with every waiting mint accepted: the
hook's walk leaves a citizen every account that was one and every approved account it meets.
The induction is on the entries, with the state generalised; a waiting entry takes the item at
the counter, and the entries after it still wait, having other accounts. -/
theorem citizenNft_walk : ∀ (l : List (α × KycLevel)) (t : State α),
    l.Pairwise (fun a b => a.1 < b.1) → FreshItems t →
    t.nextItemId + awaitingMint t l ≤ maxValue 32 →
    (∀ e ∈ l, e.2 = .approved → t.citizenNft e.1 = none → accepts e.1 = true) →
    ∀ a, ((∃ e ∈ l, e.1 = a ∧ e.2 = .approved) ∨ (t.citizenNft a).isSome = true) →
      ((l.foldl (fun t entry =>
        if entry.2 = .approved ∧ t.citizenNft entry.1 = none then
          commit (mintCitizenNftForUser cfg t entry.1 (accepts entry.1)) t
        else t) t).citizenNft a).isSome = true
  | [], _, _, _, _, _, _, ha => ha.resolve_left fun ⟨_, he, _⟩ => nomatch he
  | (account, kycLevel) :: rest, t, hl, hi, hroom, haccepts, a, ha => by
    rw [List.pairwise_cons] at hl
    rw [awaitingMint_cons] at hroom
    rw [List.foldl_cons]
    by_cases hwait : kycLevel = .approved ∧ t.citizenNft account = none
    · -- the waiting entry takes the item at the counter, which is free
      have hlt : t.nextItemId < maxValue 32 := by
        rw [if_pos hwait] at hroom
        omega
      have hmint := mintCitizenNftForUser_of_fresh cfg hwait.2 (hi _ le_rfl hlt)
      rw [if_pos hwait, haccepts _ List.mem_cons_self hwait.1 hwait.2, hmint, commit_ok]
      -- the later entries have other accounts, whose NFTs the mint did not touch
      have hrest : ∀ e ∈ rest, (Function.update t.citizenNft account
          (some t.nextItemId)) e.1 = t.citizenNft e.1 :=
        fun e he => Function.update_of_ne (ne_of_lt (hl.1 e he)).symm _ _
      refine citizenNft_walk rest _ hl.2
        (hi.mintCitizenNftForUser cfg hmint) ?_ (fun e he happ hnone => ?_) a ?_
      · rw [awaitingMint_congr hrest, if_pos hwait] at *
        dsimp only
        rw [saturatingAdd_of_le (by omega)]
        omega
      · exact haccepts e (List.mem_cons_of_mem _ he) happ (by rwa [← hrest e he])
      · rcases ha with ⟨e, he, rfl, happ⟩ | hcit
        · rcases List.mem_cons.mp he with rfl | hmem
          · exact .inr (by simp)
          · exact .inl ⟨e, hmem, rfl, happ⟩
        · refine .inr ?_
          by_cases hau : a = account
          · subst hau
            simp
          · simpa [Function.update_of_ne hau] using hcit
    · -- the entry is skipped: it is not approved, or its account is a citizen already
      rw [if_neg hwait]
      rw [if_neg hwait, Nat.add_zero] at hroom
      refine citizenNft_walk rest t hl.2 hi hroom
        (fun e he => haccepts e (List.mem_cons_of_mem _ he)) a ?_
      rcases ha with ⟨e, he, rfl, happ⟩ | hcit
      · rcases List.mem_cons.mp he with rfl | hmem
        · -- an approved entry that was skipped has its NFT
          refine .inr (Option.ne_none_iff_isSome.mp fun hnone => hwait ⟨happ, hnone⟩)
        · exact .inl ⟨e, hmem, rfl, happ⟩
      · exact .inr hcit

/-- After the hook, every account the KYC map approves is a citizen, when the items from the
counter on are free, the counter has room for the approved accounts without an NFT and
`pallet-nfts` accepts their mints. -/
theorem citizenNft_checkAndMintCitizenNfts {s : State α} (hi : FreshItems s)
    {kycStatuses : StorageMap α KycLevel}
    (hroom : s.nextItemId + awaitingMint s kycStatuses.entries ≤ maxValue 32)
    (haccepts : ∀ a, kycStatuses.get? a = some .approved → s.citizenNft a = none →
      accepts a = true)
    {a : α} (ha : kycStatuses.get? a = some .approved) :
    ((PalletTiki.checkAndMintCitizenNfts cfg s kycStatuses accepts).citizenNft a).isSome =
      true :=
  citizenNft_walk cfg accepts _ s kycStatuses.sorted hi hroom
    (fun e he happ => haccepts e.1 (happ ▸ StorageMap.mem_entries.mp he)) a
    (.inl ⟨(a, .approved), StorageMap.mem_entries.mpr ha, rfl, rfl⟩)

end PalletTiki

namespace Pezkuwichain

open Bounded Machine IdentityKyc PalletTiki

variable {α : Type} [LinearOrder α] {cfg : PalletTiki.Config}

/-! ## The free items on every run -/

/-- Every call of the two pallets keeps the free items: the mints take the item at the counter,
and no other write touches the items or the counter. -/
theorem freshItems_citizenshipStep {s : Citizenship α} (hi : FreshItems s.tiki)
    (a : CitizenshipAction α) : FreshItems (citizenshipStep cfg s a).tiki := by
  cases a <;> simp only [citizenshipStep, Citizenship.tiki_withTiki, Citizenship.tiki_withKyc]
  case grantTiki | grantElectedRole | grantEarnedRole =>
    exact commit_bind_of_ok hi fun _ _ h => hi.grantRoleOfType cfg h
  case revokeTiki =>
    refine commit_bind_of_ok hi fun _ _ h => ?_
    obtain ⟨_, -, -, -, rfl⟩ := internalRevokeRole_ok h
    exact hi.of_frame rfl rfl
  case forceMintCitizenNft =>
    exact commit_bind_of_ok hi fun _ _ h => hi.mintCitizenNftForUser cfg h
  case applyForCitizenship =>
    refine commit_bind_of_ok hi fun _ _ h => ?_
    simp only [PalletTiki.applyForCitizenship, bind_eq_ok, ensure_eq_ok, exists_const] at h
    exact hi.mintCitizenNftForUser cfg h.2
  case onInitialize => exact hi.checkAndMintCitizenNfts cfg _ _
  case setIdentity | applyForKyc | rejectKyc | revokeKyc => exact hi
  case approveKyc origin who accepts =>
    -- the approval leaves the tiki storage to the mint of its hook
    refine commit_of_ok (P := fun c : Citizenship α => FreshItems c.tiki) hi fun c hc => ?_
    obtain ⟨kyc, -, rfl⟩ := map_eq_ok.mp hc
    exact commit_of_ok hi fun _ hmint => hi.mintCitizenNftForUser cfg hmint

theorem freshItems_of_reachable {s : Citizenship α}
    (hs : Reachable (citizenshipStep cfg) Citizenship.genesis s) : FreshItems s.tiki :=
  hs.invariant (P := fun c : Citizenship α => FreshItems c.tiki) freshItems_genesis
    fun _ a hi => freshItems_citizenshipStep hi a

/-- An account the KYC pallet approves has an entry at `Approved`: the default level is
`NotStarted`. -/
theorem get?_of_kycStatusOf_approved {k : IdentityKyc.State α} {a : α}
    (h : kycStatusOf k a = .approved) : k.kycStatuses.get? a = some .approved := by
  rw [kycStatusOf, StorageMap.getD] at h
  cases hget : k.kycStatuses.get? a with
  | none => rw [hget] at h; cases h
  | some level => rw [hget] at h; exact congrArg some h

/-- On every state the calls of the two pallets and tiki's block hook reach: when `pallet-nfts`
accepts the mints of the approved accounts without a citizenship NFT and `NextItemId` has room
for them below `u32::MAX`, the next run of the hook makes every account whose KYC is approved a
citizen. -/
theorem approved_citizens_after_hook {s : Citizenship α}
    (hs : Reachable (citizenshipStep cfg) Citizenship.genesis s) {accepts : α → Bool}
    (hroom : s.tiki.nextItemId + awaitingMint s.tiki s.kyc.kycStatuses.entries ≤ maxValue 32)
    (haccepts : ∀ a, kycStatusOf s.kyc a = .approved → s.tiki.citizenNft a = none →
      accepts a = true) :
    ∀ a, kycStatusOf s.kyc a = .approved →
      ((citizenshipStep cfg s (.onInitialize accepts)).tiki.citizenNft a).isSome = true := by
  intro a ha
  refine citizenNft_checkAndMintCitizenNfts cfg accepts (freshItems_of_reachable hs) hroom
    (fun b hb hnone => haccepts b ?_ hnone) (get?_of_kycStatusOf_approved ha)
  -- an entry at `Approved` is the level the KYC pallet reads
  rw [kycStatusOf, StorageMap.getD, hb]
  rfl

/-- Account `1` is approved, but `pallet-nfts` refuses the mint of the approval's hook. -/
def refusedMintState : Citizenship Nat :=
  run (citizenshipStep tikiConfig) Citizenship.genesis
    [.setIdentity (.signed 1), .applyForKyc (.signed 1) true, .approveKyc .root 1 false]

/-- In the next block the hook mints the NFT the approval could not. -/
theorem approved_citizens_after_refused_mint :
    refusedMintState.tiki.nextItemId +
        awaitingMint refusedMintState.tiki refusedMintState.kyc.kycStatuses.entries ≤
      maxValue 32 ∧
      kycStatusOf refusedMintState.kyc 1 = .approved ∧ refusedMintState.tiki.citizenNft 1 = none ∧
      ((citizenshipStep tikiConfig refusedMintState (.onInitialize fun _ => true)).tiki.citizenNft
        1).isSome = true := by
  have hroom : refusedMintState.tiki.nextItemId +
      awaitingMint refusedMintState.tiki refusedMintState.kyc.kycStatuses.entries ≤
        maxValue 32 := by
    decide
  exact ⟨hroom, by decide, by decide, approved_citizens_after_hook (reachable_run _) hroom
    (fun _ _ _ => rfl) 1 (by decide)⟩

end Pezkuwichain
