import Pezkuwi.Tiki.Registry

/-!
# Citizenship and the KYC levels

`pallet-tiki` and `pallet-identity-kyc` each say who is a citizen: tiki by `CitizenNft`, the
KYC pallet by the level `Approved`. They agree in one direction only. Every path that mints a
citizenship NFT mints for an approved account, except the root's `force_mint_citizen_nft`, and
no call burns one; `revoke_kyc` writes the KYC level and nothing else. So on a run without forced
mints every citizen's level is `Approved` or `Revoked` (`citizen_kyc_approved_or_revoked`), and
one approval and one revocation leave a citizen whose level is `Revoked`
(`revoked_citizen_keeps_nft`).

## Main definitions

* `KycAgreement`: every citizen's KYC level is `Approved` or `Revoked`
* `NoForcedMint`: the runs in which the root forces no mint

## Main results

* `KycAgreement.citizenshipStep`: every call but a forced mint keeps the agreement
* `citizen_kyc_approved_or_revoked`: the agreement on every run without forced mints
* `revoked_citizen_keeps_nft`: a revoked citizen, and a forced citizen that never applied
-/

namespace Pezkuwichain

open Machine IdentityKyc PalletTiki

variable {α : Type} [LinearOrder α] {cfg : PalletTiki.Config}

/-- Every account with a citizenship NFT has KYC level `Approved` or `Revoked`. -/
def KycAgreement (s : Citizenship α) : Prop :=
  ∀ a, (s.tiki.citizenNft a).isSome = true →
    kycStatusOf s.kyc a = .approved ∨ kycStatusOf s.kyc a = .revoked

/-- Every citizen of the tiki storage `t` is a citizen of `s` already, or approved in `s`. -/
def CitizensApproved (s : Citizenship α) (t : PalletTiki.State α) : Prop :=
  ∀ a, (t.citizenNft a).isSome = true →
    (s.tiki.citizenNft a).isSome = true ∨ kycStatusOf s.kyc a = .approved

/-- The runs in which the root forces no citizenship mint. -/
def NoForcedMint : Citizenship α → CitizenshipAction α → Prop
  | _, .forceMintCitizenNft _ _ _ => False
  | _, _ => True

theorem kycAgreement_genesis : KycAgreement (Citizenship.genesis : Citizenship α) := by
  intro a ha
  simp [Citizenship.genesis, PalletTiki.genesis] at ha

namespace KycAgreement

variable {s : Citizenship α}

/-- An account the agreement covers is not at a level an application starts from or closes. -/
theorem not_citizen (hi : KycAgreement s) {who : α} {level : KycLevel}
    (hlevel : kycStatusOf s.kyc who = level) (happroved : level ≠ .approved)
    (hrevoked : level ≠ .revoked) : (s.tiki.citizenNft who).isSome = false := by
  by_contra hcit
  rcases hi who (Bool.not_eq_false _ ▸ hcit) with h | h
  · exact happroved (hlevel ▸ h)
  · exact hrevoked (hlevel ▸ h)

/-- A tiki call keeps the agreement when every citizen it makes is approved. -/
theorem withTiki (hi : KycAgreement s) {r : Except PalletTiki.Error (PalletTiki.State α)}
    (hr : ∀ t, r = .ok t → CitizensApproved s t) : KycAgreement (s.withTiki r) := by
  refine commit_of_ok hi fun c hc => ?_
  obtain ⟨t, ht, rfl⟩ := map_eq_ok.mp hc
  intro a ha
  rcases hr t ht a ha with hold | happroved
  · exact hi a hold
  · exact .inl happroved

/-- A write of one KYC level keeps the agreement when it leaves a citizen approved or revoked. -/
theorem of_kyc (hi : KycAgreement s) {k : IdentityKyc.State α} {who : α} {level : KycLevel}
    (hk : k.kycStatuses = s.kyc.kycStatuses.insert who level)
    (hwho : (s.tiki.citizenNft who).isSome = true → level = .approved ∨ level = .revoked) :
    KycAgreement { s with kyc := k } := by
  intro a ha
  dsimp only at ha ⊢
  rw [kycStatusOf_of_insert hk]
  split_ifs with haw
  · subst haw
    exact hwho ha
  · exact hi a ha

/-- An identity-kyc call keeps the agreement when each success does. -/
theorem withKyc (hi : KycAgreement s) {r : Except IdentityKyc.Error (IdentityKyc.State α)}
    (hr : ∀ k, r = .ok k → KycAgreement { s with kyc := k }) : KycAgreement (s.withKyc r) := by
  refine commit_of_ok hi fun c hc => ?_
  obtain ⟨k, hk, rfl⟩ := map_eq_ok.mp hc
  exact hr k hk

/-- The block hook mints for approved accounts only: each mint is for an entry of the KYC map
whose level is `Approved`. -/
theorem checkAndMintCitizenNfts (accepts : α → Bool) :
    CitizensApproved s (PalletTiki.checkAndMintCitizenNfts cfg s.tiki s.kyc.kycStatuses accepts) := by
  unfold PalletTiki.checkAndMintCitizenNfts
  -- the walk over a part of the KYC entries, from any state the earlier entries left
  have hwalk : ∀ (l : List (α × KycLevel)) (t : PalletTiki.State α),
      (∀ e ∈ l, e ∈ s.kyc.kycStatuses.entries) → CitizensApproved s t →
      CitizensApproved s (l.foldl (fun t entry =>
        if entry.2 = .approved ∧ t.citizenNft entry.1 = none then
          commit (mintCitizenNftForUser cfg t entry.1 (accepts entry.1)) t
        else t) t) := by
    intro l
    induction l with
    | nil => exact fun t _ ht => ht
    | cons entry rest ih =>
      intro t hl ht
      rw [List.foldl_cons]
      apply ih _ fun e he => hl e (List.mem_cons_of_mem _ he)
      split_ifs with hentry
      · refine commit_of_ok (P := CitizensApproved s) ht fun t' hmint b hb => ?_
        rcases citizenNft_mintCitizenNftForUser cfg hmint hb with rfl | hold
        · -- the entry is the account's own, at level `Approved`
          have hmem := StorageMap.mem_entries.mp (hl entry List.mem_cons_self)
          right
          rw [kycStatusOf, StorageMap.getD, hmem, ← hentry.1]
          rfl
        · exact ht b hold
      · exact ht
  exact hwalk _ _ (fun _ he => he) fun _ h => .inl h

/-- Every call but a forced mint keeps the agreement. A KYC application starts, and an approval
or a rejection closes one, only for an account that is not a citizen; an approval mints for the
account it approves, and a revocation leaves its citizen revoked. -/
theorem citizenshipStep (hi : KycAgreement s) {a : CitizenshipAction α} (ha : NoForcedMint s a) :
    KycAgreement (Pezkuwichain.citizenshipStep cfg s a) := by
  cases a with
  | grantTiki origin dest tiki | grantElectedRole origin dest tiki
  | grantEarnedRole origin dest tiki =>
    refine hi.withTiki fun t ht b hb => .inl ?_
    obtain ⟨_, -, hgrant⟩ := bind_eq_ok.mp ht
    rwa [citizenNft_grantRoleOfType cfg hgrant] at hb
  | revokeTiki origin target tiki =>
    refine hi.withTiki fun t ht b hb => .inl ?_
    obtain ⟨_, -, hrevoke⟩ := bind_eq_ok.mp ht
    rwa [citizenNft_internalRevokeRole hrevoke] at hb
  | forceMintCitizenNft origin dest accepts => exact absurd ha id
  | applyForCitizenship origin accepts =>
    refine hi.withTiki fun t ht b hb => ?_
    obtain ⟨who, -, happly⟩ := bind_eq_ok.mp ht
    simp only [PalletTiki.applyForCitizenship, bind_eq_ok, ensure_eq_ok, exists_const] at happly
    obtain ⟨happroved, hmint⟩ := happly
    rcases citizenNft_mintCitizenNftForUser cfg hmint hb with rfl | hold
    · exact .inr happroved
    · exact .inl hold
  | onInitialize accepts =>
    intro b hb
    rcases KycAgreement.checkAndMintCitizenNfts accepts b hb with hold | happroved
    · exact hi b hold
    · exact .inl happroved
  | setIdentity origin =>
    refine hi.withKyc fun k hk b hb => ?_
    obtain ⟨who, -, hset⟩ := bind_eq_ok.mp hk
    rw [show kycStatusOf k b = kycStatusOf s.kyc b by rw [kycStatusOf, setIdentity_ok hset]; rfl]
    exact hi b hb
  | applyForKyc origin reserved =>
    refine hi.withKyc fun k hk => ?_
    obtain ⟨who, -, happly⟩ := bind_eq_ok.mp hk
    obtain ⟨hstart, hk⟩ := applyForKyc_ok happly
    refine hi.of_kyc hk fun hcit => ?_
    rw [hi.not_citizen hstart (by decide) (by decide)] at hcit
    cases hcit
  | approveKyc origin who accepts =>
    refine commit_of_ok hi fun c hc => ?_
    obtain ⟨k, hk, rfl⟩ := map_eq_ok.mp hc
    obtain ⟨_, -, happrove⟩ := bind_eq_ok.mp hk
    obtain ⟨-, hk⟩ := closeApplication_ok happrove
    intro b hb
    dsimp only at hb ⊢
    rw [kycStatusOf_of_insert hk]
    split_ifs with hbw
    · exact .inl rfl
    · -- the hook's mint makes no citizen but the one approved
      have hold : (s.tiki.citizenNft b).isSome = true := by
        refine commit_of_ok (P := fun t : PalletTiki.State α =>
          (t.citizenNft b).isSome = true → (s.tiki.citizenNft b).isSome = true) id
          (fun t hmint hbt => ?_) hb
        exact (citizenNft_mintCitizenNftForUser cfg hmint hbt).resolve_left hbw
      exact hi b hold
  | rejectKyc origin who =>
    refine hi.withKyc fun k hk => ?_
    obtain ⟨_, -, hreject⟩ := bind_eq_ok.mp hk
    obtain ⟨hpending, hk⟩ := closeApplication_ok hreject
    refine hi.of_kyc hk fun hcit => ?_
    rw [hi.not_citizen hpending (by decide) (by decide)] at hcit
    cases hcit
  | revokeKyc origin who =>
    refine hi.withKyc fun k hk => ?_
    obtain ⟨_, -, hrevoke⟩ := bind_eq_ok.mp hk
    exact hi.of_kyc (revokeKyc_ok hrevoke).2 fun _ => .inr rfl

end KycAgreement

/-- On every run in which the root forces no mint, a citizen's KYC level is `Approved` or
`Revoked`: the KYC was approved once, and a citizen's KYC cannot start over. -/
theorem citizen_kyc_approved_or_revoked {s : Citizenship α}
    (hs : ReachableUnder NoForcedMint (citizenshipStep cfg) Citizenship.genesis s) {a : α}
    (ha : (s.tiki.citizenNft a).isSome = true) :
    kycStatusOf s.kyc a = .approved ∨ kycStatusOf s.kyc a = .revoked :=
  hs.invariant kycAgreement_genesis (fun _ _ hi hallowed => hi.citizenshipStep hallowed) a ha

/-! ## A revocation -/

/-- Account `1` sets an identity and applies; the root approves, which mints its citizenship NFT,
and then revokes the approval. -/
def revokeRun : List (CitizenshipAction Nat) :=
  [.setIdentity (.signed 1), .applyForKyc (.signed 1) true, .approveKyc .root 1 true,
    .revokeKyc .root 1]

def revokedState : Citizenship Nat :=
  run (citizenshipStep tikiConfig) Citizenship.genesis revokeRun

/-- The root forces a citizenship NFT on account `2`, which never applied for KYC. -/
def forcedState : Citizenship Nat :=
  run (citizenshipStep tikiConfig) Citizenship.genesis [.forceMintCitizenNft .root 2 true]

/-- After the revocation account `1` still holds its citizenship NFT and `Welati`, at KYC level
`Revoked`; after the forced mint account `2` is a citizen whose KYC has not started. -/
theorem revoked_citizen_keeps_nft :
    revokedState.tiki.citizenNft 1 = some 0 ∧ Tiki.welati ∈ revokedState.tiki.userTikis 1 ∧
      kycStatusOf revokedState.kyc 1 = .revoked ∧
      forcedState.tiki.citizenNft 2 = some 0 ∧ kycStatusOf forcedState.kyc 2 = .notStarted := by
  decide

theorem revokeRun_noForcedMint :
    ReachableUnder NoForcedMint (citizenshipStep tikiConfig) Citizenship.genesis revokedState :=
  reachableUnder_run_from .init revokeRun fun a ha _ => by
    simp only [revokeRun, List.mem_cons, List.not_mem_nil, or_false] at ha
    rcases ha with rfl | rfl | rfl | rfl <;> trivial

theorem citizen_kyc_after_revocation :
    (revokedState.tiki.citizenNft 1).isSome = true ∧
      (kycStatusOf revokedState.kyc 1 = .approved ∨ kycStatusOf revokedState.kyc 1 = .revoked) :=
  ⟨by decide, citizen_kyc_approved_or_revoked revokeRun_noForcedMint (by decide)⟩

end Pezkuwichain
