import Pezkuwi.Trust.Aggregate
import Pezkuwi.StakingScore.Model
import Pezkuwi.Tiki.Score
import Pezkuwi.Perwerde.Model

/-!
# Trust scores through the runtime's providers

The runtime binds `pallet-trust`'s four sources: `StakingScoreSource` is `pallet-staking-score`,
`ReferralProvider` gives ten points per `ReferralCount` of `pallet-referral` (saturating in
`u32`), `PerwerdeProvider` is `pallet-perwerde`'s `get_perwerde_score`, and `TikiProvider` is
`pallet-tiki`'s `get_tiki_score`; `CitizenshipProvider` reads the KYC level. Every step from the
inputs to the score is monotone: the staking score in the stake and the block number, the
referral points in the count, the tiki score in the set of roles held, and the trust formula in
its four components. So a citizen's trust score never falls when any of them grows
(`trust_score_monotone`).

## Main definitions

* `referralProviderScore`: `ReferralProvider::get_referral_score`
* `runtimeTrustSources`: what `calculate_trust_score` reads through the providers

## Main results

* `trust_score_monotone`: the staking score is at most 100, and the trust score is monotone in
  the stake, the block number, the referral count, the perwerde score and the set of roles
-/

namespace Pezkuwichain

open Bounded Machine StakingScore PalletTiki

variable {α : Type} [LinearOrder α]

/-- `ReferralProvider::get_referral_score`: ten points per referral, saturating in `u32`. -/
def referralProviderScore (referralCount : Nat) : Nat :=
  saturatingMul 32 referralCount 10

/-- What `calculate_trust_score` reads through the runtime's providers: the KYC levels,
`get_staking_score` over what the staking ledger reports at the current block, the referral
points of `ReferralCount`, the perwerde score and the tiki score. -/
def runtimeTrustSources (kyc : IdentityKyc.State α) (staking : StakingScore.State α)
    (stakingInfo : α → Option StakingDetails) (blockNumber : Nat) (referralCount : α → Nat)
    (perwerde : Perwerde.State α) (tiki : PalletTiki.State α) : Trust.Sources α where
  kycStatuses := kyc.kycStatuses
  stakingScore who := (getStakingScore staking stakingInfo blockNumber who).1
  referralScore who := referralProviderScore (referralCount who)
  perwerdeScore := Perwerde.getPerwerdeScore perwerde
  tikiScore := getTikiScore tiki
  stakingScore_le who := (getStakingScore_le staking stakingInfo blockNumber who).trans (by decide)
  referralScore_le _ := saturatingMul_le_maxValue ..
  perwerdeScore_le _ := wrappingSum_le_maxValue ..
  tikiScore_le _ := wrappingSum_le_maxValue ..

/-- The staking score never exceeds 100; and through the runtime's providers, with a nonzero
`ScoreMultiplierBase`, a citizen's trust score never falls when the stake the ledger reports, the
block number, its referral count, its perwerde score or its set of roles grows, each alone or
together. Roles are compared as sets, of lists without repetitions, as every reachable state of
`pallet-tiki` has them. -/
theorem trust_score_monotone (cfg : Trust.Config) (hbase : cfg.scoreMultiplierBase ≠ 0) :
    (∀ (staking : StakingScore.State α) stakingInfo blockNumber who,
      (getStakingScore staking stakingInfo blockNumber who).1 ≤ 100) ∧
    ∀ (kyc : IdentityKyc.State α) (staking : StakingScore.State α)
      (info₁ info₂ : α → Option StakingDetails) (b₁ b₂ : Nat) (count₁ count₂ : α → Nat)
      (perwerde₁ perwerde₂ : Perwerde.State α) (tiki₁ tiki₂ : PalletTiki.State α) (who : α),
      (∀ d₁, info₁ who = some d₁ →
        ∃ d₂, info₂ who = some d₂ ∧ d₁.stakedAmount ≤ d₂.stakedAmount) →
      b₁ ≤ b₂ → count₁ who ≤ count₂ who →
      Perwerde.getPerwerdeScore perwerde₁ who ≤ Perwerde.getPerwerdeScore perwerde₂ who →
      (tiki₁.userTikis who).Nodup → (tiki₂.userTikis who).Nodup →
      tiki₁.userTikis who ⊆ tiki₂.userTikis who →
      ∀ score₁, Trust.calculateTrustScore cfg
          (runtimeTrustSources kyc staking info₁ b₁ count₁ perwerde₁ tiki₁) who = .ok score₁ →
        ∃ score₂, Trust.calculateTrustScore cfg
            (runtimeTrustSources kyc staking info₂ b₂ count₂ perwerde₂ tiki₂) who = .ok score₂ ∧
          score₁ ≤ score₂ := by
  refine ⟨getStakingScore_le, ?_⟩
  intro kyc staking info₁ info₂ b₁ b₂ count₁ count₂ perwerde₁ perwerde₂ tiki₁ tiki₂ who hstake
    hblock hcount hperwerde hnodup₁ hnodup₂ htikis score₁ h₁
  -- each provider is monotone in its own input, and the formula in the four components
  refine Trust.calculateTrustScore_mono cfg hbase ?_ (getStakingScore_mono staking hstake hblock)
    (saturatingMul_le_saturatingMul hcount le_rfl) hperwerde
    (getTikiScore_le_of_subset hnodup₁ hnodup₂ htikis) h₁
  -- both read the same KYC levels
  rfl

/-! ## A citizen with a growing stake -/

/-- Account `1` is KYC-approved, with an identity and no application left. -/
def approvedKyc : IdentityKyc.State Nat :=
  ⟨fun a => a = 1, StorageMap.empty.insert 1 .approved, fun _ => false⟩

/-- The ledger reports a stake of `hez` whole HEZ for every account. -/
def stakeOf (hez : Nat) : Nat → Option StakingDetails :=
  fun _ => some ⟨hez * units⟩

/-- Account `1` with 100 HEZ, then with 1000 HEZ twelve months later, having started tracking at
genesis: its trust score goes from 40 to 1000. -/
theorem trust_score_monotone_for_staker :
    (getStakingScore (⟨StorageMap.empty.insert 1 0⟩ : StakingScore.State Nat) (stakeOf 1000)
      (12 * monthInBlocks) 1).1 ≤ 100 ∧
    ∃ score₂, Trust.calculateTrustScore Trust.runtimeConfig
        (runtimeTrustSources approvedKyc ⟨StorageMap.empty.insert 1 0⟩ (stakeOf 1000)
          (12 * monthInBlocks) (fun _ => 0) Perwerde.genesis PalletTiki.genesis) 1 = .ok score₂ ∧
      40 ≤ score₂ :=
  ⟨(trust_score_monotone Trust.runtimeConfig (by decide)).1 _ _ _ _,
    (trust_score_monotone Trust.runtimeConfig (by decide)).2 approvedKyc
      ⟨StorageMap.empty.insert 1 0⟩ (stakeOf 100) (stakeOf 1000) 0 (12 * monthInBlocks)
      (fun _ => 0) (fun _ => 0) Perwerde.genesis Perwerde.genesis PalletTiki.genesis
      PalletTiki.genesis 1 (fun _ h => ⟨_, rfl, by cases h; decide⟩) (by decide) le_rfl le_rfl
      List.nodup_nil List.nodup_nil (List.Subset.refl _) 40 (by decide)⟩

example : Trust.calculateTrustScore Trust.runtimeConfig
    (runtimeTrustSources approvedKyc ⟨StorageMap.empty.insert 1 0⟩ (stakeOf 1000)
      (12 * monthInBlocks) (fun _ => 0) Perwerde.genesis PalletTiki.genesis) 1 = .ok 1000 := by
  decide

end Pezkuwichain
