import Pezkuwi.ValidatorPool.Calls
import Pezkuwi.Runtime.Citizenship
import Pezkuwi.Tiki.Registry
import Pezkuwi.Trust.Aggregate

/-!
# Admission to the validator pool across the runtime

The runtime answers the validator pool's three questions with adapters over other pallets:
`ValidatorPoolTrustAdapter` is `pallet-trust`'s `calculate_trust_score`, zero on an error;
`ValidatorPoolTikiAdapter` is `pallet-tiki`'s `get_tiki_score`, the sum of the bonuses of the
account's roles; `ValidatorPoolReferralAdapter` is `pallet-referral`'s `ReferralCount`. Admission
reads the tiki score only for being positive, and every citizen holds the `Welati` role, worth
10. So a fresh citizen with no other role is admitted as a parliamentary validator, and as a
merit validator for whatever tikis it lists; and the bounds of a stake validator are those the
caller writes into its own category (`admission_without_documented_requirements`).

## Main definitions

* `validatorPoolSources`: the three adapters of the runtime

## Main results

* `admission_without_documented_requirements`: a citizen with only the `Welati` role, no stake
  and no referrals admitted in all three categories
-/

namespace Pezkuwichain

open Machine PalletTiki

variable {α : Type} [LinearOrder α]

/-- The runtime's adapters for the validator pool. `referralCount` is the map the referral
adapter reads, `pallet-referral`'s `ReferralCount` (`Referral.State.referralCount`). -/
def validatorPoolSources (trustCfg : Trust.Config) (trustSrc : Trust.Sources α)
    (tiki : PalletTiki.State α) (referralCount : α → Nat) : ValidatorPool.Sources α where
  trustScoreOf who :=
    match Trust.calculateTrustScore trustCfg trustSrc who with
    | .ok score => score
    | .error _ => 0
  getTikiScore := getTikiScore tiki
  getReferralCount := referralCount

/-! ## A citizen admitted in every category -/

/-- Account `1` sets an identity and applies for KYC, and the root approves it: its citizenship
NFT is minted, with the `Welati` role. -/
def citizenState : Citizenship Nat :=
  run (citizenshipStep tikiConfig) Citizenship.genesis
    [.setIdentity (.signed 1), .applyForKyc (.signed 1) true, .approveKyc .root 1 true]

/-- What `pallet-trust` reads: the KYC levels of the run, and no stake, referrals, courses or
roles. -/
def unstakedSources : Trust.Sources Nat where
  kycStatuses := citizenState.kyc.kycStatuses
  stakingScore _ := 0
  referralScore _ := 0
  perwerdeScore _ := 0
  tikiScore _ := 0
  stakingScore_le _ := Nat.zero_le _
  referralScore_le _ := Nat.zero_le _
  perwerdeScore_le _ := Nat.zero_le _
  tikiScore_le _ := Nat.zero_le _

/-- What the validator pool reads through the runtime's adapters, with no referrals. -/
def citizenPoolSources : ValidatorPool.Sources Nat :=
  validatorPoolSources Trust.runtimeConfig unstakedSources citizenState.tiki fun _ => 0

/-- Account `1` joins the pool as a parliamentary validator. -/
def parliamentaryState : ValidatorPool.State Nat :=
  ValidatorPool.step ValidatorPool.runtimeConfig ValidatorPool.genesis
    (.joinValidatorPool (.signed 1) .parliamentaryValidator citizenPoolSources)

/-- Account `1` moves to the merit category, listing tiki `1`, `Parlementer`, and no referrals. -/
def meritState : ValidatorPool.State Nat :=
  ValidatorPool.step ValidatorPool.runtimeConfig parliamentaryState
    (.updateCategory (.signed 1) (.meritValidator [1] 0) citizenPoolSources)

/-- Account `1` moves to the stake category, writing the minimum stake and no trust threshold. -/
def stakeState : ValidatorPool.State Nat :=
  ValidatorPool.step ValidatorPool.runtimeConfig meritState
    (.updateCategory (.signed 1) (.stakeValidator (10_000 * 1_000_000_000_000) 0) citizenPoolSources)

/-- A citizen whose only role is `Welati`, with no `Parlementer` tiki, a trust score of zero and
no referrals, is admitted as a parliamentary validator, then as a merit validator listing the
`Parlementer` tiki, then as a stake validator. -/
theorem admission_without_documented_requirements :
    citizenState.tiki.userTikis 1 = [.welati] ∧
      citizenPoolSources.getTikiScore 1 = 10 ∧ citizenPoolSources.trustScoreOf 1 = 0 ∧
      citizenPoolSources.getReferralCount 1 = 0 ∧
      parliamentaryState.poolMembers.get? 1 = some .parliamentaryValidator ∧
      meritState.poolMembers.get? 1 = some (.meritValidator [1] 0) ∧
      stakeState.poolMembers.get? 1 = some (.stakeValidator (10_000 * 1_000_000_000_000) 0) := by
  decide +kernel

end Pezkuwichain
