import Pezkuwi.PezRewards.Epochs

/-!
# PEZ rewards: each claim is paid once, and no epoch pays out more than its pool

A reward is claimed by one `claim_reward` call, which transfers it from the pot and emits
`RewardClaimed`; the payments of a run are read from the event log (`rewardsPaid`). Over every
run, the payments to a user for an epoch are exactly the `ClaimedRewards` entry of that user
and epoch, so there is at most one; each claimed amount is the epoch's reward per trust point
times the user's score, and the scores of a finalized epoch are frozen, so the claims of an
epoch add up to at most its pool (`rewardPerTrustPoint_mul_le`).

## Main definitions

* `rewardsPaid s who epoch`: the amounts of the `RewardClaimed` events paying `who` for `epoch`
* `ClaimInv`: the invariant relating claims, pools, scores and the event log

## Main results

* `claimInv_of_reachable`: every reachable state satisfies `EpochInv` and `ClaimInv`
* `claimed_within_epoch_pool`: in every reachable state each user is paid at most once per
  finalized epoch, and the claims of the epoch stay within its pool, computed from scores that
  no step changes any more
-/

namespace PezRewards

open Bounded Machine

variable {α : Type} [LinearOrder α] {cfg : Config α}

/-- The amount of a `RewardClaimed` event paying `who` for `epoch`. -/
def Event.rewardOf (who : α) (epoch : Nat) : Event α → Option Nat
  | .rewardClaimed user epochIndex amount =>
    if user = who ∧ epochIndex = epoch then some amount else none
  | _ => none

/-- The rewards paid to `who` for `epoch`, in the order of the event log. -/
def rewardsPaid (s : State α) (who : α) (epoch : Nat) : List Nat :=
  s.events.filterMap (Event.rewardOf who epoch)

/-- Events that pay no reward leave every `rewardsPaid` as it was. -/
theorem filterMap_rewardOf_append {evs : List (Event α)} (l : List (Event α))
    (h : ∀ ev ∈ evs, ∀ who epoch, ev.rewardOf who epoch = none) (who : α) (epoch : Nat) :
    (l ++ evs).filterMap (Event.rewardOf who epoch) = l.filterMap (Event.rewardOf who epoch) := by
  rw [List.filterMap_append, List.filterMap_eq_nil_iff.mpr fun ev hev => h ev hev who epoch,
    List.append_nil]

/-- What every reachable state knows about its claims. -/
structure ClaimInv (s : State α) : Prop where
  /-- A claimed reward is the reward per trust point of the epoch's pool times the score. -/
  claimed_eq : ∀ e u a, (s.claimedRewards e).get? u = some a →
    ∃ p sc, s.epochRewardPools.get? e = some p ∧ (s.userEpochScores e).get? u = some sc ∧
      a = p.rewardPerTrustPoint * sc
  /-- The log holds one payment per claimed reward, and no other. -/
  paid_eq : ∀ u e, rewardsPaid s u e = ((s.claimedRewards e).get? u).toList

variable {s s' : State α}

/-- `ClaimInv` survives a write that keeps the pools and the scores of the finalized epochs and
the claims, and logs no payment. -/
theorem ClaimInv.of_frame (hc : ClaimInv s)
    (hpools : ∀ e p, s.epochRewardPools.get? e = some p → s'.epochRewardPools.get? e = some p)
    (hscores : ∀ e p, s.epochRewardPools.get? e = some p →
      s'.userEpochScores e = s.userEpochScores e)
    (hclaimed : s'.claimedRewards = s.claimedRewards)
    (hevents : ∃ evs, s'.events = s.events ++ evs ∧
      ∀ ev ∈ evs, ∀ who epoch, ev.rewardOf who epoch = none) : ClaimInv s' := by
  obtain ⟨evs, hevs, hnone⟩ := hevents
  refine ⟨fun e u a ha => ?_, fun u e => ?_⟩
  · rw [hclaimed] at ha
    obtain ⟨p, sc, hp, hsc, rfl⟩ := hc.claimed_eq e u a ha
    exact ⟨p, sc, hpools e p hp, by rw [hscores e p hp]; exact hsc, rfl⟩
  · rw [rewardsPaid, hevs, filterMap_rewardOf_append _ hnone, hclaimed]
    exact hc.paid_eq u e

/-- The one write that pays: a claim records the reward it transfers and logs it. -/
theorem ClaimInv.doClaimReward (hc : ClaimInv s) {who : α} {epochIndex : Nat}
    (h : doClaimReward cfg s who epochIndex = .ok s') : ClaimInv s' := by
  obtain ⟨p, sc, pez, -, hnone, hp, -, hsc, -, -, -, rfl⟩ := doClaimReward_ok h
  refine ⟨fun e u a ha => ?_, fun u e => ?_⟩
  · by_cases he : e = epochIndex
    · subst he
      simp only [Function.update_self, StorageMap.get?_insert] at ha
      split_ifs at ha with hu
      · -- the entry just written
        subst hu
        exact ⟨p, sc, hp, hsc, (Option.some.inj ha).symm⟩
      · exact hc.claimed_eq e u a ha
    · simp only [Function.update_of_ne he] at ha
      exact hc.claimed_eq e u a ha
  · have hold := hc.paid_eq u e
    simp only [rewardsPaid, List.filterMap_append, List.filterMap_cons, List.filterMap_nil,
      Event.rewardOf] at hold ⊢
    rw [hold]
    by_cases he : e = epochIndex
    · subst he
      simp only [Function.update_self, StorageMap.get?_insert]
      by_cases hu : u = who
      · -- the claimed user: no earlier payment, now exactly this one
        subst hu
        simp [hnone]
      · simp [Ne.symm hu, hu]
    · simp [Function.update_of_ne he, Ne.symm he]

theorem claimInv_genesis (pez : Assets.Ledger α) : ClaimInv (genesis pez) where
  claimed_eq _ _ _ h := nomatch h
  paid_eq _ _ := rfl

theorem ClaimInv.step (hi : EpochInv s) (hc : ClaimInv s) (a : Action α) :
    ClaimInv (step cfg s a) := by
  cases a with
  | initializeRewardsSystem =>
    refine commit_of_ok hc fun s' h => ?_
    obtain ⟨-, rfl⟩ := doInitializeRewardsSystem_ok h
    exact hc.of_frame (fun _ _ h => h) (fun _ _ _ => rfl) rfl ⟨_, rfl, by simp [Event.rewardOf]⟩
  | recordTrustScore who trustScore =>
    refine commit_of_ok hc fun s' h => ?_
    obtain ⟨-, rfl⟩ := doRecordTrustScore_ok h
    -- the written epoch is the current one, which has no pool
    refine hc.of_frame (fun _ _ h => h) (fun e p hp => ?_) rfl
      ⟨_, rfl, by simp [Event.rewardOf]⟩
    exact Function.update_of_ne (hi.pool_lt e p hp).ne _ _
  | finalizeEpoch =>
    refine commit_of_ok hc fun s' h => ?_
    obtain ⟨pez, evs, -, -, -, -, hevs, rfl⟩ := doFinalizeEpoch_ok h
    refine hc.of_frame (fun e p hp => ?_) (fun _ _ _ => rfl) rfl
      ⟨_, List.append_assoc _ _ _, fun ev hev who epoch => ?_⟩
    · -- the new pool is for the current epoch, which had none
      rw [StorageMap.get?_insert, if_neg (hi.pool_lt e p hp).ne]
      exact hp
    · rcases List.mem_append.mp hev with hev | hev
      · obtain ⟨nftId, owner, r, rfl⟩ := hevs ev hev
        rfl
      · simp only [List.mem_cons, List.not_mem_nil, or_false] at hev
        rcases hev with rfl | rfl <;> rfl
  | claimReward who epochIndex => exact commit_of_ok hc fun _ h => hc.doClaimReward h
  | closeEpoch epochIndex =>
    refine commit_of_ok hc fun s' h => ?_
    obtain ⟨p, pez, -, -, -, rfl⟩ := doCloseEpoch_ok h
    exact hc.of_frame (fun _ _ h => h) (fun _ _ _ => rfl) rfl ⟨_, rfl, by simp [Event.rewardOf]⟩
  | registerParliamentaryNftOwner nftId owner =>
    exact hc.of_frame (fun _ _ h => h) (fun _ _ _ => rfl) rfl ⟨_, rfl, by simp [Event.rewardOf]⟩
  | depositToPot source amount =>
    simp only [PezRewards.step]
    split
    · exact hc.of_frame (fun _ _ h => h) (fun _ _ _ => rfl) rfl ⟨[], by simp, by simp⟩
    · exact hc
  | advance b =>
    simp only [PezRewards.step]
    split_ifs
    · exact hc.of_frame (fun _ _ h => h) (fun _ _ _ => rfl) rfl ⟨[], by simp, by simp⟩
    · exact hc

theorem claimInv_of_reachable {pez : Assets.Ledger α}
    (h : Reachable (step cfg) (genesis pez) s) : EpochInv s ∧ ClaimInv s := by
  -- `ClaimInv` is preserved only together with `EpochInv`
  induction h with
  | init => exact ⟨epochInv_genesis pez, claimInv_genesis pez⟩
  | step a _ ih => exact ⟨ih.1.step a, ih.2.step ih.1 a⟩

/-- The claims of a finalized epoch are at most its reward per trust point times the sum of
its scores. -/
theorem ClaimInv.sumBy_claimed_le (hc : ClaimInv s) {e : Nat} {p : EpochRewardPool}
    (hp : s.epochRewardPools.get? e = some p) :
    (s.claimedRewards e).sumBy (fun _ a => a) ≤
      p.rewardPerTrustPoint * (s.userEpochScores e).sumBy (fun _ v => v) := by
  rw [← StorageMap.sumBy_mul_left]
  refine StorageMap.sumBy_le_sumBy fun u a ha => ?_
  obtain ⟨p', sc, hp', hsc, rfl⟩ := hc.claimed_eq e u a ha
  -- the pool of the claim is the pool of the epoch
  obtain rfl : p' = p := Option.some.inj (hp'.symm.trans hp)
  exact ⟨sc, hsc, le_rfl⟩

/-- In every reachable state, for every epoch with a reward pool: the payments to each user
for the epoch are exactly its `ClaimedRewards` entry, so there is at most one; the claims add up
to at most the pool; and the epoch has left `Open`, no step changes its scores any more, and its
total trust score is still the (`u128`-saturating) sum of those scores. -/
theorem claimed_within_epoch_pool {pez : Assets.Ledger α}
    (hs : Reachable (step cfg) (genesis pez) s) {e : Nat} {p : EpochRewardPool}
    (hp : s.epochRewardPools.get? e = some p) :
    (∀ u, (rewardsPaid s u e).length ≤ 1 ∧
      rewardsPaid s u e = ((s.claimedRewards e).get? u).toList) ∧
    (s.claimedRewards e).sumBy (fun _ a => a) ≤ p.totalRewardPool ∧
    s.statusOf e ≠ .open ∧
    (∀ a, (step cfg s a).userEpochScores e = s.userEpochScores e) ∧
    p.totalTrustScore = min ((s.userEpochScores e).sumBy fun _ v => v) (maxValue 128) := by
  obtain ⟨hi, hc⟩ := claimInv_of_reachable hs
  have hleft := hi.statusOf_ne_open hp
  refine ⟨fun u => ⟨?_, hc.paid_eq u e⟩, ?_, hleft,
    fun a => userEpochScores_step_of_ne_open hleft a, ?_⟩
  · rw [hc.paid_eq u e]
    exact Option.length_toList_le
  · -- the pool is the one finalization computed from the frozen scores
    obtain ⟨P, b, hpool, -, -⟩ := hi.pool_eq e p hp
    calc (s.claimedRewards e).sumBy (fun _ a => a)
        ≤ p.rewardPerTrustPoint * (s.userEpochScores e).sumBy (fun _ v => v) :=
          hc.sumBy_claimed_le hp
      _ ≤ p.totalRewardPool := by
          rw [hpool]
          exact rewardPerTrustPoint_mul_le e P b _
  · obtain ⟨P, b, rfl, -, -⟩ := hi.pool_eq e p hp
    exact saturatingSum_eq_min _ _

/-- A chain with accounts `0` (the pot), `1` (the clawback recipient) and `2` (a user), and a
PEZ `min_balance` of 1 as in the runtime. -/
def sampleConfig : Config Nat := ⟨0, 1, 1⟩

/-- The pot holds 1000 PEZ. -/
def samplePez : Assets.Ledger Nat := ⟨(∅ : StorageMap Nat Nat).insert 0 1000, 1000⟩

/-- The user scores 10 in epoch 0 and claims its reward once epoch 0 is finalized. -/
def claimRun : List (Action Nat) :=
  [.initializeRewardsSystem, .recordTrustScore 2 10, .advance 432000, .finalizeEpoch,
    .claimReward 2 0]

theorem claimed_within_epoch_pool_sample :
    (run (step sampleConfig) (genesis samplePez) claimRun).epochRewardPools.get? 0 =
        some ⟨0, 900, 10, 90, 1, 532800⟩ ∧
      ((run (step sampleConfig) (genesis samplePez) claimRun).claimedRewards 0).sumBy
        (fun _ a => a) ≤ 900 := by
  have hp : (run (step sampleConfig) (genesis samplePez) claimRun).epochRewardPools.get? 0 =
      some ⟨0, 900, 10, 90, 1, 532800⟩ := by decide +kernel
  exact ⟨hp, (claimed_within_epoch_pool (reachable_run claimRun) hp).2.1⟩

end PezRewards
