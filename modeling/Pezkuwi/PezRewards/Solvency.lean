import Pezkuwi.PezRewards.Claims

/-!
# PEZ rewards: does the incentive pot hold what can still be claimed?

The pot is one account shared by every epoch. What the users can still claim is, for each epoch
in `ClaimPeriod` before its deadline, the reward per trust point times each recorded score that
has not been claimed (`outstanding`); the pot is solvent when it holds at least that much.

`close_epoch(e)` sends the whole pot to the clawback recipient, whatever epoch the balance is
for. An epoch can be closed after the next epoch was finalized, and then the claims of the
next epoch, whose window is open, are left with an empty pot: solvency fails on a run of
eight steps (`incentivePot_insolvent_after_late_close`). It holds on every run in which an
epoch is closed only while no other epoch's window is open (`CloseAllowed`), when the PEZ
asset's `min_balance` is at most one (the runtime creates PEZ with `min_balance = 1`), so that
transfers out of the pot take exactly their amount:

* finalization moves at most 10% of the pot to the parliamentary NFT owners and sets the
  reward per trust point so that the epoch's scores take at most 90% of it, while the windows
  of the older epochs have passed (an epoch lasts longer than a claim window);
* a claim pays from the pot what it removes from `outstanding`;
* a deposit or a later block only raises the pot or closes windows.

## Main definitions

* `WindowOpen s e`: `claim_reward` for `e` passes its status and deadline checks
* `owed`, `unclaimedOf`, `outstanding`: what can still be claimed, per epoch and in all
* `Solvent cfg s`: the pot holds `outstanding s`
* `CloseAllowed`: `close_epoch` is called only while no other window is open

## Main results

* `incentivePot_insolvent_after_late_close`: a reachable state where the pot is not solvent
* `incentivePot_solvent`: solvency along the runs that close epochs only while no other window
  is open
-/

namespace PezRewards

open Bounded Machine

variable {α : Type} [LinearOrder α]

/-- The claim window of epoch `e` is open: `claim_reward` for `e` passes its status and deadline
checks. -/
def WindowOpen (s : State α) (e : Nat) : Prop :=
  s.statusOf e = .claimPeriod ∧
    ∃ p, s.epochRewardPools.get? e = some p ∧ s.blockNumber ≤ p.claimDeadline

/-- What is still owed on the scores of one epoch at `rewardPerTrustPoint` a point, given the
claims made. -/
def owed (rewardPerTrustPoint : Nat) (scores claimed : StorageMap α Nat) : Nat :=
  scores.sumBy fun u sc => if claimed.get? u = none then rewardPerTrustPoint * sc else 0

/-- The rewards the users can still claim for epoch `e`. -/
def unclaimedOf (s : State α) (e : Nat) : Nat :=
  match s.epochRewardPools.get? e with
  | some p =>
    if s.statusOf e = .claimPeriod ∧ s.blockNumber ≤ p.claimDeadline then
      owed p.rewardPerTrustPoint (s.userEpochScores e) (s.claimedRewards e)
    else 0
  | none => 0

/-- All the rewards the users can still claim. -/
def outstanding (s : State α) : Nat :=
  s.epochRewardPools.sumBy fun e _ => unclaimedOf s e

variable (cfg : Config α)

/-- The incentive pot holds every reward that can still be claimed. -/
def Solvent (s : State α) : Prop :=
  outstanding s ≤ s.pez.balance cfg.incentivePot

instance (s : State α) : Decidable (Solvent cfg s) :=
  inferInstanceAs (Decidable (_ ≤ _))

/-! ## A late close empties the pot under an open window

With the pot at 1000, one user scores 10 in epochs 0 and 1. Epoch 0 is finalized at block
432000 (its window ends at 532800) and epoch 1 at block 864000 (its window ends at 964800);
each time 90% of the pot is set aside for the scores, 90 a point. Closing epoch 0 at block
864000 then sweeps the whole pot, and the user's 900 of epoch 1 are no longer backed. -/

def lateCloseRun : List (Action Nat) :=
  [.initializeRewardsSystem, .recordTrustScore 2 10, .advance 432000, .finalizeEpoch,
    .recordTrustScore 2 10, .advance 864000, .finalizeEpoch, .closeEpoch 0]

theorem incentivePot_insolvent_after_late_close :
    ∃ s, Reachable (step sampleConfig) (genesis samplePez) s ∧
      ¬ Solvent sampleConfig s :=
  ⟨_, reachable_run lateCloseRun, by decide⟩

/-- The runs of the amended claim: `close_epoch(e)` is called only while no other epoch's claim
window is open. -/
def CloseAllowed (s : State α) : Action α → Prop
  | .closeEpoch e => ∀ e', e' ≠ e → ¬ WindowOpen s e'
  | _ => True

/-! ## What is owed -/

section Owed

variable {cfg}

theorem owed_le (r : Nat) (scores claimed : StorageMap α Nat) :
    owed r scores claimed ≤ r * scores.sumBy (fun _ v => v) := by
  rw [owed, ← StorageMap.sumBy_mul_left]
  refine StorageMap.sumBy_le_sumBy fun u sc hsc => ⟨sc, hsc, ?_⟩
  split_ifs
  · exact le_rfl
  · exact Nat.zero_le _

/-- Claiming the reward of an unclaimed score removes it from what is owed. -/
theorem owed_claim {r : Nat} {scores claimed : StorageMap α Nat} {u : α} {sc a : Nat}
    (hsc : scores.get? u = some sc) (hnone : claimed.get? u = none) :
    owed r scores (claimed.insert u a) + r * sc = owed r scores claimed := by
  -- the terms of the two sums differ at `u` only
  have h : scores.sumBy (fun u' sc' => if (claimed.insert u a).get? u' = none then r * sc' else 0)
        + (if claimed.get? u = none then r * sc else 0) =
      scores.sumBy (fun u' sc' => if claimed.get? u' = none then r * sc' else 0)
        + (if (claimed.insert u a).get? u = none then r * sc else 0) := by
    apply StorageMap.sumBy_update hsc
    intro u' hu'
    funext sc'
    rw [StorageMap.get?_insert claimed u a u', if_neg hu']
  rw [hnone, if_pos rfl, StorageMap.get?_insert claimed u a u, if_pos rfl,
    if_neg (Option.some_ne_none a), Nat.add_zero] at h
  exact h

theorem unclaimedOf_of_none {s : State α} {e : Nat} (h : s.epochRewardPools.get? e = none) :
    unclaimedOf s e = 0 := by
  rw [unclaimedOf, h]

theorem unclaimedOf_le_owed {s : State α} {e : Nat} {p : EpochRewardPool}
    (hp : s.epochRewardPools.get? e = some p) :
    unclaimedOf s e ≤ owed p.rewardPerTrustPoint (s.userEpochScores e) (s.claimedRewards e) := by
  rw [unclaimedOf, hp]
  dsimp only
  split_ifs
  · exact le_rfl
  · exact Nat.zero_le _

theorem unclaimedOf_eq_zero {s : State α} {e : Nat} (h : ¬ WindowOpen s e) :
    unclaimedOf s e = 0 := by
  unfold unclaimedOf
  split
  · rename_i p hp
    rw [if_neg fun hw => h ⟨hw.1, p, hp, hw.2⟩]
  · rfl

theorem unclaimedOf_of_windowOpen {s : State α} {e : Nat} {p : EpochRewardPool}
    (hp : s.epochRewardPools.get? e = some p) (hstatus : s.statusOf e = .claimPeriod)
    (hdeadline : s.blockNumber ≤ p.claimDeadline) :
    unclaimedOf s e = owed p.rewardPerTrustPoint (s.userEpochScores e) (s.claimedRewards e) := by
  rw [unclaimedOf, hp]
  exact if_pos ⟨hstatus, hdeadline⟩

/-- What can be claimed for an epoch does not grow when only time passes: the pools, the
epoch's status, scores and claims are kept and the block number grows. -/
theorem unclaimedOf_le_of_frame {s s' : State α} {e : Nat}
    (hpools : s'.epochRewardPools = s.epochRewardPools) (hstatus : s'.statusOf e = s.statusOf e)
    (hscores : s'.userEpochScores e = s.userEpochScores e)
    (hclaimed : s'.claimedRewards e = s.claimedRewards e)
    (hblock : s.blockNumber ≤ s'.blockNumber) : unclaimedOf s' e ≤ unclaimedOf s e := by
  unfold unclaimedOf
  rw [hpools, hstatus, hscores, hclaimed]
  split
  · split_ifs with h' h
    · exact le_rfl
    · exact absurd ⟨h'.1, hblock.trans h'.2⟩ h
    · exact Nat.zero_le _
    · exact le_rfl
  · exact le_rfl

theorem unclaimedOf_congr {s s' : State α} {e : Nat}
    (hpools : s'.epochRewardPools = s.epochRewardPools) (hstatus : s'.statusOf e = s.statusOf e)
    (hscores : s'.userEpochScores e = s.userEpochScores e)
    (hclaimed : s'.claimedRewards e = s.claimedRewards e)
    (hblock : s'.blockNumber = s.blockNumber) : unclaimedOf s' e = unclaimedOf s e := by
  unfold unclaimedOf
  rw [hpools, hstatus, hscores, hclaimed, hblock]

theorem Solvent.of_outstanding_eq_zero {s : State α} (h : outstanding s = 0) : Solvent cfg s := by
  unfold Solvent
  rw [h]
  exact Nat.zero_le _

/-- A write that keeps the pools and makes no epoch owe more keeps a pot that does not shrink
solvent. -/
theorem Solvent.of_le {s s' : State α} (hs : Solvent cfg s)
    (hpools : s'.epochRewardPools = s.epochRewardPools)
    (hun : ∀ e, unclaimedOf s' e ≤ unclaimedOf s e)
    (hpot : s.pez.balance cfg.incentivePot ≤ s'.pez.balance cfg.incentivePot) :
    Solvent cfg s' := by
  have hout : outstanding s' ≤ outstanding s := by
    rw [outstanding, outstanding, hpools]
    exact StorageMap.sumBy_le_sumBy fun e p hp => ⟨p, hp, hun e⟩
  exact hout.trans (hs.trans hpot)

end Owed

/-! ## Each step keeps the pot solvent -/

section Steps

variable {cfg} {s s' : State α}

theorem Solvent.doInitializeRewardsSystem (hi : EpochInv s)
    (h : doInitializeRewardsSystem s = .ok s') : Solvent cfg s' := by
  obtain ⟨hnone, hs'⟩ := doInitializeRewardsSystem_ok h
  -- before the first initialization there is no pool, so nothing is owed
  have hnopool : ∀ e, s'.epochRewardPools.get? e = none := fun e => by
    rw [hs']
    rcases hp : s.epochRewardPools.get? e with _ | p
    · rfl
    · have := hi.pool_lt e p hp
      rw [epochData_of_epochInfo_none hnone] at this
      exact absurd this (Nat.not_lt_zero e)
  exact Solvent.of_outstanding_eq_zero
    (StorageMap.sumBy_eq_zero fun e p hp => nomatch (hnopool e).symm.trans hp)

theorem Solvent.doRecordTrustScore (hi : EpochInv s) (hs : Solvent cfg s) {who : α}
    {trustScore : Nat} (h : doRecordTrustScore s who trustScore = .ok s') : Solvent cfg s' := by
  obtain ⟨-, hs'⟩ := doRecordTrustScore_ok h
  have hpools : s'.epochRewardPools = s.epochRewardPools := by rw [hs']
  refine hs.of_le hpools (fun e => ?_) (by rw [hs'])
  by_cases he : e = s.epochData.currentEpoch
  · -- the written epoch is the current one, which has no pool yet
    have hnone : s'.epochRewardPools.get? e = none := by
      rw [hpools]
      rcases hp : s.epochRewardPools.get? e with _ | p
      · rfl
      · exact absurd (hi.pool_lt e p hp) (by omega)
    rw [unclaimedOf_of_none hnone]
    exact Nat.zero_le _
  · exact (unclaimedOf_congr hpools (by rw [hs']; rfl)
      (by rw [hs']; exact Function.update_of_ne he _ _) (by rw [hs']) (by rw [hs'])).le

/-- Finalization leaves the new epoch owing at most 90% of the pot, after paying at most 10%
of it to the parliamentary NFT owners, and the windows of the older epochs have passed. -/
theorem Solvent.doFinalizeEpoch (hmin : cfg.minBalance ≤ 1) (hi : EpochInv s)
    (h : doFinalizeEpoch cfg s = .ok s') : Solvent cfg s' := by
  obtain ⟨pez, evs, hblocks, -, -, hdist, -, hs'⟩ := doFinalizeEpoch_ok h
  set cur := s.epochData.currentEpoch with hcur
  set P := s.pez.balance cfg.incentivePot with hP
  set pool := rewardPoolOf cur P s.blockNumber (s.userEpochScores cur) with hpool
  have hpools : s'.epochRewardPools = s.epochRewardPools.insert cur pool := by rw [hs']
  have hblock : s'.blockNumber = s.blockNumber := by rw [hs']
  -- an older epoch was finalized before the current one started, a whole epoch ago
  have hold : ∀ e p, s'.epochRewardPools.get? e = some p → e ≠ cur → unclaimedOf s' e = 0 := by
    intro e p hp hne
    rw [hpools, StorageMap.get?_insert, if_neg hne] at hp
    obtain ⟨P', b, rfl, hb, -⟩ := hi.pool_eq e p hp
    refine unclaimedOf_eq_zero fun ⟨_, p', hp', hdl⟩ => ?_
    rw [hpools, StorageMap.get?_insert, if_neg hne, hp] at hp'
    obtain rfl := Option.some.inj hp'
    have hdeadline : (rewardPoolOf e P' b (s.userEpochScores e)).claimDeadline ≤
        b + claimPeriodBlocks := saturatingAdd_le_add _ _ _
    have hstart := hi.start_le_block
    rw [blocksPerEpoch_eq] at hblocks
    rw [claimPeriodBlocks_eq] at hdeadline
    rw [hblock] at hdl
    omega
  -- so only the new epoch owes anything, at most its pool
  have hout : outstanding s' = unclaimedOf s' cur := by
    rw [outstanding, StorageMap.sumBy_eq_single cur hold, hpools, StorageMap.get?_insert,
      if_pos rfl]
    rfl
  have hnew : unclaimedOf s' cur ≤ pool.totalRewardPool := by
    have hp' : s'.epochRewardPools.get? cur = some pool := by
      rw [hpools, StorageMap.get?_insert, if_pos rfl]
    have hscores : s'.userEpochScores = s.userEpochScores := by rw [hs']
    calc unclaimedOf s' cur
        ≤ owed pool.rewardPerTrustPoint (s'.userEpochScores cur) (s'.claimedRewards cur) :=
          unclaimedOf_le_owed hp'
      _ ≤ pool.rewardPerTrustPoint * (s'.userEpochScores cur).sumBy (fun _ v => v) :=
          owed_le _ _ _
      _ ≤ pool.totalRewardPool := by
          rw [hscores]
          exact rewardPerTrustPoint_mul_le _ _ _ _
  -- the payouts took at most 201 times the reward per NFT from the pot
  have hpay := balance_pot_payParliamentaryNftOwners hmin hdist
  have hpez : s'.pez = pez := by rw [hs']
  have hshare := Nat.div_mul_le_self (wrappingMul 128 P parliamentaryRewardPercent / 100)
    parliamentaryNftCount
  have h90 := wrappingMul_le 128 P 90
  have h10 := wrappingMul_le 128 P parliamentaryRewardPercent
  simp only [List.length_range'] at hpay
  unfold Solvent
  rw [hout, hpez]
  simp only [hpool, rewardPoolOf] at hnew
  simp only [parliamentaryRewardPercent, parliamentaryNftCount] at hpay hshare h10
  omega

/-- A claim pays from the pot exactly what it removes from what is owed. -/
theorem Solvent.doClaimReward (hmin : cfg.minBalance ≤ 1) (hs : Solvent cfg s) {who : α}
    {epochIndex : Nat} (h : doClaimReward cfg s who epochIndex = .ok s') : Solvent cfg s' := by
  obtain ⟨p, sc, pez, hstatus, hnone, hp, hdl, hsc, -, -, htransfer, hs'⟩ := doClaimReward_ok h
  have hpools : s'.epochRewardPools = s.epochRewardPools := by rw [hs']
  -- the claimed epoch owes the reward less, ...
  have hclaimed : unclaimedOf s' epochIndex + p.rewardPerTrustPoint * sc =
      unclaimedOf s epochIndex := by
    rw [unclaimedOf_of_windowOpen hp hstatus hdl,
      unclaimedOf_of_windowOpen (by rw [hpools]; exact hp) (by rw [hs']; exact hstatus)
        (by rw [hs']; exact hdl), hs']
    simp only [Function.update_self]
    exact owed_claim hsc hnone
  -- ... and the other epochs owe what they owed
  have hsum : outstanding s' + unclaimedOf s epochIndex =
      outstanding s + unclaimedOf s' epochIndex := by
    rw [outstanding, outstanding, hpools]
    apply StorageMap.sumBy_update hp
    intro e he
    funext p'
    exact unclaimedOf_congr hpools (by rw [hs']; rfl) (by rw [hs'])
      (by rw [hs']; exact Function.update_of_ne he _ _) (by rw [hs'])
  have hpot := Assets.balance_source_le_transfer cfg.minBalance hmin htransfer
  have hpez : s'.pez = pez := by rw [hs']
  unfold Solvent at hs ⊢
  rw [hpez]
  omega

/-- Closing an epoch while no other window is open leaves nothing owed. -/
theorem Solvent.doCloseEpoch {epochIndex : Nat}
    (hallowed : ∀ e, e ≠ epochIndex → ¬ WindowOpen s e)
    (h : doCloseEpoch cfg s epochIndex = .ok s') : Solvent cfg s' := by
  obtain ⟨p, pez, -, -, -, hs'⟩ := doCloseEpoch_ok h
  refine Solvent.of_outstanding_eq_zero
    (StorageMap.sumBy_eq_zero fun e _ _ => unclaimedOf_eq_zero ?_)
  rintro ⟨hstatus, hw⟩
  rw [hs'] at hstatus hw
  by_cases he : e = epochIndex
  · -- the closed epoch is `Closed` now
    subst he
    simp [State.statusOf] at hstatus
  · exact hallowed e he ⟨by simpa [State.statusOf, he] using hstatus, hw⟩

theorem Solvent.step (hmin : cfg.minBalance ≤ 1) (hi : EpochInv s) (hs : Solvent cfg s)
    {a : Action α} (ha : CloseAllowed s a) : Solvent cfg (step cfg s a) := by
  cases a with
  | initializeRewardsSystem =>
    exact commit_of_ok hs fun _ h => Solvent.doInitializeRewardsSystem hi h
  | recordTrustScore who trustScore =>
    exact commit_of_ok hs fun _ h => Solvent.doRecordTrustScore hi hs h
  | finalizeEpoch => exact commit_of_ok hs fun _ h => Solvent.doFinalizeEpoch hmin hi h
  | claimReward who epochIndex => exact commit_of_ok hs fun _ h => Solvent.doClaimReward hmin hs h
  | closeEpoch epochIndex => exact commit_of_ok hs fun _ h => Solvent.doCloseEpoch ha h
  | registerParliamentaryNftOwner nftId owner =>
    exact hs.of_le rfl (fun e => (unclaimedOf_congr rfl rfl rfl rfl rfl).le) le_rfl
  | depositToPot source amount =>
    simp only [PezRewards.step]
    split
    · -- a deposit never lowers the pot
      rename_i pez htransfer
      exact hs.of_le rfl (fun e => (unclaimedOf_congr rfl rfl rfl rfl rfl).le)
        (Assets.balance_dest_le_transfer cfg.minBalance htransfer)
    · exact hs
  | advance b =>
    simp only [PezRewards.step]
    split_ifs with hb
    · -- a later block closes windows and opens none
      exact hs.of_le rfl (fun e => unclaimedOf_le_of_frame rfl rfl rfl rfl hb.1) le_rfl
    · exact hs

end Steps

/-! ## Solvency over runs -/

/-- Over every run that closes an epoch only while no other epoch's claim window is open, and
with a PEZ `min_balance` of at most one, the incentive pot holds every reward that can still be
claimed. -/
theorem incentivePot_solvent (hmin : cfg.minBalance ≤ 1) {pez : Assets.Ledger α} {s : State α}
    (hs : ReachableUnder CloseAllowed (step cfg) (genesis pez) s) : Solvent cfg s := by
  induction hs with
  | init => exact Solvent.of_outstanding_eq_zero rfl
  | step a hreach hallowed ih =>
    exact ih.step hmin (epochInv_of_reachable hreach.reachable) hallowed

/-- The user's epoch 0 is finalized and its 900 claimed: the pot still backs what is owed. -/
theorem incentivePot_solvent_after_claim :
    sampleConfig.minBalance ≤ 1 ∧
      ((run (step sampleConfig) (genesis samplePez) claimRun).claimedRewards 0).get? 2 =
        some 900 ∧
      Solvent sampleConfig (run (step sampleConfig) (genesis samplePez) claimRun) := by
  -- no step of the run closes an epoch
  have hreach : ReachableUnder CloseAllowed (step sampleConfig) (genesis samplePez)
      (run (step sampleConfig) (genesis samplePez) claimRun) := by
    refine reachableUnder_run_from .init claimRun fun a ha t => ?_
    simp only [claimRun, List.mem_cons, List.not_mem_nil, or_false] at ha
    rcases ha with rfl | rfl | rfl | rfl | rfl <;> trivial
  exact ⟨by decide, by decide +kernel, incentivePot_solvent sampleConfig (by decide) hreach⟩

end PezRewards
