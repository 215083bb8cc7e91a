import Pezkuwi.PezRewards.Model

/-!
# PEZ rewards: what each call does, and the invariant of the epochs

Each call of the pallet is peeled once into its guards and its writes (`*_ok`); every
invariant of the runs is then proved from these lemmas, never from the calls' bodies.

The invariant `EpochInv` is what every reachable state knows about its epochs: the epoch
counter keeps pace with the block number (one epoch takes `BLOCKS_PER_EPOCH` blocks, so the
counter never saturates), every epoch from the current one on is `Open` (the default of
`EpochStatus`), and a reward pool exists only for an epoch that was finalized, recording what
`do_finalize_epoch` computed from the scores that are still stored for it. The scores of such
an epoch never change again, since `record_trust_score` writes only into the current epoch.

## Main definitions

* `EpochInv`: the invariant of the epochs

## Main results

* `doFinalizeEpoch_ok`, `doClaimReward_ok`, `doCloseEpoch_ok`, ...: what a successful call
  checked and wrote
* `epochInv_of_reachable`: every reachable state satisfies `EpochInv`
* `userEpochScores_step_of_pool`: a step leaves the scores of a finalized epoch as they were
* `rewardPerTrustPoint_mul_le`: paying every score of an epoch its reward per trust point
  takes at most the epoch's pool
-/

namespace PezRewards

open Bounded Machine

variable {α : Type} [LinearOrder α] (cfg : Config α)

theorem blocksPerEpoch_eq : blocksPerEpoch = 432000 := rfl

theorem claimPeriodBlocks_eq : claimPeriodBlocks = 100800 := rfl

/-! ## What a successful call does -/

section Calls

variable {cfg} {s s' : State α}

theorem doInitializeRewardsSystem_ok (h : doInitializeRewardsSystem s = .ok s') :
    s.epochInfo = none ∧ s' = { s with
      epochInfo := some ⟨0, s.blockNumber, 0⟩
      epochStatus := s.epochStatus.insert 0 .open
      events := s.events ++ [.newEpochStarted 0 s.blockNumber] } := by
  unfold doInitializeRewardsSystem at h
  split_ifs at h with hinit
  exact ⟨Option.not_isSome_iff_eq_none.mp hinit, (Except.ok.inj h).symm⟩

theorem doRecordTrustScore_ok {who : α} {trustScore : Nat}
    (h : doRecordTrustScore s who trustScore = .ok s') :
    s.statusOf s.epochData.currentEpoch = .open ∧ s' = { s with
      userEpochScores := Function.update s.userEpochScores s.epochData.currentEpoch
        ((s.userEpochScores s.epochData.currentEpoch).insert who trustScore)
      events := s.events ++ [.trustScoreRecorded who s.epochData.currentEpoch trustScore] } := by
  simp only [doRecordTrustScore] at h
  split_ifs at h with hopen
  exact ⟨not_not.mp hopen, (Except.ok.inj h).symm⟩

/-- The parliamentary payouts move PEZ and log one event per payment, and write nothing
else. -/
theorem payParliamentaryNftOwners_ok {epoch perNftReward : Nat} :
    ∀ {ids : List Nat} {s s' : State α},
      payParliamentaryNftOwners cfg epoch perNftReward ids s = .ok s' →
      ∃ (pez : Assets.Ledger α) (evs : List (Event α)),
        s' = { s with pez := pez, events := s.events ++ evs } ∧
        ∀ ev ∈ evs, ∃ nftId owner,
          ev = .parliamentaryNftRewardDistributed nftId owner perNftReward epoch
  | [], s, s', h => by
    refine ⟨s.pez, [], ?_, by simp⟩
    rw [← Except.ok.inj h]
    simp
  | nftId :: rest, s, s', h => by
    rw [payParliamentaryNftOwners] at h
    split at h
    · -- no owner registered for this id: nothing is paid
      exact payParliamentaryNftOwners_ok h
    · rename_i owner _
      split at h
      · cases h
      · rename_i pez₁ _
        obtain ⟨pez, evs, rfl, hevs⟩ := payParliamentaryNftOwners_ok h
        refine ⟨pez, .parliamentaryNftRewardDistributed nftId owner perNftReward epoch :: evs,
          by simp, ?_⟩
        rintro ev (_ | ⟨_, hev⟩)
        · exact ⟨nftId, owner, rfl⟩
        · exact hevs ev hev

/-- Under a minimum balance of at most one each payout takes at most its reward from the pot. -/
theorem balance_pot_payParliamentaryNftOwners (hmin : cfg.minBalance ≤ 1)
    {epoch perNftReward : Nat} : ∀ {ids : List Nat} {s s' : State α},
      payParliamentaryNftOwners cfg epoch perNftReward ids s = .ok s' →
      s.pez.balance cfg.incentivePot ≤ s'.pez.balance cfg.incentivePot + perNftReward * ids.length
  | [], s, s', h => by
    rw [← Except.ok.inj h]
    simp
  | nftId :: rest, s, s', h => by
    rw [payParliamentaryNftOwners] at h
    split at h
    · have := balance_pot_payParliamentaryNftOwners hmin h
      rw [List.length_cons, Nat.mul_succ]
      omega
    · split at h
      · cases h
      · rename_i pez₁ htr
        have hpay := Assets.balance_source_le_transfer cfg.minBalance hmin htr
        have := balance_pot_payParliamentaryNftOwners hmin h
        rw [List.length_cons, Nat.mul_succ]
        simp only at this
        omega

theorem doFinalizeEpoch_ok (h : doFinalizeEpoch cfg s = .ok s') :
    ∃ (pez : Assets.Ledger α) (evs : List (Event α)),
      blocksPerEpoch ≤ s.blockNumber - s.epochData.epochStartBlock ∧
      s.statusOf s.epochData.currentEpoch = .open ∧
      0 < s.pez.balance cfg.incentivePot ∧
      distributeParliamentaryRewards cfg s.epochData.currentEpoch
        (s.pez.balance cfg.incentivePot) s = .ok { s with pez := pez, events := s.events ++ evs } ∧
      (∀ ev ∈ evs, ∃ nftId owner perNftReward,
        ev = .parliamentaryNftRewardDistributed nftId owner perNftReward
          s.epochData.currentEpoch) ∧
      s' = { s with
        pez := pez
        epochRewardPools := s.epochRewardPools.insert s.epochData.currentEpoch
          (rewardPoolOf s.epochData.currentEpoch (s.pez.balance cfg.incentivePot) s.blockNumber
            (s.userEpochScores s.epochData.currentEpoch))
        epochStatus := (s.epochStatus.insert s.epochData.currentEpoch .claimPeriod).insert
          (saturatingAdd 32 s.epochData.currentEpoch 1) .open
        epochInfo := some ⟨saturatingAdd 32 s.epochData.currentEpoch 1, s.blockNumber,
          saturatingAdd 32 s.epochData.totalEpochsCompleted 1⟩
        events := s.events ++ evs ++
          [.epochRewardPoolCalculated s.epochData.currentEpoch
            (rewardPoolOf s.epochData.currentEpoch (s.pez.balance cfg.incentivePot)
              s.blockNumber (s.userEpochScores s.epochData.currentEpoch)).totalRewardPool
            (rewardPoolOf s.epochData.currentEpoch (s.pez.balance cfg.incentivePot)
              s.blockNumber (s.userEpochScores s.epochData.currentEpoch)).totalTrustScore
            (rewardPoolOf s.epochData.currentEpoch (s.pez.balance cfg.incentivePot)
              s.blockNumber (s.userEpochScores s.epochData.currentEpoch)).participantsCount
            (rewardPoolOf s.epochData.currentEpoch (s.pez.balance cfg.incentivePot)
              s.blockNumber (s.userEpochScores s.epochData.currentEpoch)).claimDeadline,
          .newEpochStarted (saturatingAdd 32 s.epochData.currentEpoch 1) s.blockNumber] } := by
  simp only [doFinalizeEpoch, bind_eq_ok, ensure_eq_ok, pure_eq_ok] at h
  obtain ⟨-, hblocks, -, hopen, -, hpot, s₁, hdist, rfl⟩ := h
  -- the payouts wrote only the balances and the events
  obtain ⟨pez, evs, rfl, hevs⟩ := payParliamentaryNftOwners_ok hdist
  refine ⟨pez, evs, hblocks, hopen, hpot, hdist, fun ev hev => ?_, rfl⟩
  obtain ⟨nftId, owner, hev⟩ := hevs ev hev
  exact ⟨nftId, owner, _, hev⟩

theorem doClaimReward_ok {who : α} {epochIndex : Nat}
    (h : doClaimReward cfg s who epochIndex = .ok s') :
    ∃ (p : EpochRewardPool) (sc : Nat) (pez : Assets.Ledger α),
      s.statusOf epochIndex = .claimPeriod ∧
      (s.claimedRewards epochIndex).get? who = none ∧
      s.epochRewardPools.get? epochIndex = some p ∧
      s.blockNumber ≤ p.claimDeadline ∧
      (s.userEpochScores epochIndex).get? who = some sc ∧
      p.rewardPerTrustPoint * sc ≤ maxValue 128 ∧
      0 < p.rewardPerTrustPoint * sc ∧
      Assets.transfer cfg.minBalance s.pez cfg.incentivePot who (p.rewardPerTrustPoint * sc)
        .expendable = .ok pez ∧
      s' = { s with
        pez := pez
        claimedRewards := Function.update s.claimedRewards epochIndex
          ((s.claimedRewards epochIndex).insert who (p.rewardPerTrustPoint * sc))
        events := s.events ++ [.rewardClaimed who epochIndex (p.rewardPerTrustPoint * sc)] } := by
  simp only [doClaimReward, bind_eq_ok, ensure_eq_ok, okOr_eq_ok, mapError_eq_ok,
    pure_eq_ok] at h
  obtain ⟨-, hstatus, -, hunclaimed, p, hp, -, hdeadline, sc, hsc, amount, hmul, -, hpos, pez,
    htransfer, rfl⟩ := h
  -- the checked product is the product, and it fits
  obtain ⟨hfit, rfl⟩ := checkedMul_eq_some.mp hmul
  exact ⟨p, sc, pez, hstatus, hunclaimed, hp, hdeadline, hsc, hfit, hpos, htransfer, rfl⟩

theorem doCloseEpoch_ok {epochIndex : Nat} (h : doCloseEpoch cfg s epochIndex = .ok s') :
    ∃ (p : EpochRewardPool) (pez : Assets.Ledger α),
      s.statusOf epochIndex = .claimPeriod ∧
      s.epochRewardPools.get? epochIndex = some p ∧
      p.claimDeadline < s.blockNumber ∧
      s' = { s with
        pez := pez
        epochStatus := s.epochStatus.insert epochIndex .closed
        events := s.events ++
          [.epochClosed epochIndex (s.pez.balance cfg.incentivePot) cfg.clawbackRecipient] } := by
  simp only [doCloseEpoch, bind_eq_ok, ensure_eq_ok, okOr_eq_ok] at h
  obtain ⟨-, hstatus, p, hp, -, hdeadline, h⟩ := h
  -- whether anything is swept, only the balances differ
  split at h
  · simp only [bind_eq_ok, mapError_eq_ok, pure_eq_ok] at h
    obtain ⟨pez, -, rfl⟩ := h
    exact ⟨p, pez, hstatus, hp, hdeadline, rfl⟩
  · simp only [bind_eq_ok, pure_eq_ok] at h
    obtain ⟨pez, -, rfl⟩ := h
    exact ⟨p, pez, hstatus, hp, hdeadline, rfl⟩

end Calls

/-! ## The invariant of the epochs -/

/-- What every reachable state knows about its epochs, where `currentEpoch` and
`epochStartBlock` are those of `EpochInfo::get()`. -/
structure EpochInv (s : State α) : Prop where
  /-- Block numbers are `u32`. -/
  block_le : s.blockNumber ≤ maxValue 32
  start_le_block : s.epochData.epochStartBlock ≤ s.blockNumber
  /-- Each finalized epoch lasted at least `BLOCKS_PER_EPOCH` blocks. -/
  epochs_le_start : blocksPerEpoch * s.epochData.currentEpoch ≤ s.epochData.epochStartBlock
  /-- The current epoch and every later one are `Open`, ... -/
  status_open : ∀ e, s.epochData.currentEpoch ≤ e → s.statusOf e = .open
  /-- ... and every earlier one has left `Open`. -/
  status_left : ∀ e, e < s.epochData.currentEpoch → s.statusOf e ≠ .open
  /-- Only finalized epochs have a reward pool, ... -/
  pool_lt : ∀ e p, s.epochRewardPools.get? e = some p → e < s.epochData.currentEpoch
  /-- ... and it is what `do_finalize_epoch` computed from the scores still stored for the
  epoch, at a block no later than the start of the current epoch and a whole epoch before it
  for all but the last finalized epoch. -/
  pool_eq : ∀ e p, s.epochRewardPools.get? e = some p → ∃ totalRewardPool finalizedAt,
    p = rewardPoolOf e totalRewardPool finalizedAt (s.userEpochScores e) ∧
    finalizedAt ≤ s.epochData.epochStartBlock ∧
    (e + 1 < s.epochData.currentEpoch →
      finalizedAt + blocksPerEpoch ≤ s.epochData.epochStartBlock)

variable {cfg} {s s' : State α}

theorem epochInv_genesis (pez : Assets.Ledger α) : EpochInv (genesis pez) where
  block_le := Nat.zero_le _
  start_le_block := le_rfl
  epochs_le_start := le_of_eq (Nat.mul_zero _)
  status_open _ _ := rfl
  status_left _ h := absurd h (Nat.not_lt_zero _)
  pool_lt _ _ h := nomatch h
  pool_eq _ _ h := nomatch h

/-- `EpochInv` reads the block number, `EpochInfo`, the pools, the scores and the statuses
only, so a write of anything else keeps it. -/
theorem EpochInv.of_frame (hi : EpochInv s) (hblock : s'.blockNumber = s.blockNumber)
    (hinfo : s'.epochInfo = s.epochInfo) (hpools : s'.epochRewardPools = s.epochRewardPools)
    (hscores : s'.userEpochScores = s.userEpochScores)
    (hstatus : s'.epochStatus = s.epochStatus) : EpochInv s' := by
  have hdata : s'.epochData = s.epochData := by
    rw [State.epochData, State.epochData, hinfo]
  have hst : ∀ e, s'.statusOf e = s.statusOf e := fun e => by
    rw [State.statusOf, State.statusOf, hstatus]
  obtain ⟨h₁, h₂, h₃, h₄, h₅, h₆, h₇⟩ := hi
  refine ⟨?_, ?_, ?_, ?_, ?_, ?_, ?_⟩ <;>
    simp only [hblock, hdata, hst, hpools, hscores] <;> assumption

theorem epochData_of_epochInfo_none (h : s.epochInfo = none) : s.epochData = ⟨0, 0, 0⟩ := by
  rw [State.epochData, h, Option.getD_none]

theorem EpochInv.doInitializeRewardsSystem (hi : EpochInv s)
    (h : doInitializeRewardsSystem s = .ok s') : EpochInv s' := by
  obtain ⟨hnone, rfl⟩ := doInitializeRewardsSystem_ok h
  have hdata := epochData_of_epochInfo_none hnone
  -- before the first initialization epoch `0` is current, so there is no pool
  have hnopool : ∀ e p, s.epochRewardPools.get? e ≠ some p := fun e p hp => by
    have := hi.pool_lt e p hp
    rw [hdata] at this
    exact Nat.not_lt_zero _ this
  refine ⟨hi.block_le, le_rfl, by simp [State.epochData], fun e _ => ?_, fun e he => ?_,
    fun e p hp => absurd hp (hnopool e p), fun e p hp => absurd hp (hnopool e p)⟩
  · have hopen := hi.status_open e (by rw [hdata]; exact Nat.zero_le e)
    simp only [State.statusOf, StorageMap.getD_insert] at hopen ⊢
    split_ifs <;> simp [hopen]
  · simp [State.epochData] at he

theorem EpochInv.doRecordTrustScore (hi : EpochInv s) {who : α} {trustScore : Nat}
    (h : doRecordTrustScore s who trustScore = .ok s') : EpochInv s' := by
  obtain ⟨-, rfl⟩ := doRecordTrustScore_ok h
  refine ⟨hi.block_le, hi.start_le_block, hi.epochs_le_start, hi.status_open, hi.status_left,
    hi.pool_lt, fun e p hp => ?_⟩
  -- a finalized epoch is not the current one, whose scores were written
  have hne : e ≠ s.epochData.currentEpoch := (hi.pool_lt e p hp).ne
  obtain ⟨P, b, hpool, hb, hlast⟩ := hi.pool_eq e p hp
  refine ⟨P, b, ?_, hb, hlast⟩
  rw [hpool]
  exact congrArg _ (Function.update_of_ne hne _ _).symm

theorem EpochInv.doFinalizeEpoch (hi : EpochInv s) (h : doFinalizeEpoch cfg s = .ok s') :
    EpochInv s' := by
  obtain ⟨pez, evs, hblocks, -, -, -, -, hs'⟩ := doFinalizeEpoch_ok h
  set cur := s.epochData.currentEpoch with hcur
  have hstart := hi.start_le_block
  have hepochs := hi.epochs_le_start
  have hblock := hi.block_le
  rw [blocksPerEpoch_eq] at hblocks hepochs
  rw [maxValue_32] at hblock
  -- the epoch counter is far from `u32::MAX`, so the next epoch is the successor
  have hnext : saturatingAdd 32 cur 1 = cur + 1 := saturatingAdd_of_le (by rw [maxValue_32]; omega)
  -- the fields of the new state that `EpochInv` reads
  have hb : s'.blockNumber = s.blockNumber := by rw [hs']
  have hcur' : s'.epochData.currentEpoch = cur + 1 := by rw [hs', ← hnext]; rfl
  have hstart' : s'.epochData.epochStartBlock = s.blockNumber := by rw [hs']; rfl
  have hscores : s'.userEpochScores = s.userEpochScores := by rw [hs']
  have hstatus : ∀ e, s'.statusOf e =
      if e = cur + 1 then .open else if e = cur then .claimPeriod else s.statusOf e := by
    intro e
    rw [hs', ← hnext]
    exact (StorageMap.getD_insert _ _ _ _ _).trans (by rw [StorageMap.getD_insert]; rfl)
  have hpool : ∀ e, s'.epochRewardPools.get? e = if e = cur then
      some (rewardPoolOf cur (s.pez.balance cfg.incentivePot) s.blockNumber
        (s.userEpochScores cur)) else s.epochRewardPools.get? e := by
    intro e
    rw [hs', StorageMap.get?_insert]
  refine ⟨?_, ?_, ?_, fun e he => ?_, fun e he => ?_, fun e p hp => ?_, fun e p hp => ?_⟩
  · rw [hb]
    exact hi.block_le
  · rw [hb, hstart']
  · rw [hcur', hstart', blocksPerEpoch_eq]
    omega
  · -- epochs after the one just finalized are still `Open`
    rw [hcur'] at he
    rw [hstatus, if_neg (by omega : e ≠ cur)]
    split_ifs
    · rfl
    · exact hi.status_open e (by omega)
  · rw [hcur'] at he
    rw [hstatus, if_neg (by omega : e ≠ cur + 1)]
    split_ifs
    · simp
    · exact hi.status_left e (by omega)
  · rw [hpool] at hp
    rw [hcur']
    split_ifs at hp with he
    · omega
    · have := hi.pool_lt e p hp
      omega
  · rw [hpool] at hp
    rw [hcur', hstart', hscores]
    split_ifs at hp with he
    · -- the pool just stored, finalized now
      subst he
      exact ⟨_, _, (Option.some.inj hp).symm, le_rfl, fun h => by omega⟩
    · -- an older pool, finalized at least a whole epoch ago
      obtain ⟨P, b, hpool, hb, -⟩ := hi.pool_eq e p hp
      have hlt := hi.pool_lt e p hp
      refine ⟨P, b, hpool, by omega, fun _ => ?_⟩
      rw [blocksPerEpoch_eq]
      omega

theorem EpochInv.doClaimReward (hi : EpochInv s) {who : α} {epochIndex : Nat}
    (h : doClaimReward cfg s who epochIndex = .ok s') : EpochInv s' := by
  obtain ⟨p, sc, pez, -, -, -, -, -, -, -, -, rfl⟩ := doClaimReward_ok h
  exact hi.of_frame rfl rfl rfl rfl rfl

theorem EpochInv.doCloseEpoch (hi : EpochInv s) {epochIndex : Nat}
    (h : doCloseEpoch cfg s epochIndex = .ok s') : EpochInv s' := by
  obtain ⟨p, pez, hstatus, -, -, rfl⟩ := doCloseEpoch_ok h
  -- only a finalized epoch is in its claim period
  have hlt : epochIndex < s.epochData.currentEpoch := by
    by_contra hge
    have := hi.status_open epochIndex (not_lt.mp hge)
    rw [hstatus] at this
    cases this
  refine ⟨hi.block_le, hi.start_le_block, hi.epochs_le_start,
    fun e (he : s.epochData.currentEpoch ≤ e) => ?_,
    fun e (he : e < s.epochData.currentEpoch) => ?_, hi.pool_lt, hi.pool_eq⟩ <;>
    simp only [State.statusOf, StorageMap.getD_insert]
  · rw [if_neg (by omega)]
    exact hi.status_open e he
  · split_ifs
    · simp
    · exact hi.status_left e he

theorem EpochInv.step (hi : EpochInv s) (a : Action α) : EpochInv (step cfg s a) := by
  cases a with
  | initializeRewardsSystem => exact commit_of_ok hi fun _ h => hi.doInitializeRewardsSystem h
  | recordTrustScore who trustScore => exact commit_of_ok hi fun _ h => hi.doRecordTrustScore h
  | finalizeEpoch => exact commit_of_ok hi fun _ h => hi.doFinalizeEpoch h
  | claimReward who epochIndex => exact commit_of_ok hi fun _ h => hi.doClaimReward h
  | closeEpoch epochIndex => exact commit_of_ok hi fun _ h => hi.doCloseEpoch h
  | registerParliamentaryNftOwner nftId owner => exact hi.of_frame rfl rfl rfl rfl rfl
  | depositToPot source amount =>
    simp only [PezRewards.step]
    split
    · exact hi.of_frame rfl rfl rfl rfl rfl
    · exact hi
  | advance b =>
    simp only [PezRewards.step]
    split_ifs with hb
    · exact { hi with
        block_le := hb.2
        start_le_block := hi.start_le_block.trans hb.1 }
    · exact hi

theorem epochInv_of_reachable {pez : Assets.Ledger α}
    (h : Reachable (step cfg) (genesis pez) s) : EpochInv s :=
  h.invariant (epochInv_genesis pez) fun _ a hi => hi.step a

/-- An epoch with a reward pool has left `Open`. -/
theorem EpochInv.statusOf_ne_open (hi : EpochInv s) {e : Nat} {p : EpochRewardPool}
    (hp : s.epochRewardPools.get? e = some p) : s.statusOf e ≠ .open :=
  hi.status_left e (hi.pool_lt e p hp)

/-! ## Frozen scores -/

/-- No step writes the scores of an epoch that has left `Open`: `record_trust_score` writes into
the current epoch only, and only while it is `Open`. -/
theorem userEpochScores_step_of_ne_open {e : Nat} (he : s.statusOf e ≠ .open) (a : Action α) :
    (step cfg s a).userEpochScores e = s.userEpochScores e := by
  have hframe : ∀ {r : Except Error (State α)},
      (∀ s', r = .ok s' → s'.userEpochScores = s.userEpochScores) →
      (commit r s).userEpochScores e = s.userEpochScores e := fun h =>
    apply_commit_eq (fun t : State α => t.userEpochScores e) fun s' hs' => by rw [h s' hs']
  cases a with
  | initializeRewardsSystem =>
    exact hframe fun s' h => by rw [(doInitializeRewardsSystem_ok h).2]
  | recordTrustScore who trustScore =>
    refine apply_commit_eq (fun t : State α => t.userEpochScores e) fun s' h => ?_
    obtain ⟨hopen, rfl⟩ := doRecordTrustScore_ok h
    -- the written epoch is `Open`, so it is not `e`
    have hne : e ≠ s.epochData.currentEpoch := fun hc => he (hc ▸ hopen)
    exact Function.update_of_ne hne _ _
  | finalizeEpoch =>
    exact hframe fun s' h => by
      obtain ⟨_, _, -, -, -, -, -, rfl⟩ := doFinalizeEpoch_ok h
      rfl
  | claimReward who epochIndex =>
    exact hframe fun s' h => by
      obtain ⟨_, _, _, -, -, -, -, -, -, -, -, rfl⟩ := doClaimReward_ok h
      rfl
  | closeEpoch epochIndex =>
    exact hframe fun s' h => by
      obtain ⟨_, _, -, -, -, rfl⟩ := doCloseEpoch_ok h
      rfl
  | registerParliamentaryNftOwner nftId owner => rfl
  | depositToPot source amount =>
    simp only [PezRewards.step]
    split <;> rfl
  | advance b =>
    simp only [PezRewards.step]
    split_ifs <;> rfl

/-! ## The pool of an epoch covers its scores -/

/-- Paying every score of an epoch its reward per trust point takes at most the epoch's pool:
the reward per point is a floor division of the pool by the total, and when the total
saturates at `u128::MAX` the reward per point is zero, the pool being smaller. -/
theorem rewardPerTrustPoint_mul_le (e totalRewardPool b : Nat) (scores : StorageMap α Nat) :
    (rewardPoolOf e totalRewardPool b scores).rewardPerTrustPoint *
        scores.sumBy (fun _ v => v) ≤
      (rewardPoolOf e totalRewardPool b scores).totalRewardPool := by
  have hpool : wrappingMul 128 totalRewardPool 90 / 100 < maxValue 128 := by
    have := wrappingMul_lt 128 totalRewardPool 90
    rw [maxValue_128]
    norm_num at this
    omega
  have htotal : saturatingSum 128 (scores.entries.map Prod.snd) =
      min (scores.sumBy fun _ v => v) (maxValue 128) := saturatingSum_eq_min _ _
  simp only [rewardPoolOf, htotal]
  split_ifs with hpos
  · by_cases hfit : scores.sumBy (fun _ v => v) ≤ maxValue 128
    · rw [min_eq_left hfit]
      exact Nat.div_mul_le_self _ _
    · -- a saturated total leaves nothing per point
      rw [min_eq_right (le_of_not_ge hfit), Nat.div_eq_of_lt hpool, Nat.zero_mul]
      exact Nat.zero_le _
  · rw [Nat.zero_mul]
    exact Nat.zero_le _

end PezRewards
