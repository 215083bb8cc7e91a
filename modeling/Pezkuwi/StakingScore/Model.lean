import Pezkuwi.Storage.Map
import Pezkuwi.Machine.Reach

/-!
# Staking scores

`pallet-staking-score` turns an account's stake into the staking component of the trust score.
The stake, in whole HEZ, falls into one of four tiers (20, 30, 40 or 50 points); once the account
has called `start_score_tracking`, the blocks since then raise the tier's points by a factor of
1.2, 1.4, 1.7 or 2 at one, three, six and twelve months, in integer arithmetic; the result is
capped at 100.

The model follows `src/pezkuwi/pallets/staking-score/src/lib.rs`. What the staking ledger
reports (`StakingInfoProvider::get_staking_details`) is an argument, and of it only the staked
amount is read; the nominations and unlocking chunks are left out. The block number is an
argument too. The `Perbill` multiplier that `get_staking_score` computes first is never used and
is left out; the points are all below `u32::MAX`, so their `u32` products are exact. Events are
left out.

## Main definitions

* `State`: `StakingStartBlock`
* `startScoreTracking`, `step`: the pallet's one call
* `amountScore`, `durationScore`, `getStakingScore`: the score and the duration it was counted
  over

## Main results

* `getStakingScore_le`: the score is at most 100
* `getStakingScore_mono`: a larger stake, or a later block, never lowers the score
* `stakingStartBlock_run`: a start block, once written, stays
* `getStakingScore_run_mono`: along every run the score never falls while the stake and the
  block number do not
-/

namespace StakingScore

open Machine

/-- `MONTH_IN_BLOCKS`: thirty days of six-second blocks. -/
def monthInBlocks : Nat :=
  30 * 24 * 60 * 10

/-- `UNITS`: one HEZ in the balance's units. -/
def units : Nat :=
  1_000_000_000_000

/-- `StakingDetails`, with the staked amount only. -/
structure StakingDetails where
  stakedAmount : Nat
  deriving DecidableEq, Repr

/-- `Error`, and the failure of the origin check. -/
inductive Error where
  | noStakeFound
  | trackingAlreadyStarted
  | badOrigin
  deriving DecidableEq, Repr

/-- The pallet's storage. -/
structure State (α : Type) [LinearOrder α] where
  stakingStartBlock : StorageMap α Nat

variable {α : Type} [LinearOrder α]

/-- The storage at genesis. -/
def genesis : State α :=
  ⟨∅⟩

/-- `start_score_tracking` after `ensure_signed`: an account with a nonzero stake records the
current block, once. -/
def startScoreTracking (s : State α) (who : α) (details : Option StakingDetails)
    (blockNumber : Nat) : Except Error (State α) := do
  ensure ((s.stakingStartBlock.get? who).isNone = true) .trackingAlreadyStarted
  let details ← okOr details .noStakeFound
  ensure (details.stakedAmount ≠ 0) .noStakeFound
  pure { s with stakingStartBlock := s.stakingStartBlock.insert who blockNumber }

/-- The points of a stake of `stakedHez` whole HEZ. -/
def amountScore (stakedHez : Nat) : Nat :=
  if stakedHez ≤ 100 then 20
  else if stakedHez ≤ 250 then 30
  else if stakedHez ≤ 750 then 40
  else 50

/-- The points after `durationInBlocks` blocks of tracking: the tier's points times 2, 17/10,
14/10 or 12/10, rounded down. -/
def durationScore (amountScore durationInBlocks : Nat) : Nat :=
  if 12 * monthInBlocks ≤ durationInBlocks then amountScore * 2
  else if 6 * monthInBlocks ≤ durationInBlocks then amountScore * 17 / 10
  else if 3 * monthInBlocks ≤ durationInBlocks then amountScore * 14 / 10
  else if monthInBlocks ≤ durationInBlocks then amountScore * 12 / 10
  else amountScore

/-- The blocks since `StakingStartBlock`, saturating, and zero while tracking has not started. -/
def durationInBlocks (s : State α) (blockNumber : Nat) (who : α) : Nat :=
  match s.stakingStartBlock.get? who with
  | some startBlock => blockNumber - startBlock
  | none => 0

/-- `get_staking_score`: zero without stake; otherwise the points of the stake's tier, raised
for the duration once tracking has started, capped at 100, and the duration. -/
def getStakingScore (s : State α) (stakingInfo : α → Option StakingDetails) (blockNumber : Nat)
    (who : α) : Nat × Nat :=
  match stakingInfo who with
  | none => (0, 0)
  | some details =>
    let stakedHez := details.stakedAmount / units
    if stakedHez = 0 then (0, 0) else
    let finalScore := match s.stakingStartBlock.get? who with
      | some startBlock => durationScore (amountScore stakedHez) (blockNumber - startBlock)
      | none => amountScore stakedHez
    (min finalScore 100, durationInBlocks s blockNumber who)

/-! ## Runs -/

/-- The pallet's call, with what the staking ledger reports and the block it runs in. -/
inductive Action (α : Type) where
  | startScoreTracking (origin : Origin α) (details : Option StakingDetails) (blockNumber : Nat)

/-- One step: a failed call is rolled back. -/
def step (s : State α) : Action α → State α
  | .startScoreTracking origin details blockNumber =>
    commit (ensureSigned origin .badOrigin >>= fun who =>
      startScoreTracking s who details blockNumber) s

/-! ## The score -/

/-- Before tracking has counted a month the points are the tier's. -/
theorem durationScore_of_lt {amountScore durationInBlocks : Nat}
    (h : durationInBlocks < monthInBlocks) :
    durationScore amountScore durationInBlocks = amountScore := by
  unfold durationScore monthInBlocks at *
  split_ifs <;> omega

/-- The score reads the stake in whole HEZ and the duration of tracking. -/
theorem getStakingScore_fst (s : State α) (stakingInfo : α → Option StakingDetails)
    (blockNumber : Nat) (who : α) :
    (getStakingScore s stakingInfo blockNumber who).1 =
      match stakingInfo who with
      | none => 0
      | some details =>
        if details.stakedAmount / units = 0 then 0
        else min (durationScore (amountScore (details.stakedAmount / units))
          (durationInBlocks s blockNumber who)) 100 := by
  unfold getStakingScore durationInBlocks
  -- without tracking the duration is zero, and zero blocks keep the tier's points
  cases stakingInfo who with
  | none => rfl
  | some details =>
    dsimp only
    split_ifs
    · rfl
    · cases s.stakingStartBlock.get? who with
      | some startBlock => rfl
      | none =>
        exact congrArg (min · 100) (durationScore_of_lt (show 0 < monthInBlocks by decide)).symm

theorem getStakingScore_le (s : State α) (stakingInfo : α → Option StakingDetails)
    (blockNumber : Nat) (who : α) : (getStakingScore s stakingInfo blockNumber who).1 ≤ 100 := by
  rw [getStakingScore_fst]
  split
  · exact Nat.zero_le _
  · split_ifs
    · exact Nat.zero_le _
    · exact min_le_right _ _

theorem amountScore_mono {a b : Nat} (h : a ≤ b) : amountScore a ≤ amountScore b := by
  unfold amountScore
  split_ifs <;> omega

/-- More points, or a longer duration, never give fewer points: each factor is at least the one
below it. -/
theorem durationScore_mono {x y d d' : Nat} (hxy : x ≤ y) (hd : d ≤ d') :
    durationScore x d ≤ durationScore y d' := by
  unfold durationScore
  split_ifs <;> omega

theorem durationInBlocks_mono (s : State α) {b b' : Nat} (h : b ≤ b') (who : α) :
    durationInBlocks s b who ≤ durationInBlocks s b' who := by
  unfold durationInBlocks
  split
  · exact Nat.sub_le_sub_right h _
  · exact le_rfl

/-- The score never falls when the stake the ledger reports grows or the block number does. -/
theorem getStakingScore_mono (s : State α) {info₁ info₂ : α → Option StakingDetails}
    {b₁ b₂ : Nat} {who : α}
    (hstake : ∀ d₁, info₁ who = some d₁ →
      ∃ d₂, info₂ who = some d₂ ∧ d₁.stakedAmount ≤ d₂.stakedAmount)
    (hblock : b₁ ≤ b₂) :
    (getStakingScore s info₁ b₁ who).1 ≤ (getStakingScore s info₂ b₂ who).1 := by
  rw [getStakingScore_fst, getStakingScore_fst]
  cases h₁ : info₁ who with
  | none => exact Nat.zero_le _
  | some d₁ =>
    obtain ⟨d₂, h₂, hle⟩ := hstake d₁ h₁
    rw [h₂]
    dsimp only
    have hhez : d₁.stakedAmount / units ≤ d₂.stakedAmount / units := Nat.div_le_div_right hle
    by_cases hz₂ : d₂.stakedAmount / units = 0
    · -- no whole HEZ on the right, so none on the left either
      have hz₁ : d₁.stakedAmount / units = 0 := Nat.eq_zero_of_le_zero (hz₂ ▸ hhez)
      rw [if_pos hz₁, if_pos hz₂]
    · rw [if_neg hz₂]
      split_ifs
      · exact Nat.zero_le _
      · exact min_le_min_right _ (durationScore_mono (amountScore_mono hhez)
          (durationInBlocks_mono s hblock who))

/-! ## The start block -/

/-- A call writes the start block of an account that had none. -/
theorem startBlock_step (s : State α) (a : Action α) {who : α} {b : Nat}
    (h : s.stakingStartBlock.get? who = some b) :
    (step s a).stakingStartBlock.get? who = some b := by
  cases a with
  | startScoreTracking origin details blockNumber =>
    refine commit_bind_of_ok (P := fun s' : State α => s'.stakingStartBlock.get? who = some b) h
      fun signer s' hs' => ?_
    simp only [startScoreTracking, bind_eq_ok, ensure_eq_ok, okOr_eq_ok, pure_eq_ok,
      exists_const] at hs'
    obtain ⟨hnone, _, -, -, rfl⟩ := hs'
    -- the account written had no start block, so it is not `who`
    have hne : who ≠ signer := by
      rintro rfl
      rw [h] at hnone
      exact absurd hnone Bool.false_ne_true
    simp only [StorageMap.get?_insert, if_neg hne, h]

/-- On every run, an account's start block, once written, stays. -/
theorem stakingStartBlock_run (s : State α) (as : List (Action α)) {who : α} {b : Nat}
    (h : s.stakingStartBlock.get? who = some b) :
    (run step s as).stakingStartBlock.get? who = some b := by
  induction as generalizing s with
  | nil => exact h
  | cons a as ih => exact ih (step s a) (startBlock_step s a h)

/-! ## The score along a run -/

/-- A run never shortens the duration counted at a block: a start block that was written stays,
and an account without one counted zero blocks. -/
theorem durationInBlocks_run_le (s : State α) (as : List (Action α)) (blockNumber : Nat)
    (who : α) : durationInBlocks s blockNumber who ≤
      durationInBlocks (run step s as) blockNumber who := by
  unfold durationInBlocks
  cases hstart : s.stakingStartBlock.get? who with
  | none => exact Nat.zero_le _
  | some b => rw [stakingStartBlock_run s as hstart]

/-- The score never falls when the duration counted grows, the stake being the same. -/
theorem getStakingScore_le_of_durationInBlocks {s s' : State α}
    {stakingInfo : α → Option StakingDetails} {b b' : Nat} {who : α}
    (hdur : durationInBlocks s b who ≤ durationInBlocks s' b' who) :
    (getStakingScore s stakingInfo b who).1 ≤ (getStakingScore s' stakingInfo b' who).1 := by
  rw [getStakingScore_fst, getStakingScore_fst]
  cases stakingInfo who with
  | none => exact le_rfl
  | some details =>
    dsimp only
    split_ifs
    · exact le_rfl
    · exact min_le_min_right _ (durationScore_mono le_rfl hdur)

/-- Over every run of the pallet, from any state, an account's staking score never falls while
the stake the ledger reports does not fall and the block number does not go back: the run can
only start the account's tracking, which counts from the block it starts at. -/
theorem getStakingScore_run_mono (s : State α) (as : List (Action α))
    {info₁ info₂ : α → Option StakingDetails} {b₁ b₂ : Nat} {who : α}
    (hstake : ∀ d₁, info₁ who = some d₁ →
      ∃ d₂, info₂ who = some d₂ ∧ d₁.stakedAmount ≤ d₂.stakedAmount)
    (hblock : b₁ ≤ b₂) :
    (getStakingScore s info₁ b₁ who).1 ≤ (getStakingScore (run step s as) info₂ b₂ who).1 :=
  calc (getStakingScore s info₁ b₁ who).1
      ≤ (getStakingScore s info₂ b₂ who).1 := getStakingScore_mono s hstake hblock
    _ ≤ (getStakingScore (run step s as) info₂ b₂ who).1 :=
      getStakingScore_le_of_durationInBlocks (durationInBlocks_run_le s as b₂ who)

/-- Account `1`, staking 1000 HEZ, starts tracking at block 0: a year later its score has doubled
from 50 to 100. -/
theorem getStakingScore_run_mono_after_a_year :
    (getStakingScore (genesis : State Nat) (fun _ => some ⟨1000 * units⟩) 0 1).1 = 50 ∧
      (getStakingScore (run step genesis [.startScoreTracking (.signed 1) (some ⟨1000 * units⟩) 0])
        (fun _ => some ⟨1000 * units⟩) (12 * monthInBlocks) 1).1 = 100 ∧
      (getStakingScore (genesis : State Nat) (fun _ => some ⟨1000 * units⟩) 0 1).1 ≤
        (getStakingScore (run step genesis [.startScoreTracking (.signed 1) (some ⟨1000 * units⟩) 0])
          (fun _ => some ⟨1000 * units⟩) (12 * monthInBlocks) 1).1 :=
  ⟨by decide, by decide, getStakingScore_run_mono _ _ (fun d h => ⟨d, h, le_rfl⟩) (Nat.zero_le _)⟩

end StakingScore
