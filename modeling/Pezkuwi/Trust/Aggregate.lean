import Pezkuwi.Trust.Model

/-!
# The running total of trust scores against their sum

`update_score_for_account` moves `TotalActiveTrustScore` by the change of one score, with a
saturating subtraction and a saturating addition. While the sum of the scores fits in `u128` the
total follows it exactly; but once the sum has passed `u128::MAX` the total sticks at the maximum,
and when scores fall again it comes down from there, below the true sum. So the total never
overstates the sum, and it equals the sum whenever the number of accounts holding a score,
times the largest score one account can have, fits in `u128`: the scored accounts only grow, so
the sum then fitted at every earlier state as well.

The bound on one score comes from the components being `u32`: the weighted sum is at most
`1000 * u32::MAX`, and the score at most `u32::MAX * 1000 * u32::MAX / ScoreMultiplierBase`,
which is `u32::MAX ^ 2` in the runtime. The drift therefore needs more than `1.8 * 10 ^ 19` scored
accounts; `driftRun` builds it with exactly one more account than fits.

## Main definitions

* `trustScoreBound`: the largest score `calculate_trust_score` returns
* `sumScores`: the sum of `TrustScores`
* `ScoreInv`: scores within the bound, the total within the sum, and equal to it while the scored
  accounts are few enough

## Main results

* `calculateTrustScore_le`: every computed score is within the bound
* `calculateTrustScore_mono`: a score never falls when its components grow
* `ScoreInv.step`, `scoreInv_of_reachable`: the invariant over every run
* `totalActiveTrustScore_eq_sum`: the total never exceeds the sum, and equals it while
  `keys * bound` fits in `u128`
* `totalActiveTrustScore_drifts`: a reachable state whose sum fits in `u128` and whose total
  differs from it
-/

namespace Trust

open Bounded Machine IdentityKyc StorageMap

variable {α : Type} [LinearOrder α] (cfg : Config)

/-- The largest score `calculate_trust_score` returns, with `u32` components. -/
def trustScoreBound : Nat :=
  maxValue 32 * (maxValue 32 * 1000) / cfg.scoreMultiplierBase

/-- The sum of all stored trust scores. -/
def sumScores (s : State α) : Nat :=
  s.trustScores.sumBy fun _ score => score

/-! ## One account's score -/

/-- The weighted sum of components at most `m` is at most `1000 * m`: the saturations only
lower it. -/
theorem weightedSum_le {m a b c d : Nat} (ha : a ≤ m) (hb : b ≤ m) (hc : c ≤ m) (hd : d ≤ m) :
    weightedSum a b c d ≤ m * 1000 := by
  have ha' := saturatingMul_le_mul 128 a 100
  have hb' := saturatingMul_le_mul 128 b 300
  have hc' := saturatingMul_le_mul 128 c 300
  have hd' := saturatingMul_le_mul 128 d 300
  have hab := saturatingAdd_le_add 128 (saturatingMul 128 a 100) (saturatingMul 128 b 300)
  have habc := saturatingAdd_le_add 128
    (saturatingAdd 128 (saturatingMul 128 a 100) (saturatingMul 128 b 300))
    (saturatingMul 128 c 300)
  have habcd := saturatingAdd_le_add 128
    (saturatingAdd 128 (saturatingAdd 128 (saturatingMul 128 a 100) (saturatingMul 128 b 300))
      (saturatingMul 128 c 300))
    (saturatingMul 128 d 300)
  unfold weightedSum
  omega

/-- Every score `calculate_trust_score` computes is within `trustScoreBound`. -/
theorem calculateTrustScore_le {src : Sources α} {who : α} {score : Nat}
    (h : calculateTrustScore cfg src who = .ok score) : score ≤ trustScoreBound cfg := by
  simp only [calculateTrustScore, bind_eq_ok, ensure_eq_ok, exists_const] at h
  obtain ⟨-, h⟩ := h
  split_ifs at h with hzero
  · -- no stake, no score
    cases h
    exact Nat.zero_le _
  · obtain ⟨-, rfl⟩ := checkedDiv_eq_some.mp (okOr_eq_ok.mp h)
    apply Nat.div_le_div_right
    -- each component is a `u32`, so the weighted sum is at most `1000 * u32::MAX`
    have hs := src.stakingScore_le who
    have hweighted := weightedSum_le hs (src.referralScore_le who) (src.perwerdeScore_le who)
      (src.tikiScore_le who)
    calc saturatingMul 128 (src.stakingScore who) _
        ≤ src.stakingScore who * weightedSum (src.stakingScore who) (src.referralScore who)
            (src.perwerdeScore who) (src.tikiScore who) := saturatingMul_le_mul ..
      _ ≤ maxValue 32 * (maxValue 32 * 1000) := Nat.mul_le_mul hs hweighted

/-- A citizen with stake gets the stake times the weighted sum, over the base. -/
theorem calculateTrustScore_of_staked {src : Sources α} {who : α}
    (hcitizen : src.isCitizen who = true) (hstake : src.stakingScore who ≠ 0)
    (hbase : cfg.scoreMultiplierBase ≠ 0) :
    calculateTrustScore cfg src who = .ok (saturatingMul 128 (src.stakingScore who)
      (weightedSum (src.stakingScore who) (src.referralScore who) (src.perwerdeScore who)
        (src.tikiScore who)) / cfg.scoreMultiplierBase) := by
  unfold calculateTrustScore
  rw [(ensure_eq_ok (u := ())).mpr hcitizen]
  show (if src.stakingScore who = 0 then _ else _) = _
  rw [if_neg hstake, checkedDiv, if_neg hbase]
  rfl

/-- A citizen without stake gets zero. -/
theorem calculateTrustScore_of_unstaked {src : Sources α} {who : α}
    (hcitizen : src.isCitizen who = true) (hstake : src.stakingScore who = 0) :
    calculateTrustScore cfg src who = .ok 0 := by
  unfold calculateTrustScore
  rw [(ensure_eq_ok (u := ())).mpr hcitizen]
  show (if src.stakingScore who = 0 then _ else _) = _
  rw [if_pos hstake]
  rfl

/-- The weighted sum is monotone in each component: every saturating operation is. -/
theorem weightedSum_mono {a a' b b' c c' d d' : Nat} (ha : a ≤ a') (hb : b ≤ b') (hc : c ≤ c')
    (hd : d ≤ d') : weightedSum a b c d ≤ weightedSum a' b' c' d' :=
  saturatingAdd_le_saturatingAdd
    (saturatingAdd_le_saturatingAdd
      (saturatingAdd_le_saturatingAdd (saturatingMul_le_saturatingMul ha le_rfl)
        (saturatingMul_le_saturatingMul hb le_rfl))
      (saturatingMul_le_saturatingMul hc le_rfl))
    (saturatingMul_le_saturatingMul hd le_rfl)

/-- A citizen's score never falls when its components grow, and with a nonzero base the larger
components are scored too: zero stake scores zero, and otherwise every operation is monotone. -/
theorem calculateTrustScore_mono (hbase : cfg.scoreMultiplierBase ≠ 0) {src₁ src₂ : Sources α}
    {who : α} (hcitizen : src₂.isCitizen who = src₁.isCitizen who)
    (hstaking : src₁.stakingScore who ≤ src₂.stakingScore who)
    (hreferral : src₁.referralScore who ≤ src₂.referralScore who)
    (hperwerde : src₁.perwerdeScore who ≤ src₂.perwerdeScore who)
    (htiki : src₁.tikiScore who ≤ src₂.tikiScore who) {score₁ : Nat}
    (h₁ : calculateTrustScore cfg src₁ who = .ok score₁) :
    ∃ score₂, calculateTrustScore cfg src₂ who = .ok score₂ ∧ score₁ ≤ score₂ := by
  -- the first call passed the citizenship check, so the second does too
  have hc₁ : src₁.isCitizen who = true := by
    simp only [calculateTrustScore, bind_eq_ok, ensure_eq_ok, exists_const] at h₁
    exact h₁.1
  have hc₂ : src₂.isCitizen who = true := hcitizen.trans hc₁
  by_cases hz₂ : src₂.stakingScore who = 0
  · -- no stake on the right, so none on the left
    have hz₁ : src₁.stakingScore who = 0 := Nat.eq_zero_of_le_zero (hz₂ ▸ hstaking)
    rw [calculateTrustScore_of_unstaked cfg hc₁ hz₁] at h₁
    cases h₁
    exact ⟨0, calculateTrustScore_of_unstaked cfg hc₂ hz₂, le_rfl⟩
  · refine ⟨_, calculateTrustScore_of_staked cfg hc₂ hz₂ hbase, ?_⟩
    by_cases hz₁ : src₁.stakingScore who = 0
    · rw [calculateTrustScore_of_unstaked cfg hc₁ hz₁] at h₁
      cases h₁
      exact Nat.zero_le _
    · rw [calculateTrustScore_of_staked cfg hc₁ hz₁ hbase] at h₁
      cases h₁
      exact Nat.div_le_div_right (saturatingMul_le_saturatingMul hstaking
        (weightedSum_mono hstaking hreferral hperwerde htiki))

/-- What a successful `update_score_for_account` did: it computed the score, and stored it and
moved the total only if the score changed. -/
theorem updateScoreForAccount_ok {src : Sources α} {s s' : State α} {who : α} {score : Nat}
    (h : updateScoreForAccount cfg src s who = .ok (score, s')) :
    calculateTrustScore cfg src who = .ok score ∧
      s' = if trustScoreOf s who = score then s else
        { s with
          trustScores := s.trustScores.insert who score
          totalActiveTrustScore :=
            saturatingAdd 128 (s.totalActiveTrustScore - trustScoreOf s who) score } := by
  simp only [updateScoreForAccount, bind_eq_ok] at h
  obtain ⟨newScore, hcalc, h⟩ := h
  split_ifs at h with hne
  · obtain ⟨rfl, rfl⟩ := Prod.mk.inj (pure_eq_ok.mp h)
    exact ⟨hcalc, (if_neg hne).symm⟩
  · obtain ⟨rfl, rfl⟩ := Prod.mk.inj (pure_eq_ok.mp h)
    exact ⟨hcalc, (if_pos (not_not.mp hne)).symm⟩

/-- A computed score is what `update_score_for_account` stores, moving the total, when it
differs from the stored one. -/
theorem updateScoreForAccount_of_calculate {src : Sources α} {s : State α} {who : α}
    {score : Nat} (hcalc : calculateTrustScore cfg src who = .ok score) :
    updateScoreForAccount cfg src s who = .ok (score,
      if trustScoreOf s who = score then s else
        { s with
          trustScores := s.trustScores.insert who score
          totalActiveTrustScore :=
            saturatingAdd 128 (s.totalActiveTrustScore - trustScoreOf s who) score }) := by
  unfold updateScoreForAccount
  rw [hcalc]
  by_cases hsame : trustScoreOf s who = score
  · rw [if_pos hsame]
    exact if_neg (not_not.mpr hsame)
  · rw [if_neg hsame]
    exact if_pos hsame

/-- A forced recalculation by the root stores a computed score that changed. -/
theorem step_forceRecalculateTrustScore {src : Sources α} {s : State α} {who : α}
    {score : Nat} (hcalc : calculateTrustScore cfg src who = .ok score) :
    step cfg s (.forceRecalculateTrustScore .root src who) =
      if trustScoreOf s who = score then s else
        { s with
          trustScores := s.trustScores.insert who score
          totalActiveTrustScore :=
            saturatingAdd 128 (s.totalActiveTrustScore - trustScoreOf s who) score } := by
  show commit ((updateScoreForAccount cfg src s who).map Prod.snd) s = _
  rw [updateScoreForAccount_of_calculate cfg hcalc]
  rfl

/-! ## The sum of the scores -/

/-- One account's score is part of the sum. -/
theorem trustScoreOf_le_sumScores (s : State α) (who : α) : trustScoreOf s who ≤ sumScores s := by
  have h := sumBy_remove (fun _ score => score) s.trustScores who
  simp only [Option.map_id'] at h
  unfold trustScoreOf getD sumScores
  omega

/-- Storing a score moves the sum by the change of that account's score. -/
theorem sumScores_insert (s : State α) (who : α) (score total : Nat) :
    sumScores { s with trustScores := s.trustScores.insert who score
                       totalActiveTrustScore := total } + trustScoreOf s who =
      sumScores s + score := by
  have h := sumBy_insert (fun _ score => score) s.trustScores who score
  simp only [Option.map_id'] at h
  exact h

/-! ## The invariant -/

/-- Scores stay within the bound, the total within the sum, and the total equals the sum while
the scored accounts times the bound fit in `u128`. -/
structure ScoreInv (s : State α) : Prop where
  score_le : ∀ who score, s.trustScores.get? who = some score → score ≤ trustScoreBound cfg
  total_le : s.totalActiveTrustScore ≤ sumScores s
  total_eq : s.trustScores.keys.length * trustScoreBound cfg ≤ maxValue 128 →
    s.totalActiveTrustScore = sumScores s

theorem scoreInv_genesis : ScoreInv cfg (genesis : State α) where
  score_le who score h := by cases h
  total_le := Nat.zero_le _
  total_eq _ := by
    show 0 = (empty : StorageMap α Nat).sumBy _
    rw [sumBy_empty]

namespace ScoreInv

variable {cfg} {s : State α}

/-- A write that leaves the scores and the total alone keeps the invariant. -/
theorem of_frame (hi : ScoreInv cfg s) {s' : State α} (hscores : s'.trustScores = s.trustScores)
    (htotal : s'.totalActiveTrustScore = s.totalActiveTrustScore) : ScoreInv cfg s' := by
  have hsum : sumScores s' = sumScores s := by
    unfold sumScores
    rw [hscores]
  refine ⟨?_, ?_, ?_⟩
  · rw [hscores]
    exact hi.score_le
  · rw [htotal, hsum]
    exact hi.total_le
  · rw [hscores, htotal, hsum]
    exact hi.total_eq

/-- A changed score keeps the invariant: the total moves with the sum, and the saturations are
exact while the scored accounts are few enough. -/
theorem insert_score (hi : ScoreInv cfg s) {who : α} {score : Nat}
    (hscore : score ≤ trustScoreBound cfg) :
    ScoreInv cfg { s with
      trustScores := s.trustScores.insert who score
      totalActiveTrustScore :=
        saturatingAdd 128 (s.totalActiveTrustScore - trustScoreOf s who) score } := by
  have hsum := sumScores_insert s who score
    (saturatingAdd 128 (s.totalActiveTrustScore - trustScoreOf s who) score)
  have hold := trustScoreOf_le_sumScores s who
  have hscores : ∀ k v, (s.trustScores.insert who score).get? k = some v →
      v ≤ trustScoreBound cfg := by
    intro k v hk
    rw [get?_insert] at hk
    split_ifs at hk
    · cases hk
      exact hscore
    · exact hi.score_le k v hk
  refine ⟨hscores, ?_, ?_⟩
  · -- the saturating addition is at most the exact one
    have hsat := saturatingAdd_le_add 128 (s.totalActiveTrustScore - trustScoreOf s who) score
    have htotal := hi.total_le
    dsimp only
    omega
  · intro hfew
    -- the account count only grew, so the total was the sum before the write
    have hbefore : s.trustScores.keys.length * trustScoreBound cfg ≤ maxValue 128 :=
      le_trans (Nat.mul_le_mul_right _ (length_keys_le_insert _ _ _)) hfew
    have htotal := hi.total_eq hbefore
    -- and the new sum fits, so the saturating addition is exact
    have hfits : sumScores { s with
        trustScores := s.trustScores.insert who score
        totalActiveTrustScore :=
          saturatingAdd 128 (s.totalActiveTrustScore - trustScoreOf s who) score } ≤
        maxValue 128 :=
      le_trans (sumBy_le_length_mul hscores) hfew
    have hexact : s.totalActiveTrustScore - trustScoreOf s who + score ≤ maxValue 128 := by
      omega
    dsimp only
    refine (saturatingAdd_of_le hexact).trans ?_
    omega

/-- A successful `update_score_for_account` keeps the invariant. -/
theorem updateScoreForAccount {src : Sources α} {who : α} {score : Nat} {s' : State α}
    (hi : ScoreInv cfg s) (h : updateScoreForAccount cfg src s who = .ok (score, s')) :
    ScoreInv cfg s' := by
  obtain ⟨hcalc, rfl⟩ := updateScoreForAccount_ok cfg h
  split_ifs
  · exact hi
  · exact hi.insert_score (calculateTrustScore_le cfg hcalc)

/-- An update whose failure is ignored keeps the invariant. -/
theorem commit_update {src : Sources α} {who : α} (hi : ScoreInv cfg s) :
    ScoreInv cfg (commit ((Trust.updateScoreForAccount cfg src s who).map Prod.snd) s) := by
  refine commit_of_ok hi fun s' h => ?_
  obtain ⟨⟨score, s''⟩, hupdate, rfl⟩ := map_eq_ok.mp h
  exact hi.updateScoreForAccount hupdate

/-- The walk of `update_all_trust_scores` keeps the invariant: each entry it visits is skipped,
saves the cursor or updates one account. -/
theorem updateAllLoop (src : Sources α) (startKey : Option α) (batchSize : Nat)
    (l : List (α × KycLevel)) :
    ∀ (foundStart : Bool) (updatedCount : Nat) {s : State α}, ScoreInv cfg s →
      ScoreInv cfg (Trust.updateAllLoop cfg src startKey batchSize l foundStart updatedCount s).1 := by
  induction l with
  | nil => exact fun _ _ _ hi => hi
  | cons entry rest ih =>
    intro foundStart updatedCount s hi
    obtain ⟨account, kycLevel⟩ := entry
    simp only [Trust.updateAllLoop]
    split_ifs
    · exact ih _ _ hi
    · exact hi.of_frame rfl rfl
    · exact ih _ _ hi.commit_update
    · exact ih _ _ hi

/-- `update_all_trust_scores` keeps the invariant: after the walk it only sets the cursor and
the progress flag. -/
theorem updateAllTrustScores {src : Sources α} (hi : ScoreInv cfg s) :
    ScoreInv cfg (Trust.updateAllTrustScores cfg src s) := by
  have hloop := hi.updateAllLoop src s.lastProcessedAccount (calculateOptimalBatchSize src)
    src.kycStatuses.entries s.lastProcessedAccount.isNone 0
  unfold Trust.updateAllTrustScores
  dsimp only
  split_ifs
  · exact hloop.of_frame rfl rfl
  · exact hloop.of_frame rfl rfl

/-- `periodic_trust_score_update` keeps the invariant. -/
theorem periodicTrustScoreUpdate {src : Sources α} {s' : State α} (hi : ScoreInv cfg s)
    (h : periodicTrustScoreUpdate cfg src s = .ok s') : ScoreInv cfg s' := by
  simp only [Trust.periodicTrustScoreUpdate, bind_eq_ok, ensure_eq_ok, pure_eq_ok,
    exists_const] at h
  obtain ⟨-, rfl⟩ := h
  exact hi.updateAllTrustScores

/-- Every step keeps the invariant. -/
theorem step (hi : ScoreInv cfg s) (a : Action α) : ScoreInv cfg (step cfg s a) := by
  cases a with
  | forceRecalculateTrustScore origin src who =>
    refine commit_of_ok hi fun s' h => ?_
    obtain ⟨-, -, h⟩ := bind_eq_ok.mp h
    obtain ⟨⟨score, s''⟩, hupdate, rfl⟩ := map_eq_ok.mp h
    exact hi.updateScoreForAccount hupdate
  | updateAllTrustScores origin src =>
    refine commit_of_ok hi fun s' h => ?_
    obtain ⟨-, -, h⟩ := bind_eq_ok.mp h
    cases pure_eq_ok.mp h
    exact hi.updateAllTrustScores
  | periodicTrustScoreUpdate origin src =>
    refine commit_of_ok hi fun s' h => ?_
    obtain ⟨-, -, h⟩ := bind_eq_ok.mp h
    exact hi.periodicTrustScoreUpdate h
  | onScoreComponentChanged src who => exact hi.commit_update

end ScoreInv

theorem scoreInv_of_reachable {s : State α} (hs : Reachable (step cfg) genesis s) :
    ScoreInv cfg s :=
  hs.invariant (scoreInv_genesis cfg) fun _ a hi => hi.step a

/-! ## Citizens at the largest score

Concrete runs over accounts `0, 1, ...`: the first `k` of `n` approved citizens are raised, one
after another, to the largest score by forced recalculations. -/

/-- The runtime's `ScoreMultiplierBase`. -/
def runtimeConfig : Config :=
  ⟨1000⟩

/-- A KYC map in which exactly the accounts below `n` are approved. -/
def approvedUpTo : Nat → StorageMap Nat KycLevel
  | 0 => ∅
  | n + 1 => (approvedUpTo n).insert n .approved

theorem get?_approvedUpTo (n i : Nat) :
    (approvedUpTo n).get? i = if i < n then some .approved else none := by
  induction n with
  | zero => rfl
  | succ n ih =>
    rw [approvedUpTo, get?_insert, ih]
    -- `i < n + 1` is `i = n` or `i < n`
    by_cases hin : i = n
    · rw [if_pos hin, if_pos (by omega)]
    · rw [if_neg hin]
      exact if_congr (by omega) rfl rfl

/-- Sources under which the accounts below `n` are citizens with stake `stake`, every other
component at the `u32` maximum. -/
def citizenSources (n stake : Nat) (hstake : stake ≤ maxValue 32) : Sources Nat where
  kycStatuses := approvedUpTo n
  stakingScore _ := stake
  referralScore _ := maxValue 32
  perwerdeScore _ := maxValue 32
  tikiScore _ := maxValue 32
  stakingScore_le _ := hstake
  referralScore_le _ := le_rfl
  perwerdeScore_le _ := le_rfl
  tikiScore_le _ := le_rfl

theorem isCitizen_citizenSources {n stake i : Nat} {hstake : stake ≤ maxValue 32} (hi : i < n) :
    (citizenSources n stake hstake).isCitizen i = true := by
  simp only [Sources.isCitizen, getD, citizenSources, get?_approvedUpTo, if_pos hi]
  rfl

/-- With every component at the `u32` maximum a citizen gets the largest score. -/
theorem calculateTrustScore_citizenSources_max {n i : Nat} (hi : i < n) :
    calculateTrustScore runtimeConfig (citizenSources n (maxValue 32) le_rfl) i =
      .ok (trustScoreBound runtimeConfig) := by
  have hstake : (citizenSources n (maxValue 32) le_rfl).stakingScore i ≠ 0 := by
    show maxValue 32 ≠ 0
    decide
  rw [calculateTrustScore_of_staked runtimeConfig (isCitizen_citizenSources hi) hstake
    (by decide)]
  -- `u32::MAX * (1000 * u32::MAX) / 1000`, computed
  have hvalue : saturatingMul 128 (maxValue 32)
      (weightedSum (maxValue 32) (maxValue 32) (maxValue 32) (maxValue 32)) / 1000 =
      trustScoreBound runtimeConfig := by decide
  exact congrArg Except.ok hvalue

/-- Without stake a citizen's score is zero. -/
theorem calculateTrustScore_citizenSources_zero {n i : Nat} (hi : i < n) :
    calculateTrustScore runtimeConfig (citizenSources n 0 (Nat.zero_le _)) i = .ok 0 :=
  calculateTrustScore_of_unstaked runtimeConfig (isCitizen_citizenSources hi) rfl

/-- The forced recalculation that raises account `i`, one of `n` citizens, to the largest
score. -/
def raise (n i : Nat) : Action Nat :=
  .forceRecalculateTrustScore .root (citizenSources n (maxValue 32) le_rfl) i

/-- The state after raising the first `k` of `n` citizens. -/
def raisedState (n k : Nat) : State Nat :=
  run (step runtimeConfig) genesis ((List.range k).map (raise n))

/-- Raising the first `k` citizens stores the largest score for each, and the total is their
sum clamped at `u128::MAX`. -/
theorem raisedState_spec (n : Nat) : ∀ k, k ≤ n →
    (∀ i, (raisedState n k).trustScores.get? i =
        if i < k then some (trustScoreBound runtimeConfig) else none) ∧
      sumScores (raisedState n k) = k * trustScoreBound runtimeConfig ∧
      (raisedState n k).totalActiveTrustScore =
        min (k * trustScoreBound runtimeConfig) (maxValue 128)
  | 0, _ => ⟨fun _ => rfl, sumBy_empty _, rfl⟩
  | k + 1, hk => by
    obtain ⟨hget, hsum, htotal⟩ := raisedState_spec n k (by omega)
    have hstep : raisedState n (k + 1) = step runtimeConfig (raisedState n k) (raise n k) := by
      rw [raisedState, raisedState, List.range_succ, List.map_append, run_append, List.map_cons,
        List.map_nil, run_cons, run_nil]
    -- account `k` had no score, and gets the largest one
    have hnone : (raisedState n k).trustScores.get? k = none := by
      rw [hget, if_neg (Nat.lt_irrefl k)]
    have hold : trustScoreOf (raisedState n k) k = 0 := by
      rw [trustScoreOf, getD, hnone]
      rfl
    have hpos : trustScoreBound runtimeConfig ≠ 0 := by decide
    rw [hstep, raise,
      step_forceRecalculateTrustScore runtimeConfig (calculateTrustScore_citizenSources_max hk),
      hold, if_neg (Ne.symm hpos)]
    refine ⟨fun i => ?_, ?_, ?_⟩
    · dsimp only
      rw [get?_insert, hget]
      by_cases hik : i = k
      · rw [if_pos hik, if_pos (by omega)]
      · rw [if_neg hik]
        exact if_congr (by omega) rfl rfl
    · rw [← Nat.add_right_cancel_iff, sumScores_insert, hsum, hold]
      ring
    · dsimp only
      rw [Nat.sub_zero, htotal, saturatingAdd_min, Nat.succ_mul]

/-- In every reachable state the running total never exceeds the sum of the scores, and it
equals the sum when the number of scored accounts times the largest score fits in `u128`. -/
theorem totalActiveTrustScore_eq_sum {s : State α} (hs : Reachable (step cfg) genesis s) :
    s.totalActiveTrustScore ≤ sumScores s ∧
      (s.trustScores.keys.length * trustScoreBound cfg ≤ maxValue 128 →
        s.totalActiveTrustScore = sumScores s) := by
  have hi := scoreInv_of_reachable cfg hs
  exact ⟨hi.total_le, hi.total_eq⟩

/-- The law at a run that raises two accounts to the largest score. -/
theorem totalActiveTrustScore_eq_sum_after_raise :
    (raisedState 2 2).totalActiveTrustScore ≤ sumScores (raisedState 2 2) ∧
      ((raisedState 2 2).trustScores.keys.length * trustScoreBound runtimeConfig ≤ maxValue 128 →
        (raisedState 2 2).totalActiveTrustScore = sumScores (raisedState 2 2)) :=
  totalActiveTrustScore_eq_sum runtimeConfig (reachable_run _)

/-! ## The drift past `u128::MAX` -/

/-- One more citizen than fit in `u128` at the largest score. -/
def driftAccounts : Nat :=
  maxValue 128 / trustScoreBound runtimeConfig + 1

/-- Every citizen raised to the largest score, which saturates the total; then the first one
lowered to zero by a recalculation without stake. -/
def driftRun : List (Action Nat) :=
  (List.range driftAccounts).map (raise driftAccounts) ++
    [.forceRecalculateTrustScore .root (citizenSources driftAccounts 0 (Nat.zero_le _)) 0]

/-- The state `driftRun` reaches. -/
def driftState : State Nat :=
  run (step runtimeConfig) genesis driftRun

/-- After the drift run the sum is all but one largest score, and the total is `u128::MAX`
less one largest score. -/
theorem driftState_spec :
    sumScores driftState + trustScoreBound runtimeConfig =
        driftAccounts * trustScoreBound runtimeConfig ∧
      driftState.totalActiveTrustScore = maxValue 128 - trustScoreBound runtimeConfig := by
  obtain ⟨hget, hsum, htotal⟩ := raisedState_spec driftAccounts driftAccounts le_rfl
  have hzero : 0 < driftAccounts := Nat.succ_pos _
  have hold : trustScoreOf (raisedState driftAccounts driftAccounts) 0 =
      trustScoreBound runtimeConfig := by
    rw [trustScoreOf, getD, hget, if_pos hzero]
    rfl
  have hpos : trustScoreBound runtimeConfig ≠ 0 := by decide
  have hrun : driftState = step runtimeConfig (raisedState driftAccounts driftAccounts)
      (.forceRecalculateTrustScore .root (citizenSources driftAccounts 0 (Nat.zero_le _)) 0) := by
    rw [driftState, driftRun, run_append, run_cons, run_nil, raisedState]
  rw [hrun, step_forceRecalculateTrustScore runtimeConfig
    (calculateTrustScore_citizenSources_zero hzero), hold, if_neg hpos]
  refine ⟨?_, ?_⟩
  · have h := sumScores_insert (raisedState driftAccounts driftAccounts) 0 0
      (saturatingAdd 128 ((raisedState driftAccounts driftAccounts).totalActiveTrustScore -
        trustScoreBound runtimeConfig) 0)
    rw [hold, hsum] at h
    omega
  · -- the raise saturated the total, which the lowering then takes down from the maximum
    have hsat : min (driftAccounts * trustScoreBound runtimeConfig) (maxValue 128) =
        maxValue 128 := by decide
    dsimp only
    rw [htotal, hsat, saturatingAdd, Nat.add_zero]
    exact min_eq_left (Nat.sub_le _ _)

/-- A reachable state in which the sum of the scores fits in `u128` but the running total
differs from it. -/
theorem totalActiveTrustScore_drifts :
    Reachable (step runtimeConfig) genesis driftState ∧ sumScores driftState ≤ maxValue 128 ∧
      driftState.totalActiveTrustScore ≠ sumScores driftState := by
  obtain ⟨hsum, htotal⟩ := driftState_spec
  -- the arithmetic of the two constants
  have hfits : driftAccounts * trustScoreBound runtimeConfig ≤
      maxValue 128 + trustScoreBound runtimeConfig := by decide
  have hmiss : maxValue 128 < driftAccounts * trustScoreBound runtimeConfig := by decide
  have hbound : trustScoreBound runtimeConfig ≤ maxValue 128 := by decide
  refine ⟨reachable_run driftRun, by omega, ?_⟩
  rw [htotal]
  omega

end Trust
