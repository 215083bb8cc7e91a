import Pezkuwi.ValidatorPool.Calls

/-!
# Performance metrics and the reputation

`update_performance_metrics` adds the reported blocks to a validator's counters with saturating
`u32` additions, and then writes the reputation as the success rate `produced * 100 / total`,
capped at 100. The sum `total` and the product by 100 are plain `u32` operations, which wrap in a
build without overflow checks, and a zero `total` leaves the reputation as it was.

The cap keeps every reputation within `0..=100` on every reachable state
(`reputationScore_le_of_reachable`), and while the counters are small the reputation is the
exact success rate (`reputationScore_updateMetrics_of_lt`). Past that it is not: one report of
`42949673` produced blocks and none missed makes the product wrap to `4`, and the reputation
`0` (`reputation_wraps`).

## Main definitions

* `MetricsInv`: every stored reputation is at most 100

## Main results

* `reputationScore_updateMetrics_of_lt`: the exact rate while neither the sum nor the product wraps
* `reputationScore_le_of_reachable`: the bound on every reachable state
* `reputation_wraps`: a report whose product wraps
-/

namespace ValidatorPool

open Bounded Machine

variable {α : Type} [LinearOrder α] (cfg : Config)

/-- An update keeps a reputation of at most 100: it writes a capped rate or nothing. -/
theorem reputationScore_updateMetrics_le {currentEra blocksProduced blocksMissed eraPoints : Nat}
    {metrics : ValidatorPerformance} (h : metrics.reputationScore ≤ 100) :
    (updateMetrics currentEra blocksProduced blocksMissed eraPoints metrics).reputationScore ≤
      100 := by
  dsimp only [updateMetrics]
  split_ifs
  · exact min_le_right _ _
  · exact h

/-- The counters an update stores do not depend on the branch it takes. -/
theorem updateMetrics_counters (currentEra blocksProduced blocksMissed eraPoints : Nat)
    (metrics : ValidatorPerformance) :
    (updateMetrics currentEra blocksProduced blocksMissed eraPoints metrics).blocksProduced =
        saturatingAdd 32 metrics.blocksProduced blocksProduced ∧
      (updateMetrics currentEra blocksProduced blocksMissed eraPoints metrics).blocksMissed =
        saturatingAdd 32 metrics.blocksMissed blocksMissed := by
  dsimp only [updateMetrics]
  split_ifs <;> exact ⟨rfl, rfl⟩

/-- While the updated counters' sum and the product of the blocks produced by 100 fit in `u32`,
the reputation is the exact success rate of the stored counters. -/
theorem reputationScore_updateMetrics_of_lt {currentEra blocksProduced blocksMissed eraPoints : Nat}
    {metrics metrics' : ValidatorPerformance}
    (h : updateMetrics currentEra blocksProduced blocksMissed eraPoints metrics = metrics')
    (hpos : 0 < metrics'.blocksProduced + metrics'.blocksMissed)
    (hsum : metrics'.blocksProduced + metrics'.blocksMissed < 2 ^ 32)
    (hmul : metrics'.blocksProduced * 100 < 2 ^ 32) :
    metrics'.reputationScore =
      metrics'.blocksProduced * 100 / (metrics'.blocksProduced + metrics'.blocksMissed) := by
  obtain ⟨hproduced, hmissed⟩ := h ▸ updateMetrics_counters currentEra blocksProduced blocksMissed
    eraPoints metrics
  rw [hproduced, hmissed] at hpos hsum ⊢
  rw [hproduced] at hmul
  rw [← h]
  dsimp only [updateMetrics]
  rw [wrappingAdd_of_lt hsum, if_pos hpos, wrappingMul_of_lt hmul]
  -- a rate of at most the total is at most 100
  exact min_eq_left (Nat.div_le_of_le_mul (Nat.mul_le_mul_right 100 (Nat.le_add_right _ _)))

/-! ## The bound on every run -/

/-- Every stored reputation is at most 100. -/
structure MetricsInv (s : State α) : Prop where
  reputation_le : ∀ a, (s.performanceMetrics a).reputationScore ≤ 100

theorem metricsInv_genesis : MetricsInv (genesis : State α) where
  reputation_le _ := Nat.zero_le _

namespace MetricsInv

variable {cfg} {s : State α}

theorem of_frame (hi : MetricsInv s) {s' : State α}
    (hmetrics : s'.performanceMetrics = s.performanceMetrics) : MetricsInv s' :=
  ⟨fun a => hmetrics ▸ hi.reputation_le a⟩

/-- A write of one account's metrics keeps the bound when the metrics written keep it. -/
theorem update (hi : MetricsInv s) {s' : State α} {who : α} {metrics : ValidatorPerformance}
    (hmetrics : s'.performanceMetrics = Function.update s.performanceMetrics who metrics)
    (hle : metrics.reputationScore ≤ 100) : MetricsInv s' := by
  have hupdate : ∀ a, (Function.update s.performanceMetrics who metrics a).reputationScore ≤ 100 :=
    (Function.forall_update_iff _ fun _ (m : ValidatorPerformance) => m.reputationScore ≤ 100).mpr
      ⟨hle, fun a _ => hi.reputation_le a⟩
  exact ⟨fun a => hmetrics ▸ hupdate a⟩

theorem doNewEra (hi : MetricsInv s) {seed : Hash} {s' : State α}
    (h : ValidatorPool.doNewEra cfg s seed = .ok s') : MetricsInv s' := by
  obtain ⟨set, -, rfl⟩ := (doNewEra_ok cfg).mp h
  exact hi.of_frame rfl

/-- Every step keeps the bound: a join writes 100, a leave the default 0, an update a capped
rate, and the other calls write no metrics. -/
theorem step (hi : MetricsInv s) (a : Action α) : MetricsInv (step cfg s a) := by
  cases a with
  | joinValidatorPool origin category src =>
    refine commit_of_ok hi fun s' h => ?_
    obtain ⟨who, -, -, -, -, rfl⟩ := (joinValidatorPool_ok cfg).mp h
    exact hi.update rfl le_rfl
  | leaveValidatorPool origin =>
    refine commit_of_ok hi fun s' h => ?_
    obtain ⟨who, -, -, rfl⟩ := leaveValidatorPool_ok.mp h
    exact hi.update rfl (Nat.zero_le _)
  | forceNewEra origin seed =>
    exact commit_of_ok hi fun s' h => hi.doNewEra ((forceNewEra_ok cfg).mp h).2
  | updateCategory origin newCategory src =>
    refine commit_of_ok hi fun s' h => ?_
    obtain ⟨who, -, oldCategory, -, -, rfl⟩ := (updateCategory_ok cfg).mp h
    exact hi.of_frame rfl
  | setPoolParameters origin eraLength =>
    refine commit_of_ok hi fun s' h => ?_
    obtain ⟨-, rfl⟩ := (setPoolParameters_ok cfg).mp h
    exact hi.of_frame rfl
  | updatePerformanceMetrics origin validator blocksProduced blocksMissed eraPoints =>
    refine commit_of_ok hi fun s' h => ?_
    obtain ⟨-, rfl⟩ := updatePerformanceMetrics_ok.mp h
    exact hi.update rfl (reputationScore_updateMetrics_le (hi.reputation_le validator))
  | initializeBlock blockNumber seed =>
    have hi' : MetricsInv { s with blockNumber } := ⟨hi.reputation_le⟩
    exact step_initializeBlock_of cfg hi hi' fun _ h => hi'.doNewEra h

end MetricsInv

/-- On every reachable state every reputation is within `0..=100`. -/
theorem reputationScore_le_of_reachable {s : State α} (hs : Reachable (step cfg) genesis s)
    (a : α) : (s.performanceMetrics a).reputationScore ≤ 100 :=
  (hs.invariant (metricsInv_genesis) fun _ act hi => hi.step act).reputation_le a

/-! ## A report whose product wraps -/

/-- The root reports `42949673` blocks produced and none missed for account `1`. -/
def wrappedReportState : State Nat :=
  step runtimeConfig genesis (.updatePerformanceMetrics .root 1 42949673 0 0)

/-- The stored counters are `42949673` produced and `0` missed, whose exact success rate is
100; but `42949673 * 100` wraps in `u32` to `4`, and the stored reputation is `0`. -/
theorem reputation_wraps :
    (wrappedReportState.performanceMetrics 1).blocksProduced = 42949673 ∧
      (wrappedReportState.performanceMetrics 1).blocksMissed = 0 ∧
      42949673 * 100 / (42949673 + 0) = 100 ∧
      (wrappedReportState.performanceMetrics 1).reputationScore = 0 := by
  decide +kernel

end ValidatorPool
