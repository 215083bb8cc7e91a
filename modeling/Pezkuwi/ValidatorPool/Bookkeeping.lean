import Pezkuwi.ValidatorPool.Rotation

/-!
# The validator pool: the bookkeeping of the pool and of the current set

`PoolSize` is kept by a saturating increment in `join_validator_pool` and a saturating
decrement in `leave_validator_pool`, and `CurrentValidatorSet` is written by `do_new_era` alone,
from a walk over `PoolMembers` whose lists are shuffled, truncated to each category's target and
checked against the bounds of `ValidatorSet`. A selection that fails writes nothing, so the
current set and `CurrentEra` only move together.

Every successful selection returns a set with no account twice, whose members are eligible
members of the pool in the matching category, with at least three of them and each category
within its share of `MaxValidators`: ten, six and the rest of twenty-one parts (`targetShare`).
The walk computes the first two shares with `u32` products; when they wrap, the merit target is
above its share, but the five seats of `ValidatorSet` are then below it
(`min_bucketTarget_bucketBound_le`). So in every reachable state, for a `MaxPoolSize` that fits
in `u32`, the pool and the current set keep their bookkeeping (`validator_pool_bookkeeping`).

## Main definitions

* `targetShare`: the share of `MaxValidators` of each category
* `SetInv`: the current set is the selection of a reachable state, and of the current era
* `PoolBookkeeping`: what every reachable state keeps

## Main results

* `nodup_allValidators_of_selectValidatorsForEra`, `length_bucket_of_selectValidatorsForEra`,
  `three_le_length_allValidators`: what every successful selection returns
* `SetInv.step`: every step from a reachable state keeps the current set's invariant
* `validator_pool_bookkeeping`: the bookkeeping in every reachable state
-/

namespace ValidatorPool

open Bounded Machine

variable {α : Type} [LinearOrder α] (cfg : Config)

/-! ## The shares of the categories -/

/-- The share of `N` validators each category is meant to fill: `10 * N / 21`, `6 * N / 21`
and the rest. -/
def targetShare (N : Nat) : Bucket → Nat
  | .stake => 10 * N / 21
  | .parliamentary => 6 * N / 21
  | .merit => N - 10 * N / 21 - 6 * N / 21

/-- Of its target and its bound, the smaller is within the category's share. The stake and
parliamentary targets are at most their shares, wrapped or not; the merit target is its share
while the products fit in `u32`, and when they do not, the share is above the five seats. -/
theorem min_bucketTarget_bucketBound_le (b : Bucket) :
    min (bucketTarget cfg b) (bucketBound b) ≤ targetShare cfg.maxValidators b := by
  have h10 := wrappingMul_le 32 cfg.maxValidators 10
  have h6 := wrappingMul_le 32 cfg.maxValidators 6
  cases b with
  | stake => exact (min_le_left _ _).trans (Nat.div_le_div_right (by omega))
  | parliamentary => exact (min_le_left _ _).trans (Nat.div_le_div_right (by omega))
  | merit =>
    by_cases hfit : cfg.maxValidators * 10 < 2 ^ 32
    · have hfit' : cfg.maxValidators * 6 < 2 ^ 32 := by omega
      refine (min_le_left _ _).trans (le_of_eq ?_)
      simp only [bucketTarget, targetShare, wrappingMul_of_lt hfit, wrappingMul_of_lt hfit',
        Nat.mul_comm cfg.maxValidators]
    · refine (min_le_right _ _).trans ?_
      simp only [bucketBound, targetShare]
      omega

/-- With `MaxValidators` of `429496730` the stake product wraps to `4`: the walk keeps no stake
validator at all, where the share is `204522252`. -/
example : bucketTarget { runtimeConfig with maxValidators := 429496730 } .stake = 0 ∧
    targetShare 429496730 .stake = 204522252 := by
  decide

/-! ## What every successful selection returns -/

variable {cfg}

theorem nodup_eligibleMembers (s : State α) (b : Bucket) : (eligibleMembers s b).Nodup :=
  (List.filter_sublist.map Prod.fst).nodup s.poolMembers.keys_nodup

/-- No account is selected in two categories: its one entry in the pool has one category. -/
theorem ne_of_mem_bucket {s : State α} {seed : Hash} {set : ValidatorSet α}
    (h : selectValidatorsForEra cfg s seed = .ok set) (b₁ b₂ : Bucket) (hb : b₁ ≠ b₂)
    {a₁ a₂ : α} (ha₁ : a₁ ∈ set.bucket b₁) (ha₂ : a₂ ∈ set.bucket b₂) : a₁ ≠ a₂ := by
  rintro rfl
  obtain ⟨category₁, hget₁, rfl, -⟩ := mem_bucket_of_selectValidatorsForEra cfg h ha₁
  obtain ⟨category₂, hget₂, rfl, -⟩ := mem_bucket_of_selectValidatorsForEra cfg h ha₂
  rw [hget₁, Option.some_inj] at hget₂
  exact hb (congrArg ValidatorPoolCategory.bucket hget₂)

theorem nodup_bucket_of_selectValidatorsForEra {s : State α} {seed : Hash}
    {set : ValidatorSet α} (h : selectValidatorsForEra cfg s seed = .ok set) (b : Bucket) :
    (set.bucket b).Nodup :=
  ((selectValidatorsForEra_perm cfg h).2 b).nodup_iff.mpr
    ((List.take_sublist _ _).nodup (nodup_eligibleMembers s b))

/-- A selected set has no account twice: no category has, and no two categories share one. -/
theorem nodup_allValidators_of_selectValidatorsForEra {s : State α} {seed : Hash}
    {set : ValidatorSet α} (h : selectValidatorsForEra cfg s seed = .ok set) :
    set.allValidators.Nodup := by
  have hstake := nodup_bucket_of_selectValidatorsForEra h .stake
  have hparliamentary := nodup_bucket_of_selectValidatorsForEra h .parliamentary
  have hmerit := nodup_bucket_of_selectValidatorsForEra h .merit
  refine List.nodup_append.mpr ⟨List.nodup_append.mpr ⟨hstake, hparliamentary, ?_⟩, hmerit, ?_⟩
  · exact fun a₁ ha₁ a₂ ha₂ => ne_of_mem_bucket h .stake .parliamentary (by decide) ha₁ ha₂
  · intro a₁ ha₁ a₂ ha₂
    rcases List.mem_append.mp ha₁ with ha₁ | ha₁
    · exact ne_of_mem_bucket h .stake .merit (by decide) ha₁ ha₂
    · exact ne_of_mem_bucket h .parliamentary .merit (by decide) ha₁ ha₂

/-- Each category of a selected set is within its target and within its bound. -/
theorem length_bucket_of_selectValidatorsForEra {s : State α} {seed : Hash}
    {set : ValidatorSet α} (h : selectValidatorsForEra cfg s seed = .ok set) (b : Bucket) :
    (set.bucket b).length ≤ min (bucketTarget cfg b) (bucketBound b) := by
  have hlength := ((selectValidatorsForEra_perm cfg h).2 b).length_eq
  obtain ⟨-, hstake, hparliamentary, hmerit⟩ := (selectValidatorsForEra_isOk cfg s seed).mp ⟨set, h⟩
  rw [hlength]
  refine le_min (List.length_take_le _ _) ?_
  cases b with
  | stake => exact hstake
  | parliamentary => exact hparliamentary
  | merit => exact hmerit

theorem three_le_length_allValidators {s : State α} {seed : Hash} {set : ValidatorSet α}
    (h : selectValidatorsForEra cfg s seed = .ok set) : 3 ≤ set.allValidators.length := by
  have hperm := (selectValidatorsForEra_perm cfg h).2
  obtain ⟨hthree, -⟩ := (selectValidatorsForEra_isOk cfg s seed).mp ⟨set, h⟩
  have hlength : set.allValidators.length = (set.bucket .stake).length +
      (set.bucket .parliamentary).length + (set.bucket .merit).length := by
    simp only [ValidatorSet.allValidators, ValidatorSet.bucket, List.length_append]
  rw [hlength, (hperm .stake).length_eq, (hperm .parliamentary).length_eq,
    (hperm .merit).length_eq]
  exact hthree

/-- The walk reads no block number: the eligibility it checks is of the history and the
metrics. -/
theorem collectCandidates_blockNumber (s : State α) (blockNumber : Nat)
    (entries : List (α × ValidatorPoolCategory)) (candidates : Bucket → List α) :
    collectCandidates cfg { s with blockNumber } entries candidates =
      collectCandidates cfg s entries candidates := by
  induction entries generalizing candidates with
  | nil => rfl
  | cons entry entries ih => exact ih _

theorem selectValidatorsForEra_blockNumber (s : State α) (blockNumber : Nat) (seed : Hash) :
    selectValidatorsForEra cfg { s with blockNumber } seed = selectValidatorsForEra cfg s seed := by
  unfold selectValidatorsForEra
  rw [collectCandidates_blockNumber]

/-! ## The current set over runs -/

variable (cfg)

/-- The current set is what the selection returned on a reachable state, and its era is the
current era. -/
structure SetInv (s : State α) : Prop where
  current : ∀ set, s.currentValidatorSet = some set → set.eraIndex = s.currentEra ∧
    ∃ s₀ seed, Reachable (step cfg) genesis s₀ ∧ selectValidatorsForEra cfg s₀ seed = .ok set

theorem setInv_genesis : SetInv cfg (genesis : State α) where
  current _ h := nomatch h

namespace SetInv

variable {cfg} {s : State α}

theorem of_frame (hi : SetInv cfg s) {s' : State α} (hera : s'.currentEra = s.currentEra)
    (hcurrent : s'.currentValidatorSet = s.currentValidatorSet) : SetInv cfg s' :=
  ⟨fun set hset => hera ▸ hi.current set (hcurrent ▸ hset)⟩

/-- A new era installs the selection of a state that selects as a reachable one does, and moves
the current era to the set's. -/
theorem doNewEra {s₀ : State α} (hs₀ : Reachable (step cfg) genesis s₀) {seed : Hash}
    {s' : State α}
    (hselect : selectValidatorsForEra cfg s seed = selectValidatorsForEra cfg s₀ seed)
    (h : ValidatorPool.doNewEra cfg s seed = .ok s') : SetInv cfg s' := by
  obtain ⟨set, hset, rfl⟩ := (doNewEra_ok cfg).mp h
  refine ⟨fun set' hset' => ?_⟩
  obtain rfl := Option.some_inj.mp hset'
  exact ⟨(selectValidatorsForEra_perm cfg hset).1, s₀, seed, hs₀, hselect ▸ hset⟩

/-- Every step from a reachable state keeps the invariant: only a new era writes the set or the
era, and it selects on the state before it, or on that state at the new block number. -/
theorem step (hs : Reachable (step cfg) genesis s) (hi : SetInv cfg s) (a : Action α) :
    SetInv cfg (step cfg s a) := by
  cases a with
  | joinValidatorPool origin category src =>
    refine commit_of_ok hi fun s' h => ?_
    obtain ⟨who, -, -, -, -, rfl⟩ := (joinValidatorPool_ok cfg).mp h
    exact hi.of_frame rfl rfl
  | leaveValidatorPool origin =>
    refine commit_of_ok hi fun s' h => ?_
    obtain ⟨who, -, -, rfl⟩ := leaveValidatorPool_ok.mp h
    exact hi.of_frame rfl rfl
  | forceNewEra origin seed =>
    exact commit_of_ok hi fun s' h => SetInv.doNewEra hs rfl ((forceNewEra_ok cfg).mp h).2
  | updateCategory origin newCategory src =>
    refine commit_of_ok hi fun s' h => ?_
    obtain ⟨who, -, oldCategory, -, -, rfl⟩ := (updateCategory_ok cfg).mp h
    exact hi.of_frame rfl rfl
  | setPoolParameters origin eraLength =>
    refine commit_of_ok hi fun s' h => ?_
    obtain ⟨-, rfl⟩ := (setPoolParameters_ok cfg).mp h
    exact hi.of_frame rfl rfl
  | updatePerformanceMetrics origin validator blocksProduced blocksMissed eraPoints =>
    refine commit_of_ok hi fun s' h => ?_
    obtain ⟨-, rfl⟩ := updatePerformanceMetrics_ok.mp h
    exact hi.of_frame rfl rfl
  | initializeBlock blockNumber seed =>
    have hi' : SetInv cfg { s with blockNumber } := hi.of_frame rfl rfl
    exact step_initializeBlock_of cfg hi hi' fun _ h =>
      SetInv.doNewEra hs (selectValidatorsForEra_blockNumber s blockNumber seed) h

end SetInv

theorem setInv_of_reachable {s : State α} (hs : Reachable (step cfg) genesis s) : SetInv cfg s :=
  (hs.invariant (P := fun s => Reachable (step cfg) genesis s ∧ SetInv cfg s)
    ⟨.init, setInv_genesis cfg⟩ fun _ a hi => ⟨.step a hi.1, hi.2.step hi.1 a⟩).2

/-! ## The bookkeeping on every reachable state -/

/-- `PoolSize` counts the members; and the current set, when there is one, has no account twice,
was selected on a reachable state where each of its members was a member of the pool in the
matching category, keeps each category within its share of `MaxValidators`, has at least three
members, and is of the current era. -/
def PoolBookkeeping (s : State α) : Prop :=
  s.poolSize = s.poolMembers.keySet.card ∧
    ∀ set, s.currentValidatorSet = some set →
      set.allValidators.Nodup ∧
      (∃ s₀ seed, Reachable (step cfg) genesis s₀ ∧ selectValidatorsForEra cfg s₀ seed = .ok set ∧
        ∀ b, ∀ a ∈ set.bucket b, ∃ category, s₀.poolMembers.get? a = some category ∧
          category.bucket = b) ∧
      (∀ b, (set.bucket b).length ≤ targetShare cfg.maxValidators b) ∧
      3 ≤ set.allValidators.length ∧
      set.eraIndex = s.currentEra

/-- For a `MaxPoolSize` that fits in `u32`, as its type has it, every reachable state keeps the
bookkeeping of the pool and of the current set. -/
theorem validator_pool_bookkeeping (hmax : cfg.maxPoolSize ≤ maxValue 32) {s : State α}
    (hs : Reachable (step cfg) genesis s) : PoolBookkeeping cfg s := by
  have hsize : SizeInv cfg s := hs.invariant (sizeInv_genesis cfg) fun _ a hi => hi.step hmax a
  refine ⟨hsize.poolSize_eq, fun set hcurrent => ?_⟩
  obtain ⟨hera, s₀, seed, hs₀, hselect⟩ := (setInv_of_reachable cfg hs).current set hcurrent
  refine ⟨nodup_allValidators_of_selectValidatorsForEra hselect,
    ⟨s₀, seed, hs₀, hselect, fun b a ha => ?_⟩, fun b => ?_,
    three_le_length_allValidators hselect, hera⟩
  · obtain ⟨category, hget, hb, -⟩ := mem_bucket_of_selectValidatorsForEra cfg hselect ha
    exact ⟨category, hget, hb⟩
  · exact (length_bucket_of_selectValidatorsForEra hselect b).trans
      (min_bucketTarget_bucketBound_le cfg b)

/-- The runtime's pool after the three stake validators left and joined again for era 2. -/
theorem validator_pool_bookkeeping_after_rejoin :
    runtimeConfig.maxPoolSize ≤ maxValue 32 ∧ PoolBookkeeping runtimeConfig rejoinState := by
  have hmax : runtimeConfig.maxPoolSize ≤ maxValue 32 := by
    rw [maxValue_32]
    decide
  exact ⟨hmax, validator_pool_bookkeeping runtimeConfig hmax rejoinState_reachable⟩

end ValidatorPool
