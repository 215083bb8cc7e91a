import Pezkuwi.ValidatorPool.Model

/-!
# The validator pool: what each call does

One lemma per call says when it succeeds and what it writes. Every later proof reads a call
through its lemma here and never unfolds the call. The era transition is read the same way:
`do_new_era` writes only when the selection succeeds, and `on_initialize` either leaves the
state as it is or commits `do_new_era`.

## Main results

* `validateCategoryRequirements_eq_ok`: what admission checks, per category
* `joinValidatorPool_ok`, `leaveValidatorPool_ok`, `updateCategory_ok`,
  `setPoolParameters_ok`, `updatePerformanceMetrics_ok`: the calls
* `doNewEra_ok`, `forceNewEra_ok`, `onInitialize_cases`, `step_initializeBlock_of`: the era
  transitions
* `poolSize_counts_members`: `PoolSize` counts the members in every reachable state
-/

namespace ValidatorPool

open Bounded Machine

variable {α : Type} [LinearOrder α] (cfg : Config)

omit [LinearOrder α] in
/-- Admission reads the caller's bounds of a stake validator, the tiki score, and the referral
count against the caller's threshold of a merit validator; the merit validator's
`special_tikis` are read by nothing. -/
theorem validateCategoryRequirements_eq_ok {src : Sources α} {who : α}
    {category : ValidatorPoolCategory} :
    validateCategoryRequirements cfg src who category = .ok () ↔
      match category with
      | .stakeValidator minStake trustThreshold =>
        cfg.minStakeAmount ≤ minStake ∧ trustThreshold ≤ src.trustScoreOf who
      | .parliamentaryValidator => 0 < src.getTikiScore who
      | .meritValidator _ communityThreshold =>
        0 < src.getTikiScore who ∧ communityThreshold ≤ src.getReferralCount who := by
  cases category <;>
    simp only [validateCategoryRequirements, bind_eq_ok, ensure_eq_ok, exists_const]

theorem joinValidatorPool_ok {src : Sources α} {s s' : State α} {origin : Origin α}
    {category : ValidatorPoolCategory} :
    joinValidatorPool cfg src s origin category = .ok s' ↔
      ∃ who, origin = .signed who ∧ s.poolMembers.get? who = none ∧
        s.poolSize < cfg.maxPoolSize ∧ validateCategoryRequirements cfg src who category = .ok () ∧
        s' = { s with
          poolMembers := s.poolMembers.insert who category
          poolSize := saturatingAdd 32 s.poolSize 1
          performanceMetrics :=
            Function.update s.performanceMetrics who ⟨0, 0, 0, s.currentEra, 100⟩
          events := s.events ++ [.validatorJoinedPool who category] } := by
  simp only [joinValidatorPool, bind_eq_ok, ensureSigned_eq_ok, ensure_eq_ok, pure_eq_ok,
    Unique.exists_iff, @eq_comm _ s']

theorem leaveValidatorPool_ok {s s' : State α} {origin : Origin α} :
    leaveValidatorPool s origin = .ok s' ↔
      ∃ who, origin = .signed who ∧ (s.poolMembers.get? who).isSome ∧
        s' = { s with
          poolMembers := s.poolMembers.remove who
          poolSize := s.poolSize - 1
          performanceMetrics := Function.update s.performanceMetrics who .default
          selectionHistory := Function.update s.selectionHistory who []
          events := s.events ++ [.validatorLeftPool who] } := by
  simp only [leaveValidatorPool, bind_eq_ok, ensureSigned_eq_ok, ensure_eq_ok, pure_eq_ok,
    exists_const, @eq_comm _ s']

theorem updateCategory_ok {src : Sources α} {s s' : State α} {origin : Origin α}
    {newCategory : ValidatorPoolCategory} :
    updateCategory cfg src s origin newCategory = .ok s' ↔
      ∃ who, origin = .signed who ∧ ∃ oldCategory, s.poolMembers.get? who = some oldCategory ∧
        validateCategoryRequirements cfg src who newCategory = .ok () ∧
        s' = { s with
          poolMembers := s.poolMembers.insert who newCategory
          events := s.events ++ [.categoryUpdated who oldCategory newCategory] } := by
  simp only [updateCategory, bind_eq_ok, ensureSigned_eq_ok, okOr_eq_ok, pure_eq_ok,
    Unique.exists_iff, PUnit.default_eq_unit, @eq_comm _ s']

theorem setPoolParameters_ok {s s' : State α} {origin : Origin α} {eraLength : Nat} :
    setPoolParameters cfg s origin eraLength = .ok s' ↔
      origin = .root ∧ s' = { s with
        eraLength
        events := s.events ++ [.poolParametersUpdated cfg.maxValidators eraLength] } := by
  simp only [setPoolParameters, bind_eq_ok, ensureRoot_eq_ok, pure_eq_ok, exists_const,
    @eq_comm _ s']

theorem updatePerformanceMetrics_ok {s s' : State α} {origin : Origin α} {validator : α}
    {blocksProduced blocksMissed eraPoints : Nat} :
    updatePerformanceMetrics s origin validator blocksProduced blocksMissed eraPoints = .ok s' ↔
      origin = .root ∧ s' = { s with
        performanceMetrics := Function.update s.performanceMetrics validator
          (updateMetrics s.currentEra blocksProduced blocksMissed eraPoints
            (s.performanceMetrics validator))
        events := s.events ++ [.performanceUpdated validator
          (updateMetrics s.currentEra blocksProduced blocksMissed eraPoints
            (s.performanceMetrics validator))] } := by
  simp only [updatePerformanceMetrics, bind_eq_ok, ensureRoot_eq_ok, pure_eq_ok, exists_const,
    @eq_comm _ s']

/-! ## Era transitions -/

theorem doNewEra_ok {s s' : State α} {seed : Hash} :
    doNewEra cfg s seed = .ok s' ↔ ∃ set, selectValidatorsForEra cfg s seed = .ok set ∧
      s' = { s with
        currentEra := saturatingAdd 32 s.currentEra 1
        eraStart := s.blockNumber
        currentValidatorSet := some set
        selectionHistory :=
          recordSelection (saturatingAdd 32 s.currentEra 1) set.allValidators s.selectionHistory
        events := s.events ++ [.newEraStarted (saturatingAdd 32 s.currentEra 1) set] } := by
  simp only [doNewEra, bind_eq_ok, pure_eq_ok, @eq_comm _ s']

theorem forceNewEra_ok {s s' : State α} {origin : Origin α} {seed : Hash} :
    forceNewEra cfg s origin seed = .ok s' ↔ origin = .root ∧ doNewEra cfg s seed = .ok s' := by
  simp only [forceNewEra, bind_eq_ok, ensureRoot_eq_ok, exists_const]

/-- The block hook leaves the state as it is, or commits a new era. -/
theorem onInitialize_cases (s : State α) (seed : Hash) :
    onInitialize cfg s seed = s ∨ doNewEra cfg s seed = .ok (onInitialize cfg s seed) := by
  unfold onInitialize
  split
  · cases h : doNewEra cfg s seed with
    | error e => exact .inl rfl
    | ok s' => exact .inr rfl
  · exact .inl rfl

/-- A property of the state before a new block, of the state at the new block number, and of
every era the hook can start there holds after the block. -/
theorem step_initializeBlock_of {P : State α → Prop} {s : State α} {blockNumber : Nat}
    {seed : Hash} (hs : P s) (hblock : P { s with blockNumber })
    (hnew : ∀ s', doNewEra cfg { s with blockNumber } seed = .ok s' → P s') :
    P (step cfg s (.initializeBlock blockNumber seed)) := by
  simp only [step]
  split
  · rcases onInitialize_cases cfg { s with blockNumber } seed with h | h
    · rw [h]
      exact hblock
    · exact hnew _ h
  · exact hs

/-! ## The size of the pool over runs -/

/-- `PoolSize` counts the members of the pool and stays within `MaxPoolSize`. -/
structure SizeInv (s : State α) : Prop where
  poolSize_eq : s.poolSize = s.poolMembers.keySet.card
  poolSize_le : s.poolSize ≤ cfg.maxPoolSize

theorem sizeInv_genesis : SizeInv cfg (genesis : State α) where
  poolSize_eq := rfl
  poolSize_le := Nat.zero_le _

namespace SizeInv

variable {cfg} {s : State α}

theorem of_frame (hi : SizeInv cfg s) {s' : State α} (hmembers : s'.poolMembers = s.poolMembers)
    (hsize : s'.poolSize = s.poolSize) : SizeInv cfg s' :=
  ⟨by rw [hmembers, hsize, hi.poolSize_eq], hsize ▸ hi.poolSize_le⟩

/-- A join adds a new key and one to the counter, which cannot saturate below `MaxPoolSize`. -/
theorem joinValidatorPool (hi : SizeInv cfg s) (hmax : cfg.maxPoolSize ≤ maxValue 32)
    {src : Sources α} {origin : Origin α} {category : ValidatorPoolCategory} {s' : State α}
    (h : ValidatorPool.joinValidatorPool cfg src s origin category = .ok s') : SizeInv cfg s' := by
  obtain ⟨who, -, hnew, hroom, -, rfl⟩ := (joinValidatorPool_ok cfg).mp h
  have hcount : saturatingAdd 32 s.poolSize 1 = s.poolSize + 1 := saturatingAdd_of_le (by omega)
  constructor
  · dsimp only
    rw [hcount, StorageMap.keySet_insert,
      Finset.card_insert_of_notMem (StorageMap.not_mem_keySet.mpr hnew), hi.poolSize_eq]
  · dsimp only
    omega

/-- A leave removes a key that is there, and one from the counter. -/
theorem leaveValidatorPool (hi : SizeInv cfg s) {origin : Origin α} {s' : State α}
    (h : ValidatorPool.leaveValidatorPool s origin = .ok s') : SizeInv cfg s' := by
  obtain ⟨who, -, hmember, rfl⟩ := leaveValidatorPool_ok.mp h
  obtain ⟨category, hget⟩ := Option.isSome_iff_exists.mp hmember
  constructor
  · dsimp only
    rw [StorageMap.keySet_remove,
      Finset.card_erase_of_mem (StorageMap.mem_keySet.mpr ⟨category, hget⟩), hi.poolSize_eq]
  · dsimp only
    have := hi.poolSize_le
    omega

/-- A new category for a member leaves the keys as they are. -/
theorem updateCategory (hi : SizeInv cfg s) {src : Sources α} {origin : Origin α}
    {newCategory : ValidatorPoolCategory} {s' : State α}
    (h : ValidatorPool.updateCategory cfg src s origin newCategory = .ok s') : SizeInv cfg s' := by
  obtain ⟨who, -, oldCategory, hget, -, rfl⟩ := (updateCategory_ok cfg).mp h
  refine ⟨?_, hi.poolSize_le⟩
  dsimp only
  rw [StorageMap.keySet_insert,
    Finset.insert_eq_of_mem (StorageMap.mem_keySet.mpr ⟨oldCategory, hget⟩), hi.poolSize_eq]

theorem doNewEra (hi : SizeInv cfg s) {seed : Hash} {s' : State α}
    (h : ValidatorPool.doNewEra cfg s seed = .ok s') : SizeInv cfg s' := by
  obtain ⟨set, -, rfl⟩ := (doNewEra_ok cfg).mp h
  exact hi.of_frame rfl rfl

theorem step (hi : SizeInv cfg s) (hmax : cfg.maxPoolSize ≤ maxValue 32) (a : Action α) :
    SizeInv cfg (step cfg s a) := by
  cases a with
  | joinValidatorPool origin category src =>
    exact commit_of_ok hi fun s' h => hi.joinValidatorPool hmax h
  | leaveValidatorPool origin => exact commit_of_ok hi fun s' h => hi.leaveValidatorPool h
  | forceNewEra origin seed =>
    exact commit_of_ok hi fun s' h => hi.doNewEra ((forceNewEra_ok cfg).mp h).2
  | updateCategory origin newCategory src =>
    exact commit_of_ok hi fun s' h => hi.updateCategory h
  | setPoolParameters origin eraLength =>
    refine commit_of_ok hi fun s' h => ?_
    obtain ⟨-, rfl⟩ := (setPoolParameters_ok cfg).mp h
    exact hi.of_frame rfl rfl
  | updatePerformanceMetrics origin validator blocksProduced blocksMissed eraPoints =>
    refine commit_of_ok hi fun s' h => ?_
    obtain ⟨-, rfl⟩ := updatePerformanceMetrics_ok.mp h
    exact hi.of_frame rfl rfl
  | initializeBlock blockNumber seed =>
    -- the hook runs from the state with the new block number
    have hi' : SizeInv cfg { s with blockNumber } := ⟨hi.poolSize_eq, hi.poolSize_le⟩
    exact step_initializeBlock_of cfg hi hi' fun _ h => hi'.doNewEra h

end SizeInv

/-- In every reachable state, `PoolSize` is the number of members of the pool, at most
`MaxPoolSize`, for a `MaxPoolSize` that fits in `u32`. -/
theorem poolSize_counts_members (hmax : cfg.maxPoolSize ≤ maxValue 32) {s : State α}
    (hs : Reachable (step cfg) genesis s) :
    s.poolSize = s.poolMembers.keySet.card ∧ s.poolSize ≤ cfg.maxPoolSize := by
  have hi : SizeInv cfg s := hs.invariant (sizeInv_genesis cfg) fun _ a hi => hi.step hmax a
  exact ⟨hi.poolSize_eq, hi.poolSize_le⟩

end ValidatorPool
