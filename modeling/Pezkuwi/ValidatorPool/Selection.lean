import Pezkuwi.ValidatorPool.Calls

/-!
# The validator pool: who is selected for an era

`select_validators_for_era` walks the pool once and caps each category at its target while it
walks, before anything is shuffled. The shuffle only reorders what the walk kept, and the
truncation after it removes nothing, so each category of the new set is a reordering of the first
eligible members of that category in the order of the pool (`selectValidatorsForEra_perm`). The
random seed decides the order within a category, never who is in it, nor whether the selection
succeeds (`selectValidatorsForEra_isOk`). With more eligible members than its target, a category
leaves its last eligible members out whatever the seed: eleven stake validators in the runtime's
pool, one of which is never selected (`eligible_member_never_selected`).

## Main definitions

* `ValidatorSet.bucket`: the list of one category of a set
* `eligibleMembers s b`: the eligible members of a category, in the order of the pool
* `selectedMembers cfg s b`: the first of them, up to the category's target

## Main results

* `collectCandidates_eq`: the walk keeps the first eligible members of each category
* `shuffleValidators_perm`: the shuffle is a permutation
* `selectValidatorsForEra_perm`: each category of a selected set reorders the selected members
* `mem_bucket_of_selectValidatorsForEra`: a selected account is an eligible member of its category
* `selectValidatorsForEra_isOk`: the selection succeeds by the numbers of selected members only
* `selection_ignores_seed`: two seeds select the same validators, in other orders
* `eligible_member_never_selected`: an eligible stake validator that no seed selects
-/

namespace ValidatorPool

open Bounded Machine

variable {α : Type} [LinearOrder α] (cfg : Config)

/-- The list of one category in a validator set. -/
def ValidatorSet.bucket (set : ValidatorSet α) : Bucket → List α
  | .stake => set.stakeValidators
  | .parliamentary => set.parliamentaryValidators
  | .merit => set.meritValidators

/-- The eligible members of the pool in one category, in the order the walk meets them. -/
def eligibleMembers (s : State α) (b : Bucket) : List α :=
  (s.poolMembers.entries.filter fun e => isEligible s e.1 && decide (e.2.bucket = b)).map
    Prod.fst

/-- The members the walk keeps in one category: the first eligible ones, up to the target. -/
def selectedMembers (s : State α) (b : Bucket) : List α :=
  (eligibleMembers s b).take (bucketTarget cfg b)

omit [LinearOrder α] in
theorem mem_allValidators {set : ValidatorSet α} {a : α} :
    a ∈ set.allValidators ↔ ∃ b, a ∈ set.bucket b := by
  constructor
  · intro h
    simp only [ValidatorSet.allValidators, List.mem_append] at h
    rcases h with (h | h) | h
    · exact ⟨.stake, h⟩
    · exact ⟨.parliamentary, h⟩
    · exact ⟨.merit, h⟩
  · rintro ⟨b, h⟩
    cases b <;> simp_all [ValidatorSet.allValidators, ValidatorSet.bucket]

/-- An eligible member of a category is a member of the pool in that category, eligible in the
state. -/
theorem mem_eligibleMembers {s : State α} {b : Bucket} {a : α} :
    a ∈ eligibleMembers s b ↔
      ∃ category, s.poolMembers.get? a = some category ∧ category.bucket = b ∧
        isEligible s a = true := by
  simp only [eligibleMembers, List.mem_map, List.mem_filter, Bool.and_eq_true, decide_eq_true_eq]
  constructor
  · rintro ⟨⟨a', category⟩, ⟨hmem, heligible, hb⟩, rfl⟩
    exact ⟨category, StorageMap.mem_entries.mp hmem, hb, heligible⟩
  · rintro ⟨category, hget, hb, heligible⟩
    exact ⟨(a, category), ⟨StorageMap.mem_entries.mpr hget, heligible, hb⟩, rfl⟩

/-! ## The walk over the pool -/

/-- The walk from any lists below their targets: each category ends with the first of its
lists followed by the eligible members met, up to the target. The induction is on the entries
left to walk. -/
theorem collectCandidates_eq (s : State α) (entries : List (α × ValidatorPoolCategory))
    (candidates : Bucket → List α) (b : Bucket)
    (hlen : (candidates b).length ≤ bucketTarget cfg b) :
    collectCandidates cfg s entries candidates b =
      (candidates b ++ (entries.filter fun e => isEligible s e.1 && decide (e.2.bucket = b)).map
        Prod.fst).take (bucketTarget cfg b) := by
  induction entries generalizing candidates with
  | nil => simp [collectCandidates, List.take_of_length_le hlen]
  | cons e rest ih =>
    obtain ⟨validator, category⟩ := e
    simp only [collectCandidates]
    by_cases hb : category.bucket = b
    · subst hb
      by_cases hpush : isEligible s validator = true ∧
          (candidates category.bucket).length < bucketTarget cfg category.bucket
      · -- the validator is pushed onto its category's list
        rw [if_pos hpush, ih _ (by
          simp only [Function.update_self, List.length_append, List.length_singleton]
          exact hpush.2)]
        simp [hpush.1]
      · rw [if_neg hpush, ih _ hlen]
        by_cases heligible : isEligible s validator = true
        · -- the list is full already: nothing more is kept
          have hfull : (candidates category.bucket).length = bucketTarget cfg category.bucket :=
            Nat.le_antisymm hlen (Nat.not_lt.mp fun hlt => hpush ⟨heligible, hlt⟩)
          simp [heligible, List.take_append_of_le_length hfull.ge, List.take_of_length_le hfull.le]
        · simp [heligible]
    · -- another category's list may grow; this one stays
      have hkeep : (if isEligible s validator = true ∧
            (candidates category.bucket).length < bucketTarget cfg category.bucket then
          Function.update candidates category.bucket (candidates category.bucket ++ [validator])
        else candidates) b = candidates b := by
        split <;> simp [Function.update_of_ne (Ne.symm hb)]
      rw [ih _ (hkeep ▸ hlen), hkeep]
      simp [hb]

/-- The walk over the pool keeps each category's selected members. -/
theorem collectCandidates_poolMembers (s : State α) (b : Bucket) :
    collectCandidates cfg s s.poolMembers.entries (fun _ => []) b = selectedMembers cfg s b := by
  rw [collectCandidates_eq cfg s _ _ b (Nat.zero_le _)]
  rfl

/-! ## The shuffle -/

omit [LinearOrder α] in
/-- Each round of the loop swaps two positions, so the loop is a permutation. -/
theorem shuffleLoop_perm (seed : Hash) (i : Nat) (validators : List α) (index : Nat) :
    (shuffleLoop seed i validators index).1.Perm validators := by
  induction i generalizing validators index with
  | zero => exact List.Perm.refl _
  | succ i ih =>
    simp only [shuffleLoop]
    exact (ih _ _).trans (BoundedVec.swap_perm _ _ _)

omit [LinearOrder α] in
theorem shuffleValidators_perm (seed : Hash) (validators : List α) (index : Nat) :
    (shuffleValidators seed validators index).1.Perm validators :=
  shuffleLoop_perm seed _ validators index

/-! ## The selection -/

omit [LinearOrder α] in
theorem buildValidatorSet_ok {currentEra : Nat} {stakeValidators parliamentaryValidators
    meritValidators : List α} {set : ValidatorSet α} :
    buildValidatorSet currentEra stakeValidators parliamentaryValidators meritValidators =
        .ok set ↔
      3 ≤ stakeValidators.length + parliamentaryValidators.length + meritValidators.length ∧
        stakeValidators.length ≤ bucketBound .stake ∧
        parliamentaryValidators.length ≤ bucketBound .parliamentary ∧
        meritValidators.length ≤ bucketBound .merit ∧
        set = ⟨saturatingAdd 32 currentEra 1, stakeValidators, parliamentaryValidators,
          meritValidators⟩ := by
  simp only [buildValidatorSet, bind_eq_ok, ensure_eq_ok, pure_eq_ok, exists_const,
    @eq_comm _ set]

/-- The selection is the check of three reorderings of the selected members, one per
category: the seed picks the reorderings and nothing else. -/
theorem selectValidatorsForEra_eq (s : State α) (seed : Hash) :
    ∃ stake parliamentary merit : List α, stake.Perm (selectedMembers cfg s .stake) ∧
      parliamentary.Perm (selectedMembers cfg s .parliamentary) ∧
      merit.Perm (selectedMembers cfg s .merit) ∧
      selectValidatorsForEra cfg s seed = buildValidatorSet s.currentEra stake parliamentary merit := by
  -- the shuffled lists of the three categories, with the index each passes on
  rcases hstake : shuffleValidators seed (selectedMembers cfg s .stake) 0 with ⟨stake, index₁⟩
  rcases hparliamentary : shuffleValidators seed (selectedMembers cfg s .parliamentary) index₁ with
    ⟨parliamentary, index₂⟩
  rcases hmerit : shuffleValidators seed (selectedMembers cfg s .merit) index₂ with ⟨merit, index₃⟩
  have hpermStake : stake.Perm (selectedMembers cfg s .stake) := by
    simpa [hstake] using shuffleValidators_perm seed (selectedMembers cfg s .stake) 0
  have hpermParliamentary : parliamentary.Perm (selectedMembers cfg s .parliamentary) := by
    simpa [hparliamentary] using
      shuffleValidators_perm seed (selectedMembers cfg s .parliamentary) index₁
  have hpermMerit : merit.Perm (selectedMembers cfg s .merit) := by
    simpa [hmerit] using shuffleValidators_perm seed (selectedMembers cfg s .merit) index₂
  refine ⟨stake, parliamentary, merit, hpermStake, hpermParliamentary, hpermMerit, ?_⟩
  -- the truncations remove nothing: each list is as long as its selected members
  have htake {l : List α} {b : Bucket} (hperm : l.Perm (selectedMembers cfg s b)) :
      l.take (bucketTarget cfg b) = l :=
    List.take_of_length_le (hperm.length_eq ▸ List.length_take_le _ _)
  simp only [selectValidatorsForEra, collectCandidates_poolMembers, hstake, hparliamentary, hmerit]
  rw [htake hpermStake, htake hpermParliamentary, htake hpermMerit]

/-- Each category of a selected set reorders the category's selected members, and the set is
indexed by the next era. -/
theorem selectValidatorsForEra_perm {s : State α} {seed : Hash} {set : ValidatorSet α}
    (h : selectValidatorsForEra cfg s seed = .ok set) :
    set.eraIndex = saturatingAdd 32 s.currentEra 1 ∧
      ∀ b, (set.bucket b).Perm (selectedMembers cfg s b) := by
  obtain ⟨stake, parliamentary, merit, hstake, hparliamentary, hmerit, heq⟩ :=
    selectValidatorsForEra_eq cfg s seed
  rw [heq, buildValidatorSet_ok] at h
  obtain ⟨-, -, -, -, rfl⟩ := h
  refine ⟨rfl, fun b => ?_⟩
  cases b
  · exact hstake
  · exact hparliamentary
  · exact hmerit

/-- Whether the selection succeeds depends on the numbers of selected members only, never on
the seed. -/
theorem selectValidatorsForEra_isOk (s : State α) (seed : Hash) :
    (∃ set, selectValidatorsForEra cfg s seed = .ok set) ↔
      3 ≤ (selectedMembers cfg s .stake).length + (selectedMembers cfg s .parliamentary).length +
          (selectedMembers cfg s .merit).length ∧
        (selectedMembers cfg s .stake).length ≤ bucketBound .stake ∧
        (selectedMembers cfg s .parliamentary).length ≤ bucketBound .parliamentary ∧
        (selectedMembers cfg s .merit).length ≤ bucketBound .merit := by
  obtain ⟨stake, parliamentary, merit, hstake, hparliamentary, hmerit, heq⟩ :=
    selectValidatorsForEra_eq cfg s seed
  simp only [heq, buildValidatorSet_ok, exists_and_left, exists_eq, and_true,
    hstake.length_eq, hparliamentary.length_eq, hmerit.length_eq]

/-- A selected account is an eligible member of the pool in the matching category. -/
theorem mem_bucket_of_selectValidatorsForEra {s : State α} {seed : Hash} {set : ValidatorSet α}
    (h : selectValidatorsForEra cfg s seed = .ok set) {b : Bucket} {a : α}
    (ha : a ∈ set.bucket b) :
    ∃ category, s.poolMembers.get? a = some category ∧ category.bucket = b ∧
      isEligible s a = true :=
  mem_eligibleMembers.mp
    (List.mem_of_mem_take (((selectValidatorsForEra_perm cfg h).2 b).subset ha))

/-- A selected validator is an eligible member of the pool. -/
theorem eligible_of_selectValidatorsForEra {s : State α} {seed : Hash} {set : ValidatorSet α}
    (h : selectValidatorsForEra cfg s seed = .ok set) {a : α} (ha : a ∈ set.allValidators) :
    (s.poolMembers.get? a).isSome ∧ isEligible s a = true := by
  obtain ⟨b, hb⟩ := mem_allValidators.mp ha
  obtain ⟨category, hget, -, heligible⟩ := mem_bucket_of_selectValidatorsForEra cfg h hb
  exact ⟨by simp [hget], heligible⟩

/-- Two seeds select the same validators for the same era, each category in its own order; and
one selection succeeds exactly when the other does. -/
theorem selection_ignores_seed (s : State α) (seed₁ seed₂ : Hash) :
    ((∃ set, selectValidatorsForEra cfg s seed₁ = .ok set) ↔
        ∃ set, selectValidatorsForEra cfg s seed₂ = .ok set) ∧
      ∀ set₁ set₂, selectValidatorsForEra cfg s seed₁ = .ok set₁ →
        selectValidatorsForEra cfg s seed₂ = .ok set₂ →
        set₁.eraIndex = set₂.eraIndex ∧ ∀ b, (set₁.bucket b).Perm (set₂.bucket b) := by
  refine ⟨(selectValidatorsForEra_isOk cfg s seed₁).trans
    (selectValidatorsForEra_isOk cfg s seed₂).symm, fun set₁ set₂ h₁ h₂ => ?_⟩
  obtain ⟨hindex₁, hperm₁⟩ := selectValidatorsForEra_perm cfg h₁
  obtain ⟨hindex₂, hperm₂⟩ := selectValidatorsForEra_perm cfg h₂
  exact ⟨hindex₁.trans hindex₂.symm, fun b => (hperm₁ b).trans (hperm₂ b).symm⟩

/-! ## A stake validator no seed selects -/

/-- What the other pallets report of an account with no scores at all. -/
def noScores : Sources Nat :=
  ⟨fun _ => 0, fun _ => 0, fun _ => 0⟩

/-- Accounts `0` to `10` join the pool as stake validators, each with the runtime's minimum stake
and no trust threshold. -/
def elevenStakeState : State Nat :=
  run (step runtimeConfig) genesis ((List.range 11).map fun a =>
    .joinValidatorPool (.signed a) (.stakeValidator (10_000 * 1_000_000_000_000) 0) noScores)

/-- Eleven stake validators are eligible for the ten stake seats, and whatever the seed,
`force_new_era` installs a set without the last of them. -/
theorem eligible_member_never_selected :
    eligibleMembers elevenStakeState .stake = List.range 11 ∧
      bucketTarget runtimeConfig .stake = 10 ∧
      ∀ seed, ∃ set,
        (step runtimeConfig elevenStakeState (.forceNewEra .root seed)).currentValidatorSet =
          some set ∧ 10 ∉ set.allValidators := by
  have heligible : eligibleMembers elevenStakeState .stake = List.range 11 ∧
      eligibleMembers elevenStakeState .parliamentary = [] ∧
      eligibleMembers elevenStakeState .merit = [] := by
    decide +kernel
  have htarget : bucketTarget runtimeConfig .stake = 10 := by
    decide +kernel
  refine ⟨heligible.1, htarget, fun seed => ?_⟩
  obtain ⟨stake, parliamentary, merit, hstake, hparliamentary, hmerit, heq⟩ :=
    selectValidatorsForEra_eq runtimeConfig elevenStakeState seed
  -- the seed reorders the first ten stake validators, and the other categories are empty
  rw [selectedMembers, heligible.1, htarget] at hstake
  rw [selectedMembers, heligible.2.1, List.take_nil, List.perm_nil] at hparliamentary
  rw [selectedMembers, heligible.2.2, List.take_nil, List.perm_nil] at hmerit
  subst hparliamentary hmerit
  have hlen : stake.length = 10 := hstake.length_eq
  have hselect : selectValidatorsForEra runtimeConfig elevenStakeState seed =
      .ok ⟨saturatingAdd 32 elevenStakeState.currentEra 1, stake, [], []⟩ := by
    rw [heq, buildValidatorSet_ok]
    simp [hlen, bucketBound]
  refine ⟨⟨saturatingAdd 32 elevenStakeState.currentEra 1, stake, [], []⟩, ?_, ?_⟩
  · have hforce := (forceNewEra_ok runtimeConfig).mpr
      ⟨rfl, (doNewEra_ok runtimeConfig).mpr ⟨_, hselect, rfl⟩⟩
    rw [step, hforce, commit_ok]
  · simp [ValidatorSet.allValidators, hstake.mem_iff]

/-- Two seeds, two orders of the same ten stake validators. -/
theorem selection_ignores_seed_for_eleven :
    selectValidatorsForEra runtimeConfig elevenStakeState (fun _ => 0) =
        .ok ⟨1, [1, 2, 3, 4, 5, 6, 7, 8, 9, 0], [], []⟩ ∧
      selectValidatorsForEra runtimeConfig elevenStakeState
          (fun i => ⟨i.val * 7 % 256, Nat.mod_lt _ (by decide)⟩) =
        .ok ⟨1, [3, 5, 1, 2, 8, 4, 9, 6, 7, 0], [], []⟩ ∧
      ∀ b, ((⟨1, [1, 2, 3, 4, 5, 6, 7, 8, 9, 0], [], []⟩ : ValidatorSet Nat).bucket b).Perm
        ((⟨1, [3, 5, 1, 2, 8, 4, 9, 6, 7, 0], [], []⟩ : ValidatorSet Nat).bucket b) := by
  have h₁ : selectValidatorsForEra runtimeConfig elevenStakeState (fun _ => 0) =
      .ok ⟨1, [1, 2, 3, 4, 5, 6, 7, 8, 9, 0], [], []⟩ := by
    decide +kernel
  have h₂ : selectValidatorsForEra runtimeConfig elevenStakeState
      (fun i => ⟨i.val * 7 % 256, Nat.mod_lt _ (by decide)⟩) =
        .ok ⟨1, [3, 5, 1, 2, 8, 4, 9, 6, 7, 0], [], []⟩ := by
    decide +kernel
  exact ⟨h₁, h₂, ((selection_ignores_seed runtimeConfig elevenStakeState _ _).2 _ _ h₁ h₂).2⟩

end ValidatorPool
