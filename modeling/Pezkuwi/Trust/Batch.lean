import Pezkuwi.Trust.Aggregate

/-!
# The batched walk of `update_all_trust_scores`

`update_all_trust_scores` walks the KYC map from the account saved in `LastProcessedAccount`,
updating approved accounts until a batch is full. The account at which a full batch stops is
saved as the cursor without being updated, and the next call skips every entry up to the cursor
and then the cursor itself. So a call that resumes never updates the cursor's account
(`trustScoreOf_updateAllTrustScores_cursor`), and a walk over 101 citizens, a batch of 100 and
one more call, ends with the 101st never scored (`boundary_citizen_never_updated`).

A call that starts a fresh walk, with no cursor saved, scores exactly the approved accounts
that have fewer approved accounts before them, in the order of the KYC map, than the batch size
(`updateAllTrustScores_fresh_batch`): the count the loop carries grows by one per approved
account, and the walk stops at the first entry it meets with the count at the batch size.

## Main definitions

* `approvedBefore`: the approved accounts the walk meets before an account

## Main results

* `trustScoreOf_updateAllLoop_found`, `trustScoreOf_updateAllLoop_seek`: the walk writes the
  scores of the accounts it updates only, and none before the cursor or at it
* `trustScoreOf_updateAllTrustScores_cursor`: a resumed call leaves the cursor's score alone
* `trustScoreOf_updateAllLoop_scored`, `trustScoreOf_updateAllLoop_unscored`: past the cursor,
  the walk scores an approved account exactly when the batch has room for it
* `updateAllTrustScores_fresh_batch`: the accounts a fresh call scores
* `boundary_citizen_never_updated`: the account at a batch boundary is skipped by the pass
-/

namespace Trust

open Bounded Machine IdentityKyc StorageMap

variable {α : Type} [LinearOrder α] (cfg : Config)

/-- One update writes the score of its own account only. -/
theorem trustScoreOf_commit_update {src : Sources α} {s : State α} {who x : α} (hx : x ≠ who) :
    trustScoreOf (commit ((updateScoreForAccount cfg src s who).map Prod.snd) s) x =
      trustScoreOf s x := by
  refine apply_commit_eq (fun t => trustScoreOf t x) fun t ht => ?_
  obtain ⟨⟨score, t'⟩, hupdate, rfl⟩ := map_eq_ok.mp ht
  obtain ⟨-, rfl⟩ := updateScoreForAccount_ok cfg hupdate
  split_ifs
  · rfl
  · simp only [trustScoreOf, getD_insert, if_neg hx]

variable {src : Sources α} {startKey : Option α} {batchSize : Nat}

/-- Past the cursor the walk writes only the scores of accounts it reaches. -/
theorem trustScoreOf_updateAllLoop_found {x : α} (l : List (α × KycLevel)) :
    ∀ (count : Nat) (s : State α), x ∉ l.map Prod.fst →
      trustScoreOf (updateAllLoop cfg src startKey batchSize l true count s).1 x =
        trustScoreOf s x := by
  induction l with
  | nil => exact fun _ _ _ => rfl
  | cons entry rest ih =>
    obtain ⟨account, kycLevel⟩ := entry
    intro count s hx
    rw [List.map_cons, List.mem_cons, not_or] at hx
    simp only [updateAllLoop, Bool.not_true, Bool.false_eq_true, if_false]
    split_ifs
    · -- the batch is full: only the cursor is written
      rfl
    · rw [ih _ _ hx.2, trustScoreOf_commit_update cfg hx.1]
    · exact ih _ _ hx.2

/-- Up to the cursor the walk writes nothing, and at the cursor it moves on without an update. -/
theorem trustScoreOf_updateAllLoop_seek {x : α} (l : List (α × KycLevel))
    (hl : (l.map Prod.fst).Nodup) (count : Nat) (s : State α) :
    trustScoreOf (updateAllLoop cfg src (some x) batchSize l false count s).1 x =
      trustScoreOf s x := by
  induction l with
  | nil => rfl
  | cons entry rest ih =>
    obtain ⟨account, kycLevel⟩ := entry
    rw [List.map_cons, List.nodup_cons] at hl
    simp only [updateAllLoop, Bool.not_false, if_true]
    by_cases hax : account = x
    · -- the cursor: the rest of the walk does not meet it again
      subst hax
      rw [show (some account == some account) = true from beq_self_eq_true _]
      exact trustScoreOf_updateAllLoop_found cfg rest count s hl.1
    · have hne : (some account == some x) = false := by simpa using hax
      rw [hne]
      exact ih hl.2

/-- A call that resumes at a cursor never updates the cursor's account. -/
theorem trustScoreOf_updateAllTrustScores_cursor {s : State α} {x : α}
    (hx : s.lastProcessedAccount = some x) :
    trustScoreOf (updateAllTrustScores cfg src s) x = trustScoreOf s x := by
  unfold updateAllTrustScores
  rw [hx]
  dsimp only
  -- both outcomes keep the scores the walk left
  split_ifs
  · exact trustScoreOf_updateAllLoop_seek cfg _ src.kycStatuses.keys_nodup 0 s
  · exact trustScoreOf_updateAllLoop_seek cfg _ src.kycStatuses.keys_nodup 0 s

/-! ## Which accounts a fresh call scores -/

/-- The approved accounts the walk meets before `who` in the entries `l`: those with a smaller
key. -/
def approvedBefore (who : α) (l : List (α × KycLevel)) : Nat :=
  l.countP fun e => e.1 < who ∧ e.2 = .approved

theorem approvedBefore_cons (who account : α) (kycLevel : KycLevel) (l : List (α × KycLevel)) :
    approvedBefore who ((account, kycLevel) :: l) =
      approvedBefore who l + if account < who ∧ kycLevel = .approved then 1 else 0 := by
  simp only [approvedBefore, List.countP_cons, decide_eq_true_eq]

theorem approvedBefore_eq_zero {who : α} {l : List (α × KycLevel)} (h : ∀ e ∈ l, who < e.1) :
    approvedBefore who l = 0 :=
  List.countP_eq_zero.mpr fun e he hlt => lt_asymm (h e he) (of_decide_eq_true hlt).1

/-- The batch is at most 500 accounts. -/
theorem calculateOptimalBatchSize_le (src : Sources α) : calculateOptimalBatchSize src ≤ 500 := by
  unfold calculateOptimalBatchSize
  dsimp only
  split_ifs <;> omega

/-- An update whose score is computed stores it. -/
theorem trustScoreOf_commit_update_self {src : Sources α} {s : State α} {who : α} {score : Nat}
    (hcalc : calculateTrustScore cfg src who = .ok score) :
    trustScoreOf (commit ((updateScoreForAccount cfg src s who).map Prod.snd) s) who = score := by
  rw [updateScoreForAccount_of_calculate cfg hcalc]
  show trustScoreOf (if trustScoreOf s who = score then s else _) who = score
  split_ifs with hsame
  · exact hsame
  · simp only [trustScoreOf, getD_insert, if_true]

/-- Past the cursor, an approved account with fewer approved accounts before it than the batch
still has room for is scored: the count grows by one per approved account only. -/
theorem trustScoreOf_updateAllLoop_scored {who : α} {score : Nat}
    (hcalc : calculateTrustScore cfg src who = .ok score) (hbatch : batchSize < 2 ^ 32)
    (l : List (α × KycLevel)) :
    ∀ (count : Nat) (s : State α), l.Pairwise (fun a b => a.1 < b.1) →
      (who, .approved) ∈ l → count + approvedBefore who l < batchSize →
      trustScoreOf (updateAllLoop cfg src startKey batchSize l true count s).1 who = score := by
  induction l with
  | nil => exact fun _ _ _ hmem => absurd hmem List.not_mem_nil
  | cons entry rest ih =>
    obtain ⟨account, kycLevel⟩ := entry
    intro count s hl hmem hcount
    rw [List.pairwise_cons] at hl
    rw [approvedBefore_cons] at hcount
    have hroom : ¬ batchSize ≤ count := by omega
    simp only [updateAllLoop, Bool.not_true, Bool.false_eq_true, if_false, if_neg hroom]
    rcases List.mem_cons.mp hmem with heq | hrest
    · -- `who` is reached: it is updated, and the rest of the walk does not meet it again
      obtain ⟨rfl, rfl⟩ := Prod.mk.inj heq
      rw [if_pos rfl, trustScoreOf_updateAllLoop_found cfg rest _ _
        fun hin => lt_irrefl _ (List.forall_mem_map.mpr hl.1 _ hin),
        trustScoreOf_commit_update_self cfg hcalc]
    · have hbefore : account < who := hl.1 _ hrest
      by_cases happroved : kycLevel = .approved
      · rw [if_pos happroved]
        rw [if_pos ⟨hbefore, happroved⟩] at hcount
        rw [wrappingAdd_of_lt (by omega)]
        exact ih _ _ hl.2 hrest (by omega)
      · rw [if_neg happroved]
        rw [if_neg fun h => happroved h.2] at hcount
        exact ih _ _ hl.2 hrest (by omega)

/-- Past the cursor, an account that is not approved, or that the batch fills before, is not
scored: the walk stops at the latest when it reaches it. -/
theorem trustScoreOf_updateAllLoop_unscored {who : α} (hbatch : batchSize < 2 ^ 32)
    (l : List (α × KycLevel)) :
    ∀ (count : Nat) (s : State α), l.Pairwise (fun a b => a.1 < b.1) →
      ((who, .approved) ∉ l ∨ batchSize ≤ count + approvedBefore who l) →
      trustScoreOf (updateAllLoop cfg src startKey batchSize l true count s).1 who =
        trustScoreOf s who := by
  induction l with
  | nil => exact fun _ _ _ _ => rfl
  | cons entry rest ih =>
    obtain ⟨account, kycLevel⟩ := entry
    intro count s hl hwho
    rw [List.pairwise_cons] at hl
    rw [List.mem_cons, not_or, approvedBefore_cons] at hwho
    simp only [updateAllLoop, Bool.not_true, Bool.false_eq_true, if_false]
    split_ifs with hfull happroved
    · -- the batch is full: only the cursor is written
      rfl
    · by_cases hax : account = who
      · -- `who` is reached with room left, so it cannot be approved
        subst hax
        exfalso
        rcases hwho with ⟨hne, -⟩ | hle
        · exact hne (by rw [happroved])
        · rw [approvedBefore_eq_zero hl.1, if_neg fun h => lt_irrefl _ h.1] at hle
          omega
      · rw [ih _ _ hl.2 ?_, trustScoreOf_commit_update cfg (Ne.symm hax)]
        rcases hwho with ⟨-, hrest⟩ | hle
        · exact .inl hrest
        · refine .inr ?_
          rw [wrappingAdd_of_lt (by omega)]
          split_ifs at hle <;> omega
    · rw [ih _ _ hl.2 ?_]
      rcases hwho with ⟨-, hrest⟩ | hle
      · exact .inl hrest
      · rw [if_neg fun h => happroved h.2] at hle
        exact .inr (by omega)

/-- A call that starts a fresh walk, with no cursor saved, scores exactly the approved accounts
that come before the batch is full: an approved account with fewer approved accounts before it,
in the order of the KYC map, than the batch size gets its computed score, and every other
account keeps its score. -/
theorem updateAllTrustScores_fresh_batch {s : State α} (hs : s.lastProcessedAccount = none)
    (who : α) :
    (∀ score, src.kycStatuses.get? who = some .approved →
      approvedBefore who src.kycStatuses.entries < calculateOptimalBatchSize src →
      calculateTrustScore cfg src who = .ok score →
      trustScoreOf (updateAllTrustScores cfg src s) who = score) ∧
    (src.kycStatuses.get? who ≠ some .approved ∨
        calculateOptimalBatchSize src ≤ approvedBefore who src.kycStatuses.entries →
      trustScoreOf (updateAllTrustScores cfg src s) who = trustScoreOf s who) := by
  have hbatch : calculateOptimalBatchSize src < 2 ^ 32 :=
    (calculateOptimalBatchSize_le src).trans_lt (by decide)
  -- both outcomes of the walk keep the scores it left
  have hcall : trustScoreOf (updateAllTrustScores cfg src s) who =
      trustScoreOf (updateAllLoop cfg src none (calculateOptimalBatchSize src)
        src.kycStatuses.entries true 0 s).1 who := by
    unfold updateAllTrustScores
    rw [hs]
    dsimp only [Option.isNone_none]
    split_ifs <;> rfl
  refine ⟨fun score hwho hbefore hcalc => ?_, fun hwho => ?_⟩
  · rw [hcall]
    exact trustScoreOf_updateAllLoop_scored cfg hcalc hbatch _ 0 s src.kycStatuses.sorted
      (mem_entries.mpr hwho) (by omega)
  · rw [hcall]
    refine trustScoreOf_updateAllLoop_unscored cfg hbatch _ 0 s src.kycStatuses.sorted ?_
    rcases hwho with hne | hle
    · exact .inl fun hmem => hne (mem_entries.mp hmem)
    · exact .inr (by omega)

/-! ## A batch boundary -/

/-- The trust sources of 101 approved accounts, `0` to `100`, each with stake `1`. -/
def boundarySources : Sources Nat :=
  citizenSources 101 1 (by decide)

/-- A fresh call over the 101 citizens, whose batch is 100, scores account `99`, with 99 approved
accounts before it, and leaves account `100`, with 100 before it, at zero. -/
theorem updateAllTrustScores_fresh_batch_boundary :
    (genesis : State Nat).lastProcessedAccount = none ∧
      (∃ score, calculateTrustScore runtimeConfig boundarySources 99 = .ok score ∧
        trustScoreOf (updateAllTrustScores runtimeConfig boundarySources genesis) 99 = score) ∧
      trustScoreOf (updateAllTrustScores runtimeConfig boundarySources genesis) 100 = 0 := by
  have hfresh :=
    @updateAllTrustScores_fresh_batch Nat _ runtimeConfig boundarySources genesis rfl
  refine ⟨rfl, ⟨_, rfl, (hfresh 99).1 _ (by decide +kernel) (by decide +kernel) rfl⟩,
    (hfresh 100).2 (.inr (by decide +kernel))⟩

/-- One call of `update_all_trust_scores` from genesis: a batch of 100. -/
def firstBatchState : State Nat :=
  run (step runtimeConfig) genesis [.updateAllTrustScores .root boundarySources]

/-- The first batch stops at account `100`, which the next call then skips. -/
theorem cursor_skipped_after_first_batch :
    firstBatchState.lastProcessedAccount = some 100 ∧
      trustScoreOf (updateAllTrustScores runtimeConfig boundarySources firstBatchState) 100 =
        trustScoreOf firstBatchState 100 :=
  ⟨by decide +kernel, trustScoreOf_updateAllTrustScores_cursor runtimeConfig (by decide +kernel)⟩

/-- Two calls of `update_all_trust_scores` from genesis. -/
def boundaryState : State Nat :=
  run (step runtimeConfig) genesis
    [.updateAllTrustScores .root boundarySources, .updateAllTrustScores .root boundarySources]

/-- After the two calls the walk is complete, the cursor cleared and no batch in progress, as
when `AllTrustScoresUpdated` is deposited. Account `99` was scored, but account `100`, at which
the first batch of 100 stopped, still has score zero, though its score is positive. -/
theorem boundary_citizen_never_updated :
    boundaryState.lastProcessedAccount = none ∧ boundaryState.batchUpdateInProgress = false ∧
      trustScoreOf boundaryState 99 ≠ 0 ∧ trustScoreOf boundaryState 100 = 0 ∧
      (∃ score, calculateTrustScore runtimeConfig boundarySources 100 = .ok score ∧ score ≠ 0) := by
  -- the two calls, evaluated once
  obtain ⟨hcursor, hflag, h99, h100⟩ : boundaryState.lastProcessedAccount = none ∧
      boundaryState.batchUpdateInProgress = false ∧ trustScoreOf boundaryState 99 ≠ 0 ∧
      trustScoreOf boundaryState 100 = 0 := by
    decide +kernel
  exact ⟨hcursor, hflag, h99, h100, _, rfl, by decide⟩

end Trust
