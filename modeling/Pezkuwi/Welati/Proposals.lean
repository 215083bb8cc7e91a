import Pezkuwi.Welati.Appointments

/-!
# Welati: the collective votes

`vote_on_proposal` records one `CollectiveVotes` entry per account and proposal, and raises the
proposal's count of the vote's choice and its `votes_cast` by one, saturating. In every reachable
state the counts are exactly the recorded votes, each clamped at `u32::MAX`, for every proposal
id below `u32::MAX` (`collectiveVotes_counted`). `NextProposalId` saturates there, and every
later proposal overwrites the record at `u32::MAX` while its votes stay.

The vote reads neither the proposal's status nor its window: on a proposal that is not the
parliament's, a vote cast in the block of the submission is recorded a day before the voting
opens (`submitProposal_voteOnProposal`, `early_vote_recorded`).

## Main definitions

* `CollectiveProposal.votesOf`: a proposal's count of one choice
* `votesFor g p c`, `votesRecorded g p`: the votes recorded on proposal `p`, of choice `c` and all
* `ProposalInv`: the counting law, with the facts that carry it

## Main results

* `ProposalInv.governmentStep`, `proposalInv_of_reachable`: every step keeps the counting law
* `collectiveVotes_counted`: the law in every reachable state
* `submitProposal_voteOnProposal`: a proposal submitted and voted on in one block
* `early_vote_recorded`: a vote recorded a day before its proposal's voting opens
-/

namespace Welati

open Bounded Machine

variable {α : Type} [LinearOrder α] {cfg : Config α} {g g' : Government α}

/-! ## The counts -/

/-- The count a proposal keeps of the votes of one choice. -/
def CollectiveProposal.votesOf (proposal : CollectiveProposal α) : VoteChoice → Nat
  | .aye => proposal.ayeVotes
  | .nay => proposal.nayVotes
  | .abstain => proposal.abstainVotes

omit [LinearOrder α] in
/-- A vote raises the count of its own choice only. -/
@[simp] theorem votesOf_addVote (proposal : CollectiveProposal α) (vote c : VoteChoice) :
    (proposal.addVote vote).votesOf c =
      if c = vote then saturatingAdd 32 (proposal.votesOf c) 1 else proposal.votesOf c := by
  cases vote <;> cases c <;> rfl

omit [LinearOrder α] in
@[simp] theorem votesCast_addVote (proposal : CollectiveProposal α) (vote : VoteChoice) :
    (proposal.addVote vote).votesCast = saturatingAdd 32 proposal.votesCast 1 := by
  cases vote <;> rfl

/-- The votes recorded on proposal `proposalId` whose choice is `c`. -/
def votesFor (g : Government α) (proposalId : Nat) (c : VoteChoice) : Nat :=
  (g.collectiveVotes proposalId).sumBy fun _ info => if info.vote = c then 1 else 0

/-- The votes recorded on proposal `proposalId`. -/
def votesRecorded (g : Government α) (proposalId : Nat) : Nat :=
  (g.collectiveVotes proposalId).sumBy fun _ _ => 1

/-- Every recorded vote is of exactly one choice. -/
theorem votesFor_add (g : Government α) (proposalId : Nat) :
    votesFor g proposalId .aye + votesFor g proposalId .nay + votesFor g proposalId .abstain =
      votesRecorded g proposalId := by
  rw [votesFor, votesFor, votesFor, ← StorageMap.sumBy_add, ← StorageMap.sumBy_add, votesRecorded]
  refine StorageMap.sumBy_congr fun _ info _ => ?_
  obtain ⟨_, _, vote, _⟩ := info
  cases vote <;> rfl

theorem votesFor_congr {p : Nat} (hv : g'.collectiveVotes p = g.collectiveVotes p)
    (c : VoteChoice) : votesFor g' p c = votesFor g p c := by
  rw [votesFor, votesFor, hv]

theorem votesRecorded_congr {p : Nat} (hv : g'.collectiveVotes p = g.collectiveVotes p) :
    votesRecorded g' p = votesRecorded g p := by
  rw [votesRecorded, votesRecorded, hv]

/-- A new vote adds one to the votes of its choice. -/
theorem votesFor_insert {p : Nat} {voter : α} {info : CollectiveVote α}
    (hv : g'.collectiveVotes p = (g.collectiveVotes p).insert voter info)
    (hnew : (g.collectiveVotes p).get? voter = none) (c : VoteChoice) :
    votesFor g' p c = votesFor g p c + if info.vote = c then 1 else 0 := by
  rw [votesFor, hv, StorageMap.sumBy_insert_of_none hnew]
  rfl

/-- A new vote adds one to the votes recorded. -/
theorem votesRecorded_insert {p : Nat} {voter : α} {info : CollectiveVote α}
    (hv : g'.collectiveVotes p = (g.collectiveVotes p).insert voter info)
    (hnew : (g.collectiveVotes p).get? voter = none) :
    votesRecorded g' p = votesRecorded g p + 1 := by
  rw [votesRecorded, hv, StorageMap.sumBy_insert_of_none hnew]
  rfl

/-! ## The counting law -/

/-- The counting law for the proposals with an id below `u32::MAX`, with what carries it: ids
from `NextProposalId` on are unused, and votes are recorded on stored proposals only. -/
structure ProposalInv (g : Government α) : Prop where
  nextProposalId_le : g.nextProposalId ≤ maxValue 32
  fresh : ∀ p, g.nextProposalId ≤ p → p < maxValue 32 → g.activeProposals.get? p = none
  votes_stored : ∀ p v info, p < maxValue 32 → (g.collectiveVotes p).get? v = some info →
    (g.activeProposals.get? p).isSome
  votesOf_eq : ∀ p proposal c, p < maxValue 32 → g.activeProposals.get? p = some proposal →
    proposal.votesOf c = min (votesFor g p c) (maxValue 32)
  votesCast_eq : ∀ p proposal, p < maxValue 32 → g.activeProposals.get? p = some proposal →
    proposal.votesCast = min (votesRecorded g p) (maxValue 32)

theorem proposalInv_genesis : ProposalInv (governmentGenesis : Government α) where
  nextProposalId_le := Nat.zero_le _
  fresh _ _ _ := rfl
  votes_stored _ _ _ _ h := nomatch h
  votesOf_eq _ _ _ _ h := nomatch h
  votesCast_eq _ _ _ h := nomatch h

namespace ProposalInv

variable (hi : ProposalInv g)
include hi

/-- A proposal id below `u32::MAX` with no proposal has no votes. -/
theorem votes_eq_zero {p : Nat} (hp : p < maxValue 32) (hnone : g.activeProposals.get? p = none) :
    (∀ c, votesFor g p c = 0) ∧ votesRecorded g p = 0 := by
  have hvotes : ∀ v info, (g.collectiveVotes p).get? v = some info → False := fun v info h => by
    have hstored := hi.votes_stored p v info hp h
    rw [hnone] at hstored
    exact Bool.false_ne_true hstored
  exact ⟨fun c => StorageMap.sumBy_eq_zero fun v info h => (hvotes v info h).elim,
    StorageMap.sumBy_eq_zero fun v info h => (hvotes v info h).elim⟩

/-- Writes that leave the counter, the proposals and the votes alone keep the law. -/
theorem of_frame (hn : g'.nextProposalId = g.nextProposalId)
    (ha : g'.activeProposals = g.activeProposals) (hv : g'.collectiveVotes = g.collectiveVotes) :
    ProposalInv g' where
  nextProposalId_le := hn ▸ hi.nextProposalId_le
  fresh p hle hp := ha ▸ hi.fresh p (hn ▸ hle) hp
  votes_stored p v info hp h := ha ▸ hi.votes_stored p v info hp (hv ▸ h)
  votesOf_eq p proposal c hp h := by
    rw [votesFor_congr (congrFun hv p)]
    exact hi.votesOf_eq p proposal c hp (ha ▸ h)
  votesCast_eq p proposal hp h := by
    rw [votesRecorded_congr (congrFun hv p)]
    exact hi.votesCast_eq p proposal hp (ha ▸ h)

/-- A submission stores a proposal with no votes under a fresh id, or under `u32::MAX`. -/
theorem submitProposal {origin : Origin α} {decisionType : CollectiveDecisionType}
    (h : Welati.submitProposal cfg g origin decisionType = .ok g') : ProposalInv g' := by
  obtain ⟨proposer, -, -, rfl⟩ := (submitProposal_ok cfg).mp h
  -- a stored id below the new counter and `u32::MAX` is below the old counter or is it
  have hfresh : ∀ p, saturatingAdd 32 g.nextProposalId 1 ≤ p → p < maxValue 32 →
      g.nextProposalId < p := fun p hle hp => by
    unfold saturatingAdd at hle
    omega
  refine ⟨saturatingAdd_le_maxValue _ _ _, fun p hle hp => ?_, fun p v info hp hv => ?_,
    fun p proposal c hp hget => ?_, fun p proposal hp hget => ?_⟩
  · dsimp only
    rw [StorageMap.get?_insert, if_neg (hfresh p hle hp).ne']
    exact hi.fresh p (hfresh p hle hp).le hp
  · dsimp only
    rw [StorageMap.get?_insert]
    split_ifs
    · rfl
    · exact hi.votes_stored p v info hp hv
  · dsimp only at hget ⊢
    rw [StorageMap.get?_insert] at hget
    split_ifs at hget with hpn
    · -- the new proposal: its id was unused, so it has no votes
      cases hget
      subst hpn
      change _ = min (votesFor g _ c) _
      rw [(hi.votes_eq_zero hp (hi.fresh _ le_rfl hp)).1 c, Nat.zero_min]
      cases c <;> rfl
    · exact hi.votesOf_eq p proposal c hp hget
  · dsimp only at hget ⊢
    rw [StorageMap.get?_insert] at hget
    split_ifs at hget with hpn
    · cases hget
      subst hpn
      change _ = min (votesRecorded g _) _
      rw [(hi.votes_eq_zero hp (hi.fresh _ le_rfl hp)).2, Nat.zero_min]
    · exact hi.votesCast_eq p proposal hp hget

/-- A vote is recorded on a stored proposal by a new voter, and its counts follow. -/
theorem voteOnProposal {origin : Origin α} {proposalId : Nat} {vote : VoteChoice}
    (h : Welati.voteOnProposal g origin proposalId vote = .ok g') : ProposalInv g' := by
  obtain ⟨voter, proposal, -, hproposal, hnew, -, rfl⟩ := voteOnProposal_ok.mp h
  have hvotes : ∀ p, p ≠ proposalId →
      (Function.update g.collectiveVotes proposalId ((g.collectiveVotes proposalId).insert voter
        ⟨voter, proposalId, vote, g.elections.blockNumber⟩)) p = g.collectiveVotes p :=
    fun p hp => Function.update_of_ne hp _ _
  refine ⟨hi.nextProposalId_le, fun p hle hp => ?_, fun p v info hp hv => ?_,
    fun p pr c hp hget => ?_, fun p pr hp hget => ?_⟩
  · -- the voted proposal is stored, so it is not at a fresh id
    have hne : p ≠ proposalId := by
      rintro rfl
      rw [hi.fresh p hle hp] at hproposal
      exact nomatch hproposal
    dsimp only
    rw [StorageMap.get?_alter, if_neg hne]
    exact hi.fresh p hle hp
  · dsimp only at hv ⊢
    rw [StorageMap.get?_alter]
    split_ifs with hpn
    · rw [hproposal]
      rfl
    · rw [hvotes p hpn] at hv
      exact hi.votes_stored p v info hp hv
  · dsimp only at hget ⊢
    rw [StorageMap.get?_alter] at hget
    split_ifs at hget with hpn
    · subst hpn
      rw [hproposal] at hget
      cases hget
      rw [votesFor_insert (Function.update_self _ _ _) hnew, votesOf_addVote,
        hi.votesOf_eq p proposal c hp hproposal]
      -- the count of the chosen vote rises by one, the others stay
      by_cases hc : c = vote
      · subst hc
        rw [if_pos rfl, if_pos rfl, saturatingAdd_min]
      · rw [if_neg hc, if_neg (Ne.symm hc), Nat.add_zero]
    · rw [votesFor_congr (hvotes p hpn)]
      exact hi.votesOf_eq p pr c hp hget
  · dsimp only at hget ⊢
    rw [StorageMap.get?_alter] at hget
    split_ifs at hget with hpn
    · subst hpn
      rw [hproposal] at hget
      cases hget
      rw [votesRecorded_insert (Function.update_self _ _ _) hnew, votesCast_addVote,
        hi.votesCast_eq p proposal hp hproposal, saturatingAdd_min]
    · rw [votesRecorded_congr (hvotes p hpn)]
      exact hi.votesCast_eq p pr hp hget

/-- Every step keeps the law. -/
theorem governmentStep (a : GovernmentAction α) : ProposalInv (Welati.governmentStep cfg g a) := by
  cases a with
  | election a => exact hi.of_frame rfl rfl rfl
  | nominateOfficial origin nominee role =>
    refine commit_of_ok hi fun g' h => ?_
    obtain ⟨_, _, _, _, _, rfl⟩ := nominateOfficial_ok.mp h
    exact hi.of_frame rfl rfl rfl
  | approveAppointment origin processId =>
    refine commit_of_ok hi fun g' h => ?_
    obtain ⟨_, _, _, _, _, _, _, _, rfl⟩ := approveAppointment_ok.mp h
    exact hi.of_frame rfl rfl rfl
  | submitProposal origin decisionType => exact commit_of_ok hi fun g' h => hi.submitProposal h
  | voteOnProposal origin proposalId vote =>
    exact commit_of_ok hi fun g' h => hi.voteOnProposal h

end ProposalInv

theorem proposalInv_of_reachable (hg : Reachable (governmentStep cfg) governmentGenesis g) :
    ProposalInv g :=
  hg.invariant proposalInv_genesis fun _ a hi => hi.governmentStep a

/-- In every reachable state, a proposal with an id below `u32::MAX` counts each choice and all
its votes exactly as recorded in `CollectiveVotes`, each count clamped at `u32::MAX`; every
recorded vote is of one choice. -/
theorem collectiveVotes_counted (hg : Reachable (governmentStep cfg) governmentGenesis g)
    {p : Nat} {proposal : CollectiveProposal α} (hp : p < maxValue 32)
    (hproposal : g.activeProposals.get? p = some proposal) :
    proposal.ayeVotes = min (votesFor g p .aye) (maxValue 32) ∧
      proposal.nayVotes = min (votesFor g p .nay) (maxValue 32) ∧
      proposal.abstainVotes = min (votesFor g p .abstain) (maxValue 32) ∧
      proposal.votesCast = min (votesRecorded g p) (maxValue 32) ∧
      votesFor g p .aye + votesFor g p .nay + votesFor g p .abstain = votesRecorded g p := by
  have hi := proposalInv_of_reachable hg
  exact ⟨hi.votesOf_eq p proposal .aye hp hproposal, hi.votesOf_eq p proposal .nay hp hproposal,
    hi.votesOf_eq p proposal .abstain hp hproposal, hi.votesCast_eq p proposal hp hproposal,
    votesFor_add g p⟩

/-! ## A vote before the window -/

/-- From any state, a proposal of a type that is not the parliament's, submitted and voted on in
the same block: the vote is recorded at that block, and the proposal's count raised. -/
theorem submitProposal_voteOnProposal (cfg : Config α) {proposer voter : α}
    {decisionType : CollectiveDecisionType} (vote : VoteChoice) (hpropose : canPropose g proposer decisionType = true)
    (htype : decisionType.isParliament = false)
    (hnew : (g.collectiveVotes g.nextProposalId).get? voter = none) :
    (run (governmentStep cfg) g [.submitProposal (.signed proposer) decisionType,
        .voteOnProposal (.signed voter) g.nextProposalId vote]).activeProposals.get?
          g.nextProposalId =
      some ((⟨g.nextProposalId, proposer, g.elections.blockNumber, g.elections.blockNumber + 14400,
        g.elections.blockNumber + 14400 + cfg.electionPeriod, decisionType, .active, 0, 0, 0,
        getVotingThreshold cfg decisionType, 0⟩ : CollectiveProposal α).addVote vote) ∧
    ((run (governmentStep cfg) g [.submitProposal (.signed proposer) decisionType,
        .voteOnProposal (.signed voter) g.nextProposalId vote]).collectiveVotes
          g.nextProposalId).get? voter =
      some ⟨voter, g.nextProposalId, vote, g.elections.blockNumber⟩ := by
  simp only [run_cons, run_nil]
  rw [governmentStep, (submitProposal_ok cfg).mpr ⟨proposer, rfl, hpropose, rfl⟩, commit_ok,
    governmentStep, voteOnProposal_ok.mpr ⟨voter, _, rfl, ?proposal, ?new, ?member, rfl⟩, commit_ok]
  case proposal => rw [StorageMap.get?_insert, if_pos rfl]
  case new => exact hnew
  -- the proposal is not the parliament's, so no membership is asked
  case member => exact fun h => absurd h (Bool.not_eq_true _ ▸ htype)
  simp [StorageMap.get?_alter]

/-- The Serok submits a hybrid decision, and account `7` votes on it in the same block. -/
def earlyVoteState : Government Nat :=
  run (governmentStep appointmentConfig) serokGovernment
    [.submitProposal (.signed 1) .hybridDecision, .voteOnProposal (.signed 7) 0 .aye]

/-- The proposal and the vote as the two calls record them, at the block of the finalization. -/
theorem earlyVoteState_spec :
    earlyVoteState.activeProposals.get? 0 =
        some ⟨0, 1, 777601, 792001, 1224001, .hybridDecision, .active, 1, 0, 0, 101, 1⟩ ∧
      (earlyVoteState.collectiveVotes 0).get? 7 = some ⟨7, 0, .aye, 777601⟩ := by
  have hid : serokGovernment.nextProposalId = 0 := by rw [serokGovernment_eq]; rfl
  have hpropose : canPropose serokGovernment 1 .hybridDecision = true := by
    simp [canPropose, serokGovernment_serok]
  have hnew : (serokGovernment.collectiveVotes serokGovernment.nextProposalId).get? 7 = none := by
    rw [serokGovernment_eq]
    rfl
  obtain ⟨hproposal, hvote⟩ := submitProposal_voteOnProposal appointmentConfig .aye hpropose rfl hnew
  rw [hid, serokGovernment_blockNumber] at hproposal hvote
  rw [earlyVoteState]
  exact ⟨hproposal.trans rfl, hvote⟩

/-- In a reachable state account `7`'s vote on the active proposal `0` is recorded at a block
before the proposal's voting starts. -/
theorem early_vote_recorded :
    Reachable (governmentStep appointmentConfig) governmentGenesis earlyVoteState ∧
      ∃ proposal info, earlyVoteState.activeProposals.get? 0 = some proposal ∧
        (earlyVoteState.collectiveVotes 0).get? 7 = some info ∧ proposal.status = .active ∧
        info.votedAt < proposal.votingStartsAt := by
  obtain ⟨hproposal, hvote⟩ := earlyVoteState_spec
  refine ⟨reachable_run_from (reachable_run _) _, _, _, hproposal, hvote, rfl, ?_⟩
  decide

/-- After the early vote, proposal `0` counts the one aye recorded. -/
theorem collectiveVotes_counted_after_early_vote :
    (⟨0, 1, 777601, 792001, 1224001, .hybridDecision, .active, 1, 0, 0, 101, 1⟩ :
        CollectiveProposal Nat).ayeVotes = min (votesFor earlyVoteState 0 .aye) (maxValue 32) ∧
      (⟨0, 1, 777601, 792001, 1224001, .hybridDecision, .active, 1, 0, 0, 101, 1⟩ :
        CollectiveProposal Nat).nayVotes = min (votesFor earlyVoteState 0 .nay) (maxValue 32) ∧
      (⟨0, 1, 777601, 792001, 1224001, .hybridDecision, .active, 1, 0, 0, 101, 1⟩ :
        CollectiveProposal Nat).abstainVotes =
          min (votesFor earlyVoteState 0 .abstain) (maxValue 32) ∧
      (⟨0, 1, 777601, 792001, 1224001, .hybridDecision, .active, 1, 0, 0, 101, 1⟩ :
        CollectiveProposal Nat).votesCast = min (votesRecorded earlyVoteState 0) (maxValue 32) ∧
      votesFor earlyVoteState 0 .aye + votesFor earlyVoteState 0 .nay +
          votesFor earlyVoteState 0 .abstain = votesRecorded earlyVoteState 0 := by
  have hreach : Reachable (governmentStep appointmentConfig) governmentGenesis earlyVoteState :=
    reachable_run_from (reachable_run _) _
  have hcounted := collectiveVotes_counted hreach (by rw [maxValue_32]; decide)
    earlyVoteState_spec.1
  exact hcounted

end Welati
