import Pezkuwi.Welati.Tally

/-!
# Welati: the outcome of an election

`calculate_election_winners` decides a presidential election by the percentage test
`top * 100 / total >= 50` in `u32`. While the counts fit, that is "at least half of the valid
votes, and some votes": an exact half wins outright (`calculateElectionWinners_presidential`).
Otherwise the two first candidates go to a runoff, which `initiate_election` accepts only with
exactly two candidates, so an election with a single candidate and no votes cannot be finalized
(`finalizeElection_runoff_fails`). Registration, for its part, reads of the endorsers only their
number and each one's citizenship and trust score: one account, even the candidate, may be every
endorser.

The turnout `finalize_election` stores is `((total_votes * 100) / citizen_count) as u8`. The
ballots of a speaker or court election weigh up to ten, so their total can exceed the citizen
count, and a turnout of `256` percent or more is stored modulo `256`.

## Main results

* `half_test_iff`: the floored percentage test, for counts that fit
* `calculateElectionWinners_presidential`: the presidential winner rule
* `step_finalizeElection_winners`: a finalization with winners stores the result and the turnout
* `finalizeElection_installs_serok`: an outright winner becomes Serok
* `finalizeElection_runoff_fails`: a runoff of other than two candidates fails the finalization
* `presidential_finalization_diverges`: an exact tie installs a Serok, and a lone candidate
  without votes blocks the finalization
* `self_endorsed_candidacy`: a candidacy endorsed a hundred times by the candidate alone
* `speaker_turnout_truncated`: twenty-nine weighted ballots out of a hundred and ten citizens
  are stored as a turnout of `7`
-/

namespace Welati

open Bounded Machine

variable {α : Type} [LinearOrder α] (cfg : Config α)

/-- The percentage test of a count `n` out of `m ≥ n`: at least half, and not of zero votes. -/
theorem half_test_iff {n m : Nat} (hnm : n ≤ m) :
    50 ≤ n * 100 / max m 1 ↔ 0 < n ∧ m ≤ 2 * n := by
  rcases Nat.eq_zero_or_pos m with rfl | hm
  · -- no votes at all: the count is zero too
    have hn : n = 0 := Nat.le_zero.mp hnm
    subst hn
    decide
  · rw [max_eq_left hm, Nat.le_div_iff_mul_le hm]
    omega

/-- The winner rule of a presidential election while the counts fit in `u32`: the top candidate
wins outright exactly when it holds at least half of the votes, and some; otherwise the first two
go to a runoff. -/
theorem calculateElectionWinners_presidential {s : State α} {e : Nat} {election : ElectionInfo α}
    (htype : election.electionType = .presidential) {top : α} {n : Nat} {rest : List (α × Nat)}
    (hsorted : candidatesWithVotes s e election = (top, n) :: rest)
    (hfit : (n + (rest.map Prod.snd).sum) * 100 < 2 ^ 32) :
    calculateElectionWinners cfg s e election =
      if 0 < n ∧ n + (rest.map Prod.snd).sum ≤ 2 * n then .ok (.winners [top])
      else .ok (.runoffRequired ((((top, n) :: rest).take 2).map Prod.fst)) := by
  -- neither the sum nor the product wraps
  have hsum : wrappingSum 32 (((top, n) :: rest).map Prod.snd) = n + (rest.map Prod.snd).sum := by
    rw [wrappingSum_eq_mod, List.map_cons, List.sum_cons]
    exact Nat.mod_eq_of_lt (by omega)
  have hmul : wrappingMul 32 n 100 = n * 100 := Nat.mod_eq_of_lt (by omega)
  unfold calculateElectionWinners
  rw [htype]
  dsimp only
  rw [hsorted]
  dsimp only
  rw [hsum, hmul]
  by_cases hhalf : 0 < n ∧ n + (rest.map Prod.snd).sum ≤ 2 * n
  · rw [if_pos ((half_test_iff (Nat.le_add_right _ _)).mpr hhalf), if_pos hhalf]
    rfl
  · rw [if_neg (mt (half_test_iff (Nat.le_add_right _ _)).mp hhalf), if_neg hhalf]
    rfl

/-! ## The finalization of an election that ended -/

section Ended

variable {s : State α} {e : Nat} {election : ElectionInfo α}
  (helection : s.activeElections.get? e = some election)
  (hend : election.endBlock < s.blockNumber) (hstatus : election.status ≠ .completed)
include helection hend hstatus

/-- A runoff of other than two candidates is refused by `initiate_election`, and the whole
finalization with it. -/
theorem finalizeElection_runoff_fails {candidates : List α}
    (hrunoff : calculateElectionWinners cfg s e election = .ok (.runoffRequired candidates))
    (hlen : candidates.length ≠ 2) :
    finalizeElection cfg s .root e = .error .invalidInitialCandidates := by
  have hinit : initiateElection cfg s .root .presidential none (some candidates) =
      .error .invalidInitialCandidates := by
    unfold initiateElection
    simp only [ensureRoot, ensure, if_pos, bind, Except.bind, if_neg hlen]
  unfold finalizeElection
  simp only [ensureRoot, okOr, helection, ensure, if_pos hend, if_pos hstatus, hrunoff, hinit,
    bind, Except.bind]

/-- An election decided with winners: the finalization assigns them, stores the result with the
turnout it computes, and marks the election completed. Nothing on the way reads the election's
`minimum_turnout`. -/
theorem step_finalizeElection_winners {winners : List α} {s₁ : State α}
    (hwin : calculateElectionWinners cfg s e election = .ok (.winners winners))
    (hassign : assignElectionWinners cfg s election.electionType winners = .ok s₁) :
    step cfg s (.finalizeElection .root e) = { s₁ with
      electionResults := s₁.electionResults.insert e ⟨e, winners, election.totalVotes,
        turnoutPercentage cfg election.totalVotes, s₁.blockNumber⟩
      activeElections := s₁.activeElections.insert e { election with status := .completed } } := by
  simp only [step, finalizeElection, ensureRoot, okOr, helection, ensure, if_pos hend,
    if_pos hstatus, hwin, hassign, bind, Except.bind, pure, Except.pure, commit]

/-- A presidential election decided outright: the finalization installs the first winner as
Serok, stores the result with the turnout it computes, and marks the election completed. -/
theorem step_finalizeElection_presidential (htype : election.electionType = .presidential)
    {winner : α} {others : List α}
    (hwin : calculateElectionWinners cfg s e election = .ok (.winners (winner :: others))) :
    step cfg s (.finalizeElection .root e) = { s with
      currentOfficials := Function.update s.currentOfficials .serok (some winner)
      electionResults := s.electionResults.insert e ⟨e, winner :: others, election.totalVotes,
        turnoutPercentage cfg election.totalVotes, s.blockNumber⟩
      activeElections := s.activeElections.insert e { election with status := .completed } } := by
  have hassign : assignElectionWinners cfg s election.electionType (winner :: others) =
      .ok { s with currentOfficials := Function.update s.currentOfficials .serok (some winner) } := by
    rw [htype]
    rfl
  exact step_finalizeElection_winners cfg helection hend hstatus hwin hassign

/-- A presidential election decided outright installs its first winner as Serok. -/
theorem finalizeElection_installs_serok (htype : election.electionType = .presidential)
    {winner : α} {others : List α}
    (hwin : calculateElectionWinners cfg s e election = .ok (.winners (winner :: others))) :
    (step cfg s (.finalizeElection .root e)).currentOfficials .serok = some winner := by
  rw [step_finalizeElection_presidential cfg helection hend hstatus htype hwin]
  dsimp only
  exact Function.update_self _ _ _

end Ended

omit [LinearOrder α] in
/-- While `total_votes * 100` fits in `u32`, the stored turnout is the floored percentage cast to
`u8`, that is, modulo `256`. -/
theorem turnoutPercentage_of_fit {totalVotes : Nat} (hfit : totalVotes * 100 < 2 ^ 32)
    (hcitizens : 0 < cfg.citizenCount) :
    turnoutPercentage cfg totalVotes = totalVotes * 100 / cfg.citizenCount % 2 ^ 8 := by
  have hmul : wrappingMul 32 totalVotes 100 = totalVotes * 100 := Nat.mod_eq_of_lt hfit
  rw [turnoutPercentage, if_pos hcitizens, hmul]

/-- Finalizing an election leaves the block number as it is. -/
theorem blockNumber_finalizeElection {s s' : State α} {origin : Origin α} {e : Nat}
    (h : finalizeElection cfg s origin e = .ok s') : s'.blockNumber = s.blockNumber := by
  obtain ⟨-, election, -, -, -, ⟨winners, s₁, -, hassign, rfl⟩ | ⟨candidates, s₁, -, hinit, rfl⟩⟩ :=
    finalizeElection_ok h
  · obtain ⟨officials, members, rfl⟩ := assignElectionWinners_frame hassign
    rfl
  · obtain ⟨-, -, ⟨-, rfl⟩ | ⟨_, -, -, -, rfl⟩⟩ := initiateElection_ok hinit <;> rfl

/-- The candidates with their counts, when they already stand in the order of the sort. -/
theorem candidatesWithVotes_of_sorted {s : State α} {e : Nat} {election : ElectionInfo α}
    {counted : List (α × Nat)}
    (hcounted : (election.candidates.filterMap fun candidate =>
      ((s.electionCandidates e).get? candidate).map fun info => (candidate, info.voteCount)) =
        counted)
    (hsorted : counted.Pairwise fun a b => b.2 ≤ a.2) :
    candidatesWithVotes s e election = counted := by
  rw [candidatesWithVotes, hcounted]
  exact List.mergeSort_of_pairwise (by simpa using hsorted)

/-! ## Two presidential elections -/

/-- Accounts `1` and `2` run for Serok with a hundred endorsers each, and get one vote each;
the election then ends. -/
def tieRun : List (Action Nat) :=
  [.initiateElection .root .presidential none none,
    .registerCandidate (.signed 1) 0 none (List.range' 10 100),
    .registerCandidate (.signed 2) 0 none (List.range' 10 100),
    .advance 345600,
    .castVote (.signed 200) 0 [1] none, .castVote (.signed 201) 0 [2] none,
    .advance 777601]

def tieState : State Nat :=
  run (step sampleConfig) genesis tieRun

/-- Account `1` runs alone, and nobody votes before the election ends. -/
def loneState : State Nat :=
  run (step sampleConfig) genesis
    [.initiateElection .root .presidential none none,
      .registerCandidate (.signed 1) 0 none (List.range' 10 100),
      .advance 777601]

/-- With one vote each out of two, finalizing installs account `1` as Serok on exactly half of
the valid votes; and finalizing the election with a lone candidate and no votes fails, since its
runoff would have one candidate. -/
theorem presidential_finalization_diverges :
    ((tieState.electionCandidates 0).get? 1).map CandidateInfo.voteCount = some 1 ∧
      ((tieState.electionCandidates 0).get? 2).map CandidateInfo.voteCount = some 1 ∧
      (step sampleConfig tieState (.finalizeElection .root 0)).currentOfficials .serok = some 1 ∧
      finalizeElection sampleConfig loneState .root 0 = .error .invalidInitialCandidates := by
  -- the two elections as the runs leave them, evaluated once
  have htie : tieState.activeElections.get? 0 = some
      ⟨0, .presidential, 0, 86400, 86400, 345600, 777600, [1, 2], 2, .candidacyPeriod, 50⟩ ∧
      tieState.blockNumber = 777601 ∧
      ((⟨0, .presidential, 0, 86400, 86400, 345600, 777600, [1, 2], 2, .candidacyPeriod, 50⟩ :
        ElectionInfo Nat).candidates.filterMap fun c =>
          ((tieState.electionCandidates 0).get? c).map fun info => (c, info.voteCount)) =
        [(1, 1), (2, 1)] := by
    decide +kernel
  have hlone : loneState.activeElections.get? 0 = some
      ⟨0, .presidential, 0, 86400, 86400, 345600, 777600, [1], 0, .candidacyPeriod, 50⟩ ∧
      loneState.blockNumber = 777601 ∧
      ((⟨0, .presidential, 0, 86400, 86400, 345600, 777600, [1], 0, .candidacyPeriod, 50⟩ :
        ElectionInfo Nat).candidates.filterMap fun c =>
          ((loneState.electionCandidates 0).get? c).map fun info => (c, info.voteCount)) =
        [(1, 0)] := by
    decide +kernel
  obtain ⟨htieElection, htieBlock, htieCounts⟩ := htie
  obtain ⟨hloneElection, hloneBlock, hloneCounts⟩ := hlone
  -- the tie: exactly half wins outright
  have htieWinner := calculateElectionWinners_presidential sampleConfig rfl
    (candidatesWithVotes_of_sorted htieCounts (by decide)) (by norm_num)
  rw [if_pos (by decide)] at htieWinner
  -- the lone candidate: no votes, so a runoff of one
  have hloneRunoff := calculateElectionWinners_presidential sampleConfig rfl
    (candidatesWithVotes_of_sorted hloneCounts (by decide)) (by norm_num)
  rw [if_neg (by decide)] at hloneRunoff
  refine ⟨?_, ?_, ?_, ?_⟩
  · decide +kernel
  · decide +kernel
  · exact finalizeElection_installs_serok sampleConfig htieElection (by rw [htieBlock]; decide)
      (by decide) rfl htieWinner
  · exact finalizeElection_runoff_fails sampleConfig hloneElection (by rw [hloneBlock]; decide)
      (by decide) hloneRunoff (by decide)

/-! ## A self-endorsed candidacy -/

/-- Account `1` registers for Serok with itself as each of the hundred endorsers. -/
def selfEndorsedState : State Nat :=
  run (step sampleConfig) genesis
    [.initiateElection .root .presidential none none,
      .registerCandidate (.signed 1) 0 none (List.replicate 100 1)]

/-- The candidacy is stored with a hundred endorsements from one account, the candidate. -/
theorem self_endorsed_candidacy :
    getRequiredEndorsements sampleConfig .presidential = 100 ∧
      ((selfEndorsedState.electionCandidates 0).get? 1).map CandidateInfo.endorsers =
        some (List.replicate 100 1) := by
  refine ⟨rfl, ?_⟩
  decide +kernel

/-! ## A speaker election of weighted ballots -/

/-- The runtime's constants with the oracles of the pallet's test mock: a hundred and ten
citizens, each of trust score 1000 and holding a tiki. -/
def mockConfig : Config Nat :=
  { sampleConfig with citizenCount := 110 }

/-- Account `1` runs alone for Speaker, and once voting opens accounts `2` to `30` vote for it,
each ballot weighing ten; the election then ends. -/
def speakerRun : List (Action Nat) :=
  [.initiateElection .root .speakerElection none none,
    .registerCandidate (.signed 1) 0 none [], .advance 345600] ++
  (List.range' 2 29).map (fun v => .castVote (.signed v) 0 [1] none) ++ [.advance 777601]

def speakerState : State Nat :=
  run (step mockConfig) genesis speakerRun

/-- Twenty-nine of the hundred and ten citizens vote for Speaker, for `290` votes: the turnout is
`263` percent, and the finalization stores `263 % 256 = 7`. -/
theorem speaker_turnout_truncated :
    (step mockConfig speakerState (.finalizeElection .root 0)).electionResults.get? 0 =
        some ⟨0, [1], 290, 7, 777601⟩ ∧
      290 * 100 / mockConfig.citizenCount = 263 := by
  -- the election as the run leaves it, evaluated once
  have hspeaker : speakerState.activeElections.get? 0 = some
      ⟨0, .speakerElection, 0, 86400, 86400, 345600, 777600, [1], 290, .candidacyPeriod, 30⟩ ∧
      speakerState.blockNumber = 777601 ∧
      ((⟨0, .speakerElection, 0, 86400, 86400, 345600, 777600, [1], 290, .candidacyPeriod, 30⟩ :
        ElectionInfo Nat).candidates.filterMap fun c =>
          ((speakerState.electionCandidates 0).get? c).map fun info => (c, info.voteCount)) =
        [(1, 290)] := by
    decide +kernel
  obtain ⟨helection, hblock, hcounts⟩ := hspeaker
  -- the lone candidate takes the one seat
  have hwin : calculateElectionWinners mockConfig speakerState 0
      ⟨0, .speakerElection, 0, 86400, 86400, 345600, 777600, [1], 290, .candidacyPeriod, 30⟩ =
        .ok (.winners [1]) := by
    rw [calculateElectionWinners, candidatesWithVotes_of_sorted hcounts (by decide)]
    rfl
  have hassign : assignElectionWinners mockConfig speakerState .speakerElection [1] = .ok
      { speakerState with
        currentOfficials := Function.update speakerState.currentOfficials .meclisBaskani (some 1) } :=
    rfl
  have hturnout : turnoutPercentage mockConfig 290 = 7 :=
    (turnoutPercentage_of_fit mockConfig (by norm_num) (by decide)).trans (by decide)
  refine ⟨?_, by decide⟩
  rw [step_finalizeElection_winners mockConfig helection (by rw [hblock]; decide) (by decide) hwin
    hassign]
  dsimp only
  rw [StorageMap.get?_insert, if_pos rfl, hturnout, hblock]

end Welati
