import Pezkuwi.Welati.Elections

/-!
# Welati: the vote tally

`cast_vote` records the voter's ballot, adds its weight to the `vote_count` of a candidate once
for every entry of the ballot that names the candidate, and adds it once to the election's
`total_votes`. This module proves that the counts are exactly that in every reachable state:
a candidate's `vote_count` is the sum over the recorded ballots of the weight times the number
of times the ballot names the candidate, and `total_votes` is the sum of the weights, each
clamped once at `u32::MAX`; every name on a ballot is a registered candidate. A ballot that
names a candidate twice counts twice for it, and the counts of an election can add up to more
than its `total_votes`.

The law holds for every election id below `u32::MAX`. `NextElectionId` saturates there, and
every election started after that gets the id `u32::MAX` again, overwriting the record and the
runoff candidates of the last one while its ballots stay.

## Main definitions

* `ballotWeightFor c b`: the weight ballot `b` gives candidate `c`
* `tallyFor s e c`, `ballotWeight s e`: the unclamped sums the counts keep
* `TallyInv`: the tally law, with the facts that carry it from step to step

## Main results

* `initiateElection_ok`, `registerCandidate_ok`, `castVote_ok`, `finalizeElection_ok`: what a
  successful call did
* `TallyInv.step`, `tallyInv_of_reachable`: every step keeps the tally law
* `voteCount_eq_tally`: the law in every reachable state
* `tallyFor_of_nodup`: with duplicate-free ballots, a count is the weight of the voters naming
  the candidate
* `duplicate_ballot_counted_twice`: a ballot naming one candidate twice gives it two votes
-/

namespace Welati

open Bounded Machine

variable {α : Type} [LinearOrder α] {cfg : Config α} {s s' : State α}

/-! ## What each call does -/

section Calls

omit [LinearOrder α] in
@[simp] theorem totalVotes_newElectionInfo (currentBlock electionId : Nat)
    (electionType : ElectionType) (initialCandidates : Option (List α)) :
    (newElectionInfo cfg currentBlock electionId electionType initialCandidates).totalVotes = 0 := by
  cases initialCandidates <;> rfl

/-- The runoff candidates are registered with no votes; the other entries stay. -/
theorem get?_insertRunoffCandidates (currentBlock : Nat) (c : α) :
    ∀ (runoffCandidates : List α) (m : StorageMap α (CandidateInfo α)),
      (insertRunoffCandidates currentBlock runoffCandidates m).get? c =
        if c ∈ runoffCandidates then some ⟨c, none, currentBlock, [], 0, 0⟩ else m.get? c
  | [], m => rfl
  | r :: rs, m => by
    have ih := get?_insertRunoffCandidates currentBlock c rs (m.insert r ⟨r, none, currentBlock, [], 0, 0⟩)
    rw [insertRunoffCandidates, List.foldl_cons, ← insertRunoffCandidates, ih,
      StorageMap.get?_insert]
    by_cases hcr : c = r
    · subst hcr
      simp
    · simp [hcr]

/-- A successful `initiate_election` was made by the root with at most 50 districts; it raised
`NextElectionId` and stored the new election under the old one, after registering the runoff
candidates when it starts a runoff. -/
theorem initiateElection_ok {origin : Origin α} {electionType : ElectionType}
    {districts : Option (List ElectoralDistrict)} {initialCandidates : Option (List α)}
    (h : initiateElection cfg s origin electionType districts initialCandidates = .ok s') :
    origin = .root ∧ (districts.getD []).length ≤ 50 ∧
      ((initialCandidates = none ∧ s' = { s with
          nextElectionId := saturatingAdd 32 s.nextElectionId 1
          activeElections := s.activeElections.insert s.nextElectionId
            (newElectionInfo cfg s.blockNumber s.nextElectionId electionType none) }) ∨
        ∃ runoffCandidates, initialCandidates = some runoffCandidates ∧
          electionType = .presidential ∧ runoffCandidates.length = 2 ∧ s' = { s with
            nextElectionId := saturatingAdd 32 s.nextElectionId 1
            electionCandidates := Function.update s.electionCandidates s.nextElectionId
              (insertRunoffCandidates s.blockNumber runoffCandidates
                (s.electionCandidates s.nextElectionId))
            activeElections := s.activeElections.insert s.nextElectionId
              (newElectionInfo cfg s.blockNumber s.nextElectionId electionType
                (some runoffCandidates)) }) := by
  simp only [initiateElection, bind_eq_ok, ensureRoot_eq_ok] at h
  cases initialCandidates with
  | none =>
    simp only [bind_eq_ok, ensure_eq_ok, pure_eq_ok] at h
    obtain ⟨-, hroot, _, rfl, -, hdistricts, rfl⟩ := h
    exact ⟨hroot, hdistricts, .inl ⟨rfl, rfl⟩⟩
  | some runoffCandidates =>
    simp only [bind_eq_ok, ensure_eq_ok, pure_eq_ok] at h
    obtain ⟨-, hroot, -, htype, -, hlen, _, rfl, -, hdistricts, rfl⟩ := h
    exact ⟨hroot, hdistricts, .inr ⟨runoffCandidates, rfl, htype, hlen, rfl⟩⟩

/-- A successful `register_candidate` was signed by a citizen with the trust score and tiki the
election asks for, endorsed by enough citizens of trust at least 100, during candidacy; it
registered the signer with no votes and appended them to the election's candidates. -/
theorem registerCandidate_ok {origin : Origin α} {electionId : Nat} {districtId : Option Nat}
    {endorsers : List α}
    (h : registerCandidate cfg s origin electionId districtId endorsers = .ok s') :
    ∃ candidate election, origin = .signed candidate ∧
      s.activeElections.get? electionId = some election ∧
      s.blockNumber ≤ election.candidacyDeadline ∧ cfg.isCitizen candidate = true ∧
      getRequiredTrustScore election.electionType ≤ cfg.trustScoreOf candidate ∧
      0 < cfg.tikiScoreOf candidate ∧
      getRequiredEndorsements cfg election.electionType ≤ endorsers.length ∧
      (∀ endorser ∈ endorsers, cfg.isCitizen endorser = true ∧ 100 ≤ cfg.trustScoreOf endorser) ∧
      (s.electionCandidates electionId).get? candidate = none ∧ endorsers.length ≤ 100 ∧
      election.candidates.length < 500 ∧
      s' = { s with
        electionCandidates := Function.update s.electionCandidates electionId
          ((s.electionCandidates electionId).insert candidate
            ⟨candidate, districtId, s.blockNumber, endorsers, 0, cfg.candidacyDeposit⟩)
        activeElections := s.activeElections.insert electionId
          { election with candidates := election.candidates ++ [candidate] } } := by
  simp only [registerCandidate, bind_eq_ok, ensureSigned_eq_ok, okOr_eq_ok, ensure_eq_ok,
    pure_eq_ok, forM_eq_ok, exists_const] at h
  obtain ⟨candidate, hsigned, election, helection, hdeadline, hcitizen, htrust, htiki, hcount,
    hendorsers, hnew, hbound, hfull, rfl⟩ := h
  exact ⟨candidate, election, hsigned, helection, hdeadline, hcitizen, htrust, htiki, hcount,
    hendorsers, hnew, hbound, hfull, rfl⟩

/-- A successful `cast_vote` was signed by a citizen who had not voted in an election open for
voting, for at most ten registered candidates; it recorded the ballot, added its weight to the
candidates once per entry and to `total_votes` once. -/
theorem castVote_ok {origin : Origin α} {electionId : Nat} {candidates : List α}
    {districtId : Option Nat}
    (h : castVote cfg s origin electionId candidates districtId = .ok s') :
    ∃ voter election, origin = .signed voter ∧
      s.activeElections.get? electionId = some election ∧
      election.votingStart ≤ s.blockNumber ∧ s.blockNumber ≤ election.endBlock ∧
      cfg.isCitizen voter = true ∧ (s.electionVotes electionId).get? voter = none ∧
      (∀ c ∈ candidates, ((s.electionCandidates electionId).get? c).isSome) ∧
      candidates.length ≤ 10 ∧
      s' = { s with
        electionVotes := Function.update s.electionVotes electionId
          ((s.electionVotes electionId).insert voter ⟨voter, candidates, s.blockNumber,
            calculateVoteWeight cfg voter election.electionType, districtId⟩)
        electionCandidates := Function.update s.electionCandidates electionId
          (addVotes (calculateVoteWeight cfg voter election.electionType) candidates
            (s.electionCandidates electionId))
        activeElections := s.activeElections.insert electionId
          { election with
            totalVotes := saturatingAdd 32 election.totalVotes
              (calculateVoteWeight cfg voter election.electionType) } } := by
  simp only [castVote, bind_eq_ok, ensureSigned_eq_ok, okOr_eq_ok, ensure_eq_ok, pure_eq_ok,
    forM_eq_ok, exists_const] at h
  obtain ⟨voter, hsigned, election, helection, ⟨hstart, hend⟩, hcitizen, hnew, hnamed, hlen,
    rfl⟩ := h
  exact ⟨voter, election, hsigned, helection, hstart, hend, hcitizen, hnew, hnamed, hlen, rfl⟩

/-- `assign_election_winners` writes the officials and the parliament only. -/
theorem assignElectionWinners_frame {electionType : ElectionType} {winners : List α}
    (h : assignElectionWinners cfg s electionType winners = .ok s') :
    ∃ officials members, s' = { s with currentOfficials := officials, parliamentMembers := members } := by
  cases electionType with
  | presidential =>
    simp only [assignElectionWinners, pure_eq_ok] at h
    subst h
    split
    · exact ⟨_, s.parliamentMembers, rfl⟩
    · exact ⟨s.currentOfficials, s.parliamentMembers, rfl⟩
  | parliamentary =>
    simp only [assignElectionWinners, bind_eq_ok, ensure_eq_ok, pure_eq_ok] at h
    obtain ⟨-, -, rfl⟩ := h
    exact ⟨s.currentOfficials, _, rfl⟩
  | speakerElection =>
    simp only [assignElectionWinners, pure_eq_ok] at h
    subst h
    split
    · exact ⟨_, s.parliamentMembers, rfl⟩
    · exact ⟨s.currentOfficials, s.parliamentMembers, rfl⟩
  | constitutionalCourt =>
    simp only [assignElectionWinners, pure_eq_ok] at h
    exact ⟨s.currentOfficials, s.parliamentMembers, h.symm⟩

/-- A successful `finalize_election` was made by the root after the election's end, on an
election not yet completed; it either installed the winners and stored the result, or started
the runoff, and it marked the election completed. -/
theorem finalizeElection_ok {origin : Origin α} {electionId : Nat}
    (h : finalizeElection cfg s origin electionId = .ok s') :
    origin = .root ∧ ∃ election, s.activeElections.get? electionId = some election ∧
      election.endBlock < s.blockNumber ∧ election.status ≠ .completed ∧
      ((∃ winners s₁, calculateElectionWinners cfg s electionId election = .ok (.winners winners) ∧
          assignElectionWinners cfg s election.electionType winners = .ok s₁ ∧
          s' = { s₁ with
            electionResults := s₁.electionResults.insert electionId ⟨electionId, winners,
              election.totalVotes, turnoutPercentage cfg election.totalVotes, s₁.blockNumber⟩
            activeElections := s₁.activeElections.insert electionId
              { election with status := .completed } }) ∨
        (∃ candidates s₁,
          calculateElectionWinners cfg s electionId election = .ok (.runoffRequired candidates) ∧
          initiateElection cfg s .root .presidential none (some candidates) = .ok s₁ ∧
          s' = { s₁ with
            activeElections := s₁.activeElections.insert electionId
              { election with status := .completed } })) := by
  simp only [finalizeElection, bind_eq_ok, ensureRoot_eq_ok, okOr_eq_ok, ensure_eq_ok] at h
  obtain ⟨-, hroot, election, helection, -, hend, -, hstatus, outcome, houtcome, h⟩ := h
  refine ⟨hroot, election, helection, hend, hstatus, ?_⟩
  cases outcome with
  | winners winners =>
    simp only [bind_eq_ok, pure_eq_ok] at h
    obtain ⟨s₁, hassign, rfl⟩ := h
    exact .inl ⟨winners, s₁, houtcome, hassign, rfl⟩
  | runoffRequired candidates =>
    simp only [bind_eq_ok, pure_eq_ok] at h
    obtain ⟨s₁, hinit, rfl⟩ := h
    exact .inr ⟨candidates, s₁, houtcome, hinit, rfl⟩

/-- A ballot's entries add its weight to a candidate once per mention. -/
theorem get?_addVotes (voteWeight : Nat) (candidates : List α) (m : StorageMap α (CandidateInfo α))
    (c : α) :
    (addVotes voteWeight candidates m).get? c =
      (m.get? c).map (addVote voteWeight)^[candidates.count c] :=
  StorageMap.get?_foldl_alter_map _ c candidates m

omit [LinearOrder α] in
theorem voteCount_iterate_addVote (voteWeight : Nat) :
    ∀ (n : Nat) (info : CandidateInfo α),
      ((addVote voteWeight)^[n] info).voteCount =
        (fun x => saturatingAdd 32 x voteWeight)^[n] info.voteCount
  | 0, _ => rfl
  | n + 1, info => by
    rw [Function.iterate_succ_apply, Function.iterate_succ_apply,
      voteCount_iterate_addVote voteWeight n]
    rfl

end Calls

/-! ## The tally law -/

/-- The weight ballot `b` gives candidate `c`: its weight once for every entry naming `c`. -/
def ballotWeightFor (c : α) (b : ElectionVoteInfo α) : Nat :=
  b.voteWeight * b.candidates.count c

/-- The weight the ballots recorded in election `e` give `c`, unclamped. -/
def tallyFor (s : State α) (e : Nat) (c : α) : Nat :=
  (s.electionVotes e).sumBy fun _ b => ballotWeightFor c b

/-- The total weight of the ballots recorded in election `e`, unclamped. -/
def ballotWeight (s : State α) (e : Nat) : Nat :=
  (s.electionVotes e).sumBy fun _ b => b.voteWeight

/-- The tally law for the elections with an id below `u32::MAX`, with what carries it: ids from
`NextElectionId` on are unused, and a ballot names registered candidates only. -/
structure TallyInv (s : State α) : Prop where
  nextElectionId_le : s.nextElectionId ≤ maxValue 32
  fresh : ∀ e, s.nextElectionId ≤ e → e < maxValue 32 →
    s.activeElections.get? e = none ∧ (∀ c, (s.electionCandidates e).get? c = none) ∧
      ∀ v, (s.electionVotes e).get? v = none
  named_registered : ∀ e v b c, e < maxValue 32 → (s.electionVotes e).get? v = some b →
    c ∈ b.candidates → ((s.electionCandidates e).get? c).isSome
  voteCount_eq : ∀ e c info, e < maxValue 32 → (s.electionCandidates e).get? c = some info →
    info.voteCount = min (tallyFor s e c) (maxValue 32)
  totalVotes_eq : ∀ e election, e < maxValue 32 → s.activeElections.get? e = some election →
    election.totalVotes = min (ballotWeight s e) (maxValue 32)

/-- The sums over the ballots of an election depend on its ballots only. -/
theorem tallyFor_congr {e : Nat} (hv : s'.electionVotes e = s.electionVotes e) (c : α) :
    tallyFor s' e c = tallyFor s e c := by
  rw [tallyFor, tallyFor, hv]

theorem ballotWeight_congr {e : Nat} (hv : s'.electionVotes e = s.electionVotes e) :
    ballotWeight s' e = ballotWeight s e := by
  rw [ballotWeight, ballotWeight, hv]

/-- A new ballot adds what it gives `c` to the tally of `c`. -/
theorem tallyFor_insert_ballot {e : Nat} {voter : α} {b : ElectionVoteInfo α}
    (hv : s'.electionVotes e = (s.electionVotes e).insert voter b)
    (hnew : (s.electionVotes e).get? voter = none) (c : α) :
    tallyFor s' e c = tallyFor s e c + ballotWeightFor c b := by
  rw [tallyFor, hv, StorageMap.sumBy_insert_of_none hnew]
  rfl

/-- A new ballot adds its weight to the total. -/
theorem ballotWeight_insert_ballot {e : Nat} {voter : α} {b : ElectionVoteInfo α}
    (hv : s'.electionVotes e = (s.electionVotes e).insert voter b)
    (hnew : (s.electionVotes e).get? voter = none) :
    ballotWeight s' e = ballotWeight s e + b.voteWeight := by
  rw [ballotWeight, hv, StorageMap.sumBy_insert_of_none hnew]
  rfl

theorem tallyInv_genesis : TallyInv (genesis : State α) where
  nextElectionId_le := Nat.zero_le _
  fresh _ _ _ := ⟨rfl, fun _ => rfl, fun _ => rfl⟩
  named_registered _ _ _ _ _ h := nomatch h
  voteCount_eq _ _ _ _ h := nomatch h
  totalVotes_eq _ _ _ h := nomatch h

namespace TallyInv

variable (hi : TallyInv s)
include hi

/-- A stored election below `u32::MAX` has an id below `NextElectionId`. -/
theorem lt_next {e : Nat} {election : ElectionInfo α} (he : e < maxValue 32)
    (h : s.activeElections.get? e = some election) : e < s.nextElectionId := by
  by_contra hle
  rw [(hi.fresh e (Nat.le_of_not_lt hle) he).1] at h
  exact nomatch h

/-- No ballot names a candidate who is not registered. -/
theorem tallyFor_eq_zero {e : Nat} {c : α} (he : e < maxValue 32)
    (hc : (s.electionCandidates e).get? c = none) : tallyFor s e c = 0 := by
  refine StorageMap.sumBy_eq_zero fun v b hb => ?_
  have hnot : c ∉ b.candidates := fun hmem => by
    have := hi.named_registered e v b c he hb hmem
    rw [hc] at this
    exact Bool.false_ne_true this
  rw [ballotWeightFor, List.count_eq_zero.mpr hnot, Nat.mul_zero]

/-- An election id from `NextElectionId` on has no ballots, so no weight. -/
theorem sums_eq_zero_of_fresh {e : Nat} (hle : s.nextElectionId ≤ e) (he : e < maxValue 32) :
    (∀ c, tallyFor s e c = 0) ∧ ballotWeight s e = 0 := by
  have hvotes := (hi.fresh e hle he).2.2
  refine ⟨fun c => StorageMap.sumBy_eq_zero fun v b hb => ?_,
    StorageMap.sumBy_eq_zero fun v b hb => ?_⟩ <;>
  · rw [hvotes v] at hb
    exact nomatch hb

/-- Writes that leave the counter, the elections, the candidates and the ballots alone keep the
law. -/
theorem of_frame (hn : s'.nextElectionId = s.nextElectionId)
    (ha : s'.activeElections = s.activeElections) (hc : s'.electionCandidates = s.electionCandidates)
    (hv : s'.electionVotes = s.electionVotes) : TallyInv s' where
  nextElectionId_le := hn ▸ hi.nextElectionId_le
  fresh e hle he := by
    rw [ha, hc, hv]
    exact hi.fresh e (hn ▸ hle) he
  named_registered e v b c he hb hmem := by
    rw [hc]
    exact hi.named_registered e v b c he (hv ▸ hb) hmem
  voteCount_eq e c info he h := by
    rw [tallyFor_congr (congrFun hv e)]
    exact hi.voteCount_eq e c info he (hc ▸ h)
  totalVotes_eq e election he h := by
    rw [ballotWeight_congr (congrFun hv e)]
    exact hi.totalVotes_eq e election he (ha ▸ h)

/-- Rewriting a stored election with its `total_votes` kept keeps the law. -/
theorem insert_election {e : Nat} {election' : ElectionInfo α}
    (h : e < maxValue 32 → ∃ election, s.activeElections.get? e = some election ∧
      election'.totalVotes = election.totalVotes) :
    TallyInv { s with activeElections := s.activeElections.insert e election' } where
  nextElectionId_le := hi.nextElectionId_le
  fresh e' hle he' := by
    -- the rewritten election is stored, so its id is below the counter
    have hne : e' ≠ e := by
      rintro rfl
      obtain ⟨election, hget, -⟩ := h he'
      exact absurd (hi.lt_next he' hget) (Nat.not_lt.mpr hle)
    dsimp only
    rw [StorageMap.get?_insert, if_neg hne]
    exact hi.fresh e' hle he'
  named_registered := hi.named_registered
  voteCount_eq := hi.voteCount_eq
  totalVotes_eq e' election he' hget := by
    dsimp only at hget
    rw [StorageMap.get?_insert] at hget
    split_ifs at hget with hee
    · subst hee
      obtain ⟨prior, hprior, htotal⟩ := h he'
      cases hget
      rw [htotal]
      exact hi.totalVotes_eq e' prior he' hprior
    · exact hi.totalVotes_eq e' election he' hget

/-- Registering, with no votes, a candidate of a stored election whom no ballot can name keeps
the law. -/
theorem insert_candidate {e : Nat} {c : α} (info : CandidateInfo α)
    (hstored : e < maxValue 32 → e < s.nextElectionId)
    (hnew : (s.electionCandidates e).get? c = none) (hzero : info.voteCount = 0) :
    TallyInv { s with
      electionCandidates := Function.update s.electionCandidates e
        ((s.electionCandidates e).insert c info) } where
  nextElectionId_le := hi.nextElectionId_le
  fresh e' hle he' := by
    have hne : e' ≠ e := by
      rintro rfl
      exact absurd (hstored he') (Nat.not_lt.mpr hle)
    dsimp only
    rw [Function.update_of_ne hne]
    exact hi.fresh e' hle he'
  named_registered e' v b c' he' hb hmem := by
    have hold := hi.named_registered e' v b c' he' hb hmem
    dsimp only
    rw [Function.update_apply]
    split_ifs with hee
    · subst hee
      rw [StorageMap.get?_insert]
      split_ifs
      · rfl
      · exact hold
    · exact hold
  voteCount_eq e' c' x he' hx := by
    dsimp only at hx
    rw [Function.update_apply] at hx
    split_ifs at hx with hee
    · subst hee
      rw [StorageMap.get?_insert] at hx
      split_ifs at hx with hc
      · -- the new candidate: no ballot names them
        cases hx
        subst hc
        show info.voteCount = min (tallyFor s e' c') (maxValue 32)
        rw [hzero, hi.tallyFor_eq_zero he' hnew, Nat.zero_min]
      · exact hi.voteCount_eq e' c' x he' hx
    · exact hi.voteCount_eq e' c' x he' hx
  totalVotes_eq := hi.totalVotes_eq

/-- Starting an election under `NextElectionId` keeps the law: the new record has no votes, and
every candidate it registers has none either. -/
theorem open_election {cands : Nat → StorageMap α (CandidateInfo α)} {info : ElectionInfo α}
    (hcands_ne : ∀ e, e ≠ s.nextElectionId → cands e = s.electionCandidates e)
    (hcands : ∀ c x, (cands s.nextElectionId).get? c = some x →
      (s.electionCandidates s.nextElectionId).get? c = some x ∨ x.voteCount = 0)
    (htotal : info.totalVotes = 0) :
    TallyInv { s with
      nextElectionId := saturatingAdd 32 s.nextElectionId 1
      electionCandidates := cands
      activeElections := s.activeElections.insert s.nextElectionId info } where
  nextElectionId_le := saturatingAdd_le_maxValue _ _ _
  fresh e hle he := by
    -- below `u32::MAX` the counter rose by one, past the new election
    have hlt : s.nextElectionId < e := by
      have : saturatingAdd 32 s.nextElectionId 1 ≤ e := hle
      unfold saturatingAdd at this
      omega
    have hne : e ≠ s.nextElectionId := Nat.ne_of_gt hlt
    dsimp only
    rw [StorageMap.get?_insert, if_neg hne, hcands_ne e hne]
    exact hi.fresh e hlt.le he
  named_registered e v b c he hb hmem := by
    by_cases hee : e = s.nextElectionId
    · -- nobody has voted in the new election
      subst hee
      rw [(hi.fresh _ le_rfl he).2.2 v] at hb
      exact nomatch hb
    · dsimp only
      rw [hcands_ne e hee]
      exact hi.named_registered e v b c he hb hmem
  voteCount_eq e c x he hx := by
    dsimp only at hx
    by_cases hee : e = s.nextElectionId
    · subst hee
      rcases hcands c x hx with hold | hzero
      · rw [(hi.fresh _ le_rfl he).2.1 c] at hold
        exact nomatch hold
      · show x.voteCount = min (tallyFor s s.nextElectionId c) (maxValue 32)
        rw [hzero, (hi.sums_eq_zero_of_fresh le_rfl he).1 c, Nat.zero_min]
    · rw [hcands_ne e hee] at hx
      exact hi.voteCount_eq e c x he hx
  totalVotes_eq e election he hget := by
    dsimp only at hget
    rw [StorageMap.get?_insert] at hget
    split_ifs at hget with hee
    · -- the new record, over no ballots
      subst hee
      cases hget
      show info.totalVotes = min (ballotWeight s s.nextElectionId) (maxValue 32)
      rw [htotal, (hi.sums_eq_zero_of_fresh le_rfl he).2, Nat.zero_min]
    · exact hi.totalVotes_eq e election he hget

/-- `initiate_election` keeps the law. -/
theorem initiateElection {origin : Origin α} {electionType : ElectionType}
    {districts : Option (List ElectoralDistrict)} {initialCandidates : Option (List α)}
    (h : initiateElection cfg s origin electionType districts initialCandidates = .ok s') :
    TallyInv s' := by
  obtain ⟨-, -, ⟨-, rfl⟩ | ⟨runoffCandidates, -, -, -, rfl⟩⟩ := initiateElection_ok h
  · exact hi.open_election (fun _ _ => rfl) (fun c x hx => .inl hx) (totalVotes_newElectionInfo ..)
  · refine hi.open_election (fun e he => Function.update_of_ne he _ _) (fun c x hx => ?_)
      (totalVotes_newElectionInfo ..)
    -- a runoff candidate is registered afresh, with no votes
    rw [Function.update_self, get?_insertRunoffCandidates] at hx
    split_ifs at hx
    · cases hx
      exact .inr rfl
    · exact .inl hx

/-- `register_candidate` keeps the law: nobody has voted for the new candidate yet. -/
theorem registerCandidate {origin : Origin α} {electionId : Nat} {districtId : Option Nat}
    {endorsers : List α}
    (h : registerCandidate cfg s origin electionId districtId endorsers = .ok s') :
    TallyInv s' := by
  obtain ⟨candidate, election, -, helection, -, -, -, -, -, -, hnew, -, -, rfl⟩ :=
    registerCandidate_ok h
  -- first the candidate's entry, then the election's record, whose `total_votes` stays
  have hmid := hi.insert_candidate ⟨candidate, districtId, s.blockNumber, endorsers, 0,
    cfg.candidacyDeposit⟩ (fun he => hi.lt_next he helection) hnew rfl
  exact hmid.insert_election fun _ => ⟨election, helection, rfl⟩

/-- `cast_vote` keeps the law: the ballot adds its weight to each candidate once per entry and
to `total_votes` once, and the sums over the ballots move by the same amounts. -/
theorem castVote {origin : Origin α} {electionId : Nat} {candidates : List α}
    {districtId : Option Nat}
    (h : castVote cfg s origin electionId candidates districtId = .ok s') : TallyInv s' := by
  obtain ⟨voter, election, -, helection, -, -, -, hnew, hnamed, -, hs'⟩ := castVote_ok h
  set w := calculateVoteWeight cfg voter election.electionType
  set ballot : ElectionVoteInfo α := ⟨voter, candidates, s.blockNumber, w, districtId⟩
  -- what the call wrote, field by field
  have hnext : s'.nextElectionId = s.nextElectionId := by rw [hs']
  have hactive : s'.activeElections = s.activeElections.insert electionId
      { election with totalVotes := saturatingAdd 32 election.totalVotes w } := by rw [hs']
  have hvotes : ∀ e, s'.electionVotes e = if e = electionId
      then (s.electionVotes electionId).insert voter ballot else s.electionVotes e := fun e => by
    rw [hs']
    exact Function.update_apply _ _ _ _
  have hcands : ∀ e, s'.electionCandidates e = if e = electionId
      then addVotes w candidates (s.electionCandidates electionId)
      else s.electionCandidates e := fun e => by
    rw [hs']
    exact Function.update_apply _ _ _ _
  have hballot : s'.electionVotes electionId = (s.electionVotes electionId).insert voter ballot := by
    rw [hvotes, if_pos rfl]
  constructor
  · exact hnext ▸ hi.nextElectionId_le
  · intro e hle he
    have hne : e ≠ electionId := by
      rintro rfl
      exact absurd (hi.lt_next he helection) (Nat.not_lt.mpr (hnext ▸ hle))
    rw [hactive, StorageMap.get?_insert, if_neg hne, hcands, if_neg hne, hvotes, if_neg hne]
    exact hi.fresh e (hnext ▸ hle) he
  · intro e v b c he hb hmem
    rw [hvotes] at hb
    rw [hcands]
    split_ifs at hb ⊢ with hee
    · subst hee
      rw [get?_addVotes, Option.isSome_map]
      rw [StorageMap.get?_insert] at hb
      split_ifs at hb with hv
      · -- the new ballot names registered candidates only
        cases hb
        exact hnamed c hmem
      · exact hi.named_registered e v b c he hb hmem
    · exact hi.named_registered e v b c he hb hmem
  · intro e c info he hinfo
    rw [hcands] at hinfo
    split_ifs at hinfo with hee
    · subst hee
      rw [get?_addVotes, Option.map_eq_some_iff] at hinfo
      obtain ⟨info₀, hinfo₀, rfl⟩ := hinfo
      -- `count` saturating additions of `w` onto the clamped tally clamp the new tally
      rw [tallyFor_insert_ballot hballot hnew, voteCount_iterate_addVote,
        hi.voteCount_eq e c info₀ he hinfo₀, iterate_saturatingAdd]
      rfl
    · have hv : s'.electionVotes e = s.electionVotes e := by rw [hvotes, if_neg hee]
      rw [tallyFor_congr hv]
      exact hi.voteCount_eq e c info he hinfo
  · intro e el he hel
    rw [hactive, StorageMap.get?_insert] at hel
    split_ifs at hel with hee
    · -- the election's record: `w` more over one more ballot
      subst hee
      cases hel
      rw [ballotWeight_insert_ballot hballot hnew, hi.totalVotes_eq e election he helection]
      exact saturatingAdd_min _ _ _
    · have hv : s'.electionVotes e = s.electionVotes e := by rw [hvotes, if_neg hee]
      rw [ballotWeight_congr hv]
      exact hi.totalVotes_eq e el he hel

/-- `finalize_election` keeps the law: it marks the election completed, and a runoff is a new
election. -/
theorem finalizeElection {origin : Origin α} {electionId : Nat}
    (h : finalizeElection cfg s origin electionId = .ok s') : TallyInv s' := by
  obtain ⟨-, election, helection, -, -, hout⟩ := finalizeElection_ok h
  rcases hout with ⟨winners, s₁, -, hassign, rfl⟩ | ⟨candidates, s₁, -, hinit, rfl⟩
  · -- the winners are installed and the result stored, away from the tally
    obtain ⟨officials, members, rfl⟩ := assignElectionWinners_frame hassign
    have h₁ : TallyInv { s with
        currentOfficials := officials
        parliamentMembers := members
        electionResults := s.electionResults.insert electionId ⟨electionId, winners,
          election.totalVotes, turnoutPercentage cfg election.totalVotes, s.blockNumber⟩ } :=
      hi.of_frame rfl rfl rfl rfl
    exact h₁.insert_election fun _ => ⟨election, helection, rfl⟩
  · -- the runoff is stored under `NextElectionId`, above the finalized election
    have h₁ := hi.initiateElection hinit
    refine h₁.insert_election fun he => ⟨election, ?_, rfl⟩
    obtain ⟨-, -, ⟨hnone, -⟩ | ⟨runoffCandidates, -, -, -, rfl⟩⟩ := initiateElection_ok hinit
    · exact nomatch hnone
    · dsimp only
      rw [StorageMap.get?_insert, if_neg (Nat.ne_of_lt (hi.lt_next he helection)), helection]

/-- Every step keeps the law. -/
theorem step (a : Action α) : TallyInv (step cfg s a) := by
  cases a with
  | initiateElection origin electionType districts initialCandidates =>
    exact commit_of_ok hi fun _ h => hi.initiateElection h
  | registerCandidate origin electionId districtId endorsers =>
    exact commit_of_ok hi fun _ h => hi.registerCandidate h
  | castVote origin electionId candidates districtId =>
    exact commit_of_ok hi fun _ h => hi.castVote h
  | finalizeElection origin electionId =>
    exact commit_of_ok hi fun _ h => hi.finalizeElection h
  | advance b =>
    dsimp only [Welati.step]
    split_ifs
    · exact hi.of_frame rfl rfl rfl rfl
    · exact hi

end TallyInv

theorem tallyInv_of_reachable (hs : Reachable (step cfg) genesis s) : TallyInv s :=
  Reachable.invariant tallyInv_genesis (fun _ a hi => hi.step a) hs

/-- When no ballot of an election names a candidate twice, the candidate's tally is the weight of
the voters whose ballot names them, each counted once. -/
theorem tallyFor_of_nodup {e : Nat} {c : α}
    (h : ∀ v b, (s.electionVotes e).get? v = some b → b.candidates.Nodup) :
    tallyFor s e c =
      (s.electionVotes e).sumBy fun _ b => if c ∈ b.candidates then b.voteWeight else 0 := by
  refine StorageMap.sumBy_congr fun v b hb => ?_
  rw [ballotWeightFor]
  split_ifs with hc
  · rw [List.count_eq_one_of_mem (h v b hb) hc, Nat.mul_one]
  · rw [List.count_eq_zero.mpr hc, Nat.mul_zero]

/-- **The tally law.** In every reachable state, for every election with an id below
`u32::MAX`: a candidate's `vote_count` is the sum over the recorded ballots of the ballot's
weight times the number of times it names the candidate, and `total_votes` is the sum of the
ballots' weights, each clamped at `u32::MAX`; every name on a ballot is a registered candidate. -/
theorem voteCount_eq_tally (hs : Reachable (step cfg) genesis s) {e : Nat} (he : e < maxValue 32) :
    (∀ c info, (s.electionCandidates e).get? c = some info →
      info.voteCount = min ((s.electionVotes e).sumBy fun _ b =>
        b.voteWeight * b.candidates.count c) (maxValue 32)) ∧
    (∀ election, s.activeElections.get? e = some election →
      election.totalVotes = min ((s.electionVotes e).sumBy fun _ b => b.voteWeight) (maxValue 32)) ∧
    ∀ v b c, (s.electionVotes e).get? v = some b → c ∈ b.candidates →
      ((s.electionCandidates e).get? c).isSome := by
  have hi := tallyInv_of_reachable hs
  exact ⟨fun c info h => hi.voteCount_eq e c info he h,
    fun election h => hi.totalVotes_eq e election he h,
    fun v b c hb hmem => hi.named_registered e v b c he hb hmem⟩

/-! ## A ballot naming one candidate twice -/

/-- The runtime's constants, with every account a citizen of trust score 1000 holding a tiki. -/
def sampleConfig : Config Nat :=
  ⟨fun _ => true, fun _ => 1000, fun _ => 1, 100000, 201, 11, 432000, 86400, 259200,
    100 * 10 ^ 12, 100, 50⟩

/-- A parliamentary election: account 1 registers with fifty endorsers, and once voting opens
account 100 casts the ballot `[1, 1]`. -/
def doubleVoteRun : List (Action Nat) :=
  [.initiateElection .root .parliamentary none none,
    .registerCandidate (.signed 1) 0 none (List.range' 10 50),
    .advance 345600,
    .castVote (.signed 100) 0 [1, 1] none]

/-- The state after `doubleVoteRun`. -/
def doubleVoteState : State Nat :=
  run (step sampleConfig) genesis doubleVoteRun

/-- One ballot of weight 1 naming candidate 1 twice gives them a `vote_count` of 2, while the
election's `total_votes` is 1. -/
theorem duplicate_ballot_counted_twice :
    (doubleVoteState.electionVotes 0).get? 100 = some ⟨100, [1, 1], 345600, 1, none⟩ ∧
      ((doubleVoteState.electionCandidates 0).get? 1).map CandidateInfo.voteCount = some 2 ∧
      (doubleVoteState.activeElections.get? 0).map ElectionInfo.totalVotes = some 1 := by
  decide +kernel

theorem voteCount_eq_tally_after_double_vote : 0 < maxValue 32 ∧
    (∀ c info, (doubleVoteState.electionCandidates 0).get? c = some info →
      info.voteCount = min ((doubleVoteState.electionVotes 0).sumBy fun _ b =>
        b.voteWeight * b.candidates.count c) (maxValue 32)) ∧
    (∀ election, doubleVoteState.activeElections.get? 0 = some election →
      election.totalVotes =
        min ((doubleVoteState.electionVotes 0).sumBy fun _ b => b.voteWeight) (maxValue 32)) ∧
    ∀ v b c, (doubleVoteState.electionVotes 0).get? v = some b → c ∈ b.candidates →
      ((doubleVoteState.electionCandidates 0).get? c).isSome :=
  ⟨by decide, voteCount_eq_tally (reachable_run doubleVoteRun) (by decide)⟩

end Welati
