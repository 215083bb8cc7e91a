import Pezkuwi.Storage.Map
import Pezkuwi.Arith.Bounded
import Pezkuwi.Machine.Reach

/-!
# Welati: elections

`pallet-welati` runs the elections of the government: the root starts an election, citizens
register as candidates and vote for them, and the root finalizes it, which installs the winners
or starts a runoff. Each vote records a ballot (`ElectionVotes`), adds the ballot's weight to
the `vote_count` of every candidate it names, and adds it once to the election's
`total_votes`; the winners are read off the counts.

The model follows `src/pezkuwi/pallets/welati/src/lib.rs` as the runtime builds it: the KYC
checks are compiled in, and the oracles of the other pallets (KYC status, trust score, tiki
score) are functions in `Config`, as is the runtime's constant citizen count. The counts are
`u32` with saturating additions, the turnout is computed with a wrapping `u32` product and a
cast to `u8`, and block numbers are natural numbers. Events, each election's districts and the
campaign data, which no call reads, are left out.

## Main definitions

* `State`, `Config`: the election storage, and the runtime's constants and oracles
* `initiateElection`, `registerCandidate`, `castVote`, `finalizeElection`: the calls
* `calculateVoteWeight`, `calculateElectionWinners`, `assignElectionWinners`: their helpers
* `Action`, `step`: the calls with their origins, dispatched with rollback on failure
-/

namespace Welati

open Bounded Machine

/-- `ElectionType`. -/
inductive ElectionType where
  | presidential
  | parliamentary
  | speakerElection
  | constitutionalCourt
  deriving DecidableEq, Repr

/-- `ElectionStatus`. -/
inductive ElectionStatus where
  | candidacyPeriod
  | campaignPeriod
  | votingPeriod
  | completed
  | cancelled
  deriving DecidableEq, Repr

/-- `GovernmentPosition`. -/
inductive GovernmentPosition where
  | serok
  | parlementer
  | meclisBaskani
  | endameDiwane
  deriving DecidableEq, Repr

/-- `ElectoralDistrict`, without its name and bounds: only the number of districts a call
passes is checked. -/
structure ElectoralDistrict where
  districtId : Nat
  seatCount : Nat
  voterPopulation : Nat
  deriving DecidableEq, Repr

/-- `ElectionInfo`, without its districts. -/
structure ElectionInfo (α : Type) where
  electionId : Nat
  electionType : ElectionType
  startBlock : Nat
  candidacyDeadline : Nat
  campaignStart : Nat
  votingStart : Nat
  endBlock : Nat
  candidates : List α
  totalVotes : Nat
  status : ElectionStatus
  minimumTurnout : Nat
  deriving DecidableEq, Repr

/-- `CandidateInfo`, without its campaign data. -/
structure CandidateInfo (α : Type) where
  account : α
  districtId : Option Nat
  registeredAt : Nat
  endorsers : List α
  voteCount : Nat
  depositPaid : Nat
  deriving DecidableEq, Repr

/-- `ElectionVoteInfo`, without its `vote_type`, which is always `Citizen`. -/
structure ElectionVoteInfo (α : Type) where
  voter : α
  candidates : List α
  voteBlock : Nat
  voteWeight : Nat
  districtId : Option Nat
  deriving DecidableEq, Repr

/-- `ElectionResult`. -/
structure ElectionResult (α : Type) where
  electionId : Nat
  winners : List α
  totalVotes : Nat
  turnoutPercentage : Nat
  finalizedAt : Nat
  deriving DecidableEq, Repr

/-- `ParliamentMember`, without the participation counters, which start at their defaults. -/
structure ParliamentMember (α : Type) where
  account : α
  electedAt : Nat
  termEndsAt : Nat
  deriving DecidableEq, Repr

/-- `ElectionOutcome`. -/
inductive ElectionOutcome (α : Type) where
  | winners (winners : List α)
  | runoffRequired (candidates : List α)
  deriving DecidableEq, Repr

/-- `Error`, and the failure of an origin check. -/
inductive Error where
  | insufficientTrustScore
  | missingRequiredTiki
  | notACitizen
  | electionNotFound
  | electionNotActive
  | electionAlreadyStarted
  | electionAlreadyFinalized
  | candidacyPeriodExpired
  | campaignPeriodNotStarted
  | votingPeriodNotStarted
  | votingPeriodExpired
  | alreadyCandidate
  | alreadyVoted
  | invalidDistrict
  | insufficientEndorsements
  | depositRequired
  | tooManyCandidates
  | invalidInitialCandidates
  | notAuthorizedToNominate
  | notAuthorizedToApprove
  | appointmentProcessNotFound
  | nominationNotFound
  | appointmentAlreadyProcessed
  | roleAlreadyFilled
  | proposalNotFound
  | proposalNotActive
  | notAuthorizedToPropose
  | notAuthorizedToVote
  | proposalAlreadyVoted
  | quorumNotMet
  | proposalExecutionFailed
  | parliamentFull
  | diwanFull
  | invalidElectionType
  | calculationOverflow
  | runoffElectionFailed
  | badOrigin
  deriving DecidableEq, Repr

/-- The runtime's configuration of the pallet, and the oracles of the pallets it reads. -/
structure Config (α : Type) where
  /-- `get_kyc_status` is `Approved`. -/
  isCitizen : α → Bool
  /-- `TrustScoreSource::trust_score_of`, a `u128`. -/
  trustScoreOf : α → Nat
  /-- `TikiSource::get_tiki_score`. -/
  tikiScoreOf : α → Nat
  /-- `CitizenSource::citizen_count`, a `u32`. -/
  citizenCount : Nat
  parliamentSize : Nat
  diwanSize : Nat
  electionPeriod : Nat
  candidacyPeriod : Nat
  campaignPeriod : Nat
  candidacyDeposit : Nat
  presidentialEndorsements : Nat
  parliamentaryEndorsements : Nat

/-- The election storage and the block number; `electionCandidates e` is
`ElectionCandidates(e, ·)` and `electionVotes e` is `ElectionVotes(e, ·)`. -/
structure State (α : Type) [LinearOrder α] where
  blockNumber : Nat
  activeElections : StorageMap Nat (ElectionInfo α)
  nextElectionId : Nat
  electionCandidates : Nat → StorageMap α (CandidateInfo α)
  electionVotes : Nat → StorageMap α (ElectionVoteInfo α)
  electionResults : StorageMap Nat (ElectionResult α)
  currentOfficials : GovernmentPosition → Option α
  parliamentMembers : List (ParliamentMember α)

variable {α : Type} [LinearOrder α]

/-- The empty storage. -/
def genesis : State α :=
  ⟨0, ∅, 0, fun _ => ∅, fun _ => ∅, ∅, fun _ => none, []⟩

variable (cfg : Config α)

/-! ## Rules by election type -/

/-- `get_required_trust_score`. -/
def getRequiredTrustScore : ElectionType → Nat
  | .presidential => 600
  | .parliamentary => 300
  | .speakerElection => 400
  | .constitutionalCourt => 750

/-- `get_required_endorsements`. -/
def getRequiredEndorsements : ElectionType → Nat
  | .presidential => cfg.presidentialEndorsements
  | .parliamentary => cfg.parliamentaryEndorsements
  | _ => 0

/-- `get_minimum_turnout`. -/
def getMinimumTurnout : ElectionType → Nat
  | .presidential => 50
  | .parliamentary => 40
  | _ => 30

/-- `calculate_vote_weight`: one for the general elections, otherwise the trust score in
hundreds, cast to `u32` and clamped to `1..=10`. -/
def calculateVoteWeight (voter : α) : ElectionType → Nat
  | .presidential | .parliamentary => 1
  | _ => min (max (cfg.trustScoreOf voter / 100 % 2 ^ 32) 1) 10

/-! ## Starting an election -/

/-- The record `initiate_election` stores: a runoff between `initial_candidates` campaigns at
once, for a third of the campaign period; any other election opens for candidacy. -/
def newElectionInfo (currentBlock electionId : Nat) (electionType : ElectionType) :
    Option (List α) → ElectionInfo α
  | some runoffCandidates =>
    let votingStart := currentBlock + cfg.campaignPeriod / 3
    ⟨electionId, electionType, currentBlock, currentBlock, currentBlock, votingStart,
      votingStart + cfg.electionPeriod, runoffCandidates, 0, .campaignPeriod,
      getMinimumTurnout electionType⟩
  | none =>
    let candidacyDeadline := currentBlock + cfg.candidacyPeriod
    let votingStart := candidacyDeadline + cfg.campaignPeriod
    ⟨electionId, electionType, currentBlock, candidacyDeadline, candidacyDeadline, votingStart,
      votingStart + cfg.electionPeriod, [], 0, .candidacyPeriod, getMinimumTurnout electionType⟩

/-- The `ElectionCandidates` entries of the runoff candidates, written one after the other. -/
def insertRunoffCandidates (currentBlock : Nat) (runoffCandidates : List α)
    (m : StorageMap α (CandidateInfo α)) : StorageMap α (CandidateInfo α) :=
  runoffCandidates.foldl (fun m candidate =>
    m.insert candidate ⟨candidate, none, currentBlock, [], 0, 0⟩) m

/-- `initiate_election`. `NextElectionId` is raised, saturating, before anything can fail; a
failure rolls it back with the rest. The runoff candidates always fit the bound of
`ElectionInfo.candidates`, so `TooManyCandidates` cannot be raised. -/
def initiateElection (s : State α) (origin : Origin α) (electionType : ElectionType)
    (districts : Option (List ElectoralDistrict)) (initialCandidates : Option (List α)) :
    Except Error (State α) := do
  ensureRoot origin .badOrigin
  let electionId := s.nextElectionId
  let s := { s with nextElectionId := saturatingAdd 32 electionId 1 }
  let currentBlock := s.blockNumber
  let s ← match initialCandidates with
    | some runoffCandidates => do
      ensure (electionType = .presidential) .invalidElectionType
      ensure (runoffCandidates.length = 2) .invalidInitialCandidates
      pure { s with
        electionCandidates := Function.update s.electionCandidates electionId
          (insertRunoffCandidates currentBlock runoffCandidates (s.electionCandidates electionId)) }
    | none => pure s
  ensure ((districts.getD []).length ≤ 50) .invalidDistrict
  return { s with
    activeElections := s.activeElections.insert electionId
      (newElectionInfo cfg currentBlock electionId electionType initialCandidates) }

/-! ## Candidacy -/

/-- `register_candidate`, signed by the candidate. -/
def registerCandidate (s : State α) (origin : Origin α) (electionId : Nat)
    (districtId : Option Nat) (endorsers : List α) : Except Error (State α) := do
  let candidate ← ensureSigned origin .badOrigin
  let election ← okOr (s.activeElections.get? electionId) .electionNotFound
  ensure (s.blockNumber ≤ election.candidacyDeadline) .candidacyPeriodExpired
  ensure (cfg.isCitizen candidate = true) .notACitizen
  ensure (getRequiredTrustScore election.electionType ≤ cfg.trustScoreOf candidate)
    .insufficientTrustScore
  -- `get_required_tiki` names a tiki for every election type
  ensure (0 < cfg.tikiScoreOf candidate) .missingRequiredTiki
  ensure (getRequiredEndorsements cfg election.electionType ≤ endorsers.length)
    .insufficientEndorsements
  endorsers.forM fun endorser => do
    ensure (cfg.isCitizen endorser = true) .notACitizen
    ensure (100 ≤ cfg.trustScoreOf endorser) .insufficientTrustScore
  ensure ((s.electionCandidates electionId).get? candidate = none) .alreadyCandidate
  -- the endorsers' bounded vector holds at most 100
  ensure (endorsers.length ≤ 100) .insufficientEndorsements
  let s := { s with
    electionCandidates := Function.update s.electionCandidates electionId
      ((s.electionCandidates electionId).insert candidate
        ⟨candidate, districtId, s.blockNumber, endorsers, 0, cfg.candidacyDeposit⟩) }
  ensure (election.candidates.length < 500) .parliamentFull
  return { s with
    activeElections := s.activeElections.insert electionId
      { election with candidates := election.candidates ++ [candidate] } }

/-! ## Voting -/

/-- The `ElectionCandidates::mutate` of one ballot entry: the weight is added, saturating. -/
def addVote (voteWeight : Nat) (info : CandidateInfo α) : CandidateInfo α :=
  { info with voteCount := saturatingAdd 32 info.voteCount voteWeight }

/-- The loop over a ballot's entries: one `mutate` per entry, so a candidate named twice gets
the weight twice. -/
def addVotes (voteWeight : Nat) (candidates : List α) (m : StorageMap α (CandidateInfo α)) :
    StorageMap α (CandidateInfo α) :=
  candidates.foldl (fun m candidate => m.alter candidate (Option.map (addVote voteWeight))) m

/-- `cast_vote`, signed by the voter. -/
def castVote (s : State α) (origin : Origin α) (electionId : Nat) (candidates : List α)
    (districtId : Option Nat) : Except Error (State α) := do
  let voter ← ensureSigned origin .badOrigin
  let election ← okOr (s.activeElections.get? electionId) .electionNotFound
  ensure (election.votingStart ≤ s.blockNumber ∧ s.blockNumber ≤ election.endBlock)
    .votingPeriodNotStarted
  ensure (cfg.isCitizen voter = true) .notACitizen
  ensure ((s.electionVotes electionId).get? voter = none) .alreadyVoted
  candidates.forM fun candidate =>
    ensure ((s.electionCandidates electionId).get? candidate).isSome .electionNotFound
  let voteWeight := calculateVoteWeight cfg voter election.electionType
  -- the ballot's bounded vector holds at most 10
  ensure (candidates.length ≤ 10) .calculationOverflow
  let s := { s with
    electionVotes := Function.update s.electionVotes electionId
      ((s.electionVotes electionId).insert voter
        ⟨voter, candidates, s.blockNumber, voteWeight, districtId⟩) }
  let s := { s with
    electionCandidates := Function.update s.electionCandidates electionId
      (addVotes voteWeight candidates (s.electionCandidates electionId)) }
  return { s with
    activeElections := s.activeElections.insert electionId
      { election with totalVotes := saturatingAdd 32 election.totalVotes voteWeight } }

/-! ## Finalization -/

/-- The candidates of an election that have an `ElectionCandidates` entry, with their counts,
sorted by `sort_by` from the largest count down; the sort is stable. -/
def candidatesWithVotes (s : State α) (electionId : Nat) (election : ElectionInfo α) :
    List (α × Nat) :=
  (election.candidates.filterMap fun candidate =>
    ((s.electionCandidates electionId).get? candidate).map fun info =>
      (candidate, info.voteCount)).mergeSort fun a b => b.2 ≤ a.2

/-- `calculate_election_winners`. A presidential candidate wins outright with half the valid
votes, computed with a wrapping `u32` sum and product; otherwise the two first go to a runoff.
The other elections take the first candidates, as many as there are seats. -/
def calculateElectionWinners (s : State α) (electionId : Nat) (election : ElectionInfo α) :
    Except Error (ElectionOutcome α) :=
  let sorted := candidatesWithVotes s electionId election
  match election.electionType with
  | .presidential =>
    match sorted with
    | [] => pure (.winners [])
    | (topWinner, topVoteCount) :: _ =>
      let totalValidVotes := max (wrappingSum 32 (sorted.map Prod.snd)) 1
      if 50 ≤ wrappingMul 32 topVoteCount 100 / totalValidVotes then pure (.winners [topWinner])
      else pure (.runoffRequired ((sorted.take 2).map Prod.fst))
  | .parliamentary => do
    let winners := (sorted.take cfg.parliamentSize).map Prod.fst
    ensure (winners.length ≤ 201) .parliamentFull
    pure (.winners winners)
  | .speakerElection => pure (.winners ((sorted.take 1).map Prod.fst))
  | .constitutionalCourt => do
    let winners := (sorted.take cfg.diwanSize).map Prod.fst
    ensure (winners.length ≤ 201) .diwanFull
    pure (.winners winners)

/-- `assign_election_winners`: the first winner becomes Serok or Speaker, the winners of a
parliamentary election replace the parliament for a four-year term. -/
def assignElectionWinners (s : State α) (electionType : ElectionType) (winners : List α) :
    Except Error (State α) :=
  match electionType with
  | .presidential =>
    pure (match winners.head? with
      | some winner => { s with
          currentOfficials := Function.update s.currentOfficials .serok (some winner) }
      | none => s)
  | .parliamentary => do
    let termEnd := s.blockNumber + 4 * 365 * 24 * 60 * 10
    let parliamentMembers := winners.map fun winner => ⟨winner, s.blockNumber, termEnd⟩
    ensure (parliamentMembers.length ≤ cfg.parliamentSize) .parliamentFull
    pure { s with parliamentMembers }
  | .speakerElection =>
    pure (match winners.head? with
      | some winner => { s with
          currentOfficials := Function.update s.currentOfficials .meclisBaskani (some winner) }
      | none => s)
  | .constitutionalCourt => pure s

/-- The turnout `finalize_election` records: `total_votes * 100` as a wrapping `u32`, divided by
the citizen count and cast to `u8`. -/
def turnoutPercentage (totalVotes : Nat) : Nat :=
  if 0 < cfg.citizenCount then wrappingMul 32 totalVotes 100 / cfg.citizenCount % 2 ^ 8 else 0

/-- `finalize_election`. A runoff is started through `initiate_election` with the root origin,
and the election is then marked completed. -/
def finalizeElection (s : State α) (origin : Origin α) (electionId : Nat) :
    Except Error (State α) := do
  ensureRoot origin .badOrigin
  let election ← okOr (s.activeElections.get? electionId) .electionNotFound
  ensure (election.endBlock < s.blockNumber) .electionNotActive
  ensure (election.status ≠ .completed) .electionAlreadyFinalized
  let outcome ← calculateElectionWinners cfg s electionId election
  match outcome with
  | .winners winners => do
    let s ← assignElectionWinners cfg s election.electionType winners
    let result : ElectionResult α := ⟨electionId, winners, election.totalVotes,
      turnoutPercentage cfg election.totalVotes, s.blockNumber⟩
    let s := { s with electionResults := s.electionResults.insert electionId result }
    return { s with
      activeElections := s.activeElections.insert electionId { election with status := .completed } }
  | .runoffRequired candidates => do
    let s ← initiateElection cfg s .root .presidential none (some candidates)
    return { s with
      activeElections := s.activeElections.insert electionId { election with status := .completed } }

/-! ## Runs -/

/-- The election calls with their origins, and the passing of blocks. -/
inductive Action (α : Type) where
  | initiateElection (origin : Origin α) (electionType : ElectionType)
      (districts : Option (List ElectoralDistrict)) (initialCandidates : Option (List α))
  | registerCandidate (origin : Origin α) (electionId : Nat) (districtId : Option Nat)
      (endorsers : List α)
  | castVote (origin : Origin α) (electionId : Nat) (candidates : List α)
      (districtId : Option Nat)
  | finalizeElection (origin : Origin α) (electionId : Nat)
  | advance (blockNumber : Nat)

/-- One step: a failed call is rolled back, a block number only grows. -/
def step (s : State α) : Action α → State α
  | .initiateElection origin electionType districts initialCandidates =>
    commit (initiateElection cfg s origin electionType districts initialCandidates) s
  | .registerCandidate origin electionId districtId endorsers =>
    commit (registerCandidate cfg s origin electionId districtId endorsers) s
  | .castVote origin electionId candidates districtId =>
    commit (castVote cfg s origin electionId candidates districtId) s
  | .finalizeElection origin electionId => commit (finalizeElection cfg s origin electionId) s
  | .advance b => if s.blockNumber ≤ b then { s with blockNumber := b } else s

end Welati
