import Pezkuwi.Welati.Elections

/-!
# Welati: appointments and collective proposals

Beside its elections `pallet-welati` keeps the appointed officials and the collective proposals.
A minister or the Serok nominates an account for an `OfficialRole` that has no holder
(`nominate_official`), which opens an `AppointmentProcess` waiting for the Serok; the Serok's
`approve_appointment` marks the process and the nomination approved and installs the nominee in
`AppointedOfficials`. A member of the parliament, or the Serok, submits a proposal
(`submit_proposal`), and accounts vote on it once each (`vote_on_proposal`), the parliament's own
decision types by its members only.

The model follows `src/pezkuwi/pallets/welati/src/lib.rs` and `types.rs` on top of
`Pezkuwi.Welati.Elections`, whose storage holds the block number, the Serok and the
parliament. `CurrentMinisters` is a function of the eight ministries; no call writes it. What
the calls store and no call reads is left out: the justification documents, a proposal's title,
description, priority and call, and a vote's rationale. The `documents` vector always fits its
bounds, so `CalculationOverflow` is not raised by `nominate_official`.

## Main definitions

* `OfficialRole`, `MinisterRole` and `OfficialRole.requiredTrustScore`,
  `OfficialRole.requiresParliamentApproval`: the roles and the rules `OfficialRoleInfo` gives them
* `Government`: the election storage with the appointment and proposal storage
* `nominateOfficial`, `approveAppointment`, `submitProposal`, `voteOnProposal`: the calls
* `GovernmentAction`, `governmentStep`: every call of the pallet, with rollback on failure
-/

namespace Welati

open Bounded Machine

/-- `OfficialRole`, grouped by the ministry that `nominating_minister` names. -/
inductive OfficialRole where
  | dadger | dozger | hiquqnas | noter
  | xezinedar | bacgir | gerinendeyeCavkaniye
  | operatoreTore | pisporeEwlehiyaSiber | gerinendeyeDaneye
  | berdevk | qeydkar
  | balyoz | navbeynkar | parezvaneCandi
  | mufetis | kaliteKontrolker
  | bazargan | revebereProjeye
  | feqi | perwerdekar | rewsenbir | mamoste
  | mela
  deriving DecidableEq, Repr

/-- `MinisterRole`. -/
inductive MinisterRole where
  | advaletWeziri
  | xezineWeziri
  | teknolojiWeziri
  | navxweWeziri
  | derveWeziri
  | denetimWeziri
  | aburiWeziri
  | perwerdeDiyanetWeziri
  deriving DecidableEq, Repr

/-- The ministries, which `CurrentMinisters::iter` walks. -/
def MinisterRole.all : List MinisterRole :=
  [.advaletWeziri, .xezineWeziri, .teknolojiWeziri, .navxweWeziri, .derveWeziri, .denetimWeziri,
    .aburiWeziri, .perwerdeDiyanetWeziri]

/-- `OfficialRoleInfo::required_trust_score`: the constitution's one requirement for every role.
No call reads it. -/
def OfficialRole.requiredTrustScore (_ : OfficialRole) : Nat :=
  250

/-- `OfficialRoleInfo::requires_parliament_approval`: the high offices. No call reads it. -/
def OfficialRole.requiresParliamentApproval : OfficialRole → Bool
  | .dadger | .xezinedar | .pisporeEwlehiyaSiber | .mufetis | .balyoz => true
  | _ => false

/-- `NominationStatus`. -/
inductive NominationStatus where
  | pending
  | approved
  | rejected
  | cancelled
  | expired
  deriving DecidableEq, Repr

/-- `NominationInfo`. -/
structure NominationInfo (α : Type) where
  nominator : α
  nominee : α
  nominatedAt : Nat
  approved : Bool
  approver : Option α
  approvedAt : Option Nat
  status : NominationStatus
  deriving DecidableEq, Repr

/-- `AppointmentStatus`. -/
inductive AppointmentStatus where
  | waitingNomination
  | waitingPresidentialApproval
  | waitingParliamentaryApproval
  | approved
  | rejected
  | expired
  deriving DecidableEq, Repr

/-- `AppointmentProcess`, without its documents. -/
structure AppointmentProcess (α : Type) where
  processId : Nat
  position : OfficialRole
  nominatingMinister : α
  nominee : α
  initiatedAt : Nat
  deadline : Nat
  status : AppointmentStatus
  deriving DecidableEq, Repr

/-- `CollectiveDecisionType`. -/
inductive CollectiveDecisionType where
  | parliamentSimpleMajority
  | parliamentSuperMajority
  | parliamentAbsoluteMajority
  | constitutionalReview
  | constitutionalUnanimous
  | hybridDecision
  | executiveDecision
  | vetoOverride
  deriving DecidableEq, Repr

/-- The decision types whose votes `vote_on_proposal` restricts to members of the parliament. -/
def CollectiveDecisionType.isParliament : CollectiveDecisionType → Bool
  | .parliamentSimpleMajority | .parliamentSuperMajority | .parliamentAbsoluteMajority => true
  | _ => false

/-- `ProposalStatus`. -/
inductive ProposalStatus where
  | draft
  | active
  | approved
  | rejected
  | cancelled
  | expired
  | vetoed
  | underConstitutionalReview
  deriving DecidableEq, Repr

/-- `VoteChoice`. -/
inductive VoteChoice where
  | aye
  | nay
  | abstain
  deriving DecidableEq, Repr

/-- `CollectiveProposal`, without its title, description, priority and call. -/
structure CollectiveProposal (α : Type) where
  proposalId : Nat
  proposer : α
  proposedAt : Nat
  votingStartsAt : Nat
  expiresAt : Nat
  decisionType : CollectiveDecisionType
  status : ProposalStatus
  ayeVotes : Nat
  nayVotes : Nat
  abstainVotes : Nat
  threshold : Nat
  votesCast : Nat
  deriving DecidableEq, Repr

/-- `CollectiveVote`, without its rationale. -/
structure CollectiveVote (α : Type) where
  voter : α
  proposalId : Nat
  vote : VoteChoice
  votedAt : Nat
  deriving DecidableEq, Repr

/-- The storage of the pallet: the elections' storage, and `CurrentMinisters`,
`AppointedOfficials`, `PendingNominations(role, ·)`, `AppointmentProcesses`,
`NextAppointmentId`, `ActiveProposals`, `NextProposalId` and `CollectiveVotes(proposal, ·)`. -/
structure Government (α : Type) [LinearOrder α] where
  elections : State α
  currentMinisters : MinisterRole → Option α
  appointedOfficials : OfficialRole → Option α
  pendingNominations : OfficialRole → StorageMap α (NominationInfo α)
  appointmentProcesses : StorageMap Nat (AppointmentProcess α)
  nextAppointmentId : Nat
  activeProposals : StorageMap Nat (CollectiveProposal α)
  nextProposalId : Nat
  collectiveVotes : Nat → StorageMap α (CollectiveVote α)

variable {α : Type} [LinearOrder α]

/-- The empty storage. -/
def governmentGenesis : Government α :=
  ⟨genesis, fun _ => none, fun _ => none, fun _ => ∅, ∅, 0, ∅, 0, fun _ => ∅⟩

variable (cfg : Config α)

/-! ## Appointments -/

/-- `nominate_official`, signed by the nominator: the Serok or any minister, whichever ministry
the role belongs to. The process id is `NextAppointmentId`, which saturates. -/
def nominateOfficial (g : Government α) (origin : Origin α) (nominee : α) (role : OfficialRole) :
    Except Error (Government α) := do
  let nominator ← ensureSigned origin .badOrigin
  ensure (g.elections.currentOfficials .serok = some nominator ∨
    (MinisterRole.all.any fun minister => decide (g.currentMinisters minister = some nominator)))
    .notAuthorizedToNominate
  ensure (g.appointedOfficials role = none) .roleAlreadyFilled
  ensure ((g.pendingNominations role).get? nominee = none) .roleAlreadyFilled
  let processId := g.nextAppointmentId
  let currentBlock := g.elections.blockNumber
  -- seven days of blocks
  let deadline := currentBlock + 14400 * 7
  let nomination : NominationInfo α :=
    ⟨nominator, nominee, currentBlock, false, none, none, .pending⟩
  let process : AppointmentProcess α :=
    ⟨processId, role, nominator, nominee, currentBlock, deadline, .waitingPresidentialApproval⟩
  return { g with
    nextAppointmentId := saturatingAdd 32 processId 1
    pendingNominations := Function.update g.pendingNominations role
      ((g.pendingNominations role).insert nominee nomination)
    appointmentProcesses := g.appointmentProcesses.insert processId process }

/-- The nomination record `approve_appointment` stores. -/
def NominationInfo.approve (nomination : NominationInfo α) (approver : α) (currentBlock : Nat) :
    NominationInfo α :=
  { nomination with
    approved := true, approver := some approver, approvedAt := some currentBlock,
    status := .approved }

/-- `approve_appointment`, signed by the Serok: a process still waiting for the Serok is approved,
and its nominee becomes the role's holder. -/
def approveAppointment (g : Government α) (origin : Origin α) (processId : Nat) :
    Except Error (Government α) := do
  let approver ← ensureSigned origin .badOrigin
  ensure (g.elections.currentOfficials .serok = some approver) .notAuthorizedToApprove
  let process ← okOr (g.appointmentProcesses.get? processId) .appointmentProcessNotFound
  ensure (process.status = .waitingPresidentialApproval) .appointmentAlreadyProcessed
  let nomination ← okOr ((g.pendingNominations process.position).get? process.nominee)
    .nominationNotFound
  let nomination := nomination.approve approver g.elections.blockNumber
  return { g with
    pendingNominations := Function.update g.pendingNominations process.position
      ((g.pendingNominations process.position).insert process.nominee nomination)
    appointmentProcesses := g.appointmentProcesses.insert processId
      { process with status := .approved }
    appointedOfficials := Function.update g.appointedOfficials process.position
      (some process.nominee) }

/-! ## Collective proposals -/

/-- `can_propose`: the Serok for an executive decision, a member of the parliament or the Serok
for any other. -/
def canPropose (g : Government α) (proposer : α) : CollectiveDecisionType → Bool
  | .executiveDecision => decide (g.elections.currentOfficials .serok = some proposer)
  | _ => (g.elections.parliamentMembers.any fun member => decide (member.account = proposer)) ||
      decide (g.elections.currentOfficials .serok = some proposer)

/-- `get_voting_threshold`, in `u32`. -/
def getVotingThreshold : CollectiveDecisionType → Nat
  | .parliamentSimpleMajority => cfg.parliamentSize / 2 + 1
  | .parliamentSuperMajority => wrappingMul 32 cfg.parliamentSize 2 / 3
  | .parliamentAbsoluteMajority => wrappingMul 32 cfg.parliamentSize 3 / 4
  | .constitutionalReview => wrappingMul 32 cfg.diwanSize 2 / 3
  | .constitutionalUnanimous => cfg.diwanSize
  | _ => cfg.parliamentSize / 2 + 1

/-- `submit_proposal`, signed by the proposer: the proposal opens for votes a day after it is
made and stays open for the election period. The proposal id is `NextProposalId`, which
saturates. -/
def submitProposal (g : Government α) (origin : Origin α) (decisionType : CollectiveDecisionType) :
    Except Error (Government α) := do
  let proposer ← ensureSigned origin .badOrigin
  ensure (canPropose g proposer decisionType = true) .notAuthorizedToPropose
  let proposalId := g.nextProposalId
  let currentBlock := g.elections.blockNumber
  let votingStartsAt := currentBlock + 14400
  let expiresAt := votingStartsAt + cfg.electionPeriod
  let proposal : CollectiveProposal α :=
    ⟨proposalId, proposer, currentBlock, votingStartsAt, expiresAt, decisionType, .active, 0, 0, 0,
      getVotingThreshold cfg decisionType, 0⟩
  return { g with
    nextProposalId := saturatingAdd 32 proposalId 1
    activeProposals := g.activeProposals.insert proposalId proposal }

/-- The `ActiveProposals::mutate` of a vote: the chosen count and `votes_cast` each rise by one,
saturating. -/
def CollectiveProposal.addVote (vote : VoteChoice) (proposal : CollectiveProposal α) :
    CollectiveProposal α :=
  let proposal := match vote with
    | .aye => { proposal with ayeVotes := saturatingAdd 32 proposal.ayeVotes 1 }
    | .nay => { proposal with nayVotes := saturatingAdd 32 proposal.nayVotes 1 }
    | .abstain => { proposal with abstainVotes := saturatingAdd 32 proposal.abstainVotes 1 }
  { proposal with votesCast := saturatingAdd 32 proposal.votesCast 1 }

/-- `vote_on_proposal`, signed by the voter: one vote per account and proposal, from a member of
the parliament on the parliament's decision types. Neither the proposal's status nor its voting
window is read. -/
def voteOnProposal (g : Government α) (origin : Origin α) (proposalId : Nat) (vote : VoteChoice) :
    Except Error (Government α) := do
  let voter ← ensureSigned origin .badOrigin
  ensure (g.activeProposals.get? proposalId).isSome .proposalNotFound
  ensure ((g.collectiveVotes proposalId).get? voter = none) .proposalAlreadyVoted
  let proposal ← okOr (g.activeProposals.get? proposalId) .proposalNotFound
  if proposal.decisionType.isParliament then
    ensure (g.elections.parliamentMembers.any fun member => decide (member.account = voter))
      .notAuthorizedToVote
  let voteInfo : CollectiveVote α := ⟨voter, proposalId, vote, g.elections.blockNumber⟩
  return { g with
    collectiveVotes := Function.update g.collectiveVotes proposalId
      ((g.collectiveVotes proposalId).insert voter voteInfo)
    activeProposals := g.activeProposals.alter proposalId (Option.map (·.addVote vote)) }

/-! ## Runs -/

/-- Every call of the pallet with its origin, and the passing of blocks. -/
inductive GovernmentAction (α : Type) where
  | election (a : Action α)
  | nominateOfficial (origin : Origin α) (nominee : α) (role : OfficialRole)
  | approveAppointment (origin : Origin α) (processId : Nat)
  | submitProposal (origin : Origin α) (decisionType : CollectiveDecisionType)
  | voteOnProposal (origin : Origin α) (proposalId : Nat) (vote : VoteChoice)

/-- One step of the pallet: the election calls act on their own storage, and a failed call is
rolled back. -/
def governmentStep (g : Government α) : GovernmentAction α → Government α
  | .election a => { g with elections := step cfg g.elections a }
  | .nominateOfficial origin nominee role => commit (nominateOfficial g origin nominee role) g
  | .approveAppointment origin processId => commit (approveAppointment g origin processId) g
  | .submitProposal origin decisionType => commit (submitProposal cfg g origin decisionType) g
  | .voteOnProposal origin proposalId vote => commit (voteOnProposal g origin proposalId vote) g

end Welati
