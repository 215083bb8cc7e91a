import Pezkuwi.Welati.Government
import Pezkuwi.Welati.Finalization

/-!
# Welati: who appoints the officials

`nominate_official` lets the Serok or a minister open an appointment process for a vacant role,
and `approve_appointment` lets the Serok approve a waiting process, which installs the nominee.
No call writes `CurrentMinisters`, so the Serok alone nominates and approves
(`appointments_by_serok`), and nothing else reads the rules of `OfficialRoleInfo`: a nominee's
trust score is never compared with the role's requirement, and no parliament vote is asked for
the roles that need one (`appointment_without_checks`). A role is vacant until an approval, so
two nominations of different accounts for one role can both wait for the Serok, and the second
approval replaces the first appointee (`appointedOfficials_replaced`).

## Main results

* `nominateOfficial_ok`, `approveAppointment_ok`: what a successful call did
* `run_election`: the election calls leave the appointment and proposal storage alone
* `appointments_by_serok`: in every reachable state only the Serok nominates, and only a Serok
  approval changes an appointed official
* `appointedOfficials_replaced`: two approved nominations for one role, the second one wins
* `appointment_overwritten`, `appointment_without_checks`: both after an election of a Serok
-/

namespace Welati

open Bounded Machine

variable {α : Type} [LinearOrder α] (cfg : Config α)

/-! ## What each call does -/

section Calls

variable {g g' : Government α}

/-- A nomination succeeds for a vacant role from the Serok or a minister, and records a pending
nomination and a process waiting for the Serok under the next process id. -/
theorem nominateOfficial_ok {origin : Origin α} {nominee : α} {role : OfficialRole} :
    nominateOfficial g origin nominee role = .ok g' ↔
      ∃ nominator, origin = .signed nominator ∧
        (g.elections.currentOfficials .serok = some nominator ∨
          (MinisterRole.all.any fun minister =>
            decide (g.currentMinisters minister = some nominator)) = true) ∧
        g.appointedOfficials role = none ∧ (g.pendingNominations role).get? nominee = none ∧
        g' = { g with
          nextAppointmentId := saturatingAdd 32 g.nextAppointmentId 1
          pendingNominations := Function.update g.pendingNominations role
            ((g.pendingNominations role).insert nominee
              ⟨nominator, nominee, g.elections.blockNumber, false, none, none, .pending⟩)
          appointmentProcesses := g.appointmentProcesses.insert g.nextAppointmentId
            ⟨g.nextAppointmentId, role, nominator, nominee, g.elections.blockNumber,
              g.elections.blockNumber + 14400 * 7, .waitingPresidentialApproval⟩ } := by
  simp only [nominateOfficial, bind_eq_ok, ensureSigned_eq_ok, ensure_eq_ok, pure_eq_ok,
    exists_const, @eq_comm _ g']

/-- An approval succeeds from the Serok for a process waiting for the Serok whose nomination is
recorded, and installs the nominee. -/
theorem approveAppointment_ok {origin : Origin α} {processId : Nat} :
    approveAppointment g origin processId = .ok g' ↔
      ∃ approver process nomination, origin = .signed approver ∧
        g.elections.currentOfficials .serok = some approver ∧
        g.appointmentProcesses.get? processId = some process ∧
        process.status = .waitingPresidentialApproval ∧
        (g.pendingNominations process.position).get? process.nominee = some nomination ∧
        g' = { g with
          pendingNominations := Function.update g.pendingNominations process.position
            ((g.pendingNominations process.position).insert process.nominee
              (nomination.approve approver g.elections.blockNumber))
          appointmentProcesses := g.appointmentProcesses.insert processId
            { process with status := .approved }
          appointedOfficials := Function.update g.appointedOfficials process.position
            (some process.nominee) } := by
  simp only [approveAppointment, bind_eq_ok, ensureSigned_eq_ok, ensure_eq_ok, okOr_eq_ok,
    pure_eq_ok, exists_const]
  constructor
  · rintro ⟨approver, rfl, hserok, process, hprocess, hstatus, nomination, hnomination, rfl⟩
    exact ⟨approver, process, nomination, rfl, hserok, hprocess, hstatus, hnomination, rfl⟩
  · rintro ⟨approver, process, nomination, rfl, hserok, hprocess, hstatus, hnomination, rfl⟩
    exact ⟨approver, rfl, hserok, process, hprocess, hstatus, nomination, hnomination, rfl⟩

/-- A proposal succeeds from an account `can_propose` allows, and is recorded under the next
proposal id, open for votes a day later. -/
theorem submitProposal_ok {origin : Origin α} {decisionType : CollectiveDecisionType} :
    submitProposal cfg g origin decisionType = .ok g' ↔
      ∃ proposer, origin = .signed proposer ∧ canPropose g proposer decisionType = true ∧
        g' = { g with
          nextProposalId := saturatingAdd 32 g.nextProposalId 1
          activeProposals := g.activeProposals.insert g.nextProposalId
            ⟨g.nextProposalId, proposer, g.elections.blockNumber, g.elections.blockNumber + 14400,
              g.elections.blockNumber + 14400 + cfg.electionPeriod, decisionType, .active, 0, 0, 0,
              getVotingThreshold cfg decisionType, 0⟩ } := by
  simp only [submitProposal, bind_eq_ok, ensureSigned_eq_ok, ensure_eq_ok, pure_eq_ok,
    exists_const, @eq_comm _ g']

/-- A vote succeeds on a recorded proposal from an account that has not voted on it, a member of
the parliament on the parliament's decision types; it is recorded at the current block. -/
theorem voteOnProposal_ok {origin : Origin α} {proposalId : Nat} {vote : VoteChoice} :
    voteOnProposal g origin proposalId vote = .ok g' ↔
      ∃ voter proposal, origin = .signed voter ∧
        g.activeProposals.get? proposalId = some proposal ∧
        (g.collectiveVotes proposalId).get? voter = none ∧
        (proposal.decisionType.isParliament = true →
          (g.elections.parliamentMembers.any fun member => decide (member.account = voter)) =
            true) ∧
        g' = { g with
          collectiveVotes := Function.update g.collectiveVotes proposalId
            ((g.collectiveVotes proposalId).insert voter
              ⟨voter, proposalId, vote, g.elections.blockNumber⟩)
          activeProposals := g.activeProposals.alter proposalId
            (Option.map (·.addVote vote)) } := by
  unfold voteOnProposal
  simp only [bind_eq_ok, ensureSigned_eq_ok, ensure_eq_ok, okOr_eq_ok, exists_const]
  constructor
  · rintro ⟨voter, rfl, -, hnew, proposal, hproposal, h⟩
    -- the membership check stands only on the parliament's decision types
    by_cases hparl : proposal.decisionType.isParliament = true
    · rw [if_pos hparl] at h
      obtain ⟨_, hmember, h⟩ := bind_eq_ok.mp h
      exact ⟨voter, proposal, rfl, hproposal, hnew, fun _ => ensure_eq_ok.mp hmember,
        (pure_eq_ok.mp h).symm⟩
    · rw [if_neg hparl] at h
      exact ⟨voter, proposal, rfl, hproposal, hnew, fun h => absurd h hparl,
        (pure_eq_ok.mp h).symm⟩
  · rintro ⟨voter, proposal, rfl, hproposal, hnew, hmember, rfl⟩
    refine ⟨voter, rfl, by simp [hproposal], hnew, proposal, hproposal, ?_⟩
    by_cases hparl : proposal.decisionType.isParliament = true
    · rw [if_pos hparl]
      exact bind_eq_ok.mpr ⟨(), ensure_eq_ok.mpr (hmember hparl), rfl⟩
    · rw [if_neg hparl]
      rfl

end Calls

/-! ## The election calls -/

/-- A run of election calls acts on the election storage only. -/
theorem run_election (g : Government α) (as : List (Action α)) :
    run (governmentStep cfg) g (as.map .election) =
      { g with elections := run (step cfg) g.elections as } := by
  induction as generalizing g with
  | nil => rfl
  | cons a as ih => rw [List.map_cons, run_cons, ih]; rfl

/-! ## Only the Serok appoints -/

/-- Every call but an approval leaves the ministers and the appointed officials as they
were. -/
theorem officials_governmentStep (g : Government α) {a : GovernmentAction α}
    (ha : ∀ origin processId, a ≠ .approveAppointment origin processId) :
    (governmentStep cfg g a).currentMinisters = g.currentMinisters ∧
      (governmentStep cfg g a).appointedOfficials = g.appointedOfficials := by
  cases a with
  | election a => exact ⟨rfl, rfl⟩
  | nominateOfficial origin nominee role =>
    refine commit_of_ok (P := fun g' : Government α => g'.currentMinisters = g.currentMinisters ∧
      g'.appointedOfficials = g.appointedOfficials) ⟨rfl, rfl⟩ fun g' h => ?_
    obtain ⟨_, _, _, _, _, rfl⟩ := nominateOfficial_ok.mp h
    exact ⟨rfl, rfl⟩
  | approveAppointment origin processId => exact absurd rfl (ha origin processId)
  | submitProposal origin decisionType =>
    refine commit_of_ok (P := fun g' : Government α => g'.currentMinisters = g.currentMinisters ∧
      g'.appointedOfficials = g.appointedOfficials) ⟨rfl, rfl⟩ fun g' h => ?_
    obtain ⟨_, _, _, rfl⟩ := (submitProposal_ok cfg).mp h
    exact ⟨rfl, rfl⟩
  | voteOnProposal origin proposalId vote =>
    refine commit_of_ok (P := fun g' : Government α => g'.currentMinisters = g.currentMinisters ∧
      g'.appointedOfficials = g.appointedOfficials) ⟨rfl, rfl⟩ fun g' h => ?_
    obtain ⟨_, _, _, _, _, _, rfl⟩ := voteOnProposal_ok.mp h
    exact ⟨rfl, rfl⟩

/-- No call writes `CurrentMinisters`. -/
theorem currentMinisters_governmentStep (g : Government α) (a : GovernmentAction α) :
    (governmentStep cfg g a).currentMinisters = g.currentMinisters := by
  by_cases happrove : ∃ origin processId, a = .approveAppointment origin processId
  · obtain ⟨origin, processId, rfl⟩ := happrove
    refine apply_commit_eq (fun g : Government α => g.currentMinisters) fun g' h => ?_
    obtain ⟨_, _, _, _, _, _, _, _, rfl⟩ := approveAppointment_ok.mp h
    rfl
  · simp only [not_exists] at happrove
    exact (officials_governmentStep cfg g happrove).1

/-- There is never a minister. -/
theorem currentMinisters_of_reachable {g : Government α}
    (hg : Reachable (governmentStep cfg) governmentGenesis g) (minister : MinisterRole) :
    g.currentMinisters minister = none :=
  hg.invariant (P := fun g => g.currentMinisters minister = none) rfl fun g a hg => by
    rw [currentMinisters_governmentStep]
    exact hg

/-- Without ministers, a successful nomination was signed by the Serok. -/
theorem nominateOfficial_serok {g g' : Government α} {origin : Origin α} {nominee : α}
    {role : OfficialRole} (hministers : ∀ minister, g.currentMinisters minister = none)
    (h : nominateOfficial g origin nominee role = .ok g') :
    ∃ nominator, origin = .signed nominator ∧
      g.elections.currentOfficials .serok = some nominator := by
  obtain ⟨nominator, rfl, hserok | hminister, -⟩ := nominateOfficial_ok.mp h
  · exact ⟨nominator, rfl, hserok⟩
  · simp [hministers] at hminister

/-- Only a successful approval changes an appointed official: one signed by the Serok, of a
process for the role waiting for the Serok, and it installs the process's nominee. -/
theorem appointedOfficials_governmentStep {g : Government α} {a : GovernmentAction α}
    {role : OfficialRole}
    (h : (governmentStep cfg g a).appointedOfficials role ≠ g.appointedOfficials role) :
    ∃ approver processId process, a = .approveAppointment (.signed approver) processId ∧
      g.elections.currentOfficials .serok = some approver ∧
      g.appointmentProcesses.get? processId = some process ∧ process.position = role ∧
      process.status = .waitingPresidentialApproval ∧
      (governmentStep cfg g a).appointedOfficials role = some process.nominee := by
  by_cases happrove : ∃ origin processId, a = .approveAppointment origin processId
  · obtain ⟨origin, processId, rfl⟩ := happrove
    -- a failed approval is rolled back, so the call succeeded
    cases happrove : approveAppointment g origin processId with
    | error e => simp [governmentStep, happrove] at h
    | ok g' =>
      obtain ⟨approver, process, _, rfl, hserok, hprocess, hstatus, -, rfl⟩ :=
        approveAppointment_ok.mp happrove
      simp only [governmentStep, happrove, commit_ok] at h ⊢
      -- another role keeps its holder
      by_cases hrole : process.position = role
      · subst hrole
        exact ⟨approver, processId, process, rfl, hserok, hprocess, rfl, hstatus,
          Function.update_self _ _ _⟩
      · exact absurd (Function.update_of_ne (Ne.symm hrole) _ _) h
  · simp only [not_exists] at happrove
    exact absurd (congrFun (officials_governmentStep cfg g happrove).2 role) h

/-- In every reachable state only the Serok nominates, and a call that changes an appointed
official is the Serok's approval of a waiting process for the role, which installs its
nominee. -/
theorem appointments_by_serok {g : Government α}
    (hg : Reachable (governmentStep cfg) governmentGenesis g) :
    (∀ origin nominee role g', nominateOfficial g origin nominee role = .ok g' →
      ∃ nominator, origin = .signed nominator ∧
        g.elections.currentOfficials .serok = some nominator) ∧
    ∀ a role, (governmentStep cfg g a).appointedOfficials role ≠ g.appointedOfficials role →
      ∃ approver processId process, a = .approveAppointment (.signed approver) processId ∧
        g.elections.currentOfficials .serok = some approver ∧
        g.appointmentProcesses.get? processId = some process ∧ process.position = role ∧
        process.status = .waitingPresidentialApproval ∧
        (governmentStep cfg g a).appointedOfficials role = some process.nominee :=
  ⟨fun _ _ _ _ h => nominateOfficial_serok (currentMinisters_of_reachable cfg hg) h,
    fun _ _ h => appointedOfficials_governmentStep cfg h⟩

/-! ## Two nominations for one role -/

/-- The Serok's nomination of an account not yet nominated for a vacant role. -/
theorem governmentStep_nominateOfficial {g : Government α} {serok nominee : α}
    {role : OfficialRole} (hserok : g.elections.currentOfficials .serok = some serok)
    (hvacant : g.appointedOfficials role = none)
    (hfresh : (g.pendingNominations role).get? nominee = none) :
    governmentStep cfg g (.nominateOfficial (.signed serok) nominee role) = { g with
      nextAppointmentId := saturatingAdd 32 g.nextAppointmentId 1
      pendingNominations := Function.update g.pendingNominations role
        ((g.pendingNominations role).insert nominee
          ⟨serok, nominee, g.elections.blockNumber, false, none, none, .pending⟩)
      appointmentProcesses := g.appointmentProcesses.insert g.nextAppointmentId
        ⟨g.nextAppointmentId, role, serok, nominee, g.elections.blockNumber,
          g.elections.blockNumber + 14400 * 7, .waitingPresidentialApproval⟩ } := by
  rw [governmentStep, nominateOfficial_ok.mpr ⟨serok, rfl, .inl hserok, hvacant, hfresh, rfl⟩,
    commit_ok]

/-- The Serok's approval of a waiting process whose nomination is recorded. -/
theorem governmentStep_approveAppointment {g : Government α} {serok : α} {processId : Nat}
    {process : AppointmentProcess α} {nomination : NominationInfo α}
    (hserok : g.elections.currentOfficials .serok = some serok)
    (hprocess : g.appointmentProcesses.get? processId = some process)
    (hstatus : process.status = .waitingPresidentialApproval)
    (hnomination : (g.pendingNominations process.position).get? process.nominee = some nomination) :
    governmentStep cfg g (.approveAppointment (.signed serok) processId) = { g with
      pendingNominations := Function.update g.pendingNominations process.position
        ((g.pendingNominations process.position).insert process.nominee
          (nomination.approve serok g.elections.blockNumber))
      appointmentProcesses := g.appointmentProcesses.insert processId
        { process with status := .approved }
      appointedOfficials := Function.update g.appointedOfficials process.position
        (some process.nominee) } := by
  rw [governmentStep, approveAppointment_ok.mpr
    ⟨serok, process, nomination, rfl, hserok, hprocess, hstatus, hnomination, rfl⟩, commit_ok]

/-- From any state with a Serok and a vacant role, the Serok's nomination of an account and
approval of its process make the account the holder: neither call reads the account's trust score
or asks the parliament, and the proposals and their votes stay as they were. -/
theorem appointedOfficials_nominate_approve {g : Government α} {serok a : α} {role : OfficialRole}
    (hserok : g.elections.currentOfficials .serok = some serok)
    (hvacant : g.appointedOfficials role = none)
    (ha : (g.pendingNominations role).get? a = none) :
    (run (governmentStep cfg) g [.nominateOfficial (.signed serok) a role,
        .approveAppointment (.signed serok) g.nextAppointmentId]).appointedOfficials role =
      some a ∧
    (run (governmentStep cfg) g [.nominateOfficial (.signed serok) a role,
        .approveAppointment (.signed serok) g.nextAppointmentId]).activeProposals =
      g.activeProposals ∧
    (run (governmentStep cfg) g [.nominateOfficial (.signed serok) a role,
        .approveAppointment (.signed serok) g.nextAppointmentId]).collectiveVotes =
      g.collectiveVotes := by
  simp only [run_cons, run_nil]
  rw [governmentStep_nominateOfficial cfg hserok hvacant ha,
    governmentStep_approveAppointment cfg ?serok₂ ?process ?status ?nomination]
  case serok₂ => exact hserok
  case process =>
    simp only [StorageMap.get?_insert, ↓reduceIte]
    rfl
  case nomination =>
    simp only [Function.update_self, StorageMap.get?_insert, ↓reduceIte]
    rfl
  case status => rfl
  simp

/-- From any state with a Serok and a vacant role, the Serok nominates two accounts for the role
and approves both processes: each approval is accepted, and the second replaces the first
appointee. -/
theorem appointedOfficials_replaced {g : Government α} {serok a b : α} {role : OfficialRole}
    (hserok : g.elections.currentOfficials .serok = some serok)
    (hvacant : g.appointedOfficials role = none) (hab : a ≠ b)
    (ha : (g.pendingNominations role).get? a = none)
    (hb : (g.pendingNominations role).get? b = none) (hid : g.nextAppointmentId < maxValue 32) :
    (run (governmentStep cfg) g [.nominateOfficial (.signed serok) a role,
        .nominateOfficial (.signed serok) b role,
        .approveAppointment (.signed serok) g.nextAppointmentId]).appointedOfficials role =
      some a ∧
    (run (governmentStep cfg) g [.nominateOfficial (.signed serok) a role,
        .nominateOfficial (.signed serok) b role,
        .approveAppointment (.signed serok) g.nextAppointmentId,
        .approveAppointment (.signed serok) (g.nextAppointmentId + 1)]).appointedOfficials role =
      some b ∧
    ((run (governmentStep cfg) g [.nominateOfficial (.signed serok) a role,
        .nominateOfficial (.signed serok) b role,
        .approveAppointment (.signed serok) g.nextAppointmentId,
        .approveAppointment (.signed serok) (g.nextAppointmentId + 1)]).appointmentProcesses.get?
          g.nextAppointmentId).map (fun p => (p.position, p.nominee, p.status)) =
      some (role, a, .approved) ∧
    ((run (governmentStep cfg) g [.nominateOfficial (.signed serok) a role,
        .nominateOfficial (.signed serok) b role,
        .approveAppointment (.signed serok) g.nextAppointmentId,
        .approveAppointment (.signed serok) (g.nextAppointmentId + 1)]).appointmentProcesses.get?
          (g.nextAppointmentId + 1)).map (fun p => (p.position, p.nominee, p.status)) =
      some (role, b, .approved) := by
  have hnext : saturatingAdd 32 g.nextAppointmentId 1 = g.nextAppointmentId + 1 :=
    saturatingAdd_of_le hid
  have hids : g.nextAppointmentId + 1 ≠ g.nextAppointmentId := Nat.succ_ne_self _
  simp only [run_cons, run_nil]
  -- the two nominations: the second nominee is still fresh for the role
  rw [governmentStep_nominateOfficial cfg hserok hvacant ha,
    governmentStep_nominateOfficial cfg ?serok₂ ?vacant₂ ?fresh₂, hnext,
    governmentStep_approveAppointment cfg ?serok₃ ?process₃ ?status₃ ?nomination₃,
    governmentStep_approveAppointment cfg ?serok₄ ?process₄ ?status₄ ?nomination₄]
  case serok₂ | serok₃ | serok₄ => exact hserok
  case vacant₂ => exact hvacant
  case fresh₂ => simpa [Ne.symm hab] using hb
  -- each approval finds its process and nomination as the nominations left them
  case process₃ | process₄ =>
    simp only [StorageMap.get?_insert, if_neg hids, if_neg (Ne.symm hids), ↓reduceIte]
    rfl
  case nomination₃ | nomination₄ =>
    simp only [Function.update_self, StorageMap.get?_insert, if_neg hab, if_neg (Ne.symm hab),
      ↓reduceIte]
    rfl
  case status₃ | status₄ => rfl
  simp

/-! ## After the election of a Serok -/

/-- The runtime's constants and oracles of `sampleConfig`, except that the trust pallet scores
account `5` zero. -/
def appointmentConfig : Config Nat :=
  { sampleConfig with trustScoreOf := fun a => if a = 5 then 0 else 1000 }

/-- Account `1` runs alone for Serok with a hundred endorsers and gets the one vote cast; the
election then ends. -/
def serokElection : List (Action Nat) :=
  [.initiateElection .root .presidential none none,
    .registerCandidate (.signed 1) 0 none (List.range' 10 100),
    .advance 345600, .castVote (.signed 200) 0 [1] none, .advance 777601]

/-- The pallet once that election is finalized. -/
def serokGovernment : Government Nat :=
  run (governmentStep appointmentConfig) governmentGenesis
    ((serokElection ++ [Action.finalizeElection .root 0]).map .election)

/-- The election storage is the finalized election's, and the rest is empty. -/
theorem serokGovernment_eq : serokGovernment = { governmentGenesis with
    elections := step appointmentConfig (run (step appointmentConfig) genesis serokElection)
      (.finalizeElection .root 0) } := by
  rw [serokGovernment, run_election, run_append, run_cons, run_nil]
  rfl

/-- The election as the run leaves it: one candidate with the one vote, and the voting over. -/
theorem serokElection_spec :
    (run (step appointmentConfig) genesis serokElection).activeElections.get? 0 = some
        ⟨0, .presidential, 0, 86400, 86400, 345600, 777600, [1], 1, .candidacyPeriod, 50⟩ ∧
      (run (step appointmentConfig) genesis serokElection).blockNumber = 777601 ∧
      ((⟨0, .presidential, 0, 86400, 86400, 345600, 777600, [1], 1, .candidacyPeriod, 50⟩ :
        ElectionInfo Nat).candidates.filterMap fun c =>
          (((run (step appointmentConfig) genesis serokElection).electionCandidates 0).get? c).map
            fun info => (c, info.voteCount)) = [(1, 1)] := by
  decide +kernel

/-- Account `1` wins the run's election outright, with the one vote. -/
theorem serokElection_winners :
    calculateElectionWinners appointmentConfig (run (step appointmentConfig) genesis serokElection) 0
      ⟨0, .presidential, 0, 86400, 86400, 345600, 777600, [1], 1, .candidacyPeriod, 50⟩ =
        .ok (.winners [1]) := by
  have hwinner := calculateElectionWinners_presidential appointmentConfig rfl
    (candidatesWithVotes_of_sorted serokElection_spec.2.2 (List.pairwise_singleton _ _))
    (by norm_num)
  rw [if_pos (by decide)] at hwinner
  exact hwinner

/-- The finalization installs account `1` as Serok, with all the votes. -/
theorem serokGovernment_serok : serokGovernment.elections.currentOfficials .serok = some 1 := by
  obtain ⟨helection, hblock, -⟩ := serokElection_spec
  rw [serokGovernment_eq]
  dsimp only
  exact finalizeElection_installs_serok appointmentConfig helection (by rw [hblock]; decide)
    (by decide) rfl serokElection_winners

/-- The finalization happens at block `777601`, where the run left the election. -/
theorem serokGovernment_blockNumber : serokGovernment.elections.blockNumber = 777601 := by
  rw [serokGovernment_eq]
  dsimp only
  rw [step, apply_commit_eq State.blockNumber fun _ h =>
    blockNumber_finalizeElection appointmentConfig h]
  exact serokElection_spec.2.1

/-- The Serok's election is finalized with one vote from a hundred thousand citizens: the
stored turnout is `0`, below the election's minimum turnout of `50`, and account `1` is installed
all the same. -/
theorem finalized_below_minimum_turnout :
    ∃ election, serokGovernment.elections.activeElections.get? 0 = some election ∧
      election.status = .completed ∧ election.minimumTurnout = 50 ∧
      serokGovernment.elections.currentOfficials .serok = some 1 ∧
      serokGovernment.elections.electionResults.get? 0 = some ⟨0, [1], 1, 0, 777601⟩ := by
  obtain ⟨helection, hblock, -⟩ := serokElection_spec
  rw [serokGovernment_eq]
  dsimp only
  rw [step_finalizeElection_presidential appointmentConfig helection (by rw [hblock]; decide)
    (by decide) rfl serokElection_winners, hblock]
  dsimp only
  -- the turnout: `1 * 100 / 100000` is `0`
  have hturnout : turnoutPercentage appointmentConfig 1 = 0 := by decide
  refine ⟨_, (StorageMap.get?_insert _ _ _ _).trans (if_pos rfl), rfl, rfl,
    Function.update_self _ _ _, ?_⟩
  rw [StorageMap.get?_insert, if_pos rfl, hturnout]

/-- The Serok nominates accounts `5` and `6` for `Dadger`, and approves the first process. -/
def doubleNominationState : Government Nat :=
  run (governmentStep appointmentConfig) serokGovernment
    [.nominateOfficial (.signed 1) 5 .dadger, .nominateOfficial (.signed 1) 6 .dadger,
      .approveAppointment (.signed 1) 0]

/-- In a reachable state `Dadger` is held by account `5`, and the Serok's approval of the second
process replaces it by account `6`: both processes for the role end approved. -/
theorem appointment_overwritten :
    Reachable (governmentStep appointmentConfig) governmentGenesis doubleNominationState ∧
      doubleNominationState.appointedOfficials .dadger = some 5 ∧
      (governmentStep appointmentConfig doubleNominationState
        (.approveAppointment (.signed 1) 1)).appointedOfficials .dadger = some 6 ∧
      ((governmentStep appointmentConfig doubleNominationState
        (.approveAppointment (.signed 1) 1)).appointmentProcesses.get? 0).map
          (fun p => (p.position, p.nominee, p.status)) = some (.dadger, 5, .approved) ∧
      ((governmentStep appointmentConfig doubleNominationState
        (.approveAppointment (.signed 1) 1)).appointmentProcesses.get? 1).map
          (fun p => (p.position, p.nominee, p.status)) = some (.dadger, 6, .approved) := by
  have hid : serokGovernment.nextAppointmentId = 0 := by rw [serokGovernment_eq]; rfl
  have hreplaced := appointedOfficials_replaced appointmentConfig serokGovernment_serok
    (by rw [serokGovernment_eq]; rfl : serokGovernment.appointedOfficials .dadger = none)
    (by decide : (5 : Nat) ≠ 6) (by rw [serokGovernment_eq]; rfl)
    (by rw [serokGovernment_eq]; rfl) (by rw [hid, maxValue_32]; decide)
  refine ⟨reachable_run_from (reachable_run _) _, ?_⟩
  simp only [hid, run_cons, run_nil, Nat.zero_add] at hreplaced
  simpa only [doubleNominationState, run_cons, run_nil] using hreplaced

/-- The Serok nominates account `5`, whom the trust pallet scores zero, for `Dadger`, and
approves the process. -/
def dadgerState : Government Nat :=
  run (governmentStep appointmentConfig) serokGovernment
    [.nominateOfficial (.signed 1) 5 .dadger, .approveAppointment (.signed 1) 0]

/-- In a reachable state account `5` holds `Dadger`, though its trust score is below the role's
requirement and the role requires the parliament's approval: no proposal was ever made, so no
parliament vote took place. -/
theorem appointment_without_checks :
    Reachable (governmentStep appointmentConfig) governmentGenesis dadgerState ∧
      dadgerState.appointedOfficials .dadger = some 5 ∧
      appointmentConfig.trustScoreOf 5 < OfficialRole.dadger.requiredTrustScore ∧
      OfficialRole.dadger.requiresParliamentApproval = true ∧
      dadgerState.activeProposals = ∅ ∧ ∀ p, dadgerState.collectiveVotes p = ∅ := by
  have hid : serokGovernment.nextAppointmentId = 0 := by rw [serokGovernment_eq]; rfl
  obtain ⟨happointed, hproposals, hvotes⟩ :=
    appointedOfficials_nominate_approve appointmentConfig serokGovernment_serok
      (by rw [serokGovernment_eq]; rfl : serokGovernment.appointedOfficials .dadger = none)
      (by rw [serokGovernment_eq]; rfl : (serokGovernment.pendingNominations .dadger).get? 5 = none)
  rw [hid] at happointed hproposals hvotes
  rw [dadgerState]
  refine ⟨reachable_run_from (reachable_run _) _, happointed, by decide, rfl, ?_, fun p => ?_⟩
  · rw [hproposals, serokGovernment_eq]
    rfl
  · rw [hvotes, serokGovernment_eq]
    rfl

end Welati
