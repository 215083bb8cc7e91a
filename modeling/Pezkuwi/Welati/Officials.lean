import Pezkuwi.Welati.Finality

/-!
# Welati: who holds an office

`CurrentOfficials` and `ParliamentMembers` are written by `assign_election_winners` alone, when
`finalize_election` installs the winners of an election: a presidential election's first winner
becomes Serok, a speaker election's first winner Speaker (`MeclisBaskani`), and a parliamentary
election's winners the parliament. No call fills the positions `Parlementer` and `EndameDiwane`.
So on every reachable state whose `NextElectionId` is below `u32::MAX`, each holder of a position
is the first winner of a completed election of the type that fills it, and the parliament is the
winners of a completed parliamentary election, with the results stored (`OfficialsInv`). The
pallet's origin checks read these two storage items, and so accept elected accounts only
(`elected_origins`).

The installing election stays stored with its result because a completed election is final
(`SameElection.step`). Its id is below `NextElectionId`, since no stored id is above it
(`StoredBelow`) and the id `NextElectionId` itself is unused until it saturates.

## Main definitions

* `ensureSerok`, `ensureParliamentMember`: the pallet's origin checks
* `EnsureSerok.tryOrigin`, `EnsureParlementer.tryOrigin`: the origins the runtime is given
* `filledBy`: the election type that fills a position
* `ElectedBy s t result`: `result` is the stored result of a completed election of type `t`
* `OfficialsInv`: every holder and every parliament was elected

## Main results

* `StoredBelow.step`, `storedBelow_of_reachable`: no stored id is above `NextElectionId`
* `step_officials_cases`: only a finalization that installs winners changes the holders
* `OfficialsInv.step`, `officialsInv_of_reachable`: the holders are elected on every run
* `elected_origins`: the Serok and parliament origins accept elected accounts only
-/

namespace Welati

open Bounded Machine

variable {α : Type} [LinearOrder α] {cfg : Config α} {s s' : State α}

/-! ## The origin checks -/

/-- `ensure_serok`: the signer, when it is the current Serok. -/
def ensureSerok (s : State α) (origin : Origin α) : Except Error α := do
  let who ← ensureSigned origin .badOrigin
  let currentSerok ← okOr (s.currentOfficials .serok) .badOrigin
  ensure (who = currentSerok) .badOrigin
  pure who

/-- `ensure_parliament_member`: the signer, when it is a member of the parliament. -/
def ensureParliamentMember (s : State α) (origin : Origin α) : Except Error α := do
  let who ← ensureSigned origin .badOrigin
  let isMember := s.parliamentMembers.any fun m => m.account == who
  ensure (isMember = true) .badOrigin
  pure who

/-- `EnsureSerok::try_origin`: a signed origin of the current Serok gives the signer; any other
origin is handed back. -/
def EnsureSerok.tryOrigin (s : State α) (o : Origin α) : Except (Origin α) α :=
  match o with
  | .signed who =>
    match s.currentOfficials .serok with
    | some currentSerok => if who = currentSerok then .ok who else .error o
    | none => .error o
  | .root => .error o

/-- `EnsureParlementer::try_origin`: a signed origin of a parliament member gives the signer; any
other origin is handed back. -/
def EnsureParlementer.tryOrigin (s : State α) (o : Origin α) : Except (Origin α) α :=
  match o with
  | .signed who =>
    if s.parliamentMembers.any (fun member => member.account == who) then .ok who else .error o
  | .root => .error o

/-- `ensure_serok` accepts the signed origins of the current Serok. -/
theorem ensureSerok_eq_ok {origin : Origin α} {who : α} :
    ensureSerok s origin = .ok who ↔
      origin = .signed who ∧ s.currentOfficials .serok = some who := by
  simp only [ensureSerok, bind_eq_ok, ensureSigned_eq_ok, okOr_eq_ok, ensure_eq_ok, pure_eq_ok]
  constructor
  · rintro ⟨signer, rfl, serok, hserok, -, rfl, rfl⟩
    exact ⟨rfl, hserok⟩
  · rintro ⟨rfl, hserok⟩
    exact ⟨who, rfl, who, hserok, (), rfl, rfl⟩

/-- The origin `EnsureSerok` accepts what `ensure_serok` accepts. -/
theorem EnsureSerok.tryOrigin_eq_ok {origin : Origin α} {who : α} :
    EnsureSerok.tryOrigin s origin = .ok who ↔
      origin = .signed who ∧ s.currentOfficials .serok = some who := by
  cases origin with
  | root => simp [EnsureSerok.tryOrigin]
  | signed signer =>
    simp only [EnsureSerok.tryOrigin, Origin.signed.injEq]
    split <;> rename_i hserok
    · split_ifs with hsigner
      · subst hsigner
        simp [hserok, eq_comm]
      · simp only [false_iff, not_and]
        rintro rfl
        simpa [hserok, eq_comm] using hsigner
    · simp [hserok]

/-- `ensure_parliament_member` accepts the signed origins of the parliament's members. -/
theorem ensureParliamentMember_eq_ok {origin : Origin α} {who : α} :
    ensureParliamentMember s origin = .ok who ↔
      origin = .signed who ∧ ∃ m ∈ s.parliamentMembers, m.account = who := by
  simp only [ensureParliamentMember, bind_eq_ok, ensureSigned_eq_ok, ensure_eq_ok, pure_eq_ok,
    List.any_eq_true, beq_iff_eq]
  constructor
  · rintro ⟨signer, rfl, -, hmember, rfl⟩
    exact ⟨rfl, hmember⟩
  · rintro ⟨rfl, hmember⟩
    exact ⟨who, rfl, (), hmember, rfl⟩

/-- The origin `EnsureParlementer` accepts what `ensure_parliament_member` accepts. -/
theorem EnsureParlementer.tryOrigin_eq_ok {origin : Origin α} {who : α} :
    EnsureParlementer.tryOrigin s origin = .ok who ↔
      origin = .signed who ∧ ∃ m ∈ s.parliamentMembers, m.account = who := by
  cases origin with
  | root => simp [EnsureParlementer.tryOrigin]
  | signed signer =>
    simp only [EnsureParlementer.tryOrigin, Origin.signed.injEq]
    split_ifs with hmember
    · simp only [List.any_eq_true, beq_iff_eq] at hmember
      constructor
      · rintro ⟨⟩
        exact ⟨rfl, hmember⟩
      · rintro ⟨rfl, -⟩
        rfl
    · simp only [List.any_eq_true, beq_iff_eq, not_exists, not_and] at hmember
      simp only [false_iff, not_and, not_exists]
      rintro rfl m hm
      exact hmember m hm

/-! ## The ids of the stored elections -/

/-- No stored election has an id above `NextElectionId`. -/
def StoredBelow (s : State α) : Prop :=
  ∀ e info, s.activeElections.get? e = some info → e ≤ s.nextElectionId

theorem storedBelow_genesis : StoredBelow (genesis : State α) :=
  fun _ _ h => nomatch h

/-- While `NextElectionId` is below `u32::MAX`, a stored id is below it: it is not above it, and
the id `NextElectionId` itself is still fresh. -/
theorem lt_next_of_stored (ht : TallyInv s) (hb : StoredBelow s)
    (hmax : s.nextElectionId < maxValue 32) {e : Nat} {info : ElectionInfo α}
    (h : s.activeElections.get? e = some info) : e < s.nextElectionId := by
  refine lt_of_le_of_ne (hb e info h) ?_
  rintro rfl
  rw [(ht.fresh _ le_rfl hmax).1] at h
  exact Option.some_ne_none _ h.symm

/-- `NextElectionId` only grows: a new election raises it, saturating at `u32::MAX`. -/
theorem le_saturatingAdd_nextElectionId (ht : TallyInv s) :
    s.nextElectionId ≤ saturatingAdd 32 s.nextElectionId 1 :=
  le_min (Nat.le_add_right _ _) ht.nextElectionId_le

/-- A write of one election keeps the stored ids below `NextElectionId` when the id written is. -/
theorem StoredBelow.insert (hb : StoredBelow s) {e : Nat} {info : ElectionInfo α}
    (he : e ≤ s'.nextElectionId) (hnext : s.nextElectionId ≤ s'.nextElectionId)
    (ha : s'.activeElections = s.activeElections.insert e info) : StoredBelow s' := by
  intro e' info' h
  rw [ha, StorageMap.get?_insert] at h
  split_ifs at h with he'
  · exact he' ▸ he
  · exact (hb e' info' h).trans hnext

/-- A new election is stored under `NextElectionId`, which it raises. -/
theorem StoredBelow.initiateElection (ht : TallyInv s) (hb : StoredBelow s)
    {origin : Origin α} {electionType : ElectionType}
    {districts : Option (List ElectoralDistrict)} {initialCandidates : Option (List α)}
    (h : Welati.initiateElection cfg s origin electionType districts initialCandidates = .ok s') :
    StoredBelow s' ∧ s.nextElectionId ≤ s'.nextElectionId := by
  have hle := le_saturatingAdd_nextElectionId ht
  obtain ⟨-, -, ⟨-, rfl⟩ | ⟨runoffCandidates, -, -, -, rfl⟩⟩ := initiateElection_ok h
  · exact ⟨hb.insert hle hle rfl, hle⟩
  · exact ⟨hb.insert hle hle rfl, hle⟩

/-- Every call stores elections under ids already in use or under `NextElectionId`, and
`NextElectionId` only grows. -/
theorem StoredBelow.step (ht : TallyInv s) (hb : StoredBelow s) (a : Action α) :
    StoredBelow (step cfg s a) ∧ s.nextElectionId ≤ (step cfg s a).nextElectionId := by
  let P : State α → Prop := fun t => StoredBelow t ∧ s.nextElectionId ≤ t.nextElectionId
  have hs : P s := ⟨hb, le_rfl⟩
  cases a with
  | initiateElection origin electionType districts initialCandidates =>
    exact commit_of_ok (P := P) hs fun s' h => hb.initiateElection ht h
  | registerCandidate origin electionId districtId endorsers =>
    refine commit_of_ok (P := P) hs fun s' h => ?_
    obtain ⟨-, election, -, helection, -, -, -, -, -, -, -, -, -, rfl⟩ := registerCandidate_ok h
    exact ⟨hb.insert (hb electionId election helection) le_rfl rfl, le_rfl⟩
  | castVote origin electionId candidates districtId =>
    refine commit_of_ok (P := P) hs fun s' h => ?_
    obtain ⟨-, election, -, helection, -, -, -, -, -, -, rfl⟩ := castVote_ok h
    exact ⟨hb.insert (hb electionId election helection) le_rfl rfl, le_rfl⟩
  | finalizeElection origin electionId =>
    refine commit_of_ok (P := P) hs fun s' h => ?_
    obtain ⟨-, election, helection, -, -, hwinners | hrunoff⟩ := finalizeElection_ok h
    · obtain ⟨winners, s₁, -, hassign, rfl⟩ := hwinners
      obtain ⟨officials, members, rfl⟩ := assignElectionWinners_frame hassign
      exact ⟨hb.insert (hb electionId election helection) le_rfl rfl, le_rfl⟩
    · -- the runoff is stored under `NextElectionId`, then the finalized election is rewritten
      obtain ⟨candidates, s₁, -, hinit, rfl⟩ := hrunoff
      obtain ⟨hb₁, hnext⟩ := hb.initiateElection ht hinit
      exact ⟨hb₁.insert ((hb electionId election helection).trans hnext) le_rfl rfl, hnext⟩
  | advance b =>
    dsimp only [Welati.step]
    split_ifs
    · exact ⟨hb, le_rfl⟩
    · exact ⟨hb, le_rfl⟩

theorem storedBelow_of_reachable (hs : Reachable (step cfg) genesis s) : StoredBelow s := by
  induction hs with
  | init => exact storedBelow_genesis
  | step a hs ih => exact (ih.step (tallyInv_of_reachable hs) a).1

/-! ## Elected holders -/

/-- The election type whose first winner `assign_election_winners` installs in a position: the
presidential election fills the Serok's, the speaker election the Speaker's; no election fills
the other two. -/
def filledBy : GovernmentPosition → Option ElectionType
  | .serok => some .presidential
  | .meclisBaskani => some .speakerElection
  | .parlementer => none
  | .endameDiwane => none

/-- `result` is the stored result of a completed election of type `electionType`, stored under an
id below `NextElectionId`. -/
def ElectedBy (s : State α) (electionType : ElectionType) (result : ElectionResult α) : Prop :=
  ∃ e info, e < s.nextElectionId ∧ s.activeElections.get? e = some info ∧
    info.electionType = electionType ∧ info.status = .completed ∧
    s.electionResults.get? e = some result

/-- The parliament a parliamentary election's result installs: its winners, elected when the
election was finalized, for a term of four years of six-second blocks. -/
def electedParliament (result : ElectionResult α) : List (ParliamentMember α) :=
  result.winners.map fun winner =>
    ⟨winner, result.finalizedAt, result.finalizedAt + 4 * 365 * 24 * 60 * 10⟩

omit [LinearOrder α] in
theorem mem_winners_of_electedParliament {result : ElectionResult α}
    {members : List (ParliamentMember α)} (hmembers : members = electedParliament result)
    {m : ParliamentMember α} (hm : m ∈ members) : m.account ∈ result.winners := by
  rw [hmembers, electedParliament, List.mem_map] at hm
  obtain ⟨winner, hwinner, rfl⟩ := hm
  exact hwinner

/-- Every holder of a position is the first winner of an election of the type that fills it, and
the parliament, unless empty, is a parliamentary election's; all with their results stored. -/
structure OfficialsInv (s : State α) : Prop where
  official_elected : ∀ p w, s.currentOfficials p = some w →
    ∃ t result, filledBy p = some t ∧ ElectedBy s t result ∧ result.winners.head? = some w
  parliament_elected : s.parliamentMembers = [] ∨
    ∃ result, ElectedBy s .parliamentary result ∧ s.parliamentMembers = electedParliament result

theorem officialsInv_genesis : OfficialsInv (genesis : State α) where
  official_elected _ _ h := nomatch h
  parliament_elected := .inl rfl

/-- A completed election below `u32::MAX` stays elected: no step touches it, and
`NextElectionId` only grows. -/
theorem ElectedBy.step (ht : TallyInv s) (hw : WindowInv s) (hb : StoredBelow s)
    (hmax : s.nextElectionId < maxValue 32) {t : ElectionType} {result : ElectionResult α}
    (h : ElectedBy s t result) (a : Action α) : ElectedBy (step cfg s a) t result := by
  obtain ⟨e, info, hlt, hinfo, htype, hdone, hresult⟩ := h
  have hsame : SameElection e s (Welati.step cfg s a) :=
    SameElection.step ht hw (hlt.trans hmax) hinfo hdone a
  exact ⟨e, info, hlt.trans_le (hb.step ht a).2, hsame.record.trans hinfo, htype, hdone,
    hsame.result.trans hresult⟩

/-- The holders of the positions and the parliament are alike in `s` and `s'`. -/
structure SameOfficials (s s' : State α) : Prop where
  officials : s'.currentOfficials = s.currentOfficials
  parliament : s'.parliamentMembers = s.parliamentMembers

theorem SameOfficials.refl (s : State α) : SameOfficials s s :=
  ⟨rfl, rfl⟩

/-- A step that changes neither the holders nor the parliament keeps them elected. -/
theorem OfficialsInv.of_frame (hi : OfficialsInv s)
    (hE : ∀ t result, ElectedBy s t result → ElectedBy s' t result) (hsame : SameOfficials s s') :
    OfficialsInv s' where
  official_elected p w hw := by
    obtain ⟨t, result, hfill, helected, hhead⟩ := hi.official_elected p w (hsame.officials ▸ hw)
    exact ⟨t, result, hfill, hE t result helected, hhead⟩
  parliament_elected := by
    rw [hsame.parliament]
    rcases hi.parliament_elected with hnil | ⟨result, helected, hmembers⟩
    · exact .inl hnil
    · exact .inr ⟨result, hE _ result helected, hmembers⟩

omit [LinearOrder α] in
/-- Writing the first winner `w` into the position `q` that elections of type `t` fill: every
position keeps its holder or holds `w` and is filled by `t`. -/
theorem update_filledBy {q : GovernmentPosition} {t : ElectionType} (hq : filledBy q = some t)
    (officials : GovernmentPosition → Option α) (w : α) (p : GovernmentPosition) :
    Function.update officials q (some w) p = officials p ∨
      filledBy p = some t ∧ Function.update officials q (some w) p = some w := by
  by_cases hp : p = q
  · subst hp
    exact .inr ⟨hq, Function.update_self _ _ _⟩
  · exact .inl (Function.update_of_ne hp _ _)

/-- `assign_election_winners` writes the first winner into the position the election fills, and
leaves every other position as it is. -/
theorem assignElectionWinners_officials {t : ElectionType} {winners : List α} {s₁ : State α}
    (h : assignElectionWinners cfg s t winners = .ok s₁) (p : GovernmentPosition) :
    s₁.currentOfficials p = s.currentOfficials p ∨
      filledBy p = some t ∧ s₁.currentOfficials p = winners.head? := by
  cases t with
  | presidential =>
    -- the first winner, if there is one, becomes Serok
    simp only [assignElectionWinners, pure_eq_ok] at h
    subst h
    cases hhead : winners.head? with
    | none => exact .inl rfl
    | some w => exact update_filledBy rfl s.currentOfficials w p
  | parliamentary =>
    simp only [assignElectionWinners, bind_eq_ok, ensure_eq_ok, pure_eq_ok] at h
    obtain ⟨-, -, rfl⟩ := h
    exact .inl rfl
  | speakerElection =>
    simp only [assignElectionWinners, pure_eq_ok] at h
    subst h
    cases hhead : winners.head? with
    | none => exact .inl rfl
    | some w => exact update_filledBy rfl s.currentOfficials w p
  | constitutionalCourt =>
    simp only [assignElectionWinners, pure_eq_ok] at h
    exact .inl (h ▸ rfl)

/-- `assign_election_winners` replaces the parliament only for a parliamentary election, by its
winners for a term of four years from the current block. -/
theorem assignElectionWinners_parliament {t : ElectionType} {winners : List α} {s₁ : State α}
    (h : assignElectionWinners cfg s t winners = .ok s₁) :
    s₁.parliamentMembers = s.parliamentMembers ∨
      t = .parliamentary ∧ s₁.parliamentMembers = winners.map fun winner =>
        ⟨winner, s.blockNumber, s.blockNumber + 4 * 365 * 24 * 60 * 10⟩ := by
  cases t with
  | parliamentary =>
    simp only [assignElectionWinners, bind_eq_ok, ensure_eq_ok, pure_eq_ok] at h
    obtain ⟨-, -, rfl⟩ := h
    exact .inr ⟨rfl, rfl⟩
  | presidential | speakerElection =>
    simp only [assignElectionWinners, pure_eq_ok] at h
    subst h
    exact .inl (by split <;> rfl)
  | constitutionalCourt =>
    simp only [assignElectionWinners, pure_eq_ok] at h
    exact .inl (h ▸ rfl)

/-- Installing the winners of a finalized election of type `t`: the new holders and the new
parliament are elected by the finalized election, whose result is `result`, and the others by
the elections they were elected by before. -/
theorem OfficialsInv.finalize (hi : OfficialsInv s)
    (hE : ∀ t result, ElectedBy s t result → ElectedBy s' t result)
    {t : ElectionType} {winners : List α} {s₁ : State α}
    (hassign : assignElectionWinners cfg s t winners = .ok s₁) (result : ElectionResult α)
    (hnew : ElectedBy s' t result) (hwinners : result.winners = winners)
    (hat : result.finalizedAt = s.blockNumber) (ho : s'.currentOfficials = s₁.currentOfficials)
    (hp : s'.parliamentMembers = s₁.parliamentMembers) : OfficialsInv s' where
  official_elected p w hw := by
    rw [ho] at hw
    rcases assignElectionWinners_officials hassign p with hsame | ⟨hfill, hhead⟩
    · obtain ⟨t', result', hfill', helected, hhead'⟩ := hi.official_elected p w (hsame ▸ hw)
      exact ⟨t', result', hfill', hE t' result' helected, hhead'⟩
    · exact ⟨t, result, hfill, hnew, by rw [hwinners, ← hhead, hw]⟩
  parliament_elected := by
    rw [hp]
    rcases assignElectionWinners_parliament hassign with hsame | ⟨rfl, hmembers⟩
    · rw [hsame]
      rcases hi.parliament_elected with hnil | ⟨result', helected, hmembers⟩
      · exact .inl hnil
      · exact .inr ⟨result', hE _ result' helected, hmembers⟩
    · exact .inr ⟨result, hnew, by rw [hmembers, electedParliament, hwinners, hat]⟩

/-- Every step leaves the holders and the parliament alone, except a finalization that installs
the winners of the election it completes. -/
theorem step_officials_cases (a : Action α) :
    SameOfficials s (step cfg s a) ∨
      ∃ electionId election winners s₁, s.activeElections.get? electionId = some election ∧
        assignElectionWinners cfg s election.electionType winners = .ok s₁ ∧
        step cfg s a = { s₁ with
          electionResults := s₁.electionResults.insert electionId ⟨electionId, winners,
            election.totalVotes, turnoutPercentage cfg election.totalVotes, s₁.blockNumber⟩
          activeElections := s₁.activeElections.insert electionId
            { election with status := .completed } } := by
  cases a with
  | initiateElection origin electionType districts initialCandidates =>
    refine .inl (commit_of_ok (SameOfficials.refl s) fun s' h => ?_)
    obtain ⟨-, -, ⟨-, rfl⟩ | ⟨runoffCandidates, -, -, -, rfl⟩⟩ := initiateElection_ok h <;>
      exact ⟨rfl, rfl⟩
  | registerCandidate origin electionId districtId endorsers =>
    refine .inl (commit_of_ok (SameOfficials.refl s) fun s' h => ?_)
    obtain ⟨-, -, -, -, -, -, -, -, -, -, -, -, -, rfl⟩ := registerCandidate_ok h
    exact ⟨rfl, rfl⟩
  | castVote origin electionId candidates districtId =>
    refine .inl (commit_of_ok (SameOfficials.refl s) fun s' h => ?_)
    obtain ⟨-, -, -, -, -, -, -, -, -, -, rfl⟩ := castVote_ok h
    exact ⟨rfl, rfl⟩
  | finalizeElection origin electionId =>
    rw [Welati.step]
    cases h : finalizeElection cfg s origin electionId with
    | error err => exact .inl (SameOfficials.refl s)
    | ok s' =>
      rw [commit_ok]
      obtain ⟨-, election, helection, -, -, hwinners | hrunoff⟩ := finalizeElection_ok h
      · obtain ⟨winners, s₁, -, hassign, rfl⟩ := hwinners
        exact .inr ⟨electionId, election, winners, s₁, helection, hassign, rfl⟩
      · -- a runoff is a new election: no one is installed
        obtain ⟨candidates, s₁, -, hinit, rfl⟩ := hrunoff
        refine .inl ?_
        obtain ⟨-, -, ⟨-, rfl⟩ | ⟨runoffCandidates, -, -, -, rfl⟩⟩ :=
          initiateElection_ok hinit <;> exact ⟨rfl, rfl⟩
  | advance b =>
    dsimp only [Welati.step]
    split_ifs
    · exact .inl ⟨rfl, rfl⟩
    · exact .inl (SameOfficials.refl s)

/-- Every step keeps the holders and the parliament elected, while `NextElectionId` stays below
`u32::MAX`. -/
theorem OfficialsInv.step (ht : TallyInv s) (hw : WindowInv s) (hb : StoredBelow s)
    (hi : OfficialsInv s) {a : Action α} (hmax : (step cfg s a).nextElectionId < maxValue 32) :
    OfficialsInv (step cfg s a) := by
  have hmax' : s.nextElectionId < maxValue 32 := lt_of_le_of_lt (hb.step ht a).2 hmax
  have hE : ∀ t result, ElectedBy s t result → ElectedBy (Welati.step cfg s a) t result :=
    fun t result h => h.step ht hw hb hmax' a
  rcases @step_officials_cases α _ cfg s a with hsame | hfinal
  · exact hi.of_frame hE hsame
  · -- the finalization stored the result of `electionId` and installed its winners
    obtain ⟨electionId, election, winners, s₁, helection, hassign, hstep⟩ := hfinal
    have hid : electionId < s.nextElectionId := lt_next_of_stored ht hb hmax' helection
    obtain ⟨officials, members, rfl⟩ := assignElectionWinners_frame hassign
    rw [hstep] at hE ⊢
    refine hi.finalize hE hassign ⟨electionId, winners, election.totalVotes,
      turnoutPercentage cfg election.totalVotes, s.blockNumber⟩
      ⟨electionId, { election with status := .completed }, hid, ?_, rfl, rfl, ?_⟩ rfl rfl rfl rfl
    · exact (StorageMap.get?_insert _ _ _ _).trans (if_pos rfl)
    · exact (StorageMap.get?_insert _ _ _ _).trans (if_pos rfl)

/-- The holders and the parliament are elected on every reachable state whose `NextElectionId` is
below `u32::MAX`. The induction is on the run; `NextElectionId` only grows, so it was below
`u32::MAX` at every earlier state too. -/
theorem officialsInv_of_reachable (hs : Reachable (step cfg) genesis s)
    (hmax : s.nextElectionId < maxValue 32) : OfficialsInv s := by
  induction hs with
  | init => exact officialsInv_genesis
  | step a hs ih =>
    have ht := tallyInv_of_reachable hs
    have hb := storedBelow_of_reachable hs
    exact (ih (lt_of_le_of_lt (hb.step ht a).2 hmax)).step ht (windowInv_of_reachable hs) hb hmax

/-- On every reachable state of the election calls whose `NextElectionId` is below `u32::MAX`,
the Serok checks (`ensure_serok` and the origin `EnsureSerok`) accept only the signed origin of
the first winner of a completed presidential election, and the parliament checks
(`ensure_parliament_member` and `EnsureParlementer`) only the signed origin of a winner of a
completed parliamentary election, whose winners form the parliament; both results are stored.
The Speaker is the first winner of a completed speaker election, and no one holds the positions
`Parlementer` and `EndameDiwane`. -/
theorem elected_origins (hs : Reachable (step cfg) genesis s)
    (hmax : s.nextElectionId < maxValue 32) :
    (∀ origin who, (ensureSerok s origin = .ok who ∨ EnsureSerok.tryOrigin s origin = .ok who) →
      origin = .signed who ∧
        ∃ result, ElectedBy s .presidential result ∧ result.winners.head? = some who) ∧
    (∀ origin who, (ensureParliamentMember s origin = .ok who ∨
        EnsureParlementer.tryOrigin s origin = .ok who) →
      origin = .signed who ∧ ∃ result, ElectedBy s .parliamentary result ∧
        who ∈ result.winners ∧ s.parliamentMembers = electedParliament result) ∧
    (∀ who, s.currentOfficials .meclisBaskani = some who →
      ∃ result, ElectedBy s .speakerElection result ∧ result.winners.head? = some who) ∧
    s.currentOfficials .parlementer = none ∧ s.currentOfficials .endameDiwane = none := by
  have hi := officialsInv_of_reachable hs hmax
  -- a position with a holder is filled by the election type `filledBy` names
  have helected : ∀ p t who, filledBy p = some t → s.currentOfficials p = some who →
      ∃ result, ElectedBy s t result ∧ result.winners.head? = some who := by
    intro p t who hfill hwho
    obtain ⟨t', result, hfill', hresult, hhead⟩ := hi.official_elected p who hwho
    obtain rfl : t' = t := Option.some.inj (hfill'.symm.trans hfill)
    exact ⟨result, hresult, hhead⟩
  have hvacant : ∀ p, filledBy p = none → s.currentOfficials p = none := by
    intro p hfill
    cases hwho : s.currentOfficials p with
    | none => rfl
    | some who =>
      obtain ⟨t, -, hfill', -⟩ := hi.official_elected p who hwho
      exact absurd (hfill.symm.trans hfill') (by simp)
  refine ⟨?_, ?_, fun who => helected .meclisBaskani _ who rfl, hvacant .parlementer rfl,
    hvacant .endameDiwane rfl⟩
  · intro origin who haccept
    have hsigned : origin = .signed who ∧ s.currentOfficials .serok = some who := by
      rcases haccept with h | h
      · exact ensureSerok_eq_ok.mp h
      · exact EnsureSerok.tryOrigin_eq_ok.mp h
    exact ⟨hsigned.1, helected .serok _ who rfl hsigned.2⟩
  · intro origin who haccept
    have hsigned : origin = .signed who ∧ ∃ m ∈ s.parliamentMembers, m.account = who := by
      rcases haccept with h | h
      · exact ensureParliamentMember_eq_ok.mp h
      · exact EnsureParlementer.tryOrigin_eq_ok.mp h
    obtain ⟨rfl, m, hm, rfl⟩ := hsigned
    -- the parliament is not empty, since `m` sits in it
    rcases hi.parliament_elected with hnil | ⟨result, hresult, hmembers⟩
    · rw [hnil] at hm
      exact absurd hm List.not_mem_nil
    · exact ⟨rfl, result, hresult, mem_winners_of_electedParliament hmembers hm, hmembers⟩

/-- The Serok's election, once finalized, leaves `NextElectionId` at `1`. -/
theorem finalizedSerokElection_nextElectionId : finalizedSerokElection.nextElectionId = 1 := by
  obtain ⟨helection, hblock, -⟩ := serokElection_spec
  rw [finalizedSerokElection, step_finalizeElection_presidential appointmentConfig helection
    (by rw [hblock]; decide) (by decide) rfl serokElection_winners]
  decide +kernel

/-- After the Serok's election, the Serok origin accepts account `1`, and every account the origins
accept was elected. -/
theorem elected_origins_after_serok :
    finalizedSerokElection.nextElectionId < maxValue 32 ∧
      EnsureSerok.tryOrigin finalizedSerokElection (.signed 1) = .ok 1 ∧
      (∀ origin who, (ensureSerok finalizedSerokElection origin = .ok who ∨
          EnsureSerok.tryOrigin finalizedSerokElection origin = .ok who) →
        origin = .signed who ∧ ∃ result, ElectedBy finalizedSerokElection .presidential result ∧
          result.winners.head? = some who) ∧
      (∀ origin who, (ensureParliamentMember finalizedSerokElection origin = .ok who ∨
          EnsureParlementer.tryOrigin finalizedSerokElection origin = .ok who) →
        origin = .signed who ∧ ∃ result, ElectedBy finalizedSerokElection .parliamentary result ∧
          who ∈ result.winners ∧
          finalizedSerokElection.parliamentMembers = electedParliament result) ∧
      (∀ who, finalizedSerokElection.currentOfficials .meclisBaskani = some who →
        ∃ result, ElectedBy finalizedSerokElection .speakerElection result ∧
          result.winners.head? = some who) ∧
      finalizedSerokElection.currentOfficials .parlementer = none ∧
      finalizedSerokElection.currentOfficials .endameDiwane = none := by
  have hnext : finalizedSerokElection.nextElectionId < maxValue 32 := by
    rw [finalizedSerokElection_nextElectionId]
    decide
  obtain ⟨helection, hblock, -⟩ := serokElection_spec
  have hserok : finalizedSerokElection.currentOfficials .serok = some 1 := by
    rw [finalizedSerokElection]
    exact finalizeElection_installs_serok appointmentConfig helection (by rw [hblock]; decide)
      (by decide) rfl serokElection_winners
  exact ⟨hnext, EnsureSerok.tryOrigin_eq_ok.mpr ⟨rfl, hserok⟩,
    elected_origins (.step _ (reachable_run serokElection)) hnext⟩

end Welati
