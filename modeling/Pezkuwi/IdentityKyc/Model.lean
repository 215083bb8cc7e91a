import Pezkuwi.Storage.Map
import Pezkuwi.Machine.Reach

/-!
# Identities and KYC levels

`pallet-identity-kyc` records an identity per account and walks each account through the KYC
levels: an account with an identity applies (`NotStarted` to `Pending`, reserving a deposit),
and the approval origin approves or rejects the application, or later revokes an approval.
Approval also calls the `CitizenNftProvider` and `OnKycApproved` hooks; the runtime wires them to
`pallet-tiki` and `pallet-referral`, and `Pezkuwi.Runtime.Citizenship` composes the first.

The model follows `src/pezkuwi/pallets/identity-kyc/src/lib.rs`. The contents of an identity and
of an application (names, e-mails, document ids, notes) are left out: only whether they exist is
read. The deposit's reserve is not tracked; whether `Currency::reserve` succeeds is an argument
of `applyForKyc`. Events are left out.

## Main definitions

* `KycLevel`: the KYC levels
* `State`: `Identities`, `KycStatuses` and `PendingKycApplications`
* `setIdentity`, `applyForKyc`, `approveKyc`, `rejectKyc`, `revokeKyc`: the calls after their
  origin checks
-/

namespace IdentityKyc

open Machine

/-- `KycLevel`; its default is `NotStarted`. -/
inductive KycLevel where
  | notStarted
  | pending
  | approved
  | rejected
  | revoked
  deriving DecidableEq, Repr

/-- `Error`, the failure of the deposit's reserve, and the failure of the origin check. -/
inductive Error where
  | identityAlreadyExists
  | identityNotFound
  | kycApplicationAlreadyExists
  | kycApplicationNotFound
  | cannotRevokeKycInCurrentState
  | cannotApproveKycInCurrentState
  | cannotRejectKycInCurrentState
  | insufficientBalance
  | badOrigin
  deriving DecidableEq, Repr

/-- The pallet's storage: whether an identity and an application exist, and the KYC levels,
which other pallets iterate. -/
structure State (α : Type) [LinearOrder α] where
  identities : α → Bool
  kycStatuses : StorageMap α KycLevel
  pendingKycApplications : α → Bool

variable {α : Type} [LinearOrder α]

/-- The storage at genesis. -/
def genesis : State α :=
  ⟨fun _ => false, ∅, fun _ => false⟩

/-- `kyc_status_of`: the level, `NotStarted` by default. -/
def kycStatusOf (s : State α) (who : α) : KycLevel :=
  s.kycStatuses.getD who .notStarted

/-- `set_identity` after `ensure_signed`: an identity is set once. -/
def setIdentity (s : State α) (who : α) : Except Error (State α) := do
  ensure (s.identities who = false) .identityAlreadyExists
  pure { s with identities := Function.update s.identities who true }

/-- `apply_for_kyc` after `ensure_signed`: an account with an identity that has not started
applies, if its deposit can be reserved. -/
def applyForKyc (s : State α) (who : α) (reserved : Bool) : Except Error (State α) := do
  ensure (s.identities who = true) .identityNotFound
  ensure (kycStatusOf s who = .notStarted) .kycApplicationAlreadyExists
  -- `Currency::reserve` of `KycApplicationDeposit`
  ensure (reserved = true) .insufficientBalance
  pure { s with
    pendingKycApplications := Function.update s.pendingKycApplications who true
    kycStatuses := s.kycStatuses.insert who .pending }

/-- The checks and writes shared by `approve_kyc` and `reject_kyc`: a pending application is
closed with the new level, and the deposit unreserved. -/
def closeApplication (s : State α) (who : α) (level : KycLevel) (stateError : Error) :
    Except Error (State α) := do
  ensure (kycStatusOf s who = .pending) stateError
  ensure (s.pendingKycApplications who = true) .kycApplicationNotFound
  pure { s with
    pendingKycApplications := Function.update s.pendingKycApplications who false
    kycStatuses := s.kycStatuses.insert who level }

/-- `approve_kyc` after the approval origin, before its hooks. -/
def approveKyc (s : State α) (who : α) : Except Error (State α) :=
  closeApplication s who .approved .cannotApproveKycInCurrentState

/-- `reject_kyc` after the approval origin. -/
def rejectKyc (s : State α) (who : α) : Except Error (State α) :=
  closeApplication s who .rejected .cannotRejectKycInCurrentState

/-- `revoke_kyc` after the approval origin: an approved level becomes `Revoked`. -/
def revokeKyc (s : State α) (who : α) : Except Error (State α) := do
  ensure (kycStatusOf s who = .approved) .cannotRevokeKycInCurrentState
  pure { s with kycStatuses := s.kycStatuses.insert who .revoked }

/-! ## What each call checked and wrote -/

/-- The levels after a write of one level. -/
theorem kycStatusOf_of_insert {s s' : State α} {who : α} {level : KycLevel}
    (h : s'.kycStatuses = s.kycStatuses.insert who level) (a : α) :
    kycStatusOf s' a = if a = who then level else kycStatusOf s a := by
  rw [kycStatusOf, h, StorageMap.getD_insert]
  rfl

theorem setIdentity_eq_ok {s s' : State α} {who : α} :
    setIdentity s who = .ok s' ↔
      s.identities who = false ∧
        s' = { s with identities := Function.update s.identities who true } := by
  simp only [setIdentity, bind_eq_ok, ensure_eq_ok, pure_eq_ok, exists_const, @eq_comm _ s']

theorem applyForKyc_eq_ok {s s' : State α} {who : α} {reserved : Bool} :
    applyForKyc s who reserved = .ok s' ↔
      s.identities who = true ∧ kycStatusOf s who = .notStarted ∧ reserved = true ∧
        s' = { s with
          pendingKycApplications := Function.update s.pendingKycApplications who true
          kycStatuses := s.kycStatuses.insert who .pending } := by
  simp only [applyForKyc, bind_eq_ok, ensure_eq_ok, pure_eq_ok, exists_const, @eq_comm _ s']

theorem closeApplication_eq_ok {s s' : State α} {who : α} {level : KycLevel} {e : Error} :
    closeApplication s who level e = .ok s' ↔
      kycStatusOf s who = .pending ∧ s.pendingKycApplications who = true ∧
        s' = { s with
          pendingKycApplications := Function.update s.pendingKycApplications who false
          kycStatuses := s.kycStatuses.insert who level } := by
  simp only [closeApplication, bind_eq_ok, ensure_eq_ok, pure_eq_ok, exists_const, @eq_comm _ s']

theorem revokeKyc_eq_ok {s s' : State α} {who : α} :
    revokeKyc s who = .ok s' ↔
      kycStatusOf s who = .approved ∧
        s' = { s with kycStatuses := s.kycStatuses.insert who .revoked } := by
  simp only [revokeKyc, bind_eq_ok, ensure_eq_ok, pure_eq_ok, exists_const, @eq_comm _ s']

theorem setIdentity_ok {s s' : State α} {who : α} (h : setIdentity s who = .ok s') :
    s'.kycStatuses = s.kycStatuses := by
  obtain ⟨-, rfl⟩ := setIdentity_eq_ok.mp h
  rfl

/-- A successful application found the level `NotStarted` and set it to `Pending`. -/
theorem applyForKyc_ok {s s' : State α} {who : α} {reserved : Bool}
    (h : applyForKyc s who reserved = .ok s') :
    kycStatusOf s who = .notStarted ∧ s'.kycStatuses = s.kycStatuses.insert who .pending := by
  obtain ⟨-, hstart, -, rfl⟩ := applyForKyc_eq_ok.mp h
  exact ⟨hstart, rfl⟩

/-- A successful approval or rejection found the level `Pending` and set the new one. -/
theorem closeApplication_ok {s s' : State α} {who : α} {level : KycLevel} {stateError : Error}
    (h : closeApplication s who level stateError = .ok s') :
    kycStatusOf s who = .pending ∧ s'.kycStatuses = s.kycStatuses.insert who level := by
  obtain ⟨hpending, -, rfl⟩ := closeApplication_eq_ok.mp h
  exact ⟨hpending, rfl⟩

/-- A successful revocation found the level `Approved` and set it to `Revoked`. -/
theorem revokeKyc_ok {s s' : State α} {who : α} (h : revokeKyc s who = .ok s') :
    kycStatusOf s who = .approved ∧ s'.kycStatuses = s.kycStatuses.insert who .revoked := by
  obtain ⟨happroved, rfl⟩ := revokeKyc_eq_ok.mp h
  exact ⟨happroved, rfl⟩

end IdentityKyc
