import Pezkuwi.IdentityKyc.Model

/-!
# The KYC application deposit

`apply_for_kyc` reserves `KycApplicationDeposit` from the applicant after its checks, and
`approve_kyc` and `reject_kyc` unreserve it before closing the application. This module runs the
pallet's calls with their origins and keeps, beside the storage, the list of the calls the pallet
made to `ReservableCurrency`. On every reachable state, for every account:

* an application is stored exactly when the level is `Pending`;
* the pallet has reserved from the account what it has unreserved, plus the deposit while the
  account is `Pending`;

and every call moves the account's level only along the lifecycle `KycLevel.Advances`
(`NotStarted` to `Pending`, `Pending` to `Approved` or `Rejected`, `Approved` to `Revoked`), while
a failed call changes nothing (`kyc_application_accounting`). Approval's hooks write to other
pallets only, and are left to `Pezkuwi.Runtime.Citizenship` and `Pezkuwi.Runtime.Referrals`.

## Main definitions

* `Action`, `call`: the calls with their origins, and the currency calls each makes
* `Books`, `step`: the storage with the currency calls made so far
* `reservedOn`, `unreservedOn`: what the pallet reserved from, and unreserved to, an account
* `KycLevel.Advances`: the lifecycle of a KYC level

## Main results

* `DepositInv.step`: every call keeps the application and deposit books
* `kyc_application_accounting`: the books on every reachable state, and the moves of each call
-/

namespace IdentityKyc

open Machine

variable {α : Type} [LinearOrder α]

/-- The calls of the pallet with their origins; an application carries whether
`Currency::reserve` of the deposit succeeds. -/
inductive Action (α : Type) where
  | setIdentity (origin : Origin α)
  | applyForKyc (origin : Origin α) (reserved : Bool)
  | approveKyc (origin : Origin α) (who : α)
  | rejectKyc (origin : Origin α) (who : α)
  | revokeKyc (origin : Origin α) (who : α)

/-- A call of the pallet to `ReservableCurrency`. -/
inductive CurrencyOp (α : Type) where
  | reserve (who : α) (value : Nat)
  | unreserve (who : α) (value : Nat)
  deriving DecidableEq, Repr

/-- The pallet's storage, and the currency calls it has made, in order. -/
structure Books (α : Type) [LinearOrder α] where
  kyc : State α
  ops : List (CurrencyOp α)

/-- Genesis: no storage, and no currency call made. -/
def Books.genesis : Books α :=
  ⟨IdentityKyc.genesis, []⟩

/-- What a currency call reserved from `a`. -/
def CurrencyOp.reservedOn (a : α) : CurrencyOp α → Nat
  | .reserve who value => if who = a then value else 0
  | .unreserve _ _ => 0

/-- What a currency call unreserved to `a`. -/
def CurrencyOp.unreservedOn (a : α) : CurrencyOp α → Nat
  | .reserve _ _ => 0
  | .unreserve who value => if who = a then value else 0

/-- What the currency calls reserved from `a` in all. -/
def reservedOn (ops : List (CurrencyOp α)) (a : α) : Nat :=
  (ops.map (CurrencyOp.reservedOn a)).sum

/-- What the currency calls unreserved to `a` in all. -/
def unreservedOn (ops : List (CurrencyOp α)) (a : α) : Nat :=
  (ops.map (CurrencyOp.unreservedOn a)).sum

variable (deposit : Nat)

/-- A call after its origin check, with `KycApplicationDeposit` as `deposit`: the new storage,
and the currency calls it made. -/
def call (s : State α) : Action α → Except Error (State α × List (CurrencyOp α))
  | .setIdentity origin => do
    let who ← ensureSigned origin .badOrigin
    let s ← setIdentity s who
    pure (s, [])
  | .applyForKyc origin reserved => do
    let who ← ensureSigned origin .badOrigin
    let s ← applyForKyc s who reserved
    pure (s, [.reserve who deposit])
  | .approveKyc origin who => do
    ensureRoot origin .badOrigin
    let s ← approveKyc s who
    pure (s, [.unreserve who deposit])
  | .rejectKyc origin who => do
    ensureRoot origin .badOrigin
    let s ← rejectKyc s who
    pure (s, [.unreserve who deposit])
  | .revokeKyc origin who => do
    ensureRoot origin .badOrigin
    let s ← revokeKyc s who
    pure (s, [])

/-- One step: a failed call is rolled back with its currency calls. -/
def step (b : Books α) (a : Action α) : Books α :=
  commit ((call deposit b.kyc a).map fun r => ⟨r.1, b.ops ++ r.2⟩) b

/-- The lifecycle of a KYC level: the moves the calls make. -/
inductive KycLevel.Advances : KycLevel → KycLevel → Prop where
  | apply : KycLevel.Advances .notStarted .pending
  | approve : KycLevel.Advances .pending .approved
  | reject : KycLevel.Advances .pending .rejected
  | revoke : KycLevel.Advances .approved .revoked

/-! ## What each call checked and wrote -/

@[simp] theorem reservedOn_append (ops ops' : List (CurrencyOp α)) (a : α) :
    reservedOn (ops ++ ops') a = reservedOn ops a + reservedOn ops' a := by
  rw [reservedOn, reservedOn, reservedOn, List.map_append, List.sum_append]

@[simp] theorem unreservedOn_append (ops ops' : List (CurrencyOp α)) (a : α) :
    unreservedOn (ops ++ ops') a = unreservedOn ops a + unreservedOn ops' a := by
  rw [unreservedOn, unreservedOn, unreservedOn, List.map_append, List.sum_append]

@[simp] theorem reservedOn_nil (a : α) : reservedOn [] a = 0 := rfl

@[simp] theorem unreservedOn_nil (a : α) : unreservedOn [] a = 0 := rfl

@[simp] theorem reservedOn_reserve (who a : α) (value : Nat) :
    reservedOn [.reserve who value] a = if who = a then value else 0 := by
  simp [reservedOn, CurrencyOp.reservedOn]

@[simp] theorem unreservedOn_reserve (who a : α) (value : Nat) :
    unreservedOn [.reserve who value] a = 0 := by
  simp [unreservedOn, CurrencyOp.unreservedOn]

@[simp] theorem reservedOn_unreserve (who a : α) (value : Nat) :
    reservedOn [.unreserve who value] a = 0 := by
  simp [reservedOn, CurrencyOp.reservedOn]

@[simp] theorem unreservedOn_unreserve (who a : α) (value : Nat) :
    unreservedOn [.unreserve who value] a = if who = a then value else 0 := by
  simp [unreservedOn, CurrencyOp.unreservedOn]

/-- A successful call: who signed or was named, what it checked, and what it wrote, with the
currency calls it made. -/
theorem call_eq_ok {s s' : State α} {a : Action α} {ops : List (CurrencyOp α)}
    (h : call deposit s a = .ok (s', ops)) :
    (∃ who, s.identities who = false ∧ ops = [] ∧
        s' = { s with identities := Function.update s.identities who true }) ∨
      (∃ who, kycStatusOf s who = .notStarted ∧ ops = [.reserve who deposit] ∧
        s' = { s with
          pendingKycApplications := Function.update s.pendingKycApplications who true
          kycStatuses := s.kycStatuses.insert who .pending }) ∨
      (∃ who level, (level = .approved ∨ level = .rejected) ∧ kycStatusOf s who = .pending ∧
        s.pendingKycApplications who = true ∧ ops = [.unreserve who deposit] ∧
        s' = { s with
          pendingKycApplications := Function.update s.pendingKycApplications who false
          kycStatuses := s.kycStatuses.insert who level }) ∨
      (∃ who, kycStatusOf s who = .approved ∧ ops = [] ∧
        s' = { s with kycStatuses := s.kycStatuses.insert who .revoked }) := by
  cases a with
  | setIdentity origin =>
    simp only [call, bind_eq_ok, ensureSigned_eq_ok, setIdentity_eq_ok, pure_eq_ok,
      Prod.mk.injEq] at h
    obtain ⟨who, -, s₁, ⟨hnone, rfl⟩, rfl, rfl⟩ := h
    exact .inl ⟨who, hnone, rfl, rfl⟩
  | applyForKyc origin reserved =>
    simp only [call, bind_eq_ok, ensureSigned_eq_ok, applyForKyc_eq_ok, pure_eq_ok,
      Prod.mk.injEq] at h
    obtain ⟨who, -, s₁, ⟨-, hstart, -, rfl⟩, rfl, rfl⟩ := h
    exact .inr (.inl ⟨who, hstart, rfl, rfl⟩)
  | approveKyc origin who =>
    simp only [call, approveKyc, bind_eq_ok, ensureRoot_eq_ok, closeApplication_eq_ok, pure_eq_ok,
      Prod.mk.injEq] at h
    obtain ⟨-, -, s₁, ⟨hpending, happ, rfl⟩, rfl, rfl⟩ := h
    exact .inr (.inr (.inl ⟨who, .approved, .inl rfl, hpending, happ, rfl, rfl⟩))
  | rejectKyc origin who =>
    simp only [call, rejectKyc, bind_eq_ok, ensureRoot_eq_ok, closeApplication_eq_ok, pure_eq_ok,
      Prod.mk.injEq] at h
    obtain ⟨-, -, s₁, ⟨hpending, happ, rfl⟩, rfl, rfl⟩ := h
    exact .inr (.inr (.inl ⟨who, .rejected, .inr rfl, hpending, happ, rfl, rfl⟩))
  | revokeKyc origin who =>
    simp only [call, bind_eq_ok, ensureRoot_eq_ok, revokeKyc_eq_ok, pure_eq_ok,
      Prod.mk.injEq] at h
    obtain ⟨-, -, s₁, ⟨happroved, rfl⟩, rfl, rfl⟩ := h
    exact .inr (.inr (.inr ⟨who, happroved, rfl, rfl⟩))

/-! ## The lifecycle -/

/-- A write of one account's level, along the lifecycle, moves that account only. -/
theorem kycStatusOf_advances_of_insert {s s' : State α} {who : α} {level : KycLevel}
    (h : s'.kycStatuses = s.kycStatuses.insert who level)
    (hmove : KycLevel.Advances (kycStatusOf s who) level) (x : α) :
    kycStatusOf s' x = kycStatusOf s x ∨
      KycLevel.Advances (kycStatusOf s x) (kycStatusOf s' x) := by
  rw [kycStatusOf_of_insert h x]
  by_cases hx : x = who
  · subst hx
    rw [if_pos rfl]
    exact .inr hmove
  · exact .inl (if_neg hx)

/-- A call leaves every account's level or moves it one step along the lifecycle. -/
theorem kycStatusOf_call {s s' : State α} {a : Action α} {ops : List (CurrencyOp α)}
    (h : call deposit s a = .ok (s', ops)) (x : α) :
    kycStatusOf s' x = kycStatusOf s x ∨
      KycLevel.Advances (kycStatusOf s x) (kycStatusOf s' x) := by
  rcases call_eq_ok deposit h with
    ⟨who, -, -, rfl⟩ | ⟨who, hstart, -, rfl⟩ | ⟨who, level, hlevel, hpending, -, -, rfl⟩ |
      ⟨who, happroved, -, rfl⟩
  · exact .inl rfl
  · exact kycStatusOf_advances_of_insert rfl (hstart ▸ .apply) x
  · -- an approval or a rejection, of a pending application
    refine kycStatusOf_advances_of_insert rfl ?_ x
    rw [hpending]
    rcases hlevel with rfl | rfl
    · exact .approve
    · exact .reject
  · exact kycStatusOf_advances_of_insert rfl (happroved ▸ .revoke) x

/-- A step leaves every account's level or moves it one step along the lifecycle. -/
theorem kycStatusOf_step (b : Books α) (a : Action α) (x : α) :
    kycStatusOf (step deposit b a).kyc x = kycStatusOf b.kyc x ∨
      KycLevel.Advances (kycStatusOf b.kyc x) (kycStatusOf (step deposit b a).kyc x) := by
  unfold step
  cases hcall : call deposit b.kyc a with
  | error e => exact .inl rfl
  | ok r => exact kycStatusOf_call deposit hcall x

/-- A failed call changes nothing: neither the storage nor the currency calls. -/
theorem step_of_error {b : Books α} {a : Action α} {e : Error}
    (h : call deposit b.kyc a = .error e) : step deposit b a = b := by
  rw [step, h]
  rfl

/-! ## The books -/

/-- The application and deposit books of every account. -/
structure DepositInv (b : Books α) : Prop where
  /-- An application is stored exactly while the level is `Pending`. -/
  pending_iff : ∀ a, b.kyc.pendingKycApplications a = true ↔ kycStatusOf b.kyc a = .pending
  /-- What was reserved from an account came back, but the deposit of a pending application. -/
  reserved_eq : ∀ a, reservedOn b.ops a =
    unreservedOn b.ops a + if kycStatusOf b.kyc a = .pending then deposit else 0

theorem depositInv_genesis : DepositInv deposit (Books.genesis : Books α) where
  pending_iff _ := by simp [Books.genesis, IdentityKyc.genesis, kycStatusOf]
  reserved_eq _ := by
    simp [Books.genesis, IdentityKyc.genesis, kycStatusOf, reservedOn, unreservedOn]

namespace DepositInv

variable {deposit} {b : Books α}

/-- A call that writes one account's level and application flag, and makes currency calls on
that account only, keeps the books when that account's books balance afterwards. -/
theorem write (hi : DepositInv deposit b) {s' : State α} {ops : List (CurrencyOp α)} {who : α}
    {level : KycLevel} {flag : Bool}
    (hlevels : s'.kycStatuses = b.kyc.kycStatuses.insert who level)
    (hflags : s'.pendingKycApplications = Function.update b.kyc.pendingKycApplications who flag)
    (hflag : flag = true ↔ level = .pending)
    (hothers : ∀ x, x ≠ who → reservedOn ops x = 0 ∧ unreservedOn ops x = 0)
    (hbooks : reservedOn b.ops who + reservedOn ops who =
      unreservedOn b.ops who + unreservedOn ops who + if level = .pending then deposit else 0) :
    DepositInv deposit ⟨s', b.ops ++ ops⟩ := by
  have hlevel := kycStatusOf_of_insert hlevels
  refine ⟨fun x => ?_, fun x => ?_⟩
  · -- the application flag follows the level at the account written, and stays elsewhere
    dsimp only
    rw [hflags, hlevel x]
    by_cases hx : x = who
    · rw [hx, Function.update_self, if_pos rfl]
      exact hflag
    · rw [Function.update_of_ne hx, if_neg hx]
      exact hi.pending_iff x
  · dsimp only
    rw [reservedOn_append, unreservedOn_append, hlevel x]
    by_cases hx : x = who
    · subst hx
      rw [if_pos rfl]
      exact hbooks
    · obtain ⟨hreserved, hunreserved⟩ := hothers x hx
      rw [if_neg hx, hreserved, hunreserved, Nat.add_zero, Nat.add_zero]
      exact hi.reserved_eq x

/-- A call keeps the books: an application reserves the deposit of the account it makes
`Pending`, an approval or a rejection unreserves it, and the other calls leave both books of
every account. -/
theorem call (hi : DepositInv deposit b) {s' : State α} {a : Action α} {ops : List (CurrencyOp α)}
    (h : IdentityKyc.call deposit b.kyc a = .ok (s', ops)) :
    DepositInv deposit ⟨s', b.ops ++ ops⟩ := by
  rcases call_eq_ok deposit h with
    ⟨who, -, rfl, rfl⟩ | ⟨who, hstart, rfl, rfl⟩ | ⟨who, level, hlevel, hpending, happ, rfl, rfl⟩ |
      ⟨who, happroved, rfl, rfl⟩
  · -- `set_identity` writes an identity only
    rw [List.append_nil]
    exact ⟨hi.pending_iff, hi.reserved_eq⟩
  · -- `apply_for_kyc` opens the application and reserves
    have hold := hi.reserved_eq who
    rw [hstart, if_neg (by decide)] at hold
    refine hi.write rfl rfl (iff_of_true rfl rfl) (fun x hx => ?_) ?_
    · simp [Ne.symm hx]
    · simp [hold]
  · -- `approve_kyc` and `reject_kyc` close the application and unreserve
    have hne : level ≠ .pending := by rcases hlevel with rfl | rfl <;> decide
    have hold := hi.reserved_eq who
    rw [hpending, if_pos rfl] at hold
    refine hi.write rfl rfl (iff_of_false Bool.false_ne_true hne) (fun x hx => ?_) ?_
    · simp [Ne.symm hx]
    · simp [hold, hne]
  · -- `revoke_kyc` moves an approved account, which has no application
    have happ : b.kyc.pendingKycApplications who = false := by
      rw [Bool.eq_false_iff]
      intro h
      rw [(hi.pending_iff who).mp h] at happroved
      exact absurd happroved (by decide)
    have hold := hi.reserved_eq who
    rw [happroved, if_neg (by decide)] at hold
    -- the flag written is the one the account already has
    refine hi.write rfl (Function.update_eq_self_iff.mpr happ.symm).symm
      (iff_of_false Bool.false_ne_true (by decide))
      (fun x _ => ⟨reservedOn_nil x, unreservedOn_nil x⟩) ?_
    simp [hold]

theorem step (hi : DepositInv deposit b) (a : Action α) :
    DepositInv deposit (IdentityKyc.step deposit b a) := by
  refine commit_of_ok hi fun b' h => ?_
  obtain ⟨⟨s', ops⟩, hcall, rfl⟩ := map_eq_ok.mp h
  exact hi.call hcall

end DepositInv

theorem depositInv_of_reachable {b : Books α}
    (hb : Reachable (step deposit) Books.genesis b) : DepositInv deposit b :=
  hb.invariant (depositInv_genesis deposit) fun _ a hi => hi.step a

/-- On every state the pallet's calls reach, for every account: an application is stored
exactly while the level is `Pending`; the pallet reserved from the account what it unreserved,
plus the deposit while `Pending`; and every call leaves the level or moves it along the lifecycle,
a failed call changing nothing. -/
theorem kyc_application_accounting {b : Books α}
    (hb : Reachable (step deposit) Books.genesis b) (a : α) :
    (b.kyc.pendingKycApplications a = true ↔ kycStatusOf b.kyc a = .pending) ∧
      reservedOn b.ops a =
        unreservedOn b.ops a + (if kycStatusOf b.kyc a = .pending then deposit else 0) ∧
      ∀ act : Action α,
        (kycStatusOf (step deposit b act).kyc a = kycStatusOf b.kyc a ∨
          KycLevel.Advances (kycStatusOf b.kyc a) (kycStatusOf (step deposit b act).kyc a)) ∧
        ∀ e, call deposit b.kyc act = .error e → step deposit b act = b := by
  have hi := depositInv_of_reachable deposit hb
  exact ⟨hi.pending_iff a, hi.reserved_eq a, fun act =>
    ⟨kycStatusOf_step deposit b act a, fun _ h => step_of_error deposit h⟩⟩

/-! ## An application approved -/

/-- Account `1` sets an identity and applies, with the deposit reserved; the root approves it. -/
def approvedBooks : Books Nat :=
  run (step 10) Books.genesis
    [.setIdentity (.signed 1), .applyForKyc (.signed 1) true, .approveKyc .root 1]

theorem kyc_application_accounting_after_approval :
    (approvedBooks.kyc.pendingKycApplications 1 = true ↔ kycStatusOf approvedBooks.kyc 1 = .pending) ∧
      reservedOn approvedBooks.ops 1 =
        unreservedOn approvedBooks.ops 1 +
          (if kycStatusOf approvedBooks.kyc 1 = .pending then 10 else 0) ∧
      ∀ act : Action Nat,
        (kycStatusOf (step 10 approvedBooks act).kyc 1 = kycStatusOf approvedBooks.kyc 1 ∨
          KycLevel.Advances (kycStatusOf approvedBooks.kyc 1)
            (kycStatusOf (step 10 approvedBooks act).kyc 1)) ∧
        ∀ e, call 10 approvedBooks.kyc act = .error e → step 10 approvedBooks act = approvedBooks :=
  kyc_application_accounting 10 (reachable_run _) 1

example : kycStatusOf approvedBooks.kyc 1 = .approved ∧
    approvedBooks.ops = [.reserve 1 10, .unreserve 1 10] := by
  decide

end IdentityKyc
