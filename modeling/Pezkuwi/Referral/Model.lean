import Pezkuwi.Storage.Map
import Pezkuwi.Arith.Bounded
import Pezkuwi.Machine.Reach
import Pezkuwi.IdentityKyc.Model

/-!
# Referrals

`pallet-referral` records who invited whom. `initiate_referral` stores a pending invitation for
an account that was never referred, and the `OnKycApproved` hook, which `approve_kyc` of
`pallet-identity-kyc` calls, confirms it once the invited account's KYC is approved: the pending
entry is taken, `Referrals` records the referrer, and the referrer's `ReferralCount` grows by one,
saturating in `u32`.

The model follows `src/pezkuwi/pallets/referral/src/lib.rs`. The KYC level the hook reads and the
block number it records are arguments. Events are left out.

`RefInv` holds on every state the two calls reach, in any order and with any arguments: no
account is both pending and referred, nobody refers itself, and `ReferralCount` of an account is
the number of accounts it referred, clamped at `u32::MAX` (`RefInv.initiateReferral`,
`RefInv.onKycApproved`). The clamp is reached: the count is not the number once an account has
referred more than `u32::MAX` accounts.

## Main definitions

* `State`: `PendingReferrals`, `ReferralCount` and `Referrals`
* `initiateReferral`, `onKycApproved`: the call and the hook
* `getReferralScore`, `getInviter`: what other pallets read
* `referredCount`: the number of accounts an account referred
* `RefInv`: the bookkeeping of the three maps
-/

namespace Referral

open Bounded Machine IdentityKyc

/-- `ReferralInfo`. -/
structure ReferralInfo (α : Type) where
  referrer : α
  createdAt : Nat
  deriving DecidableEq, Repr

/-- `Error`, and the failure of the origin check. -/
inductive Error where
  | selfReferral
  | alreadyReferred
  | badOrigin
  deriving DecidableEq, Repr

/-- The pallet's storage; `ReferralCount` is read with its default, zero. -/
structure State (α : Type) [LinearOrder α] where
  pendingReferrals : StorageMap α α
  referralCount : α → Nat
  referrals : StorageMap α (ReferralInfo α)

variable {α : Type} [LinearOrder α]

/-- The storage at genesis. -/
def genesis : State α :=
  ⟨∅, fun _ => 0, ∅⟩

/-- `initiate_referral` after `ensure_signed`: an account invites another that is neither
referred nor invited. -/
def initiateReferral (s : State α) (referrer referred : α) : Except Error (State α) := do
  ensure (referrer ≠ referred) .selfReferral
  ensure ((s.referrals.get? referred).isNone = true) .alreadyReferred
  ensure ((s.pendingReferrals.get? referred).isNone = true) .alreadyReferred
  pure { s with pendingReferrals := s.pendingReferrals.insert referred referrer }

/-- `on_kyc_approved`, given the KYC level of `who` it reads and the current block: an approved
account's pending invitation is taken and confirmed. -/
def onKycApproved (s : State α) (kycStatus : KycLevel) (who : α) (blockNumber : Nat) : State α :=
  if kycStatus = .approved then
    match s.pendingReferrals.get? who with
    | some referrer =>
      let newCount := saturatingAdd 32 (s.referralCount referrer) 1
      { s with
        pendingReferrals := s.pendingReferrals.remove who
        referralCount := Function.update s.referralCount referrer newCount
        referrals := s.referrals.insert who ⟨referrer, blockNumber⟩ }
    | none => s
  else s

/-- `get_referral_score`: the pallet's own scale of the count. -/
def getReferralScore (s : State α) (who : α) : Nat :=
  let referralCount := s.referralCount who
  if referralCount = 0 then 0
  else if referralCount ≤ 5 then referralCount * 4
  else if referralCount ≤ 20 then 20 + (referralCount - 5) * 2
  else 50

/-- `get_inviter`: the referrer of a confirmed referral. -/
def getInviter (s : State α) (who : α) : Option α :=
  (s.referrals.get? who).map ReferralInfo.referrer

/-- The number of accounts `r` referred. -/
def referredCount (s : State α) (r : α) : Nat :=
  s.referrals.sumBy fun _ info => if info.referrer = r then 1 else 0

/-! ## What each call checked and wrote -/

theorem initiateReferral_eq_ok {s s' : State α} {referrer referred : α} :
    initiateReferral s referrer referred = .ok s' ↔
      referrer ≠ referred ∧ s.referrals.get? referred = none ∧
        s.pendingReferrals.get? referred = none ∧
        s' = { s with pendingReferrals := s.pendingReferrals.insert referred referrer } := by
  simp only [initiateReferral, bind_eq_ok, ensure_eq_ok, pure_eq_ok, exists_const,
    Option.isNone_iff_eq_none, @eq_comm _ s']

/-- The hook confirms exactly the pending invitation of an approved account. -/
theorem onKycApproved_of_pending {s : State α} {who referrer : α} {blockNumber : Nat}
    (hpending : s.pendingReferrals.get? who = some referrer) :
    onKycApproved s .approved who blockNumber = { s with
      pendingReferrals := s.pendingReferrals.remove who
      referralCount := Function.update s.referralCount referrer
        (saturatingAdd 32 (s.referralCount referrer) 1)
      referrals := s.referrals.insert who ⟨referrer, blockNumber⟩ } := by
  rw [onKycApproved, if_pos rfl, hpending]

theorem onKycApproved_cases (s : State α) (kycStatus : KycLevel) (who : α) (blockNumber : Nat) :
    onKycApproved s kycStatus who blockNumber = s ∨
      ∃ referrer, s.pendingReferrals.get? who = some referrer ∧
        onKycApproved s kycStatus who blockNumber = { s with
          pendingReferrals := s.pendingReferrals.remove who
          referralCount := Function.update s.referralCount referrer
            (saturatingAdd 32 (s.referralCount referrer) 1)
          referrals := s.referrals.insert who ⟨referrer, blockNumber⟩ } := by
  unfold onKycApproved
  split_ifs
  · cases hpending : s.pendingReferrals.get? who with
    | none => exact .inl rfl
    | some referrer => exact .inr ⟨referrer, rfl, rfl⟩
  · exact .inl rfl

/-- A confirmed referral of a new account adds one to its referrer's number. -/
theorem referredCount_insert {s : State α} {who : α} (hnew : s.referrals.get? who = none)
    (info : ReferralInfo α) (r : α) :
    (s.referrals.insert who info).sumBy (fun _ info => if info.referrer = r then 1 else 0) =
      referredCount s r + if info.referrer = r then 1 else 0 :=
  StorageMap.sumBy_insert_of_none hnew info

/-! ## The bookkeeping -/

/-- The bookkeeping of the three maps. -/
structure RefInv (s : State α) : Prop where
  /-- An invited account is not yet referred. -/
  disjoint : ∀ {a r}, s.pendingReferrals.get? a = some r → s.referrals.get? a = none
  pending_ne : ∀ {a r}, s.pendingReferrals.get? a = some r → r ≠ a
  referrer_ne : ∀ {a info}, s.referrals.get? a = some info → info.referrer ≠ a
  /-- `ReferralCount` is the number referred, clamped at `u32::MAX`. -/
  count_eq : ∀ r, s.referralCount r = min (referredCount s r) (maxValue 32)

theorem refInv_genesis : RefInv (genesis : State α) where
  disjoint h := by simp [genesis] at h
  pending_ne h := by simp [genesis] at h
  referrer_ne h := by simp [genesis] at h
  count_eq _ := by simp [genesis, referredCount]

namespace RefInv

variable {s : State α}

/-- An invitation is stored for an account neither referred nor invited, by another account. -/
theorem initiateReferral (hi : RefInv s) {referrer referred : α} {s' : State α}
    (h : Referral.initiateReferral s referrer referred = .ok s') : RefInv s' := by
  obtain ⟨hne, hreferred, -, rfl⟩ := initiateReferral_eq_ok.mp h
  refine ⟨fun {a r} ha => ?_, fun {a r} ha => ?_, hi.referrer_ne, hi.count_eq⟩
  all_goals
    rw [StorageMap.get?_insert] at ha
    split_ifs at ha with hx
  · subst hx
    exact hreferred
  · exact hi.disjoint ha
  · subst hx
    cases ha
    exact hne
  · exact hi.pending_ne ha

/-- The hook keeps the bookkeeping: the account it confirms was pending, so not yet referred,
and its referrer's count and number both grow by one, up to the clamp. -/
theorem onKycApproved (hi : RefInv s) (kycStatus : KycLevel) (who : α) (blockNumber : Nat) :
    RefInv (Referral.onKycApproved s kycStatus who blockNumber) := by
  rcases onKycApproved_cases s kycStatus who blockNumber with h | ⟨referrer, hpending, h⟩
  · rw [h]
    exact hi
  rw [h]
  have hnew := hi.disjoint hpending
  refine ⟨fun {a r} ha => ?_, fun {a r} ha => ?_, fun {a info} ha => ?_, fun r => ?_⟩
  · -- the confirmed account is no longer pending
    dsimp only at ha ⊢
    rw [StorageMap.get?_remove] at ha
    split_ifs at ha with hx
    rw [StorageMap.get?_insert, if_neg hx]
    exact hi.disjoint ha
  · dsimp only at ha
    rw [StorageMap.get?_remove] at ha
    split_ifs at ha
    exact hi.pending_ne ha
  · dsimp only at ha
    rw [StorageMap.get?_insert] at ha
    split_ifs at ha with hx
    · subst hx
      cases ha
      exact hi.pending_ne hpending
    · exact hi.referrer_ne ha
  · -- the referrer gains one referral and one count; every other account keeps both
    dsimp only
    rw [referredCount, referredCount_insert hnew]
    by_cases hr : referrer = r
    · subst hr
      rw [Function.update_self, if_pos rfl, hi.count_eq, saturatingAdd_min]
    · rw [Function.update_of_ne (Ne.symm hr), if_neg hr, Nat.add_zero]
      exact hi.count_eq r

end RefInv

end Referral
