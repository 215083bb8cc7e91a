import Pezkuwi.Referral.Model
import Pezkuwi.IdentityKyc.Deposits

/-!
# Referrals across identity-kyc and referral

The runtime's `OnKycApproved` hook of `pallet-identity-kyc` is `pallet-referral`: after
`approve_kyc` has written the level `Approved`, it confirms the approved account's pending
invitation. This module composes the identity-kyc calls, `initiate_referral` and the passing of
blocks; the `CitizenNftProvider` mint of the same approval writes to `pallet-tiki` only and is
composed in `Pezkuwi.Runtime.Citizenship`.

On every reachable state no account is both invited and referred, nobody refers itself, and the
`ReferralCount` of an account is the number of accounts it referred, clamped at `u32::MAX`
(`referral_bookkeeping`). The clamp is reached: after account `0` has invited `2 ^ 32` accounts
and each was approved, it has referred `2 ^ 32` accounts and its count is `u32::MAX`
(`referral_count_saturates`).

## Main definitions

* `Referrals`, `ReferralAction`, `referralStep`: the two pallets, their calls and the hook
* `referState`: account `0` inviting `n` accounts, each approved in turn

## Main results

* `referral_bookkeeping`: the bookkeeping on every reachable state
* `referral_count_saturates`: a reachable state whose count is not the number referred
-/

namespace Pezkuwichain

open Bounded Machine IdentityKyc Referral

/-- The storage of `pallet-identity-kyc` and `pallet-referral`, and the block number. -/
structure Referrals (α : Type) [LinearOrder α] where
  kyc : IdentityKyc.State α
  referral : Referral.State α
  blockNumber : Nat

variable {α : Type} [LinearOrder α]

/-- Both pallets at genesis. -/
def Referrals.genesis : Referrals α :=
  ⟨IdentityKyc.genesis, Referral.genesis, 0⟩

/-- The calls of the two pallets with their origins, and the passing of blocks. -/
inductive ReferralAction (α : Type) where
  | initiateReferral (origin : Origin α) (referred : α)
  | setIdentity (origin : Origin α)
  | applyForKyc (origin : Origin α) (reserved : Bool)
  | approveKyc (origin : Origin α) (who : α)
  | rejectKyc (origin : Origin α) (who : α)
  | revokeKyc (origin : Origin α) (who : α)
  | advance (blockNumber : Nat)

/-- An identity-kyc call without a hook, committed to the identity-kyc storage or rolled back. -/
def Referrals.withKyc (s : Referrals α) (r : Except IdentityKyc.Error (IdentityKyc.State α)) :
    Referrals α :=
  commit (r.map fun kyc => { s with kyc }) s

@[simp] theorem Referrals.referral_withKyc (s : Referrals α)
    (r : Except IdentityKyc.Error (IdentityKyc.State α)) : (s.withKyc r).referral = s.referral := by
  cases r <;> rfl

/-- One step of the two pallets. -/
def referralStep (s : Referrals α) : ReferralAction α → Referrals α
  | .initiateReferral origin referred =>
    commit ((ensureSigned origin Referral.Error.badOrigin >>= fun referrer =>
      Referral.initiateReferral s.referral referrer referred).map fun referral =>
        { s with referral }) s
  | .setIdentity origin =>
    s.withKyc (ensureSigned origin .badOrigin >>= fun who => IdentityKyc.setIdentity s.kyc who)
  | .applyForKyc origin reserved =>
    s.withKyc (ensureSigned origin .badOrigin >>= fun who =>
      IdentityKyc.applyForKyc s.kyc who reserved)
  | .approveKyc origin who =>
    -- the hook reads the level the approval has just written
    commit ((ensureRoot origin IdentityKyc.Error.badOrigin >>= fun _ =>
      IdentityKyc.approveKyc s.kyc who).map fun kyc =>
        { s with
          kyc
          referral := onKycApproved s.referral (kycStatusOf kyc who) who s.blockNumber }) s
  | .rejectKyc origin who =>
    s.withKyc (ensureRoot origin .badOrigin >>= fun _ => IdentityKyc.rejectKyc s.kyc who)
  | .revokeKyc origin who =>
    s.withKyc (ensureRoot origin .badOrigin >>= fun _ => IdentityKyc.revokeKyc s.kyc who)
  | .advance b => if s.blockNumber ≤ b then { s with blockNumber := b } else s

/-! ## The bookkeeping on every run -/

/-- Every step keeps the bookkeeping: an invitation through `initiate_referral`, a confirmation
through the hook of an approval, and the other calls leave the referral storage. -/
theorem refInv_referralStep {s : Referrals α} (hi : RefInv s.referral) (a : ReferralAction α) :
    RefInv (referralStep s a).referral := by
  cases a with
  | initiateReferral origin referred =>
    refine commit_of_ok (P := fun t : Referrals α => RefInv t.referral) hi fun t ht => ?_
    obtain ⟨referral, hcall, rfl⟩ := map_eq_ok.mp ht
    obtain ⟨referrer, -, hinit⟩ := bind_eq_ok.mp hcall
    exact hi.initiateReferral hinit
  | approveKyc origin who =>
    refine commit_of_ok (P := fun t : Referrals α => RefInv t.referral) hi fun t ht => ?_
    obtain ⟨kyc, -, rfl⟩ := map_eq_ok.mp ht
    exact hi.onKycApproved _ who s.blockNumber
  | setIdentity | applyForKyc | rejectKyc | revokeKyc =>
    simp only [referralStep, Referrals.referral_withKyc]
    exact hi
  | advance b =>
    dsimp only [referralStep]
    split_ifs
    · exact hi
    · exact hi

theorem refInv_of_reachable {s : Referrals α}
    (hs : Reachable referralStep Referrals.genesis s) : RefInv s.referral :=
  hs.invariant (P := fun t : Referrals α => RefInv t.referral) refInv_genesis
    fun _ a hi => refInv_referralStep hi a

/-- On every state the identity-kyc calls, `initiate_referral` and the approval hook reach, in
any order: `PendingReferrals` and `Referrals` have disjoint keys, nobody refers itself, and the
`ReferralCount` of every account is the number of accounts it referred, clamped at `u32::MAX`,
so it is that number while the number fits. -/
theorem referral_bookkeeping {s : Referrals α}
    (hs : Reachable referralStep Referrals.genesis s) :
    Disjoint s.referral.pendingReferrals.keySet s.referral.referrals.keySet ∧
      (∀ a r, s.referral.pendingReferrals.get? a = some r → r ≠ a) ∧
      (∀ a info, s.referral.referrals.get? a = some info → info.referrer ≠ a) ∧
      (∀ r, s.referral.referralCount r = min (referredCount s.referral r) (maxValue 32)) ∧
      (∀ r, referredCount s.referral r ≤ maxValue 32 →
        s.referral.referralCount r = referredCount s.referral r) := by
  have hi := refInv_of_reachable hs
  refine ⟨Finset.disjoint_left.mpr fun a ha => ?_, fun _ _ h => hi.pending_ne h,
    fun _ _ h => hi.referrer_ne h, hi.count_eq, fun r hr => ?_⟩
  · -- an invited account is not referred
    obtain ⟨r, hr⟩ := StorageMap.mem_keySet.mp ha
    exact StorageMap.not_mem_keySet.mpr (hi.disjoint hr)
  · rw [hi.count_eq r, min_eq_left hr]

/-- An approval of a pending application confirms the account's invitation. -/
theorem referralStep_approveKyc {s : Referrals α} {who referrer : α}
    (hlevel : kycStatusOf s.kyc who = .pending) (happ : s.kyc.pendingKycApplications who = true)
    (hinvited : s.referral.pendingReferrals.get? who = some referrer) :
    referralStep s (.approveKyc .root who) = { s with
      kyc := { s.kyc with
        pendingKycApplications := Function.update s.kyc.pendingKycApplications who false
        kycStatuses := s.kyc.kycStatuses.insert who .approved }
      referral := { s.referral with
        pendingReferrals := s.referral.pendingReferrals.remove who
        referralCount := Function.update s.referral.referralCount referrer
          (saturatingAdd 32 (s.referral.referralCount referrer) 1)
        referrals := s.referral.referrals.insert who ⟨referrer, s.blockNumber⟩ } } := by
  have happrove : IdentityKyc.approveKyc s.kyc who = .ok { s.kyc with
      pendingKycApplications := Function.update s.kyc.pendingKycApplications who false
      kycStatuses := s.kyc.kycStatuses.insert who .approved } :=
    closeApplication_eq_ok.mpr ⟨hlevel, happ, rfl⟩
  -- the hook reads the level just written
  have happroved : kycStatusOf { s.kyc with
      pendingKycApplications := Function.update s.kyc.pendingKycApplications who false
      kycStatuses := s.kyc.kycStatuses.insert who .approved } who = .approved := by
    rw [kycStatusOf_of_insert rfl, if_pos rfl]
  simp only [referralStep, ensureRoot, bind, Except.bind, happrove, Except.map, commit, happroved,
    onKycApproved_of_pending hinvited]

/-! ## One account referring everybody -/

/-- Account `0` invites account `i`, which sets an identity and applies with its deposit
reserved, and the root approves it. -/
def referRound (i : Nat) : List (ReferralAction Nat) :=
  [.initiateReferral (.signed 0) i, .setIdentity (.signed i), .applyForKyc (.signed i) true,
    .approveKyc .root i]

/-- The rounds of accounts `1` to `n`. -/
def referRun (n : Nat) : List (ReferralAction Nat) :=
  (List.range n).flatMap fun i => referRound (i + 1)

def referState (n : Nat) : Referrals Nat :=
  run referralStep Referrals.genesis (referRun n)

theorem referral_bookkeeping_after_one_round :
    Disjoint (referState 1).referral.pendingReferrals.keySet
        (referState 1).referral.referrals.keySet ∧
      (∀ a r, (referState 1).referral.pendingReferrals.get? a = some r → r ≠ a) ∧
      (∀ a info, (referState 1).referral.referrals.get? a = some info → info.referrer ≠ a) ∧
      (∀ r, (referState 1).referral.referralCount r =
        min (referredCount (referState 1).referral r) (maxValue 32)) ∧
      (∀ r, referredCount (referState 1).referral r ≤ maxValue 32 →
        (referState 1).referral.referralCount r = referredCount (referState 1).referral r) :=
  referral_bookkeeping (reachable_run _)

example : (referState 1).referral.referralCount 0 = 1 ∧
    (referState 1).referral.referrals.get? 1 = some ⟨0, 0⟩ := by
  decide

/-- An account that has neither an identity, nor a KYC level, nor an invitation, nor a referral. -/
structure Fresh (s : Referrals Nat) (j : Nat) : Prop where
  identity : s.kyc.identities j = false
  level : kycStatusOf s.kyc j = .notStarted
  pending : s.referral.pendingReferrals.get? j = none
  referred : s.referral.referrals.get? j = none

/-- The first three calls of a round, on a fresh account: invited by `0`, an identity, and an
application. -/
theorem run_referRound_prefix {s : Referrals Nat} {j : Nat} (hj : 0 ≠ j) (hfresh : Fresh s j) :
    run referralStep s (referRound j).dropLast = { s with
      kyc := { s.kyc with
        identities := Function.update s.kyc.identities j true
        pendingKycApplications := Function.update s.kyc.pendingKycApplications j true
        kycStatuses := s.kyc.kycStatuses.insert j .pending }
      referral := { s.referral with
        pendingReferrals := s.referral.pendingReferrals.insert j 0 } } := by
  have hinit : Referral.initiateReferral s.referral 0 j = .ok { s.referral with
      pendingReferrals := s.referral.pendingReferrals.insert j 0 } :=
    initiateReferral_eq_ok.mpr ⟨hj, hfresh.referred, hfresh.pending, rfl⟩
  have hidentity : IdentityKyc.setIdentity s.kyc j =
      .ok { s.kyc with identities := Function.update s.kyc.identities j true } := by
    simp only [IdentityKyc.setIdentity, hfresh.identity, ensure, if_pos, bind, Except.bind, pure,
      Except.pure]
  have happly : IdentityKyc.applyForKyc
      { s.kyc with identities := Function.update s.kyc.identities j true } j true = .ok { s.kyc with
        identities := Function.update s.kyc.identities j true
        pendingKycApplications := Function.update s.kyc.pendingKycApplications j true
        kycStatuses := s.kyc.kycStatuses.insert j .pending } := by
    have hlevel : kycStatusOf { s.kyc with
        identities := Function.update s.kyc.identities j true } j = .notStarted := hfresh.level
    simp only [IdentityKyc.applyForKyc, Function.update_self, hlevel, ensure, if_pos, bind,
      Except.bind, pure, Except.pure]
  simp only [referRound, List.dropLast, run_cons, run_nil, referralStep, ensureSigned, bind,
    Except.bind, hinit, Except.map, commit, Referrals.withKyc, hidentity, happly]

/-- A round on a fresh account: it is approved, and its invitation confirmed. -/
theorem run_referRound {s : Referrals Nat} {j : Nat} (hj : 0 ≠ j) (hfresh : Fresh s j) :
    run referralStep s (referRound j) = { s with
      kyc := { s.kyc with
        identities := Function.update s.kyc.identities j true
        pendingKycApplications :=
          Function.update (Function.update s.kyc.pendingKycApplications j true) j false
        kycStatuses := (s.kyc.kycStatuses.insert j .pending).insert j .approved }
      referral := { s.referral with
        pendingReferrals := (s.referral.pendingReferrals.insert j 0).remove j
        referralCount := Function.update s.referral.referralCount 0
          (saturatingAdd 32 (s.referral.referralCount 0) 1)
        referrals := s.referral.referrals.insert j ⟨0, s.blockNumber⟩ } } := by
  have hsplit : referRound j = (referRound j).dropLast ++ [.approveKyc .root j] := rfl
  rw [hsplit, run_append, run_referRound_prefix hj hfresh, run_cons, run_nil,
    referralStep_approveKyc]
  -- the application and the invitation the first three calls left
  · simp [kycStatusOf]
  · exact Function.update_self ..
  · simp

/-- A round keeps every other account fresh. -/
theorem fresh_run_referRound {s : Referrals Nat} {j k : Nat} (hj : 0 ≠ j) (hfresh : Fresh s j)
    (hk : k ≠ j) (hkfresh : Fresh s k) : Fresh (run referralStep s (referRound j)) k := by
  rw [run_referRound hj hfresh]
  refine ⟨?_, ?_, ?_, ?_⟩
  · simp only [Function.update_of_ne hk, hkfresh.identity]
  · simp only [kycStatusOf, StorageMap.getD_insert, if_neg hk]
    exact hkfresh.level
  · simp only [StorageMap.get?_remove, StorageMap.get?_insert, if_neg hk, hkfresh.pending]
  · simp only [StorageMap.get?_insert, if_neg hk, hkfresh.referred]

/-- A round adds one to the number account `0` referred. -/
theorem referredCount_run_referRound {s : Referrals Nat} {j : Nat} (hj : 0 ≠ j)
    (hfresh : Fresh s j) :
    referredCount (run referralStep s (referRound j)).referral 0 =
      referredCount s.referral 0 + 1 := by
  rw [run_referRound hj hfresh]
  exact referredCount_insert hfresh.referred _ 0

/-- After `n` rounds account `0` has referred `n` accounts, and every later account is fresh. -/
theorem referState_spec (n : Nat) :
    referredCount (referState n).referral 0 = n ∧ ∀ k, n < k → Fresh (referState n) k := by
  induction n with
  | zero =>
    refine ⟨rfl, fun k _ => ⟨rfl, rfl, rfl, rfl⟩⟩
  | succ n ih =>
    obtain ⟨hcount, hfresh⟩ := ih
    -- the run of `n + 1` rounds is the run of `n` and one more round
    have hrun : referState (n + 1) = run referralStep (referState n) (referRound (n + 1)) := by
      rw [referState, referRun, List.range_succ, List.flatMap_append, List.flatMap_singleton,
        run_append]
      rfl
    have hj : (0 : Nat) ≠ n + 1 := (Nat.succ_ne_zero n).symm
    have hnext := hfresh (n + 1) (Nat.lt_succ_self n)
    rw [hrun]
    refine ⟨by rw [referredCount_run_referRound hj hnext, hcount], fun k hk => ?_⟩
    exact fresh_run_referRound hj hnext (Nat.ne_of_gt hk) (hfresh k (by omega))

/-- After `2 ^ 32` rounds account `0` has referred `2 ^ 32` accounts, but its `ReferralCount`
stopped at `u32::MAX`. -/
theorem referral_count_saturates :
    Reachable referralStep Referrals.genesis (referState (2 ^ 32)) ∧
      referredCount (referState (2 ^ 32)).referral 0 = 2 ^ 32 ∧
      (referState (2 ^ 32)).referral.referralCount 0 = 2 ^ 32 - 1 := by
  have hs : Reachable referralStep Referrals.genesis (referState (2 ^ 32)) := reachable_run _
  have hcount := (referState_spec (2 ^ 32)).1
  refine ⟨hs, hcount, ?_⟩
  rw [(refInv_of_reachable hs).count_eq 0, hcount, maxValue]
  exact min_eq_right (Nat.sub_le _ _)

end Pezkuwichain
