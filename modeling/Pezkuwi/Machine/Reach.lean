import Mathlib

/-!
# Reachable states of a transactional state machine

A system is a state type `σ`, an initial state and a total step function over actions `α`.
Calls that can fail are functions `σ → Except ε σ`; the layer that dispatches them commits the
new state on success and keeps the old one on failure, so a failed call is a step that changes
nothing. Invariants of the reachable states are proved once by induction here, and each model
only shows that its steps preserve them.

## Main definitions

* `commit r s`: the state after a call returning `r` from `s`, rolled back on failure
* `ensure c e`, `okOr o e`: fail with `e` unless `c`, or when `o` is empty
* `Origin`, `ensureSigned`, `ensureRoot`: who dispatched a call, and the checks on it
* `Reachable step init`: the states some run reaches
* `ReachableUnder allowed step init`: the states reached by runs whose every step is allowed
  where it is taken
* `run step s as`: the state after the actions `as`

## Main results

* `bind_eq_ok`: a successful chain of calls is a chain of successful calls
* `map_eq_ok`: a projected call succeeds when the call does
* `forM_eq_ok`: a loop of checks succeeds when every check does
* `foldlM_invariant`: a loop of calls that succeeds keeps what each successful call keeps
* `Reachable.invariant`, `ReachableUnder.invariant`: the induction rules for invariants
* `reachable_run`: a run from the initial state reaches its end
-/

universe u v w

namespace Machine

variable {σ : Type u} {α : Type v} {ε : Type w}

/-! ## Calls that can fail -/

/-- The state after a call that returned `r` from `s`: the new state on success, `s` again on
failure. -/
def commit (r : Except ε σ) (s : σ) : σ :=
  match r with
  | .ok s' => s'
  | .error _ => s

/-- Fail with `e` unless `c` holds. -/
def ensure (c : Prop) [Decidable c] (e : ε) : Except ε Unit :=
  if c then .ok () else .error e

/-- Rust's `Option::ok_or`: the value, or the error `e` when there is none. -/
def okOr {β : Type u} (o : Option β) (e : ε) : Except ε β :=
  match o with
  | some b => .ok b
  | none => .error e

@[simp] theorem okOr_eq_ok {β : Type u} {o : Option β} {e : ε} {b : β} :
    okOr o e = .ok b ↔ o = some b := by
  cases o <;> simp [okOr]

@[simp] theorem mapError_eq_ok {ε' : Type w} {β : Type u} {x : Except ε β} {f : ε → ε'} {b : β} :
    x.mapError f = .ok b ↔ x = .ok b := by
  cases x <;> simp [Except.mapError]

@[simp] theorem ensure_eq_ok {c : Prop} [Decidable c] {e : ε} {u : Unit} :
    ensure c e = .ok u ↔ c := by
  unfold ensure
  split_ifs with h <;> simp [h]

@[simp] theorem pure_eq_ok {β : Type u} {b c : β} : (pure b : Except ε β) = .ok c ↔ b = c :=
  ⟨Except.ok.inj, fun h => h ▸ rfl⟩

/-- A call whose result is projected succeeds when the call does. -/
theorem map_eq_ok {β γ : Type u} {x : Except ε β} {f : β → γ} {c : γ} :
    x.map f = .ok c ↔ ∃ b, x = .ok b ∧ f b = c := by
  cases x with
  | error e => simp [Except.map]
  | ok b => simp [Except.map]

@[simp] theorem commit_ok (s s' : σ) : commit (.ok s' : Except ε σ) s = s' := rfl

@[simp] theorem commit_error (s : σ) (e : ε) : commit (.error e : Except ε σ) s = s := rfl

/-- A successful chain of calls is a chain of successful calls. -/
theorem bind_eq_ok {β γ : Type u} {x : Except ε β} {f : β → Except ε γ} {c : γ} :
    x >>= f = .ok c ↔ ∃ b, x = .ok b ∧ f b = .ok c := by
  cases x with
  | error e => simp [bind, Except.bind]
  | ok b => simp [bind, Except.bind]

/-- A loop of checks succeeds when every check does. -/
theorem forM_eq_ok {β : Type v} {l : List β} {f : β → Except ε PUnit} {u : PUnit} :
    l.forM f = .ok u ↔ ∀ b ∈ l, f b = .ok () := by
  induction l with
  | nil => simp [List.forM_nil, pure, Except.pure]
  | cons b l ih =>
    rw [List.forM, bind_eq_ok, List.forall_mem_cons, ← ih]
    constructor
    · rintro ⟨⟨⟩, hb, hl⟩
      exact ⟨hb, hl⟩
    · rintro ⟨hb, hl⟩
      exact ⟨(), hb, hl⟩

/-- **Invariant rule** for a loop of calls: when every successful call keeps `P`, so does a
successful loop. -/
theorem foldlM_invariant {β : Type v} {P : σ → Prop} {f : σ → β → Except ε σ}
    (hf : ∀ s b s', P s → f s b = .ok s' → P s') :
    ∀ {l : List β} {s s' : σ}, P s → l.foldlM f s = .ok s' → P s'
  | [], s, s', hs, h => by
    obtain rfl : s = s' := Except.ok.inj h
    exact hs
  | b :: l, s, s', hs, h => by
    rw [List.foldlM_cons] at h
    obtain ⟨t, ht, hl⟩ := bind_eq_ok.mp h
    exact foldlM_invariant hf (hf s b t hs ht) hl

/-! ## Origins -/

/-- The origin of a dispatched call: the root, or the signature of an account. -/
inductive Origin (α : Type u) where
  | root
  | signed (who : α)
  deriving DecidableEq, Repr

/-- The signer of a signed origin; any other origin fails with `e`. -/
def ensureSigned {α : Type u} (o : Origin α) (e : ε) : Except ε α :=
  match o with
  | .signed who => .ok who
  | .root => .error e

/-- Succeed for the root origin only; any other origin fails with `e`. -/
def ensureRoot {α : Type u} (o : Origin α) (e : ε) : Except ε PUnit :=
  match o with
  | .root => .ok ()
  | .signed _ => .error e

@[simp] theorem ensureSigned_eq_ok {α : Type u} {o : Origin α} {e : ε} {who : α} :
    ensureSigned o e = .ok who ↔ o = .signed who := by
  cases o <;> simp [ensureSigned]

@[simp] theorem ensureRoot_eq_ok {α : Type u} {o : Origin α} {e : ε} {u : PUnit} :
    ensureRoot o e = .ok u ↔ o = .root := by
  cases o <;> simp [ensureRoot]

/-- A property of the state survives a call when it survives every success of the call. -/
theorem commit_of_ok {P : σ → Prop} {r : Except ε σ} {s : σ} (hs : P s)
    (h : ∀ s', r = .ok s' → P s') : P (commit r s) := by
  cases r with
  | error e => exact hs
  | ok s' => exact h s' rfl

/-- A call after a check keeps a property when the call does, whatever the check passed on. -/
theorem commit_bind_of_ok {β : Type u} {P : σ → Prop} {x : Except ε β} {f : β → Except ε σ}
    {s : σ} (hs : P s) (h : ∀ b s', f b = .ok s' → P s') : P (commit (x >>= f) s) :=
  commit_of_ok hs fun s' hok => by
    obtain ⟨b, -, hf⟩ := bind_eq_ok.mp hok
    exact h b s' hf

/-- What every success of a call leaves unchanged, the committed state leaves unchanged. -/
theorem apply_commit_eq {β : Sort*} (f : σ → β) {r : Except ε σ} {s : σ}
    (h : ∀ s', r = .ok s' → f s' = f s) : f (commit r s) = f s := by
  cases r with
  | error e => rfl
  | ok s' => exact h s' rfl

/-! ## Reachable states -/

/-- The states reached from `init` by any sequence of steps. -/
inductive Reachable (step : σ → α → σ) (init : σ) : σ → Prop where
  | init : Reachable step init init
  | step {s : σ} (a : α) : Reachable step init s → Reachable step init (step s a)

/-- The states reached from `init` by sequences of steps each of which is allowed in the state
where it is taken. -/
inductive ReachableUnder (allowed : σ → α → Prop) (step : σ → α → σ) (init : σ) : σ → Prop where
  | init : ReachableUnder allowed step init init
  | step {s : σ} (a : α) : ReachableUnder allowed step init s → allowed s a →
      ReachableUnder allowed step init (step s a)

variable {step : σ → α → σ} {init : σ}

/-- **Invariant rule**: what holds initially and survives every step holds in every reachable
state. -/
theorem Reachable.invariant {P : σ → Prop} (h0 : P init) (hs : ∀ s a, P s → P (step s a))
    {s : σ} (h : Reachable step init s) : P s := by
  induction h with
  | init => exact h0
  | step a _ ih => exact hs _ a ih

/-- **Invariant rule** for runs of allowed steps. -/
theorem ReachableUnder.invariant {allowed : σ → α → Prop} {P : σ → Prop} (h0 : P init)
    (hs : ∀ s a, P s → allowed s a → P (step s a)) {s : σ}
    (h : ReachableUnder allowed step init s) : P s := by
  induction h with
  | init => exact h0
  | step a _ ha ih => exact hs _ a ih ha

/-- A run of allowed steps is a run. -/
theorem ReachableUnder.reachable {allowed : σ → α → Prop} {s : σ}
    (h : ReachableUnder allowed step init s) : Reachable step init s := by
  induction h with
  | init => exact .init
  | step a _ _ ih => exact .step a ih

/-- Every step is allowed when nothing is forbidden. -/
theorem ReachableUnder.of_reachable {allowed : σ → α → Prop} (hall : ∀ s a, allowed s a)
    {s : σ} (h : Reachable step init s) : ReachableUnder allowed step init s := by
  induction h with
  | init => exact .init
  | step a _ ih => exact .step a ih (hall _ a)

/-! ## Runs -/

/-- The state after taking the actions `as` in order from `s`. -/
def run (step : σ → α → σ) (s : σ) (as : List α) : σ :=
  as.foldl step s

@[simp] theorem run_nil (s : σ) : run step s [] = s := rfl

@[simp] theorem run_cons (s : σ) (a : α) (as : List α) :
    run step s (a :: as) = run step (step s a) as := rfl

theorem run_append (s : σ) (as bs : List α) :
    run step s (as ++ bs) = run step (run step s as) bs :=
  List.foldl_append

theorem reachable_run_from {s : σ} (hs : Reachable step init s) :
    ∀ as : List α, Reachable step init (run step s as)
  | [] => hs
  | a :: as => reachable_run_from (.step a hs) as

/-- A run of actions that every state allows is an allowed run. -/
theorem reachableUnder_run_from {allowed : σ → α → Prop} {s : σ}
    (hs : ReachableUnder allowed step init s) (as : List α) (h : ∀ a ∈ as, ∀ t, allowed t a) :
    ReachableUnder allowed step init (run step s as) := by
  induction as generalizing s with
  | nil => exact hs
  | cons a as ih =>
    exact ih (.step a hs (h a List.mem_cons_self s)) fun b hb => h b (List.mem_cons_of_mem _ hb)

/-- A run from the initial state reaches its end. -/
theorem reachable_run (as : List α) : Reachable step init (run step init as) :=
  reachable_run_from .init as

end Machine
