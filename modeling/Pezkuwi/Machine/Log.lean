import Mathlib.Data.List.Basic

/-!
# Orders of events in an append-only log

A system that deposits events appends them to its log, one at a time. Properties over whole
runs are then read off the log: what happened since some event, and what happened between two
events. `Since log e post` says that `e` occurs in `log` and `post` are the events after it;
`Precedes log e₁ mid e₂` that `e₁` occurs before `e₂` with `mid` the events between them. An
invariant of a log law is preserved by an append once the law holds for the pairs whose later
event is the new one, `precedes_append_singleton`.

## Main definitions

* `Log.Since log e post`: `e` occurs in `log`, followed by `post`
* `Log.Precedes log e₁ mid e₂`: `e₁` occurs in `log` before `e₂`, with `mid` between them

## Main results

* `since_append_singleton`: the occurrences in a log after one append
* `precedes_append_singleton`: the ordered pairs of a log after one append
* `since_append_of_ne`, `precedes_append_of_ne`: what an append of another event leaves as it
  was
-/

namespace Log

variable {ε : Type}

/-- `e` occurs in `log`, and `post` are the events after that occurrence. -/
def Since (log : List ε) (e : ε) (post : List ε) : Prop :=
  ∃ pre, log = pre ++ e :: post

/-- `e₁` occurs in `log` before an occurrence of `e₂`, and `mid` are the events between the
two. -/
def Precedes (log : List ε) (e₁ : ε) (mid : List ε) (e₂ : ε) : Prop :=
  ∃ post, Since log e₁ (mid ++ e₂ :: post)

theorem not_since_nil {e : ε} {post : List ε} : ¬ Since [] e post := by
  rintro ⟨pre, h⟩
  simp at h

theorem not_precedes_nil {e₁ e₂ : ε} {mid : List ε} : ¬ Precedes [] e₁ mid e₂ := by
  rintro ⟨post, h⟩
  exact not_since_nil h

/-- An occurrence in `log ++ [x]` is the new event, with nothing after it, or an occurrence in
`log`, followed by the new event. -/
theorem since_append_singleton {log : List ε} {x e : ε} {post : List ε} :
    Since (log ++ [x]) e post ↔
      (e = x ∧ post = []) ∨ ∃ post', Since log e post' ∧ post = post' ++ [x] := by
  constructor
  · rintro ⟨pre, h⟩
    -- the last event of the log is `e` itself, or the last event after it
    rcases List.eq_nil_or_concat' post with rfl | ⟨post', y, rfl⟩
    · obtain ⟨-, rfl⟩ := List.append_singleton_inj.mp h
      exact .inl ⟨rfl, rfl⟩
    · have h' : log ++ [x] = (pre ++ e :: post') ++ [y] := by simpa using h
      obtain ⟨rfl, rfl⟩ := List.append_singleton_inj.mp h'
      exact .inr ⟨post', ⟨pre, rfl⟩, rfl⟩
  · rintro (⟨rfl, rfl⟩ | ⟨post', ⟨pre, rfl⟩, rfl⟩)
    · exact ⟨log, rfl⟩
    · exact ⟨pre, by simp⟩

/-- A pair in `log ++ [x]` is a pair in `log`, or an occurrence in `log` followed by the new
event: the later event of a new pair is the appended one. -/
theorem precedes_append_singleton {log : List ε} {x e₁ e₂ : ε} {mid : List ε} :
    Precedes (log ++ [x]) e₁ mid e₂ ↔ Precedes log e₁ mid e₂ ∨ (Since log e₁ mid ∧ e₂ = x) := by
  constructor
  · rintro ⟨post, hsince⟩
    rcases since_append_singleton.mp hsince with ⟨-, h⟩ | ⟨post', hsince', h⟩
    · simp at h
    · -- the events after `e₁` end with `x`: it is `e₂` itself, or it comes after `e₂`
      rcases List.eq_nil_or_concat' post with rfl | ⟨post'', y, rfl⟩
      · obtain ⟨rfl, rfl⟩ := List.append_singleton_inj.mp h
        exact .inr ⟨hsince', rfl⟩
      · have h' : (mid ++ e₂ :: post'') ++ [y] = post' ++ [x] := by simpa using h
        obtain ⟨rfl, rfl⟩ := List.append_singleton_inj.mp h'
        exact .inl ⟨post'', hsince'⟩
  · rintro (⟨post, hsince⟩ | ⟨hsince, rfl⟩)
    · exact ⟨post ++ [x], since_append_singleton.mpr (.inr ⟨_, hsince, by simp⟩)⟩
    · exact ⟨[], since_append_singleton.mpr (.inr ⟨mid, hsince, by simp⟩)⟩

/-- An occurrence in `log ++ [x]` of another event than `x` is one in `log`. -/
theorem since_append_of_ne {log : List ε} {x e : ε} {post : List ε}
    (h : Since (log ++ [x]) e post) (hne : e ≠ x) :
    ∃ post', Since log e post' ∧ post = post' ++ [x] :=
  (since_append_singleton.mp h).resolve_left fun h' => hne h'.1

/-- A pair in `log ++ [x]` whose later event is not `x` is a pair in `log`. -/
theorem precedes_append_of_ne {log : List ε} {x e₁ e₂ : ε} {mid : List ε}
    (h : Precedes (log ++ [x]) e₁ mid e₂) (hne : e₂ ≠ x) : Precedes log e₁ mid e₂ :=
  (precedes_append_singleton.mp h).resolve_right fun h' => hne h'.2

end Log
