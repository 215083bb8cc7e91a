import Pezkuwi.Tiki.Registry

/-!
# The tiki score of a set of roles

`get_tiki_score` sums the bonuses of an account's roles in `u32`. The sum wraps in a build
without overflow checks, but the registry invariant keeps each list free of repetitions, and the
bonuses of all roles together are far below `u32::MAX`. So on every reachable state the score is
the plain sum of the bonuses of the roles held, a function of the set of roles, and it never
falls when a role is added (`getTikiScore_le_of_subset`).

## Main definitions

* `allTikis`: every role

## Main results

* `bonusSum_le_of_subset`: the bonuses of a set of roles within those of a larger one
* `getTikiScore_of_nodup`: the score of a list without repetitions is its plain sum
* `getTikiScore_le_of_subset`: more roles, no lower score
-/

namespace PalletTiki

open Bounded

variable {α : Type} [LinearOrder α]

/-- Every role, in the order of `Tiki`. -/
def allTikis : List Tiki :=
  [.welati, .parlementer, .serokiMeclise, .serok, .wezir, .endameDiwane, .dadger, .dozger,
    .hiquqnas, .noter, .xezinedar, .bacgir, .gerinendeyeCavkaniye, .operatoreTore,
    .pisporeEwlehiyaSiber, .gerinendeyeDaneye, .berdevk, .qeydkar, .balyoz, .navbeynkar,
    .parezvaneCandi, .mufetis, .kaliteKontrolker, .mela, .feqi, .perwerdekar, .rewsenbir,
    .revebereProjeye, .serokeKomele, .moderatoreCivake, .axa, .peseng, .sewirmend, .hekem,
    .mamoste, .bazargan, .serokWeziran, .wezireDarayiye, .wezireParez, .wezireDad, .wezireBelaw,
    .wezireTend, .wezireAva, .wezireCand]

theorem mem_allTikis (t : Tiki) : t ∈ allTikis := by
  cases t <;> decide

/-- The bonuses of a list without repetitions are at most those of any list holding its roles:
the first is a permutation of a sublist of the second. -/
theorem bonusSum_le_of_subset {l l' : List Tiki} (hl : l.Nodup) (h : l ⊆ l') :
    (l.map getBonusForTiki).sum ≤ (l'.map getBonusForTiki).sum := by
  obtain ⟨l₀, hperm, hsub⟩ := List.subperm_of_subset hl h
  rw [← (hperm.map getBonusForTiki).sum_eq]
  exact (hsub.map getBonusForTiki).sum_le_sum fun _ _ => Nat.zero_le _

/-- All bonuses together fit in `u32`. -/
theorem bonusSum_allTikis_lt : (allTikis.map getBonusForTiki).sum < 2 ^ 32 := by
  decide

/-- Without repetitions the `u32` sum does not wrap. -/
theorem getTikiScore_of_nodup (s : State α) {who : α} (hnodup : (s.userTikis who).Nodup) :
    getTikiScore s who = ((s.userTikis who).map getBonusForTiki).sum := by
  have hle := bonusSum_le_of_subset hnodup fun t _ => mem_allTikis t
  rw [getTikiScore, wrappingSum_eq_mod]
  exact Nat.mod_eq_of_lt (lt_of_le_of_lt hle bonusSum_allTikis_lt)

/-- An account holding at least the roles of another, each once, scores at least as much. -/
theorem getTikiScore_le_of_subset {s s' : State α} {who who' : α}
    (hnodup : (s.userTikis who).Nodup) (hnodup' : (s'.userTikis who').Nodup)
    (h : s.userTikis who ⊆ s'.userTikis who') : getTikiScore s who ≤ getTikiScore s' who' := by
  rw [getTikiScore_of_nodup s hnodup, getTikiScore_of_nodup s' hnodup']
  exact bonusSum_le_of_subset hnodup h

end PalletTiki
