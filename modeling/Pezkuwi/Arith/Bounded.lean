import Mathlib

/-!
# Fixed-width unsigned arithmetic on natural numbers

An unsigned `w`-bit integer is a natural number below `2 ^ w`. The operations of a systems
language on such integers are written here as functions of natural numbers: saturating ones
clamp at the largest value, wrapping ones reduce modulo `2 ^ w` (what plain `+` and `*` do in a
build without overflow checks), checked ones fail on overflow.

## Main definitions

* `maxValue w`: the largest `w`-bit value
* `saturatingAdd`, `saturatingMul`, `saturatingSum`, `wrappingAdd`, `wrappingSum`, `wrappingMul`,
  `checkedMul`, `checkedDiv`

## Main results

* `saturatingAdd_of_le`: a sum that fits is exact
* `saturatingSum_eq_min`: a saturating sum is the true sum clamped once, in any order
* `iterate_saturatingAdd`: so is a saturating addition repeated
* `wrappingSum_eq_mod`: a wrapping sum is the true sum reduced once
* `wrappingMul_le`: a wrapped product is at most the true one
-/

namespace Bounded

/-- The largest unsigned `w`-bit value. -/
def maxValue (w : Nat) : Nat :=
  2 ^ w - 1

/-- Addition clamped at `maxValue w`. -/
def saturatingAdd (w a b : Nat) : Nat :=
  min (a + b) (maxValue w)

/-- Multiplication clamped at `maxValue w`. -/
def saturatingMul (w a b : Nat) : Nat :=
  min (a * b) (maxValue w)

/-- Multiplication reduced modulo `2 ^ w`. -/
def wrappingMul (w a b : Nat) : Nat :=
  a * b % 2 ^ w

/-- Addition reduced modulo `2 ^ w`. -/
def wrappingAdd (w a b : Nat) : Nat :=
  (a + b) % 2 ^ w

/-- Multiplication that fails when the product does not fit. -/
def checkedMul (w a b : Nat) : Option Nat :=
  if a * b ≤ maxValue w then some (a * b) else none

/-- Division that fails on a zero divisor. -/
def checkedDiv (a b : Nat) : Option Nat :=
  if b = 0 then none else some (a / b)

/-- A running wrapping sum, from the left: what `Iterator::sum` computes in a build without
overflow checks. -/
def wrappingSum (w : Nat) (l : List Nat) : Nat :=
  l.foldl (wrappingAdd w) 0

/-- A running saturating sum, from the left. -/
def saturatingSum (w : Nat) (l : List Nat) : Nat :=
  l.foldl (saturatingAdd w) 0

theorem maxValue_32 : maxValue 32 = 4294967295 := rfl

theorem maxValue_128 : maxValue 128 = 340282366920938463463374607431768211455 := rfl

theorem saturatingAdd_of_le {w a b : Nat} (h : a + b ≤ maxValue w) :
    saturatingAdd w a b = a + b :=
  min_eq_left h

theorem saturatingAdd_le_maxValue (w a b : Nat) : saturatingAdd w a b ≤ maxValue w :=
  min_le_right _ _

theorem saturatingAdd_le_add (w a b : Nat) : saturatingAdd w a b ≤ a + b :=
  min_le_left _ _

/-- Saturating addition onto a clamped value clamps the true sum once. -/
theorem saturatingAdd_min (w a b : Nat) :
    saturatingAdd w (min a (maxValue w)) b = min (a + b) (maxValue w) := by
  unfold saturatingAdd
  omega

/-- Adding `b` saturating `n` times onto a clamped value clamps `a + b * n` once. -/
theorem iterate_saturatingAdd (w b : Nat) : ∀ (n a : Nat),
    (fun x => saturatingAdd w x b)^[n] (min a (maxValue w)) = min (a + b * n) (maxValue w)
  | 0, a => by rw [Function.iterate_zero_apply, Nat.mul_zero, Nat.add_zero]
  | n + 1, a => by
    rw [Function.iterate_succ_apply, saturatingAdd_min, iterate_saturatingAdd w b n,
      Nat.mul_succ, Nat.add_assoc, Nat.add_comm b]

theorem foldl_saturatingAdd (w : Nat) : ∀ (l : List Nat) {acc : Nat}, acc ≤ maxValue w →
    l.foldl (saturatingAdd w) acc = min (acc + l.sum) (maxValue w)
  | [], acc, h => by simp [h]
  | x :: l, acc, h => by
    rw [List.foldl_cons, foldl_saturatingAdd w l (saturatingAdd_le_maxValue w acc x),
      saturatingAdd, List.sum_cons]
    omega

/-- A saturating sum is the true sum clamped once. -/
theorem saturatingSum_eq_min (w : Nat) (l : List Nat) :
    saturatingSum w l = min l.sum (maxValue w) := by
  rw [saturatingSum, foldl_saturatingAdd w l (Nat.zero_le _), Nat.zero_add]

theorem foldl_wrappingAdd (w : Nat) : ∀ (l : List Nat) {acc : Nat}, acc < 2 ^ w →
    l.foldl (wrappingAdd w) acc = (acc + l.sum) % 2 ^ w
  | [], acc, h => by rw [List.foldl_nil, List.sum_nil, Nat.add_zero, Nat.mod_eq_of_lt h]
  | x :: l, acc, _ => by
    rw [List.foldl_cons, wrappingAdd, foldl_wrappingAdd w l (Nat.mod_lt _ (Nat.two_pow_pos w)),
      Nat.mod_add_mod, List.sum_cons, Nat.add_assoc]

/-- A wrapping sum is the true sum reduced once. -/
theorem wrappingSum_eq_mod (w : Nat) (l : List Nat) : wrappingSum w l = l.sum % 2 ^ w := by
  rw [wrappingSum, foldl_wrappingAdd w l (Nat.two_pow_pos w), Nat.zero_add]

theorem wrappingSum_le_maxValue (w : Nat) (l : List Nat) : wrappingSum w l ≤ maxValue w := by
  rw [wrappingSum_eq_mod, maxValue]
  exact Nat.le_sub_one_of_lt (Nat.mod_lt _ (Nat.two_pow_pos w))

theorem wrappingMul_le (w a b : Nat) : wrappingMul w a b ≤ a * b :=
  Nat.mod_le _ _

theorem wrappingMul_lt (w a b : Nat) : wrappingMul w a b < 2 ^ w :=
  Nat.mod_lt _ (Nat.two_pow_pos w)

theorem saturatingMul_le_maxValue (w a b : Nat) : saturatingMul w a b ≤ maxValue w :=
  min_le_right _ _

theorem saturatingMul_le_mul (w a b : Nat) : saturatingMul w a b ≤ a * b :=
  min_le_left _ _

/-- Saturating addition is monotone in both arguments: the clamp only lowers. -/
theorem saturatingAdd_le_saturatingAdd {w a a' b b' : Nat} (ha : a ≤ a') (hb : b ≤ b') :
    saturatingAdd w a b ≤ saturatingAdd w a' b' :=
  min_le_min_right _ (Nat.add_le_add ha hb)

theorem saturatingMul_le_saturatingMul {w a a' b b' : Nat} (ha : a ≤ a') (hb : b ≤ b') :
    saturatingMul w a b ≤ saturatingMul w a' b' :=
  min_le_min_right _ (Nat.mul_le_mul ha hb)

theorem wrappingMul_of_lt {w a b : Nat} (h : a * b < 2 ^ w) : wrappingMul w a b = a * b :=
  Nat.mod_eq_of_lt h

theorem wrappingAdd_of_lt {w a b : Nat} (h : a + b < 2 ^ w) : wrappingAdd w a b = a + b :=
  Nat.mod_eq_of_lt h

theorem checkedDiv_eq_some {a b c : Nat} : checkedDiv a b = some c ↔ b ≠ 0 ∧ c = a / b := by
  unfold checkedDiv
  split_ifs with h <;> simp [h, eq_comm]

theorem checkedMul_eq_some {w a b c : Nat} : checkedMul w a b = some c ↔ a * b ≤ maxValue w ∧ c = a * b := by
  unfold checkedMul
  split_ifs with h <;> simp [h, eq_comm]

end Bounded
