import Mathlib.Algebra.Field.MinimalAxioms
import Mathlib.Algebra.Group.Hom.Defs
import Mathlib.Algebra.Group.Hom.Instances
import Mathlib.Logic.Function.Iterate

/-!
# A field from the powers of one element

Multiplication by one element is an additive map.  Where its powers run through everything but
zero, logarithms define the product, and the group becomes a field.
-/

set_option autoImplicit false

namespace Foundation.GeneratedField

universe u

/-- Multiplication by a generator, with a table of logarithms. -/
structure Generator (A : Type u) [AddCommGroup A] where
  step : A →+ A
  one : A
  order : ℕ
  log : A → ℕ
  order_pos : 0 < order
  one_ne_zero : one ≠ 0
  returns : step^[order] one = one
  log_le : ∀ a, a ≠ 0 → log a ≤ order
  power_log : ∀ a, a ≠ 0 → step^[log a] one = a

namespace Generator

variable {A : Type u} [AddCommGroup A] (g : Generator A)

def power (i : ℕ) : A := g.step^[i] g.one

theorem iterate_power (i j : ℕ) : g.step^[i] (g.power j) = g.power (i + j) :=
  (Function.iterate_add_apply g.step i j g.one).symm

theorem iterate_zero (i : ℕ) : g.step^[i] 0 = 0 := by
  induction i with
  | zero => rfl
  | succ i ih => rw [Function.iterate_succ_apply', ih, map_zero]

theorem iterate_add (i : ℕ) (a b : A) :
    g.step^[i] (a + b) = g.step^[i] a + g.step^[i] b := by
  induction i with
  | zero => rfl
  | succ i ih => simp only [Function.iterate_succ_apply', ih, map_add]

theorem power_order_mul (times : ℕ) : g.power (g.order * times) = g.one := by
  induction times with
  | zero => rfl
  | succ times ih =>
    rw [Nat.mul_succ, Nat.add_comm, ← g.iterate_power, ih]
    exact g.returns

theorem power_ne_zero (i : ℕ) : g.power i ≠ 0 := by
  intro zero
  have far : g.power (g.order * i) = 0 := by
    have later : i ≤ g.order * i := Nat.le_mul_of_pos_left i g.order_pos
    rw [← Nat.sub_add_cancel later, ← g.iterate_power, zero, g.iterate_zero]
  exact g.one_ne_zero ((g.power_order_mul i).symm.trans far)

theorem exists_power {a : A} (nonzero : a ≠ 0) : ∃ i, a = g.power i :=
  ⟨g.log a, (g.power_log a nonzero).symm⟩

variable [DecidableEq A]

def mul (a b : A) : A := if a = 0 then 0 else g.step^[g.log a] b

def inv (a : A) : A := if a = 0 then 0 else g.power (g.order - g.log a)

theorem zero_mul (b : A) : g.mul 0 b = 0 := if_pos rfl

theorem mul_zero (a : A) : g.mul a 0 = 0 := by
  unfold mul
  split
  · rfl
  · exact g.iterate_zero _

/-- A power multiplies by as many steps. -/
theorem power_mul (i : ℕ) (b : A) : g.mul (g.power i) b = g.step^[i] b := by
  rw [mul, if_neg (g.power_ne_zero i)]
  by_cases zero : b = 0
  · rw [zero, g.iterate_zero, g.iterate_zero]
  · obtain ⟨j, rfl⟩ := g.exists_power zero
    have same : g.power (g.log (g.power i)) = g.power i := g.power_log _ (g.power_ne_zero i)
    rw [g.iterate_power, Nat.add_comm, ← g.iterate_power, same, g.iterate_power,
      g.iterate_power, Nat.add_comm]

theorem power_mul_power (i j : ℕ) : g.mul (g.power i) (g.power j) = g.power (i + j) := by
  rw [power_mul, iterate_power]

theorem mul_comm (a b : A) : g.mul a b = g.mul b a := by
  by_cases a_zero : a = 0
  · rw [a_zero, zero_mul, mul_zero]
  by_cases b_zero : b = 0
  · rw [b_zero, zero_mul, mul_zero]
  obtain ⟨i, rfl⟩ := g.exists_power a_zero
  obtain ⟨j, rfl⟩ := g.exists_power b_zero
  rw [power_mul_power, power_mul_power, Nat.add_comm]

theorem mul_assoc (a b c : A) : g.mul (g.mul a b) c = g.mul a (g.mul b c) := by
  by_cases a_zero : a = 0
  · rw [a_zero, zero_mul, zero_mul, zero_mul]
  by_cases b_zero : b = 0
  · rw [b_zero, mul_zero, zero_mul, mul_zero]
  obtain ⟨i, rfl⟩ := g.exists_power a_zero
  obtain ⟨j, rfl⟩ := g.exists_power b_zero
  rw [power_mul_power, power_mul, power_mul, power_mul, Function.iterate_add_apply]

theorem left_distrib (a b c : A) : g.mul a (b + c) = g.mul a b + g.mul a c := by
  unfold mul
  split
  · rw [add_zero]
  · exact g.iterate_add _ b c

theorem one_mul (a : A) : g.mul g.one a = a := g.power_mul 0 a

theorem mul_inv_cancel {a : A} (nonzero : a ≠ 0) : g.mul a (g.inv a) = g.one := by
  rw [inv, if_neg nonzero, mul, if_neg nonzero, iterate_power,
    Nat.add_sub_cancel' (g.log_le a nonzero)]
  exact g.returns

/-- The field whose product adds logarithms. -/
abbrev toField : Field A :=
  letI : Mul A := ⟨g.mul⟩
  letI : Inv A := ⟨g.inv⟩
  letI : One A := ⟨g.one⟩
  Field.ofMinimalAxioms A add_assoc zero_add neg_add_cancel g.mul_assoc g.mul_comm g.one_mul
    (fun _ nonzero => g.mul_inv_cancel nonzero) (if_pos rfl) g.left_distrib
    ⟨g.one, 0, g.one_ne_zero⟩

end Generator

end Foundation.GeneratedField
