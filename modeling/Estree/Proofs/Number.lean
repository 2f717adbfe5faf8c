import Estree.Json.Basic
import Mathlib

/-!
# Integers as doubles

An integer up to `2^53` is a double (`Double.ofRatio_one`), so it is the same number whether it is
written as an integer or as a double (`Double.unsigned_ofInt`). Finite numbers are equal exactly if
they are the same without the sign of zero (`Double.same_iff`).
-/

namespace Estree

namespace Double

/-- A multiple of the step is rounded to itself. -/
theorem nearestMultiple_of_dvd {step num : Nat} (hstep : 0 < step) (h : step ∣ num) :
    nearestMultiple step num 1 = num := by
  obtain ⟨k, rfl⟩ := h
  simp [nearestMultiple, hstep, Nat.mul_comm]

theorem spacing_pos (units : Nat) : 0 < spacing units := Nat.two_pow_pos _

section

variable {n e k : Nat}

/-- A number of at most 53 bits times a power of two is a multiple of the distance between its
neighbours, and so is the first number of 54 bits. -/
theorem spacing_dvd (h : n ≤ 2 ^ 53) : spacing (n * Nat.pow 2 e) ∣ n * Nat.pow 2 e := by
  show 2 ^ ((n * 2 ^ e).log2 - 52) ∣ n * 2 ^ e
  rcases Nat.eq_zero_or_pos n with rfl | hpos
  · rw [Nat.zero_mul]
    exact Nat.dvd_zero _
  have hne : n * 2 ^ e ≠ 0 := Nat.mul_ne_zero (Nat.ne_of_gt hpos) (Nat.ne_of_gt (Nat.two_pow_pos e))
  rcases Nat.lt_or_eq_of_le h with hlt | rfl
  · have hlog : (n * 2 ^ e).log2 < 53 + e := by
      rw [Nat.log2_lt hne, Nat.pow_add]
      exact Nat.mul_lt_mul_of_pos_right hlt (Nat.two_pow_pos e)
    exact Nat.dvd_mul_left_of_dvd (Nat.pow_dvd_pow 2 (by omega)) n
  · rw [← Nat.pow_add, Nat.log2_two_pow]
    exact Nat.pow_dvd_pow 2 (by omega)

theorem mul_pow_lt (h : n ≤ 2 ^ 53) (hk : 53 + e < k) : n * Nat.pow 2 e < Nat.pow 2 k :=
  calc n * 2 ^ e ≤ 2 ^ 53 * 2 ^ e := Nat.mul_le_mul_right _ h
    _ = 2 ^ (53 + e) := (Nat.pow_add ..).symm
    _ < 2 ^ k := Nat.pow_lt_pow_right Nat.one_lt_two hk

/-- One and the limit as powers of two. The exponents have names, as nothing needs the powers. -/
theorem exists_exponents : ∃ e k, one = Nat.pow 2 e ∧ limit = Nat.pow 2 k ∧ k = e + 1024 := by
  refine ⟨1074, 2098, ?_, ?_, rfl⟩
  · unfold one
    rfl
  · unfold limit
    rfl

/-- The integers up to `2^53` are doubles. -/
theorem ofRatio_one {negative : Bool} (h : n ≤ 2 ^ 53) :
    ofRatio negative n 1 = finite negative (n * one) := by
  obtain ⟨e, k, hone, hlimit, hk⟩ := exists_exponents
  rw [ofRatio, ofUnits, Nat.div_one, hone,
    nearestMultiple_of_dvd (spacing_pos _) (spacing_dvd h), hlimit, if_pos (mul_pow_lt h (by omega))]

end

/-- The number, without the sign of zero. -/
def unsigned : Double → Double
  | finite _ 0 => finite false 0
  | d => d

theorem same_iff {d e : Double} (hd : d.isFinite) : d.same e ↔ d.unsigned = e.unsigned := by
  cases d with
  | finite negative units =>
    cases e with
    | finite negative' units' =>
      cases units <;> cases units' <;> simp [same, unsigned, and_comm]
    | _ => cases units <;> simp [same, unsigned]
  | _ => cases hd

theorem isFinite_unsigned (d : Double) : d.unsigned.isFinite = d.isFinite := by
  unfold unsigned
  split <;> rfl

theorem unsigned_ofInt_ite {negative : Bool} {n : Nat} (h : n ≤ 2 ^ 53) :
    (ofInt (if negative then -n else n)).unsigned = (finite negative (n * one)).unsigned := by
  cases negative with
  | false =>
    show (ofRatio false n 1).unsigned = _
    rw [ofRatio_one h]
  | true =>
    cases n with
    | zero =>
      show (ofRatio false 0 1).unsigned = _
      rw [ofRatio_one h, Nat.zero_mul]
      rfl
    | succ n =>
      show (ofRatio true (n + 1) 1).unsigned = _
      rw [ofRatio_one h]

/-- An integer up to `2^53` that a number is gives the number back, without the sign of zero. -/
theorem unsigned_ofInt {d : Double} {n : Int} (h : d.toInt? = some n) (hn : n.natAbs ≤ 2 ^ 53) :
    (ofInt n).unsigned = d.unsigned := by
  cases d with
  | finite negative units =>
    rw [toInt?] at h
    split at h
    case isTrue hunits =>
      have hmul : units / one * one = units := Nat.div_mul_cancel (Nat.dvd_of_mod_eq_zero hunits)
      obtain rfl := Option.some.inj h
      have habs : units / one ≤ 2 ^ 53 := by
        cases negative with
        | false => exact hn
        | true =>
          rw [if_pos rfl, Int.natAbs_neg] at hn
          exact hn
      rw [unsigned_ofInt_ite habs, hmul]
    case isFalse => cases h
  | _ => cases h

end Double

end Estree
