import Estree.Text.Digit
import Mathlib.Data.List.Forall2
import Mathlib.Data.Nat.Digits.Defs

/-!
# Numbers that digits write

`numberOf?` reads digits from the first to the last. It finds a number exactly if all characters are
digits, and the number is the sum of their values times powers of the radix
(`numberOf?_eq_some_iff`).
-/

namespace Estree

/-- The characters are digits of a radix, and they write a number. -/
def Writes (radix : Nat) (cs : List Char) (n : Nat) : Prop :=
  ∃ ds, List.Forall₂ (fun c d => digitOf radix c = some d) cs ds ∧ Nat.ofDigits radix ds.reverse = n

/-! ## Digits -/

/-- The digits of a radix up to ten follow each other. -/
theorem isSome_digitOf {radix : Nat} {c : Char} (hradix : radix ≤ 10) :
    (digitOf radix c).isSome ↔ 48 ≤ c.toNat ∧ c.toNat < 48 + radix := by
  have hle (a b : Char) : a ≤ b ↔ a.toNat ≤ b.toNat := by
    rw [Char.le_def, UInt32.le_iff_toNat_le]
    rfl
  have hzero : '0'.toNat = 48 := rfl
  have hnine : '9'.toNat = 57 := rfl
  have ha : 'a'.toNat = 97 := rfl
  have hA : 'A'.toNat = 65 := rfl
  unfold digitOf digitValue
  simp only [hle, hzero, hnine, ha, hA, Option.isSome_filter]
  split
  case isTrue h =>
    simp only [Option.any_some, decide_eq_true_eq]
    omega
  case isFalse h =>
    have hlarge : ¬(48 ≤ c.toNat ∧ c.toNat < 48 + radix) := by omega
    simp only [hlarge, iff_false, Bool.not_eq_true]
    split
    · simp only [Option.any_some, decide_eq_false_iff_not]
      omega
    split
    · simp only [Option.any_some, decide_eq_false_iff_not]
      omega
    · rfl

/-- A digit of a radix up to ten stands as many places behind `0` as it counts. -/
theorem toNat_of_digitOf {radix d : Nat} {c : Char} (hradix : radix ≤ 10)
    (h : digitOf radix c = some d) : c.toNat = 48 + d := by
  obtain ⟨hge, hlt⟩ := (isSome_digitOf hradix).1 (Option.isSome_iff_exists.2 ⟨d, h⟩)
  have hrange : '0' ≤ c ∧ c ≤ '9' := by
    rw [Char.le_def, Char.le_def, UInt32.le_iff_toNat_le, UInt32.le_iff_toNat_le]
    change 48 ≤ c.toNat ∧ c.toNat ≤ 57
    omega
  obtain ⟨hvalue, -⟩ := Option.filter_eq_some_iff.1 h
  rw [digitValue, if_pos hrange] at hvalue
  have hd : c.toNat - 48 = d := Option.some.inj hvalue
  omega

theorem digitOf_zero {radix : Nat} (h : 0 < radix) : digitOf radix '0' = some 0 := by
  have hvalue : digitValue '0' = some 0 := rfl
  rw [digitOf, hvalue, Option.filter_some, if_pos (by simpa using h)]

theorem isDecimal_iff {c : Char} : isDecimal c ↔ '0' ≤ c ∧ c ≤ '9' := by
  rw [isDecimal, isSome_digitOf (Nat.le_refl _), Char.le_def, Char.le_def,
    UInt32.le_iff_toNat_le, UInt32.le_iff_toNat_le]
  exact and_congr_right fun _ => Nat.lt_succ_iff

theorem isOctal_iff {c : Char} : isOctal c ↔ '0' ≤ c ∧ c ≤ '7' := by
  rw [isOctal, isSome_digitOf (by omega), Char.le_def, Char.le_def, UInt32.le_iff_toNat_le,
    UInt32.le_iff_toNat_le]
  exact and_congr_right fun _ => Nat.lt_succ_iff

theorem isOctal_of_digitOf {c : Char} {d : Nat} (h : digitOf 8 c = some d) : isOctal c := by
  rw [isOctal, h]
  rfl

theorem isDecimal_of_isOctal {c : Char} (h : isOctal c) : isDecimal c := by
  rw [isOctal_iff] at h
  exact isDecimal_iff.2 ⟨h.1, Char.le_trans h.2 (by decide)⟩

/-- The decimal digits that are not octal. -/
theorem isDecimal_and_not_isOctal {c : Char} : isDecimal c ∧ ¬isOctal c ↔ c = '8' ∨ c = '9' := by
  rw [isDecimal, isOctal, isSome_digitOf (Nat.le_refl _), isSome_digitOf (by omega)]
  constructor
  · intro h
    have hnat : c.toNat = '8'.toNat ∨ c.toNat = '9'.toNat := by
      change c.toNat = 56 ∨ c.toNat = 57
      omega
    exact hnat.imp Char.toNat_inj.1 Char.toNat_inj.1
  · rintro (rfl | rfl) <;> decide

/-! ## Numbers -/

section

variable {radix acc number n m : Nat} {c : Char} {cs : List Char}

/-- A number that more digits go on with, as far as they are digits. -/
def numberFrom? (radix acc : Nat) (digits : List Char) : Option Nat :=
  digits.foldlM (fun acc c => (digitOf radix c).map (acc * radix + ·)) acc

theorem numberFrom?_cons : numberFrom? radix acc (c :: cs)
    = (digitOf radix c).bind fun digit => numberFrom? radix (acc * radix + digit) cs := by
  rw [numberFrom?, List.foldlM_cons]
  cases digitOf radix c <;> rfl

theorem numberFrom?_lt (h : numberFrom? radix acc cs = some number) :
    number < (acc + 1) * radix ^ cs.length := by
  induction cs generalizing acc with
  | nil =>
    cases h
    simp
  | cons c cs ih =>
    rw [numberFrom?_cons] at h
    obtain ⟨digit, hdigit, h⟩ := Option.bind_eq_some_iff.1 h
    have hlt := digitOf_lt hdigit
    refine Nat.lt_of_lt_of_le (ih h) ?_
    rw [List.length_cons, Nat.pow_succ', ← Nat.mul_assoc]
    refine Nat.mul_le_mul_right _ ?_
    rw [Nat.add_mul, Nat.one_mul]
    omega

/-- The digits that a number goes on with do not make it smaller. -/
theorem le_of_numberFrom? (h : numberFrom? radix acc cs = some number) : acc ≤ number := by
  induction cs generalizing acc with
  | nil =>
    cases h
    exact Nat.le_refl _
  | cons c cs ih =>
    rw [numberFrom?_cons] at h
    obtain ⟨digit, hdigit, h⟩ := Option.bind_eq_some_iff.1 h
    have hpos : 0 < radix := Nat.zero_lt_of_lt (digitOf_lt hdigit)
    calc acc ≤ acc * radix := Nat.le_mul_of_pos_right _ hpos
      _ ≤ acc * radix + digit := Nat.le_add_right ..
      _ ≤ number := ih h

theorem Writes.nil : Writes radix [] 0 := ⟨[], .nil, rfl⟩

theorem writes_cons : Writes radix (c :: cs) n ↔
    ∃ digit m, digitOf radix c = some digit ∧ Writes radix cs m ∧
      digit * radix ^ cs.length + m = n := by
  constructor
  · rintro ⟨_, _ | ⟨hdigit, hds⟩, rfl⟩
    refine ⟨_, _, hdigit, ⟨_, hds, rfl⟩, ?_⟩
    rw [List.reverse_cons, Nat.ofDigits_append, Nat.ofDigits_singleton, List.length_reverse,
      ← hds.length_eq]
    ring
  · rintro ⟨digit, _, hdigit, ⟨ds, hds, rfl⟩, rfl⟩
    refine ⟨digit :: ds, .cons hdigit hds, ?_⟩
    rw [List.reverse_cons, Nat.ofDigits_append, Nat.ofDigits_singleton, List.length_reverse,
      ← hds.length_eq]
    ring

theorem Writes.zero_cons (hradix : 0 < radix) (h : Writes radix cs n) : Writes radix ('0' :: cs) n :=
  writes_cons.2 ⟨0, n, digitOf_zero hradix, h, by omega⟩

/-- Zeros in front do not count. -/
theorem Writes.zeros_append {zeros : Nat} (hradix : 0 < radix) (h : Writes radix cs n) :
    Writes radix (List.replicate zeros '0' ++ cs) n := by
  induction zeros with
  | zero => exact h
  | succ zeros ih => exact ih.zero_cons hradix

theorem numberFrom?_eq_some_iff : numberFrom? radix acc cs = some n ↔
    ∃ m, Writes radix cs m ∧ acc * radix ^ cs.length + m = n := by
  induction cs generalizing acc with
  | nil =>
    constructor
    · rintro ⟨⟩
      exact ⟨0, .nil, by simp⟩
    · rintro ⟨_, ⟨_, ⟨⟩, rfl⟩, rfl⟩
      simp [numberFrom?]
  | cons c cs ih =>
    rw [numberFrom?_cons, Option.bind_eq_some_iff]
    simp only [ih, writes_cons, List.length_cons, Nat.pow_succ]
    constructor
    · rintro ⟨digit, hdigit, m, hm, rfl⟩
      exact ⟨_, ⟨digit, m, hdigit, hm, rfl⟩, by ring⟩
    · rintro ⟨_, ⟨digit, m, hdigit, hm, rfl⟩, rfl⟩
      exact ⟨digit, hdigit, m, hm, by ring⟩

/-- Digits are read as the number that they write. -/
theorem numberOf?_eq_some_iff : numberOf? radix cs = some n ↔ Writes radix cs n := by
  have hfrom : numberOf? radix cs = numberFrom? radix 0 cs := rfl
  rw [hfrom, numberFrom?_eq_some_iff]
  simp

theorem Writes.unique (h : Writes radix cs n) (h' : Writes radix cs m) : n = m :=
  Option.some.inj ((numberOf?_eq_some_iff.2 h).symm.trans (numberOf?_eq_some_iff.2 h'))

/-- A number is smaller than the power of the radix for as many digits. -/
theorem Writes.lt (h : Writes radix cs n) : n < radix ^ cs.length := by
  have hlt := numberFrom?_lt (numberOf?_eq_some_iff.2 h)
  simpa using hlt

theorem Writes.isSome_digitOf (h : Writes radix cs n) : ∀ c ∈ cs, (digitOf radix c).isSome := by
  obtain ⟨ds, hds, -⟩ := h
  intro c hc
  induction hds with
  | nil => cases hc
  | cons hdigit _ ih =>
    cases hc with
    | head => rw [hdigit]; rfl
    | tail _ hc => exact ih hc

theorem exists_writes (h : ∀ c ∈ cs, (digitOf radix c).isSome) : ∃ n, Writes radix cs n := by
  induction cs with
  | nil => exact ⟨0, .nil⟩
  | cons c cs ih =>
    obtain ⟨digit, hdigit⟩ := Option.isSome_iff_exists.1 (h c List.mem_cons_self)
    obtain ⟨m, hm⟩ := ih fun d hd => h d (List.mem_cons_of_mem _ hd)
    exact ⟨_, writes_cons.2 ⟨digit, m, hdigit, hm, rfl⟩⟩

end

end Estree
