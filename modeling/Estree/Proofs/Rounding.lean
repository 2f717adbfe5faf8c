import Estree.Number.Literal
import Estree.Proofs.Digit
import Estree.Proofs.Number
import Mathlib.Data.Nat.Dist
import Mathlib.Order.Bounds.Defs

/-!
# Literals of another radix, rounded

A binary, octal or hexadecimal literal grows by one digit at a time, and each step is rounded to 53
bits. As long as the number has no more bits nothing is lost. The first step that loses bits rounds
the digits so far (`Double.Grown`), and no later digit makes a difference: it is less than half the
distance between neighbouring doubles. So the literal is the nearest double, unless the digits that
were rounded lie halfway between two doubles and a digit behind them should have broken the tie
(`Double.Lost`).
-/

namespace Estree

namespace Double

/-! ## Correct rounding -/

/-- A number of at most so many significant bits. -/
def HasBits (bits n : Nat) : Prop := ∃ m e, m < 2 ^ bits ∧ n = m * 2 ^ e

/-- A natural number is a double. -/
def Exact (n : Nat) : Prop := HasBits 53 n ∧ n < 2 ^ 1024

/-- A double is nearest to a natural number. Of two that are equally near it is the one whose last
bit is zero. -/
structure Nearest (n v : Nat) : Prop where
  exact : Exact v
  nearest : ∀ w, Exact w → Nat.dist n v ≤ Nat.dist n w
  even : ∀ w, Exact w → Nat.dist n w = Nat.dist n v → w ≠ v → HasBits 52 v

/-- A natural number lies halfway between two doubles, and the lower one is nearest to it. -/
def Halfway (n : Nat) : Prop :=
  ∃ v w, Nearest n v ∧ Exact w ∧ v < w ∧ Nat.dist n w = Nat.dist n v

/-- Leading digits of a number lie halfway between two doubles, and the others are not all zero. -/
def Lost (radix n : Nat) : Prop := ∃ k, Halfway (n / radix ^ k) ∧ n % radix ^ k ≠ 0

/-! ## Normal forms -/

/-- A natural number rounded to 53 bits. -/
def round (n : Nat) : Nat := nearestMultiple (spacing n) n 1

/-- A number of 53 bits or more as its first 53 bits and the rest. -/
structure Normal (n q a r : Nat) : Prop where
  low : 2 ^ 52 ≤ q
  high : q < 2 ^ 53
  rest : r < 2 ^ a
  eq : n = q * 2 ^ a + r

/-- What the first 53 bits become if the rest is rounded off. -/
def rounded (q a r : Nat) : Nat :=
  if 2 * r < 2 ^ a then q else if 2 ^ a < 2 * r then q + 1 else q + q % 2

section

variable {n m q a r d e i j k v w : Nat}

theorem rounded_bounds (q a r : Nat) : q ≤ rounded q a r ∧ rounded q a r ≤ q + 1 := by
  unfold rounded
  split
  · omega
  · split <;> omega

theorem exists_normal (h : 2 ^ 52 ≤ n) : ∃ q a r, Normal n q a r := by
  have hne : n ≠ 0 := by omega
  have hlog : 52 ≤ n.log2 := (Nat.le_log2 hne).2 h
  have hpos : 0 < 2 ^ (n.log2 - 52) := Nat.two_pow_pos _
  refine ⟨n / 2 ^ (n.log2 - 52), n.log2 - 52, n % 2 ^ (n.log2 - 52), ?_, ?_, Nat.mod_lt _ hpos,
    (Nat.div_add_mod' ..).symm⟩
  · rw [Nat.le_div_iff_mul_le hpos, ← Nat.pow_add, Nat.add_sub_cancel' hlog]
    exact Nat.log2_self_le hne
  · have hexp : 53 + (n.log2 - 52) = n.log2 + 1 := by omega
    rw [Nat.div_lt_iff_lt_mul hpos, ← Nat.pow_add, hexp]
    exact Nat.lt_log2_self

namespace Normal

variable (h : Normal n q a r)
include h

theorem pow_le : 2 ^ (52 + a) ≤ n :=
  calc 2 ^ (52 + a) = 2 ^ 52 * 2 ^ a := Nat.pow_add ..
    _ ≤ q * 2 ^ a := Nat.mul_le_mul_right _ h.low
    _ ≤ n := h.eq ▸ Nat.le_add_right ..

theorem lt_pow : n < 2 ^ (53 + a) :=
  calc n < q * 2 ^ a + 2 ^ a := h.eq ▸ Nat.add_lt_add_left h.rest _
    _ = (q + 1) * 2 ^ a := (Nat.succ_mul ..).symm
    _ ≤ 2 ^ 53 * 2 ^ a := Nat.mul_le_mul_right _ h.high
    _ = 2 ^ (53 + a) := (Nat.pow_add ..).symm

theorem exponent_pos (hn : 2 ^ 53 ≤ n) : 1 ≤ a := by
  by_contra ha
  have hlt := h.lt_pow
  rw [Nat.lt_one_iff.1 (Nat.not_le.1 ha)] at hlt
  exact absurd hn (Nat.not_le.2 hlt)

theorem spacing_eq : spacing n = 2 ^ a := by
  have hne : n ≠ 0 := Nat.ne_of_gt (Nat.lt_of_lt_of_le (Nat.two_pow_pos _) h.pow_le)
  have hlog : n.log2 = 52 + a := by
    refine (Nat.log2_eq_iff hne).2 ⟨h.pow_le, ?_⟩
    have hexp : 52 + a + 1 = 53 + a := by omega
    rw [hexp]
    exact h.lt_pow
  show 2 ^ (n.log2 - 52) = 2 ^ a
  rw [hlog, Nat.add_sub_cancel_left]

theorem round_eq : round n = rounded q a r * 2 ^ a := by
  have hsum : r + 2 ^ a * q = n := by rw [h.eq, Nat.mul_comm, Nat.add_comm]
  obtain ⟨hdiv, hmod⟩ := (Nat.div_mod_unique (Nat.two_pow_pos a)).2 ⟨hsum, h.rest⟩
  simp only [round, nearestMultiple, h.spacing_eq, Nat.one_mul, hdiv, hmod, rounded]
  split
  · rfl
  · split <;> rfl

/-- With more bits behind it a number has the same first bits. -/
theorem append (ht : d < 2 ^ j) : Normal (n * 2 ^ j + d) q (a + j) (r * 2 ^ j + d) where
  low := h.low
  high := h.high
  rest := calc r * 2 ^ j + d < r * 2 ^ j + 2 ^ j := Nat.add_lt_add_left ht _
    _ = (r + 1) * 2 ^ j := (Nat.succ_mul ..).symm
    _ ≤ 2 ^ a * 2 ^ j := Nat.mul_le_mul_right _ h.rest
    _ = 2 ^ (a + j) := (Nat.pow_add ..).symm
  eq := by rw [h.eq, Nat.pow_add]; ring

end Normal

/-! ## Doubles around a number -/

theorem exact_mul_pow (hm : m ≤ 2 ^ 53) (he : e ≤ 970) : Exact (m * 2 ^ e) := by
  constructor
  · rcases Nat.lt_or_eq_of_le hm with hlt | rfl
    · exact ⟨m, e, hlt, rfl⟩
    · exact ⟨2 ^ 52, e + 1, by decide, by rw [Nat.pow_succ']; ring⟩
  · have hlt (k : Nat) (hk : 53 + e < k) : m * 2 ^ e < 2 ^ k := mul_pow_lt hm hk
    exact hlt 1024 (by omega)

theorem exact_of_lt (h : n < 2 ^ 53) : Exact n := by
  have hexact := exact_mul_pow (e := 0) (Nat.le_of_lt h) (Nat.zero_le _)
  rwa [Nat.pow_zero, Nat.mul_one] at hexact

/-- The last of 53 bits is zero exactly if 52 bits suffice. -/
theorem hasBits_iff (hlow : 2 ^ 52 ≤ q) (hhigh : q ≤ 2 ^ 53) :
    HasBits 52 (q * 2 ^ a) ↔ q % 2 = 0 := by
  constructor
  · rintro ⟨m, e, hm, heq⟩
    have hlt := calc 2 ^ (52 + a) = 2 ^ 52 * 2 ^ a := Nat.pow_add ..
      _ ≤ q * 2 ^ a := Nat.mul_le_mul_right _ hlow
      _ = m * 2 ^ e := heq
      _ < 2 ^ 52 * 2 ^ e := Nat.mul_lt_mul_of_pos_right hm (Nat.two_pow_pos e)
      _ = 2 ^ (52 + e) := (Nat.pow_add ..).symm
    have hexp : 52 + a < 52 + e := (Nat.pow_lt_pow_iff_right Nat.one_lt_two).1 hlt
    have hdvd : 2 * 2 ^ a ∣ q * 2 ^ a := by
      rw [heq, ← Nat.pow_succ']
      exact Nat.dvd_mul_left_of_dvd (Nat.pow_dvd_pow 2 (by omega)) m
    exact Nat.mod_eq_zero_of_dvd (Nat.dvd_of_mul_dvd_mul_right (Nat.two_pow_pos a) hdvd)
  · intro heven
    obtain ⟨t, rfl⟩ := Nat.dvd_of_mod_eq_zero heven
    rcases Nat.lt_or_ge t (2 ^ 52) with hlt | hge
    · exact ⟨t, a + 1, hlt, by rw [Nat.pow_succ']; ring⟩
    · obtain rfl : t = 2 ^ 52 := by omega
      exact ⟨2 ^ 51, a + 2, by decide, by rw [Nat.pow_add]; ring⟩

namespace Normal

variable (h : Normal n q a r)
include h

/-- There is no double between the first 53 bits of a number and the next number of 53 bits. -/
theorem gap (hw : HasBits 53 w) : w ≤ q * 2 ^ a ∨ q * 2 ^ a + 2 ^ a ≤ w := by
  refine (Nat.lt_or_ge (q * 2 ^ a) w).symm.imp_right fun hlt => ?_
  obtain ⟨m, e, hm, rfl⟩ := hw
  have hlt' := calc 2 ^ (52 + a) = 2 ^ 52 * 2 ^ a := Nat.pow_add ..
    _ ≤ q * 2 ^ a := Nat.mul_le_mul_right _ h.low
    _ < m * 2 ^ e := hlt
    _ ≤ 2 ^ 53 * 2 ^ e := Nat.mul_le_mul_right _ (Nat.le_of_lt hm)
    _ = 2 ^ (53 + e) := (Nat.pow_add ..).symm
  have hexp : 52 + a < 53 + e := (Nat.pow_lt_pow_iff_right Nat.one_lt_two).1 hlt'
  obtain ⟨t, ht⟩ : 2 ^ a ∣ m * 2 ^ e :=
    Nat.dvd_mul_left_of_dvd (Nat.pow_dvd_pow 2 (by omega)) m
  rw [ht, Nat.mul_comm _ t] at hlt ⊢
  rw [← Nat.succ_mul]
  exact Nat.mul_le_mul_right _ (Nat.lt_of_mul_lt_mul_right hlt)

theorem exponent_lt (hn : n < 2 ^ k) : 52 + a < k :=
  (Nat.pow_lt_pow_iff_right Nat.one_lt_two).1 (Nat.lt_of_le_of_lt h.pow_le hn)

/-- What the first 53 bits of a number stand for and the next number of 53 bits are doubles. -/
theorem exact_next (hn : n < 2 ^ 1023) : Exact (q * 2 ^ a) ∧ Exact (q * 2 ^ a + 2 ^ a) := by
  have ha : a ≤ 970 := by
    have := h.exponent_lt hn
    omega
  refine ⟨exact_mul_pow (Nat.le_of_lt h.high) ha, ?_⟩
  rw [← Nat.succ_mul]
  exact exact_mul_pow h.high ha

/-- A number is below the middle between its neighbours, above it or in it. -/
theorem round_cases :
    2 * r < 2 ^ a ∧ round n = q * 2 ^ a ∨ 2 ^ a < 2 * r ∧ round n = q * 2 ^ a + 2 ^ a ∨
      2 * r = 2 ^ a ∧ round n = (q + q % 2) * 2 ^ a := by
  rw [h.round_eq, rounded]
  split
  case isTrue hlt => exact .inl ⟨hlt, rfl⟩
  case isFalse hge =>
    split
    case isTrue hlt => exact .inr (.inl ⟨hlt, Nat.succ_mul ..⟩)
    case isFalse hle => exact .inr (.inr ⟨by omega, rfl⟩)

/-- Of the doubles next to a number the one on its side of the middle is nearest. -/
theorem nearest_of_side (hv : Exact v)
    (hside : 2 * r < 2 ^ a ∧ v = q * 2 ^ a ∨ 2 ^ a < 2 * r ∧ v = q * 2 ^ a + 2 ^ a) :
    Nearest n v := by
  have heq := h.eq
  have hrest := h.rest
  refine ⟨hv, fun w hw => ?_, fun w hw hdist hne => ?_⟩
  all_goals
    have hgap := h.gap hw.1
    unfold Nat.dist at *
    omega

theorem nearest_round (hn : n < 2 ^ 1023) : Nearest n (round n) := by
  obtain ⟨hlower, hupper⟩ := h.exact_next hn
  rcases h.round_cases with ⟨hr, hround⟩ | ⟨hr, hround⟩ | ⟨hr, hround⟩
  · exact h.nearest_of_side (hround ▸ hlower) (.inl ⟨hr, hround⟩)
  · exact h.nearest_of_side (hround ▸ hupper) (.inr ⟨hr, hround⟩)
  · have heq := h.eq
    have hnext : round n = q * 2 ^ a ∨ round n = q * 2 ^ a + 2 ^ a := by
      rw [hround, Nat.add_mul]
      rcases Nat.mod_two_eq_zero_or_one q with hq | hq
      · exact .inl (by rw [hq, Nat.zero_mul, Nat.add_zero])
      · exact .inr (by rw [hq, Nat.one_mul])
    refine ⟨?_, fun w hw => ?_, fun w hw hdist hne => ?_⟩
    · rcases hnext with hnext | hnext <;> rwa [hnext]
    · have hgap := h.gap hw.1
      unfold Nat.dist
      omega
    · have hlow := h.low
      have hhigh := h.high
      rw [hround, hasBits_iff (by omega) (by omega)]
      omega

/-- A number lies halfway between two doubles and goes to the lower one. -/
theorem halfway_iff (hn : n < 2 ^ 1023) : Halfway n ↔ 2 * r = 2 ^ a ∧ q % 2 = 0 := by
  obtain ⟨hlower, hupper⟩ := h.exact_next hn
  have heq := h.eq
  have hrest := h.rest
  constructor
  · rintro ⟨v, w, hnearest, hw, hlt, hdist⟩
    have hv := h.gap hnearest.exact.1
    have hw' := h.gap hw.1
    have hle := hnearest.nearest _ hlower
    have hle' := hnearest.nearest _ hupper
    have hmiddle : 2 * r = 2 ^ a ∧ v = q * 2 ^ a := by
      unfold Nat.dist at *
      omega
    obtain ⟨hr, rfl⟩ := hmiddle
    have hbits := hnearest.even w hw hdist (Nat.ne_of_gt hlt)
    exact ⟨hr, (hasBits_iff h.low (Nat.le_of_lt h.high)).1 hbits⟩
  · rintro ⟨hr, hq⟩
    have hround : round n = q * 2 ^ a := by
      rw [h.round_eq, rounded, if_neg (by omega), if_neg (by omega), hq, Nat.add_zero]
    refine ⟨_, _, hround ▸ h.nearest_round hn, hupper, ?_, ?_⟩
    · exact Nat.lt_add_of_pos_right (Nat.two_pow_pos a)
    · unfold Nat.dist
      omega

end Normal

/-! ## Rounding -/

/-- A number of at most 53 bits is rounded to itself. -/
theorem round_of_lt (h : n < 2 ^ 53) : round n = n := by
  have hdvd : spacing n ∣ n := by simpa using spacing_dvd (e := 0) (Nat.le_of_lt h)
  exact nearestMultiple_of_dvd (spacing_pos n) hdvd

theorem exists_normal_of_le (h : 2 ^ 53 ≤ n) : ∃ q a r, 1 ≤ a ∧ Normal n q a r := by
  obtain ⟨q, a, r, hnormal⟩ := exists_normal (Nat.le_trans (by decide) h)
  exact ⟨q, a, r, hnormal.exponent_pos h, hnormal⟩

theorem nearest_round (hn : n < 2 ^ 1023) : Nearest n (round n) := by
  rcases Nat.lt_or_ge n (2 ^ 53) with hlt | hge
  · rw [round_of_lt hlt]
    refine ⟨exact_of_lt hlt, fun w _ => ?_, fun w _ hdist hne => ?_⟩
    · rw [Nat.dist_self]
      exact Nat.zero_le _
    · rw [Nat.dist_self] at hdist
      exact absurd (Nat.eq_of_dist_eq_zero hdist).symm hne
  · obtain ⟨q, a, r, -, h⟩ := exists_normal_of_le hge
    exact h.nearest_round hn

theorem not_halfway (h : n < 2 ^ 53) : ¬Halfway n := by
  rintro ⟨v, w, hnearest, -, hlt, hdist⟩
  have hself := hnearest.nearest n (exact_of_lt h)
  unfold Nat.dist at *
  omega

theorem round_le (n : Nat) : round n ≤ 2 * n := by
  rcases Nat.lt_or_ge n (2 ^ 53) with hlt | hge
  · rw [round_of_lt hlt]
    omega
  · obtain ⟨q, a, r, -, h⟩ := exists_normal_of_le hge
    have hq : rounded q a r ≤ 2 * q := by
      have hlow := h.low
      have hbounds := rounded_bounds q a r
      omega
    calc round n = rounded q a r * 2 ^ a := h.round_eq
      _ ≤ 2 * q * 2 ^ a := Nat.mul_le_mul_right _ hq
      _ = 2 * (q * 2 ^ a) := Nat.mul_assoc ..
      _ ≤ 2 * n := Nat.mul_le_mul_left _ (h.eq ▸ Nat.le_add_right ..)

/-- A number of more than 53 bits becomes one that has zeros behind its first 53 bits. -/
theorem normal_round (hn : 2 ^ 53 ≤ n) : ∃ q a, 1 ≤ a ∧ Normal (round n) q a 0 := by
  obtain ⟨q, a, r, ha, h⟩ := exists_normal_of_le hn
  have hlow := h.low
  have hhigh := h.high
  have hbounds := rounded_bounds q a r
  rw [h.round_eq]
  rcases Nat.lt_or_ge (rounded q a r) (2 ^ 53) with hlt | hge
  · exact ⟨_, a, ha, by omega, hlt, Nat.two_pow_pos a, rfl⟩
  · have hcarry : rounded q a r = 2 ^ 53 := by omega
    rw [hcarry]
    exact ⟨2 ^ 52, a + 1, by omega, by decide, by decide, Nat.two_pow_pos _, by
      rw [Nat.pow_succ']; ring⟩

/-- A digit behind a number that has lost bits is too small to make a difference. -/
theorem round_append (hm : 2 ^ 53 ≤ m) (hd : d < 2 ^ i) :
    round (round m * 2 ^ j * 2 ^ i + d) = round m * 2 ^ j * 2 ^ i := by
  obtain ⟨q, a, ha, h⟩ := normal_round hm
  have happend : Normal (round m * 2 ^ j * 2 ^ i + d) q (a + j + i) d := by
    simpa using (h.append (Nat.two_pow_pos j)).append hd
  have hsmall : 2 * d < 2 ^ (a + j + i) :=
    calc 2 * d < 2 * 2 ^ i := by omega
      _ = 2 ^ (i + 1) := Nat.pow_succ'.symm
      _ ≤ 2 ^ (a + j + i) := Nat.pow_le_pow_right Nat.two_pos (by omega)
  have hround : round m = q * 2 ^ a := h.eq
  rw [happend.round_eq, rounded, if_pos hsmall, hround, Nat.pow_add, Nat.pow_add]
  ring

/-! ## Growing digit by digit -/

/-- What the digits of a number have grown to: the number, and once it has more than 53 bits, the
leading digits that first had more, rounded, with zeros in place of the others. -/
inductive Grown (radix n : Nat) : Nat → Prop
  | whole : n < 2 ^ 53 → Grown radix n n
  | leading (k : Nat) : 2 ^ 53 ≤ n / radix ^ k → n / radix ^ (k + 1) < 2 ^ 53 →
    Grown radix n (round (n / radix ^ k) * radix ^ k)

namespace Grown

variable {radix : Nat}

/-- One more digit. -/
theorem step (h : Grown radix n v) (hradix : radix = 2 ^ i) (hd : d < radix) :
    Grown radix (n * radix + d) (round (v * radix + d)) := by
  have hlead (k : Nat) : (n * radix + d) / radix ^ (k + 1) = n / radix ^ k := by
    have hdiv : (n * radix + d) / radix = n :=
      ((Nat.div_mod_unique (Nat.zero_lt_of_lt hd)).2 ⟨by ring, hd⟩).1
    rw [Nat.pow_succ', ← Nat.div_div_eq_div_mul, hdiv]
  cases h with
  | whole hn =>
    rcases Nat.lt_or_ge (n * radix + d) (2 ^ 53) with hlt | hge
    · rw [round_of_lt hlt]
      exact .whole hlt
    · have hgrown := @Grown.leading radix (n * radix + d) 0 (by simpa using hge)
        (by rw [hlead, Nat.pow_zero, Nat.div_one]; exact hn)
      simpa using hgrown
  | leading k hge hlt =>
    have hround : round (round (n / radix ^ k) * radix ^ k * radix + d)
        = round (n / radix ^ k) * radix ^ (k + 1) := by
      rw [hradix] at hge hd ⊢
      rw [← Nat.pow_mul] at hge ⊢
      rw [round_append hge hd, Nat.mul_assoc, Nat.pow_succ, Nat.pow_mul]
    rw [hround, ← hlead]
    exact .leading (k + 1) (hlead k ▸ hge) (hlead (k + 1) ▸ hlt)

theorem le (h : Grown radix n v) : v ≤ 2 * n := by
  cases h with
  | whole => omega
  | leading k =>
    calc round (n / radix ^ k) * radix ^ k ≤ 2 * (n / radix ^ k) * radix ^ k :=
        Nat.mul_le_mul_right _ (round_le _)
      _ = 2 * (n / radix ^ k * radix ^ k) := Nat.mul_assoc ..
      _ ≤ 2 * n := Nat.mul_le_mul_left _ (Nat.div_mul_le_self ..)

theorem lt_pow (h : Grown radix n v) (hn : n < 2 ^ k) (hk : k < j) : v < 2 ^ j :=
  calc v ≤ 2 * n := h.le
    _ < 2 * 2 ^ k := by omega
    _ = 2 ^ (k + 1) := Nat.pow_succ'.symm
    _ ≤ 2 ^ j := Nat.pow_le_pow_right Nat.two_pos hk

end Grown

/-! ## Lost digits -/

/-- Bits behind the rest of a number only matter if the rest alone is a half. -/
theorem compare_append (ha : 1 ≤ a) (hd : d < 2 ^ j) :
    2 * r < 2 ^ a ∧ 2 * (r * 2 ^ j + d) < 2 ^ (a + j) ∨
      2 ^ a < 2 * r ∧ 2 ^ (a + j) < 2 * (r * 2 ^ j + d) ∨
      2 * r = 2 ^ a ∧ 2 * (r * 2 ^ j + d) = 2 ^ (a + j) + 2 * d := by
  obtain ⟨b, rfl⟩ : ∃ b, a = b + 1 := ⟨a - 1, by omega⟩
  have hhalf : 2 ^ (b + 1) = 2 * 2 ^ b := Nat.pow_succ'
  have hwhole : 2 ^ (b + 1 + j) = 2 * (2 ^ b * 2 ^ j) := by rw [Nat.pow_add, hhalf, Nat.mul_assoc]
  rw [hhalf, hwhole]
  rcases Nat.lt_trichotomy r (2 ^ b) with hlt | rfl | hgt
  · have hmul : (r + 1) * 2 ^ j ≤ 2 ^ b * 2 ^ j := Nat.mul_le_mul_right _ hlt
    rw [Nat.succ_mul] at hmul
    omega
  · omega
  · have hmul : (2 ^ b + 1) * 2 ^ j ≤ r * 2 ^ j := Nat.mul_le_mul_right _ hgt
    rw [Nat.succ_mul] at hmul
    omega

namespace Normal

variable (h : Normal m q a r) (ha : 1 ≤ a) (hd : d < 2 ^ j)
include h ha hd

/-- Bits behind a number do not change how it is rounded, unless it goes down from a half. -/
theorem round_append_eq (hkept : ¬((2 * r = 2 ^ a ∧ q % 2 = 0) ∧ d ≠ 0)) :
    round (m * 2 ^ j + d) = round m * 2 ^ j := by
  have hcompare := compare_append (r := r) ha hd
  have hrounded : rounded q (a + j) (r * 2 ^ j + d) = rounded q a r := by
    unfold rounded
    split_ifs <;> omega
  rw [(h.append hd).round_eq, hrounded, h.round_eq, Nat.mul_assoc, Nat.pow_add]

/-- Bits behind a number that goes down from a half make the upper double the nearest one. -/
theorem append_lost (hn : m * 2 ^ j + d < 2 ^ 1023) (hr : 2 * r = 2 ^ a) (hq : q % 2 = 0)
    (hne : d ≠ 0) : ¬Nearest (m * 2 ^ j + d) (round m * 2 ^ j) ∧
      IsGreatest {w | Exact w ∧ w ≤ m * 2 ^ j + d} (round m * 2 ^ j) := by
  have happend := h.append hd
  have heq := happend.eq
  have hrest := happend.rest
  have hcompare := compare_append (r := r) ha hd
  have hlow : round m * 2 ^ j = q * 2 ^ (a + j) := by
    rw [h.round_eq, rounded, if_neg (by omega), if_neg (by omega), hq, Nat.add_zero,
      Nat.mul_assoc, Nat.pow_add]
  obtain ⟨hlower, hupper⟩ := happend.exact_next hn
  rw [hlow]
  refine ⟨fun hnearest => ?_, ⟨hlower, by omega⟩, ?_⟩
  · have hle := hnearest.nearest _ hupper
    unfold Nat.dist at hle
    omega
  · rintro w ⟨hw, hwle⟩
    have hgap := happend.gap hw.1
    omega

end Normal

section

variable {radix : Nat} (hradix : radix = 2 ^ i) (hn : n < 2 ^ 1023)
include hradix hn

/-- If any leading digits lie halfway between two doubles, those do that first have more than 53
bits. -/
theorem lost_iff (hge : 2 ^ 53 ≤ n / radix ^ k) (hlt : n / radix ^ (k + 1) < 2 ^ 53) :
    Lost radix n ↔ Halfway (n / radix ^ k) ∧ n % radix ^ k ≠ 0 := by
  have hlead (l : Nat) : n / 2 ^ l < 2 ^ 1023 := Nat.lt_of_le_of_lt (Nat.div_le_self ..) hn
  simp only [Lost, hradix, ← Nat.pow_mul] at hge hlt ⊢
  constructor
  · rintro ⟨l, hhalfway, hrest⟩
    rcases Nat.lt_trichotomy l k with hl | rfl | hl
    · obtain ⟨j, rfl⟩ := Nat.exists_eq_add_of_le (Nat.le_of_lt hl)
      rw [Nat.mul_add] at hge ⊢
      refine ⟨?_, fun hzero => hrest ?_⟩
      · obtain ⟨q, a, r, ha, h⟩ := exists_normal_of_le hge
        have hmod : n / 2 ^ (i * l) % 2 ^ (i * j) < 2 ^ (i * j) := Nat.mod_lt _ (Nat.two_pow_pos _)
        have happend := h.append hmod
        rw [Nat.pow_add, ← Nat.div_div_eq_div_mul, Nat.div_add_mod'] at happend
        have htie := (happend.halfway_iff (hlead _)).1 hhalfway
        have hcompare := compare_append (r := r) ha hmod
        exact (h.halfway_iff (hlead _)).2 ⟨by omega, htie.2⟩
      · rw [Nat.pow_add] at hzero
        exact Nat.mod_eq_zero_of_dvd (dvd_of_mul_right_dvd (Nat.dvd_of_mod_eq_zero hzero))
    · exact ⟨hhalfway, hrest⟩
    · refine absurd hhalfway (not_halfway (Nat.lt_of_le_of_lt ?_ hlt))
      exact Nat.div_le_div_left (Nat.pow_le_pow_right Nat.two_pos (Nat.mul_le_mul_left i hl))
        (Nat.two_pow_pos _)
  · rintro ⟨hhalfway, hrest⟩
    exact ⟨k, hhalfway, hrest⟩

/-- What digits grow to is the nearest double unless digits are lost, and then it is the next double
below. -/
theorem Grown.nearest_iff (h : Grown radix n v) : (Nearest n v ↔ ¬Lost radix n) ∧
    (Lost radix n → IsGreatest {w | Exact w ∧ w ≤ n} v) := by
  cases h with
  | whole hlt =>
    have hlost : ¬Lost radix n := by
      rintro ⟨k, hhalfway, -⟩
      exact not_halfway (Nat.lt_of_le_of_lt (Nat.div_le_self ..) hlt) hhalfway
    have hnearest := nearest_round hn
    rw [round_of_lt hlt] at hnearest
    exact ⟨iff_of_true hnearest hlost, fun h => absurd h hlost⟩
  | leading k hge hlt =>
    rw [lost_iff hradix hn hge hlt]
    rw [hradix, ← Nat.pow_mul] at hge ⊢
    obtain ⟨q, a, r, ha, hlead⟩ := exists_normal_of_le hge
    have hmod : n % 2 ^ (i * k) < 2 ^ (i * k) := Nat.mod_lt _ (Nat.two_pow_pos _)
    have hsum : n / 2 ^ (i * k) * 2 ^ (i * k) + n % 2 ^ (i * k) = n := Nat.div_add_mod' ..
    rw [hlead.halfway_iff (Nat.lt_of_le_of_lt (Nat.div_le_self ..) hn)]
    by_cases hlost : (2 * r = 2 ^ a ∧ q % 2 = 0) ∧ n % 2 ^ (i * k) ≠ 0
    · obtain ⟨⟨hr, hq⟩, hrest⟩ := hlost
      obtain ⟨hnot, hgreatest⟩ := hlead.append_lost ha hmod (hsum.symm ▸ hn) hr hq hrest
      rw [hsum] at hnot hgreatest
      exact ⟨iff_of_false hnot (not_not_intro ⟨⟨hr, hq⟩, hrest⟩), fun _ => hgreatest⟩
    · have hround := hlead.round_append_eq ha hmod hlost
      rw [hsum] at hround
      exact ⟨iff_of_true (hround ▸ nearest_round hn) hlost, fun h => absurd h hlost⟩

end

/-! ## Units -/

/-- A natural number as a double is the number rounded to 53 bits. -/
theorem ofRatio_natural (h : round n < 2 ^ 1024) :
    ofRatio false n 1 = finite false (round n * one) := by
  rcases Nat.lt_or_ge n (2 ^ 53) with hlt | hge
  · rw [round_of_lt hlt]
    exact ofRatio_one (Nat.le_of_lt hlt)
  · obtain ⟨q, a, r, ha, hnormal⟩ := exists_normal_of_le hge
    obtain ⟨e, k, hone, hlimit, hk⟩ := exists_exponents
    have hround : round (n * Nat.pow 2 e) = round n * Nat.pow 2 e := by
      simpa using hnormal.round_append_eq (d := 0) ha (Nat.two_pow_pos e) (by simp)
    have hsmall : round (n * Nat.pow 2 e) < Nat.pow 2 k :=
      calc round (n * Nat.pow 2 e) = round n * 2 ^ e := hround
        _ < 2 ^ 1024 * 2 ^ e := Nat.mul_lt_mul_of_pos_right h (Nat.two_pow_pos e)
        _ = 2 ^ k := by rw [hk, Nat.pow_add, Nat.mul_comm]
    rw [ofRatio, ofUnits, Nat.div_one, hone, hlimit, ← hround]
    exact if_pos hsmall

theorem appendDigit_eq {radix : Nat} (h : round (v * radix + d) < 2 ^ 1024) :
    appendDigit radix (finite false (v * one)) d
      = finite false (round (v * radix + d) * one) := by
  have hunits (unit : Nat) : v * unit * radix + d * unit = (v * radix + d) * unit := by ring
  rw [← ofRatio_natural h, ofRatio, appendDigit, hunits]

/-- Digits that go on with a number make it grow. -/
theorem Grown.run {radix : Nat} {cs : List Char} (hradix : radix = 2 ^ i) (h : Grown radix n v)
    (hm : numberFrom? radix n cs = some m) (hlt : m < 2 ^ 1023) :
    ∃ w, cs.foldlM (fun acc c => (digitOf radix c).map (appendDigit radix acc))
      (finite false (v * one)) = some (finite false (w * one)) ∧ Grown radix m w := by
  induction cs generalizing n v with
  | nil =>
    cases hm
    exact ⟨v, rfl, h⟩
  | cons c cs ih =>
    rw [numberFrom?_cons] at hm
    obtain ⟨digit, hdigit, hm⟩ := Option.bind_eq_some_iff.1 hm
    have hstep := h.step hradix (digitOf_lt hdigit)
    have hstep_lt := Nat.lt_of_le_of_lt (le_of_numberFrom? hm) hlt
    have hround := hstep.lt_pow hstep_lt (by decide : 1023 < 1024)
    rw [List.foldlM_cons, hdigit, Option.map_some, appendDigit_eq hround]
    exact ih hstep hm

end

end Double

namespace NumericLiteral

variable {radix : Nat} {cs : List Char}

theorem ofDigits?_eq_none_iff :
    ofDigits? radix cs = none ↔ cs = [] ∨ ∃ c ∈ cs, digitOf radix c = none := by
  have hfold (acc : Double) :
      cs.foldlM (fun acc c => (digitOf radix c).map (acc.appendDigit radix)) acc = none ↔
        ∃ c ∈ cs, digitOf radix c = none := by
    induction cs generalizing acc with
    | nil => simp
    | cons c cs ih =>
      rw [List.foldlM_cons]
      cases hc : digitOf radix c with
      | none => simp [hc]
      | some digit => simpa [hc] using ih _
  unfold ofDigits?
  cases cs with
  | nil => simp
  | cons c cs => simpa using hfold _

/-- **Literals of another radix are rounded to the nearest double, unless digits are lost.** Digits
have a value exactly if there are any and all are digits of the radix. The value is the double nearest
to the number that they write, ties to even, unless leading digits lie halfway between two doubles and
the others are not all zero: each digit is rounded, so these are lost, and the value is the next double
below. -/
theorem ofDigits?_nearest (hradix : radix ∈ [2, 8, 16]) :
    (ofDigits? radix cs = none ↔ cs = [] ∨ ∃ c ∈ cs, digitOf radix c = none) ∧
    ∀ n, cs ≠ [] → Writes radix cs n → n < 2 ^ 1023 →
      ∃ v, ofDigits? radix cs = some (.finite false (v * Double.one)) ∧
        (Double.Nearest n v ↔ ¬Double.Lost radix n) ∧
        (Double.Lost radix n → IsGreatest {w | Double.Exact w ∧ w ≤ n} v) := by
  obtain ⟨i, hpow⟩ : ∃ i, radix = 2 ^ i := by
    have hcases : radix = 2 ∨ radix = 8 ∨ radix = 16 := by simpa using hradix
    rcases hcases with rfl | rfl | rfl
    · exact ⟨1, rfl⟩
    · exact ⟨3, rfl⟩
    · exact ⟨4, rfl⟩
  refine ⟨ofDigits?_eq_none_iff, fun n hne hwrites hn => ?_⟩
  have hnumber : numberFrom? radix 0 cs = some n := numberOf?_eq_some_iff.2 hwrites
  obtain ⟨v, hfold, hgrown⟩ :=
    (Double.Grown.whole (by decide)).run hpow hnumber hn
  refine ⟨v, ?_, hgrown.nearest_iff hpow hn⟩
  rw [Nat.zero_mul] at hfold
  rw [ofDigits?, if_neg (by simpa using hne)]
  exact hfold

/-- The digits of `2 ^ 53 + 3`, which lies halfway between two doubles. -/
def halfwayDigits : List Char := "20000000000003".toList

theorem halfwayDigits_nearest : Writes 16 halfwayDigits (2 ^ 53 + 3) ∧
    ∃ v, ofDigits? 16 halfwayDigits = some (.finite false (v * Double.one)) ∧
      (Double.Nearest (2 ^ 53 + 3) v ↔ ¬Double.Lost 16 (2 ^ 53 + 3)) ∧
      (Double.Lost 16 (2 ^ 53 + 3) →
        IsGreatest {w | Double.Exact w ∧ w ≤ 2 ^ 53 + 3} v) := by
  have hwrites : Writes 16 halfwayDigits (2 ^ 53 + 3) := numberOf?_eq_some_iff.1 (by decide)
  have hsmall (k : Nat) (hk : 53 < k) : 2 ^ 53 + 3 < 2 ^ k := (Nat.log2_lt (by decide)).1 hk
  obtain ⟨-, hvalue⟩ := @ofDigits?_nearest 16 halfwayDigits (by decide)
  exact ⟨hwrites, hvalue _ (by decide) hwrites (hsmall 1023 (by decide))⟩

/-- The digits of `2 ^ 57 + 17`, of which all but the last lie halfway between two doubles. -/
def stickyDigits : List Char := "200000000000011".toList

/-- The last digit does not break the tie, so the next double above, which is nearer, is missed. -/
theorem stickyDigits_lost : Writes 16 stickyDigits (2 ^ 57 + 17) ∧
    ofDigits? 16 stickyDigits = some (.finite false (2 ^ 57 * Double.one)) ∧
    ¬Double.Nearest (2 ^ 57 + 17) (2 ^ 57) := by
  refine ⟨numberOf?_eq_some_iff.1 (by decide), by decide +kernel, fun hnearest => ?_⟩
  have hexact : Double.Exact ((2 ^ 52 + 1) * 2 ^ 5) := Double.exact_mul_pow (by decide) (by decide)
  exact absurd (hnearest.nearest _ hexact) (by decide)

end NumericLiteral

end Estree
