import Mathlib.Algebra.Order.Field.Power
import Mathlib.Algebra.Order.Field.Rat
import Mathlib.Tactic.Linarith
import Mathlib.Tactic.Positivity
import Mathlib.Tactic.Ring
import Scribe.Number.Binary

/-!
# Rounding to the nearest number

`BinaryFormat.IsNearest` says what it is for a number of a format to be the nearest to a rational:
no other is nearer, and where another is as near the mantissa is even. There is one such number for
each rational, if exponents may be as large as it takes (`IsNearest.unique`), and
`BinaryFormat.nearest` is that number as long as its exponent is in range:
`BinaryFormat.nearest_eq_some_iff`.

What a ratio is takes part only by its value. The nearest number is a multiple of the last bit that
is kept: any number with a smaller last bit lies below the power of two that the ratio reaches.
-/

namespace Scribe

/-! ### Ratios as rationals -/

namespace Ratio

variable {r : Ratio} {base : Nat}

/-- The number that a ratio is. -/
def value (r : Ratio) : ℚ := r.num / r.den

theorem value_scale (r : Ratio) (hb : 0 < base) (exponent : Int) :
    (r.scale base exponent).value = r.value * (base : ℚ) ^ exponent := by
  have hbase : (base : ℚ) ≠ 0 := by positivity
  have hexponent : (base : ℚ) ^ exponent =
      (base : ℚ) ^ exponent.toNat / (base : ℚ) ^ (-exponent).toNat := by
    rw [← zpow_natCast, ← zpow_natCast, ← zpow_sub₀ hbase]
    congr 1
    omega
  rw [hexponent, value, value, scale, Nat.pow_eq, Nat.pow_eq]
  push_cast
  rw [mul_div_mul_comm]

theorem scale_den_pos (hb : 0 < base) (hr : 0 < r.den) (exponent : Int) :
    0 < (r.scale base exponent).den :=
  Nat.mul_pos hr (Nat.pow_pos hb)

theorem value_ofNat (n : Nat) : (ofNat n).value = n := by simp [ofNat, value]

theorem isLE_iff {a b : Ratio} (ha : 0 < a.den) (hb : 0 < b.den) :
    a.isLE b = true ↔ a.value ≤ b.value := by
  have ha' : (0 : ℚ) < a.den := by exact_mod_cast ha
  have hb' : (0 : ℚ) < b.den := by exact_mod_cast hb
  rw [isLE, decide_eq_true_iff, value, value, div_le_div_iff₀ ha' hb']
  exact_mod_cast Iff.rfl

/-- A ratio is its whole part and a rest. -/
theorem value_eq_add (hr : 0 < r.den) :
    r.value = (r.num / r.den : Nat) + (r.num % r.den : Nat) / (r.den : ℚ) := by
  have hden : (r.den : ℚ) ≠ 0 := by positivity
  have hsplit : (r.num : ℚ) = (r.num / r.den : Nat) * (r.den : ℚ) + (r.num % r.den : Nat) := by
    exact_mod_cast (Nat.div_add_mod' r.num r.den).symm
  conv_lhs => rw [value, hsplit, add_div, mul_div_cancel_right₀ _ hden]

/-- Rounding to a natural goes at most a half astray, and a half only to an even natural. -/
theorem round_spec (hr : 0 < r.den) : 2 * |r.value - r.round| ≤ 1 ∧
    (2 * |r.value - r.round| = 1 → r.round % 2 = 0) := by
  have hden : (0 : ℚ) < r.den := by exact_mod_cast hr
  rw [value_eq_add hr, round]
  split_ifs with habove hhalf
  · have hrest : 1 / 2 < ((r.num % r.den : Nat) : ℚ) / r.den := by
      rw [lt_div_iff₀ hden]
      have : (r.den : ℚ) < 2 * (r.num % r.den : Nat) := by exact_mod_cast habove
      linarith
    have hless : ((r.num % r.den : Nat) : ℚ) / r.den < 1 := by
      rw [div_lt_one hden]
      exact_mod_cast Nat.mod_lt _ hr
    push_cast
    rw [abs_of_neg (by linarith)]
    exact ⟨by linarith, fun h => by linarith⟩
  · have hrest : ((r.num % r.den : Nat) : ℚ) / r.den = 1 / 2 := by
      rw [div_eq_iff hden.ne']
      have : 2 * ((r.num % r.den : Nat) : ℚ) = r.den := by exact_mod_cast hhalf
      linarith
    refine ⟨?_, fun _ => by omega⟩
    rw [hrest]
    rcases Nat.mod_two_eq_zero_or_one (r.num / r.den) with h | h <;> rw [h] <;> push_cast
    · rw [abs_of_pos (by linarith)]
      linarith
    · rw [abs_of_neg (by linarith)]
      linarith
  · have hrest : ((r.num % r.den : Nat) : ℚ) / r.den < 1 / 2 := by
      rw [div_lt_iff₀ hden]
      have : 2 * ((r.num % r.den : Nat) : ℚ) < r.den := by
        exact_mod_cast (by omega : 2 * (r.num % r.den) < r.den)
      linarith
    have hnonneg : 0 ≤ ((r.num % r.den : Nat) : ℚ) / r.den := by positivity
    rw [add_sub_cancel_left, abs_of_nonneg hnonneg]
    exact ⟨by linarith, fun h => by linarith⟩

theorem one_le_abs_sub {m n : Nat} (h : m ≠ n) : (1 : ℚ) ≤ |(m : ℚ) - n| := by
  have hne : (m : Int) - n ≠ 0 := by omega
  exact_mod_cast Int.one_le_abs hne

theorem one_le_abs_add {n : Nat} (h : n ≠ r.round) :
    1 ≤ |r.value - r.round| + |r.value - n| := by
  have hone := one_le_abs_sub h.symm
  have htriangle := abs_sub_le (r.round : ℚ) r.value n
  rw [abs_sub_comm (r.round : ℚ) r.value] at htriangle
  linarith

/-- No natural is nearer to a ratio than the one that it is rounded to. -/
theorem abs_sub_round_le (hr : 0 < r.den) (n : Nat) : |r.value - r.round| ≤ |r.value - n| := by
  by_cases h : n = r.round
  · rw [h]
  · linarith [(round_spec hr).1, one_le_abs_add h]

/-- A ratio that lies in the middle of two naturals is rounded to the even one. -/
theorem round_even (hr : 0 < r.den) {n : Nat} (hn : n ≠ r.round)
    (h : |r.value - r.round| = |r.value - n|) : r.round % 2 = 0 := by
  obtain ⟨hhalf, heven⟩ := round_spec hr
  exact heven (by linarith [one_le_abs_add hn])

theorem round_le (hr : 0 < r.den) {n : Nat} (h : r.value ≤ n) : r.round ≤ n := by
  have hle := abs_sub_round_le hr n
  rw [abs_sub_comm r.value n, abs_of_nonneg (sub_nonneg.2 h)] at hle
  have hround : (r.round : ℚ) ≤ n := by linarith [neg_abs_le (r.value - r.round)]
  exact_mod_cast hround

theorem le_round (hr : 0 < r.den) {n : Nat} (h : (n : ℚ) ≤ r.value) : n ≤ r.round := by
  have hle := abs_sub_round_le hr n
  rw [abs_of_nonneg (sub_nonneg.2 h)] at hle
  have hround : (n : ℚ) ≤ r.round := by linarith [le_abs_self (r.value - r.round)]
  exact_mod_cast hround

/-! The power of a base that a ratio reaches. -/

theorem lt_pow_digitCount (hb : 1 < base) (n : Nat) : n < base ^ digitCount base n :=
  (Nat.length_toDigits_le_iff hb Nat.length_toDigits_pos).1 le_rfl

theorem pow_digitCount_le (hb : 1 < base) {n : Nat} (hn : 0 < n) :
    base ^ (digitCount base n - 1) ≤ n := by
  by_contra h
  rw [not_le] at h
  have hpos : 0 < digitCount base n - 1 := by
    by_contra hzero
    rw [Nat.eq_zero_of_not_pos hzero, pow_zero] at h
    omega
  have hlength := (Nat.length_toDigits_le_iff hb hpos).2 h
  unfold digitCount at hlength hpos
  omega

theorem zpow_digitCount (hb : 1 < base) {n : Nat} (hn : 0 < n) :
    (base : ℚ) ^ ((digitCount base n : Int) - 1) ≤ n ∧
      (n : ℚ) < (base : ℚ) ^ (digitCount base n : Int) := by
  have hpos : 1 ≤ digitCount base n := Nat.length_toDigits_pos
  rw [← Nat.cast_one (R := Int), ← Nat.cast_sub hpos, zpow_natCast, zpow_natCast]
  exact ⟨by exact_mod_cast pow_digitCount_le hb hn, by exact_mod_cast lt_pow_digitCount hb n⟩

/-- A ratio reaches the power of its order, and does not reach the next. -/
theorem order_spec (hb : 1 < base) (hn : 0 < r.num) (hr : 0 < r.den) :
    (base : ℚ) ^ r.order base ≤ r.value ∧ r.value < (base : ℚ) ^ (r.order base + 1) := by
  have hbase : (0 : ℚ) < base := by exact_mod_cast Nat.zero_lt_of_lt hb
  have hden : (0 : ℚ) < r.den := by exact_mod_cast hr
  obtain ⟨hnum, hnum'⟩ := zpow_digitCount hb hn
  obtain ⟨hden₁, hden₂⟩ := zpow_digitCount hb hr
  -- The counts of digits miss the order by one at most.
  let guess : Int := (digitCount base r.num : Int) - (digitCount base r.den : Int)
  have hlow : (base : ℚ) ^ (guess - 1) < r.value := by
    rw [value, lt_div_iff₀ hden]
    calc (base : ℚ) ^ (guess - 1) * r.den
        < (base : ℚ) ^ (guess - 1) * (base : ℚ) ^ (digitCount base r.den : Int) := by gcongr
      _ = (base : ℚ) ^ ((digitCount base r.num : Int) - 1) := by
        rw [← zpow_add₀ hbase.ne']
        congr 1
        omega
      _ ≤ r.num := hnum
  have hhigh : r.value < (base : ℚ) ^ (guess + 1) := by
    rw [value, div_lt_iff₀ hden]
    calc (r.num : ℚ)
        < (base : ℚ) ^ (digitCount base r.num : Int) := hnum'
      _ = (base : ℚ) ^ (guess + 1) * (base : ℚ) ^ ((digitCount base r.den : Int) - 1) := by
        rw [← zpow_add₀ hbase.ne']
        congr 1
        omega
      _ ≤ (base : ℚ) ^ (guess + 1) * r.den := by gcongr
  have hreach : ((ofNat 1).scale base guess).isLE r = true ↔ (base : ℚ) ^ guess ≤ r.value := by
    rw [isLE_iff (scale_den_pos (Nat.zero_lt_of_lt hb) Nat.one_pos guess) hr,
      value_scale _ (Nat.zero_lt_of_lt hb), value_ofNat, Nat.cast_one, one_mul]
  have horder : r.order base = if ((ofNat 1).scale base guess).isLE r then guess else guess - 1 := rfl
  rw [horder]
  split_ifs with h
  · exact ⟨hreach.1 h, hhigh⟩
  · rw [sub_add_cancel]
    exact ⟨hlow.le, not_le.1 (mt hreach.2 h)⟩

theorem value_eq_zero (h : r.num = 0) : r.value = 0 := by rw [value, h, Nat.cast_zero, zero_div]

end Ratio

/-! ### Numbers of a format -/

namespace Dyadic

def value (d : Dyadic) : ℚ := d.mantissa * (2 : ℚ) ^ d.exponent

theorem value_ratio (d : Dyadic) : d.ratio.value = d.value := by
  rw [ratio, Ratio.value_scale _ (by decide), Ratio.value_ofNat, value, Nat.cast_ofNat]

theorem ratio_den_pos (d : Dyadic) : 0 < d.ratio.den :=
  Ratio.scale_den_pos (by decide) Nat.one_pos d.exponent

end Dyadic

namespace BinaryFormat

variable {f : BinaryFormat} {d d' : Dyadic} {x : ℚ}

/-- The one form of a number of the format, whatever the largest exponent: the mantissa uses all bits
unless the exponent is the least. -/
structure Canonical (f : BinaryFormat) (d : Dyadic) : Prop where
  mantissa_lt : d.mantissa < 2 ^ f.precision
  le_exponent : f.minExponent ≤ d.exponent
  normal : d.exponent = f.minExponent ∨ 2 ^ f.precision ≤ 2 * d.mantissa

/-- Among the numbers of the format, whatever their exponents, `d` is the nearest to `x`, and has an
even mantissa if another is as near. -/
structure IsNearest (f : BinaryFormat) (x : ℚ) (d : Dyadic) : Prop where
  canonical : f.Canonical d
  le (d' : Dyadic) : f.Canonical d' → |x - d.value| ≤ |x - d'.value|
  even (d' : Dyadic) : f.Canonical d' → d' ≠ d → |x - d.value| = |x - d'.value| →
    d.mantissa % 2 = 0

theorem two_zpow_pos (exponent : Int) : (0 : ℚ) < 2 ^ exponent := zpow_pos two_pos _

theorem two_zpow_add (m n : Int) : (2 : ℚ) ^ (m + n) = 2 ^ m * 2 ^ n := zpow_add₀ two_ne_zero m n

theorem Canonical.value_lt_zpow (h : f.Canonical d) :
    d.value < (2 : ℚ) ^ (f.precision + d.exponent) := by
  rw [two_zpow_add, zpow_natCast, Dyadic.value]
  exact mul_lt_mul_of_pos_right (by exact_mod_cast h.mantissa_lt) (two_zpow_pos _)

/-- Above the least exponent, a number reaches the power of two of its first bit. -/
theorem Canonical.zpow_le_value (h : f.Canonical d) (he : f.minExponent < d.exponent) :
    (2 : ℚ) ^ (f.precision - 1 + d.exponent) ≤ d.value := by
  have hfull : (2 : ℚ) ^ f.precision ≤ 2 * d.mantissa := by
    exact_mod_cast h.normal.resolve_left (ne_of_gt he)
  have hhalf : (2 : ℚ) ^ ((f.precision : Int) - 1) ≤ d.mantissa := by
    rw [zpow_sub_one₀ two_ne_zero, zpow_natCast]
    linarith
  rw [two_zpow_add, Dyadic.value]
  exact mul_le_mul_of_nonneg_right hhalf (two_zpow_pos _).le

/-- A number whose last bit is at `exponent` or above is a multiple of that bit, and any other lies
below the power of two that uses all bits from there. -/
theorem Canonical.value_cases (h : f.Canonical d) (exponent : Int) :
    (∃ n : Nat, d.value = n * (2 : ℚ) ^ exponent) ∨
      (f.minExponent < exponent ∧ d.value < (2 : ℚ) ^ (f.precision - 1 + exponent)) := by
  by_cases he : exponent ≤ d.exponent
  · refine .inl ⟨d.mantissa * 2 ^ (d.exponent - exponent).toNat, ?_⟩
    have hsplit : d.exponent = ((d.exponent - exponent).toNat : Int) + exponent := by omega
    rw [Dyadic.value]
    conv_lhs => rw [hsplit, two_zpow_add, zpow_natCast]
    push_cast
    ring
  · have hmin := h.le_exponent
    refine .inr ⟨by omega, h.value_lt_zpow.trans_le ?_⟩
    exact zpow_le_zpow_right₀ one_le_two (by omega)

theorem Canonical.exponent_le (h : f.Canonical d) (h' : f.Canonical d') (hv : d.value = d'.value) :
    d'.exponent ≤ d.exponent := by
  by_contra hlt
  have hmin := h.le_exponent
  have hle := h'.zpow_le_value (by omega)
  have hgap : (2 : ℚ) ^ (f.precision + d.exponent) ≤ 2 ^ (f.precision - 1 + d'.exponent) :=
    zpow_le_zpow_right₀ one_le_two (by omega)
  linarith [h.value_lt_zpow]

/-- A number of the format has one canonical form. -/
theorem Canonical.eq_of_value (h : f.Canonical d) (h' : f.Canonical d') (hv : d.value = d'.value) :
    d = d' := by
  have hexponent : d.exponent = d'.exponent :=
    le_antisymm (h'.exponent_le h hv.symm) (h.exponent_le h' hv)
  obtain ⟨m, e⟩ := d
  obtain ⟨m', e'⟩ := d'
  obtain rfl : e = e' := hexponent
  have hmantissa : (m : ℚ) = m' := mul_right_cancel₀ (two_zpow_pos e).ne' hv
  rw [Nat.cast_inj.1 hmantissa]

/-! ### One number is the nearest -/

theorem two_pow_even (hp : 1 ≤ f.precision) : 2 ^ f.precision % 2 = 0 := by
  obtain ⟨k, hk⟩ := Nat.exists_eq_add_of_le' hp
  rw [hk, pow_succ]
  omega

/-- Between a number with an even mantissa and a greater one there is a third, or the greater one has
an odd mantissa. -/
theorem Canonical.exists_between (hp : 1 ≤ f.precision) (h : f.Canonical d) (h' : f.Canonical d')
    (hlt : d.value < d'.value) (heven : d.mantissa % 2 = 0) (heven' : d'.mantissa % 2 = 0) :
    ∃ s, f.Canonical s ∧ d.value < s.value ∧ s.value < d'.value := by
  have hpow := two_pow_even hp
  have hm := h.mantissa_lt
  have hbit := two_zpow_pos d.exponent
  let s : Dyadic := ⟨d.mantissa + 1, d.exponent⟩
  have hs : f.Canonical s :=
    ⟨show d.mantissa + 1 < 2 ^ f.precision by omega, h.le_exponent,
      h.normal.imp_right fun hn => show 2 ^ f.precision ≤ 2 * (d.mantissa + 1) by omega⟩
  have hvalue : s.value = d.value + 2 ^ d.exponent := by
    simp only [s, Dyadic.value]
    push_cast
    ring
  have hle : s.value ≤ d'.value := by
    rcases h'.value_cases d.exponent with ⟨n, hn⟩ | ⟨hmin, hsmall⟩
    · have hmn : d.mantissa < n := by
        rw [hn, Dyadic.value] at hlt
        exact_mod_cast lt_of_mul_lt_mul_right hlt hbit.le
      rw [hn]
      exact mul_le_mul_of_nonneg_right (by exact_mod_cast hmn) hbit.le
    · linarith [h.zpow_le_value hmin]
  have hne : s.value ≠ d'.value := fun hv => by
    have hmantissa : d.mantissa + 1 = d'.mantissa := congrArg Dyadic.mantissa (hs.eq_of_value h' hv)
    omega
  exact ⟨s, hs, by linarith, lt_of_le_of_ne hle hne⟩

theorem IsNearest.value_le (hp : 1 ≤ f.precision) (h : f.IsNearest x d) (h' : f.IsNearest x d') :
    d'.value ≤ d.value := by
  by_contra hle
  have hlt := not_le.1 hle
  have hne : d' ≠ d := fun heq => by rw [heq] at hlt; exact lt_irrefl _ hlt
  have hequal : |x - d.value| = |x - d'.value| :=
    le_antisymm (h.le d' h'.canonical) (h'.le d h.canonical)
  have heven := h.even d' h'.canonical hne hequal
  have heven' := h'.even d h.canonical hne.symm hequal.symm
  obtain ⟨s, hs, hds, hsd'⟩ := h.canonical.exists_between hp h'.canonical hlt heven heven'
  have hnearer := h.le s hs
  have hnearer' := h'.le s hs
  rcases le_total s.value x with hx | hx
  · rw [abs_of_nonneg (by linarith), abs_of_nonneg (by linarith)] at hnearer
    linarith
  · rw [abs_of_nonpos (by linarith), abs_of_nonpos (by linarith)] at hnearer'
    linarith

/-- One number of the format is the nearest. -/
theorem IsNearest.unique (hp : 1 ≤ f.precision) (h : f.IsNearest x d) (h' : f.IsNearest x d') :
    d = d' :=
  h.canonical.eq_of_value h'.canonical (le_antisymm (h'.value_le hp h) (h.value_le hp h'))

/-- A number of the format is the nearest to itself. -/
theorem Canonical.isNearest (h : f.Canonical d) : f.IsNearest d.value d where
  canonical := h
  le _ _ := by rw [sub_self, abs_zero]; exact abs_nonneg _
  even d' h' hne hequal := by
    rw [sub_self, abs_zero, eq_comm, abs_eq_zero, sub_eq_zero] at hequal
    exact absurd (h.eq_of_value h' hequal).symm hne

/-! ### The nearest number is found -/

variable {r : Ratio}

/-- The ratio rounded to the format as if there were no largest exponent. -/
def rounded (f : BinaryFormat) (r : Ratio) : Dyadic :=
  f.carry (r.scale 2 (-f.lastBit r)).round (f.lastBit r)

theorem nearest_eq (f : BinaryFormat) (r : Ratio) :
    f.nearest r = if (f.rounded r).exponent ≤ f.maxExponent then some (f.rounded r) else none := rfl

theorem minExponent_le_lastBit : f.minExponent ≤ f.lastBit r := by
  unfold lastBit
  split
  · exact le_rfl
  · exact le_max_left _ _

/-- All bits of the ratio above the last one that is kept fit the precision. -/
theorem value_lt_zpow (hr : 0 < r.den) : r.value < (2 : ℚ) ^ (f.precision + f.lastBit r) := by
  by_cases hzero : r.num = 0
  · rw [Ratio.value_eq_zero hzero]
    exact two_zpow_pos _
  · obtain ⟨-, hlt⟩ := Ratio.order_spec Nat.one_lt_two (Nat.pos_of_ne_zero hzero) hr
    refine hlt.trans_le (zpow_le_zpow_right₀ one_le_two ?_)
    rw [lastBit, if_neg hzero]
    omega

/-- Above the least exponent, the bits that are kept start with the first of the ratio. -/
theorem zpow_le_value (hr : 0 < r.den) (h : f.minExponent < f.lastBit r) :
    (2 : ℚ) ^ (f.precision - 1 + f.lastBit r) ≤ r.value := by
  have hzero : r.num ≠ 0 := fun hzero => by
    rw [lastBit, if_pos hzero] at h
    exact lt_irrefl _ h
  obtain ⟨hle, -⟩ := Ratio.order_spec Nat.one_lt_two (Nat.pos_of_ne_zero hzero) hr
  refine (zpow_le_zpow_right₀ one_le_two ?_).trans hle
  rw [lastBit, if_neg hzero] at h ⊢
  omega

theorem value_carry (hp : 1 ≤ f.precision) (mantissa : Nat) (exponent : Int) :
    (f.carry mantissa exponent).value = mantissa * (2 : ℚ) ^ exponent := by
  unfold carry
  split_ifs with h
  · obtain ⟨k, hk⟩ := Nat.exists_eq_add_of_le' hp
    rw [h, Dyadic.value, hk, Nat.add_sub_cancel, Nat.pow_eq, Nat.pow_eq, two_zpow_add]
    push_cast
    ring
  · rfl

/-- Distances in units of the last bit that is kept. -/
theorem abs_sub_bits (f : BinaryFormat) (r : Ratio) (n : Nat) :
    |r.value - n * (2 : ℚ) ^ f.lastBit r| =
      |(r.scale 2 (-f.lastBit r)).value - n| * 2 ^ f.lastBit r := by
  have hbit := two_zpow_pos (f.lastBit r)
  rw [Ratio.value_scale _ (by decide), Nat.cast_ofNat, zpow_neg]
  nth_rewrite 3 [← abs_of_pos hbit]
  rw [← abs_mul, sub_mul, inv_mul_cancel_right₀ hbit.ne']

theorem canonical_rounded (hp : 1 ≤ f.precision) (hr : 0 < r.den) : f.Canonical (f.rounded r) := by
  have hscaled : 0 < (r.scale 2 (-f.lastBit r)).den := Ratio.scale_den_pos (by decide) hr _
  have hbit := two_zpow_pos (f.lastBit r)
  have hvalue : (r.scale 2 (-f.lastBit r)).value = r.value / 2 ^ f.lastBit r := by
    rw [Ratio.value_scale _ (by decide), Nat.cast_ofNat, zpow_neg, div_eq_mul_inv]
  have hle : (r.scale 2 (-f.lastBit r)).round ≤ 2 ^ f.precision := by
    refine Ratio.round_le hscaled ?_
    rw [hvalue, div_le_iff₀ hbit]
    push_cast
    rw [← zpow_natCast, ← two_zpow_add]
    exact (value_lt_zpow hr).le
  have hlast : f.minExponent ≤ f.lastBit r := minExponent_le_lastBit
  obtain ⟨k, hk⟩ := Nat.exists_eq_add_of_le' hp
  unfold rounded carry
  split_ifs with hfull
  · have hmantissa : 2 ^ f.precision = 2 * 2 ^ (f.precision - 1) := by
      rw [hk, Nat.add_sub_cancel, pow_succ, mul_comm]
    have hpos : 0 < 2 ^ (f.precision - 1) := Nat.pow_pos Nat.two_pos
    refine ⟨?_, hlast.trans (Int.le_add_one le_rfl), .inr hmantissa.le⟩
    show 2 ^ (f.precision - 1) < 2 ^ f.precision
    omega
  · refine ⟨lt_of_le_of_ne hle hfull, hlast, ?_⟩
    rcases hlast.eq_or_lt with hmin | hmin
    · exact .inl hmin.symm
    · have hhalf : 2 ^ k ≤ (r.scale 2 (-f.lastBit r)).round := by
        refine Ratio.le_round hscaled ?_
        rw [hvalue, le_div_iff₀ hbit]
        push_cast
        rw [← zpow_natCast, ← two_zpow_add]
        exact (zpow_le_zpow_right₀ one_le_two (by omega)).trans (zpow_le_value hr hmin)
      right
      rw [hk, pow_succ]
      dsimp only
      omega

/-- The mantissa before a carry is as even as the one after it. -/
theorem rounded_even (hp : 2 ≤ f.precision) (h : (r.scale 2 (-f.lastBit r)).round % 2 = 0) :
    (f.rounded r).mantissa % 2 = 0 := by
  unfold rounded carry
  split_ifs
  · obtain ⟨k, hk⟩ := Nat.exists_eq_add_of_le' hp
    simp only [hk, Nat.pow_eq, Nat.add_succ_sub_one, pow_succ]
    omega
  · exact h

theorem rounded_isNearest (hp : 2 ≤ f.precision) (hr : 0 < r.den) :
    f.IsNearest r.value (f.rounded r) := by
  have hscaled : 0 < (r.scale 2 (-f.lastBit r)).den := Ratio.scale_den_pos (by decide) hr _
  have hbit := two_zpow_pos (f.lastBit r)
  have hvalue : (f.rounded r).value = (r.scale 2 (-f.lastBit r)).round * (2 : ℚ) ^ f.lastBit r :=
    value_carry (by omega) _ _
  have hmultiple (n : Nat) :
      |r.value - (f.rounded r).value| ≤ |r.value - n * (2 : ℚ) ^ f.lastBit r| := by
    rw [hvalue, abs_sub_bits, abs_sub_bits]
    exact mul_le_mul_of_nonneg_right (Ratio.abs_sub_round_le hscaled n) hbit.le
  -- What is no multiple of the last bit lies below a multiple that the ratio reaches.
  have hbelow {d' : Dyadic} (hmin : f.minExponent < f.lastBit r)
      (hsmall : d'.value < (2 : ℚ) ^ (f.precision - 1 + f.lastBit r)) :
      |r.value - (f.rounded r).value| < |r.value - d'.value| := by
    have hreach := zpow_le_value hr hmin
    have hle := hmultiple (2 ^ (f.precision - 1))
    rw [Nat.cast_pow, Nat.cast_ofNat, ← zpow_natCast, Nat.cast_sub (by omega), Nat.cast_one,
      ← two_zpow_add, abs_of_nonneg (sub_nonneg.2 hreach)] at hle
    rw [abs_of_pos (sub_pos.2 (hsmall.trans_le hreach))]
    linarith
  refine ⟨canonical_rounded (by omega) hr, fun d' h' => ?_, fun d' h' hne hequal => ?_⟩
  · rcases h'.value_cases (f.lastBit r) with ⟨n, hn⟩ | ⟨hmin, hsmall⟩
    · exact hn ▸ hmultiple n
    · exact (hbelow hmin hsmall).le
  · rcases h'.value_cases (f.lastBit r) with ⟨n, hn⟩ | ⟨hmin, hsmall⟩
    · refine rounded_even hp (Ratio.round_even hscaled (n := n) (fun heq => hne ?_) ?_)
      · exact h'.eq_of_value (canonical_rounded (by omega) hr) (by rw [hn, hvalue, heq])
      · rw [hvalue, hn, abs_sub_bits, abs_sub_bits] at hequal
        exact mul_right_cancel₀ hbit.ne' hequal
    · exact absurd hequal (hbelow hmin hsmall).ne

/-- The nearest number is `d`, and it is not past the largest of the format. -/
def Rounds (f : BinaryFormat) (x : ℚ) (d : Dyadic) : Prop :=
  f.IsNearest x d ∧ d.exponent ≤ f.maxExponent

/-- A format with two bits or more rounds a ratio to the number that is the nearest, ties to the even
mantissa, as long as that number is not past the largest. -/
theorem nearest_eq_some_iff (hp : 2 ≤ f.precision) (hr : 0 < r.den) :
    f.nearest r = some d ↔ f.Rounds r.value d := by
  have hrounded := rounded_isNearest (r := r) hp hr
  rw [nearest_eq]
  constructor
  · intro h
    split_ifs at h with hmax
    cases h
    exact ⟨hrounded, hmax⟩
  · rintro ⟨hd, hmax⟩
    rw [hrounded.unique (by omega) hd, if_pos hmax]

end BinaryFormat

end Scribe
