import Scribe.Proofs.Singles

/-!
# Doubles without a text as a single

A format has no number nearest to a ratio from the middle between its largest number and the next one
on (`BinaryFormat.nearest_eq_none_iff`). For singles that is `2 ^ 128 - 2 ^ 103`, but a text is missing
from `3.4025e38` on already (`Numeral.single_without_text_iff`): on the way to a text with enough digits
the number is rounded to four digits, and `3.403e38` lies past the largest single, though the number
itself does not. Below, no candidate is out of range, as rounding to a place goes at most half a unit of
that place up.
-/

namespace Scribe

namespace Ratio

variable {r : Ratio} {base n : Nat}

/-- Up to the middle between two naturals a ratio is rounded down, and in the middle if the lower one
is even. -/
theorem round_le_of_middle (hr : 0 < r.den)
    (h : 2 * r.value < 2 * n + 1 ∨ 2 * r.value = 2 * n + 1 ∧ n % 2 = 0) : r.round ≤ n := by
  obtain ⟨hhalf, heven⟩ := round_spec hr
  by_contra hlt
  have hnext : (n : ℚ) + 1 ≤ r.round := by exact_mod_cast not_le.1 hlt
  have hup : r.value ≤ r.round := by rcases h with h | ⟨h, -⟩ <;> linarith
  rw [abs_of_nonpos (sub_nonpos.2 hup)] at hhalf heven
  rcases h with h | ⟨h, hn⟩
  · linarith
  · have hround : (r.round : ℚ) = n + 1 := by linarith
    have hodd := heven (by linarith)
    have hround' : r.round = n + 1 := by exact_mod_cast hround
    omega

/-- Past the middle between two naturals a ratio is rounded up. -/
theorem le_round_of_middle (hr : 0 < r.den) (h : 2 * (n : ℚ) < 2 * r.value + 1) : n ≤ r.round := by
  have hhalf := (round_spec hr).1
  by_contra hlt
  have hbelow : (r.round : ℚ) + 1 ≤ n := by exact_mod_cast not_le.1 hlt
  linarith [le_abs_self (r.value - r.round)]

theorem order_eq (hb : 1 < base) (hr : 0 < r.den) {k : Int} (h : (base : ℚ) ^ k ≤ r.value)
    (h' : r.value < (base : ℚ) ^ (k + 1)) : r.order base = k := by
  have hbase : (1 : ℚ) < base := by exact_mod_cast hb
  have hzero : r.num ≠ 0 := fun hzero => by
    rw [value_eq_zero hzero] at h
    exact absurd h (not_le.2 (by positivity))
  obtain ⟨hle, hlt⟩ := order_spec hb (Nat.pos_of_ne_zero hzero) hr
  have hlow := (zpow_lt_zpow_iff_right₀ hbase).1 (h.trans_lt hlt)
  have hhigh := (zpow_lt_zpow_iff_right₀ hbase).1 (hle.trans_lt h')
  omega

end Ratio

/-! ### The range of a format -/

namespace BinaryFormat

variable {f : BinaryFormat} {d d' : Dyadic} {x : ℚ} {r : Ratio}

theorem IsNearest.le_value (h : f.IsNearest x d) (h' : f.Canonical d') (hx : d'.value ≤ x) :
    d'.value ≤ d.value := by
  by_contra hlt
  have hle := h.le d' h'
  rw [abs_of_nonneg (by linarith), abs_of_nonneg (by linarith)] at hle
  linarith

theorem IsNearest.value_le_of_le (h : f.IsNearest x d) (h' : f.Canonical d') (hx : x ≤ d'.value) :
    d.value ≤ d'.value := by
  by_contra hlt
  have hle := h.le d' h'
  rw [abs_of_nonpos (by linarith), abs_of_nonpos (by linarith)] at hle
  linarith

/-- The largest number of the format. -/
def largest (f : BinaryFormat) : Dyadic := ⟨2 ^ f.precision - 1, f.maxExponent⟩

/-- The number that would follow the largest one. -/
def beyond (f : BinaryFormat) : Dyadic := ⟨2 ^ (f.precision - 1), f.maxExponent + 1⟩

/-- The middle between the two. -/
def limit (f : BinaryFormat) : ℚ := (f.largest.value + f.beyond.value) / 2

theorem value_largest (f : BinaryFormat) :
    f.largest.value = ((2 : ℚ) ^ f.precision - 1) * (2 : ℚ) ^ f.maxExponent := by
  simp only [largest, Dyadic.value]
  rw [Nat.cast_sub Nat.one_le_two_pow]
  push_cast
  rfl

theorem value_beyond (hp : 2 ≤ f.precision) :
    f.beyond.value = (2 : ℚ) ^ f.precision * (2 : ℚ) ^ f.maxExponent := by
  obtain ⟨k, hk⟩ := Nat.exists_eq_add_of_le' hp
  have hhalf : k + 2 - 1 = k + 1 := rfl
  simp only [beyond, Dyadic.value, hk, hhalf, two_zpow_add, zpow_one, pow_succ]
  push_cast
  ring

theorem largest_lt_beyond (hp : 2 ≤ f.precision) : f.largest.value < f.beyond.value := by
  rw [value_largest, value_beyond hp]
  linarith [two_zpow_pos f.maxExponent]

theorem canonical_largest (hp : 2 ≤ f.precision) (hm : f.minExponent ≤ f.maxExponent) :
    f.Canonical f.largest := by
  obtain ⟨k, hk⟩ := Nat.exists_eq_add_of_le' hp
  have hpos : 0 < 2 ^ k := Nat.pow_pos Nat.two_pos
  refine ⟨?_, hm, .inr ?_⟩ <;> simp only [largest, hk, pow_succ] <;> omega

theorem canonical_beyond (hp : 2 ≤ f.precision) (hm : f.minExponent ≤ f.maxExponent) :
    f.Canonical f.beyond := by
  obtain ⟨k, hk⟩ := Nat.exists_eq_add_of_le' hp
  have hpos : 0 < 2 ^ k := Nat.pow_pos Nat.two_pos
  have hhalf : k + 2 - 1 = k + 1 := rfl
  refine ⟨?_, by simp only [beyond]; omega, .inr ?_⟩ <;>
    simp only [beyond, hk, hhalf, pow_succ] <;> omega

theorem Canonical.le_largest (h : f.Canonical d) (he : d.exponent ≤ f.maxExponent) :
    d.value ≤ f.largest.value := by
  have hm : (d.mantissa : ℚ) ≤ 2 ^ f.precision - 1 := by
    rw [le_sub_iff_add_le]
    exact_mod_cast h.mantissa_lt
  have hpow : (2 : ℚ) ^ d.exponent ≤ 2 ^ f.maxExponent := zpow_le_zpow_right₀ one_le_two he
  rw [value_largest, Dyadic.value]
  exact mul_le_mul hm hpow (two_zpow_pos _).le (hm.trans' (Nat.cast_nonneg _))

theorem Canonical.beyond_le (hp : 2 ≤ f.precision) (hm : f.minExponent ≤ f.maxExponent)
    (h : f.Canonical d) (he : f.maxExponent < d.exponent) : f.beyond.value ≤ d.value := by
  refine le_trans ?_ (h.zpow_le_value (by omega))
  rw [value_beyond hp, ← zpow_natCast, ← two_zpow_add]
  exact zpow_le_zpow_right₀ one_le_two (by omega)

/-- From the middle between the largest number and the next one on, no number in range is nearest. -/
theorem nearest_eq_none_iff (hp : 2 ≤ f.precision) (hm : f.minExponent ≤ f.maxExponent)
    (hr : 0 < r.den) : f.nearest r = none ↔ f.limit ≤ r.value := by
  have hnear := rounded_isNearest (f := f) (r := r) hp hr
  have hgap := largest_lt_beyond hp
  have hlimit : 2 * f.limit = f.largest.value + f.beyond.value := by
    unfold limit
    ring
  rw [nearest_eq]
  constructor
  · intro h
    split_ifs at h with hmax
    have hfar := hnear.canonical.beyond_le hp hm (not_le.1 hmax)
    have hle := hnear.le _ (canonical_largest hp hm)
    by_contra hlt
    rw [abs_of_nonpos (by linarith)] at hle
    rcases abs_cases (r.value - f.largest.value) with ⟨habs, -⟩ | ⟨habs, -⟩ <;> linarith
  · intro h
    rw [if_neg]
    intro hmax
    have hsmall := hnear.canonical.le_largest hmax
    have hle := hnear.le _ (canonical_beyond hp hm)
    rw [abs_of_nonneg (by linarith)] at hle
    rcases abs_cases (r.value - f.beyond.value) with ⟨habs, -⟩ | ⟨habs, -⟩
    · linarith
    · -- Only the middle itself is left, where the largest number is as near as the next, but odd.
      have hvalue : (f.rounded r).value = f.largest.value := by linarith
      have hequal := hnear.canonical.eq_of_value (canonical_largest hp hm) hvalue
      have heven := hnear.even _ (canonical_beyond hp hm)
        (fun heq => by rw [← heq] at hvalue; exact hgap.ne' hvalue)
        (by rw [abs_of_nonneg (by linarith), habs]; linarith)
      have hpow := two_pow_even (f := f) (by omega)
      have hpos : 0 < 2 ^ f.precision := Nat.pow_pos Nat.two_pos
      rw [hequal] at heven
      simp only [largest] at heven
      omega

theorem exists_rounds_iff (hp : 2 ≤ f.precision) (hm : f.minExponent ≤ f.maxExponent)
    (hr : 0 < r.den) : (∃ d, f.Rounds r.value d) ↔ r.value < f.limit := by
  rw [← not_le, ← nearest_eq_none_iff hp hm hr, ← Ne, Option.ne_none_iff_exists']
  exact exists_congr fun d => (nearest_eq_some_iff hp hr).symm

/-- What lies at or below a number in range is rounded to a number at or below it. -/
theorem exists_nearest_le (hp : 2 ≤ f.precision) (hm : f.minExponent ≤ f.maxExponent)
    (hr : 0 < r.den) (h : f.Canonical d) (he : d.exponent ≤ f.maxExponent) (hle : r.value ≤ d.value) :
    ∃ d', f.nearest r = some d' ∧ d'.value ≤ d.value := by
  have hbelow : ¬ f.limit ≤ r.value := by
    have hlargest := h.le_largest he
    have hgap := largest_lt_beyond hp
    unfold limit
    linarith
  obtain ⟨d', hd'⟩ := Option.ne_none_iff_exists'.1 (mt (nearest_eq_none_iff hp hm hr).1 hbelow)
  exact ⟨d', hd', ((nearest_eq_some_iff hp hr).1 hd').1.value_le_of_le h hle⟩

end BinaryFormat

open BinaryFormat

/-! ### Rounding to a place -/

namespace Digits

variable {r : Ratio} {count n : Nat} {place order : Int}

theorem value_scaled (r : Ratio) (place : Int) :
    (r.scale 10 (-place)).value = r.value / (10 : ℚ) ^ place := by
  rw [Ratio.value_scale _ (by decide), Nat.cast_ofNat, zpow_neg, div_eq_mul_inv]

theorem value_rounded (hplace : lastPlace count r = place) :
    (rounded count r).value = (r.scale 10 (-place)).round * (10 : ℚ) ^ place := by
  rw [rounded, hplace]
  rfl

/-- Up to the middle between two neighbours at its last place, a number is rounded down. -/
theorem value_rounded_le (hr : 0 < r.den) (hplace : lastPlace count r = place)
    (h : 2 * r.value < (2 * n + 1) * (10 : ℚ) ^ place ∨
      2 * r.value = (2 * n + 1) * (10 : ℚ) ^ place ∧ n % 2 = 0) :
    (rounded count r).value ≤ n * (10 : ℚ) ^ place := by
  have hunit : (0 : ℚ) < 10 ^ place := by positivity
  rw [value_rounded hplace]
  refine mul_le_mul_of_nonneg_right (Nat.cast_le.2 ?_) hunit.le
  refine Ratio.round_le_of_middle (Ratio.scale_den_pos (by decide) hr _) ?_
  rw [value_scaled, ← mul_div_assoc, div_lt_iff₀ hunit, div_eq_iff hunit.ne']
  exact h

/-- Past the middle, it is rounded up. -/
theorem le_value_rounded (hr : 0 < r.den) (hplace : lastPlace count r = place)
    (h : (2 * n - 1) * (10 : ℚ) ^ place < 2 * r.value) :
    n * (10 : ℚ) ^ place ≤ (rounded count r).value := by
  have hunit : (0 : ℚ) < 10 ^ place := by positivity
  rw [value_rounded hplace]
  refine mul_le_mul_of_nonneg_right (Nat.cast_le.2 ?_) hunit.le
  refine Ratio.le_round_of_middle (Ratio.scale_den_pos (by decide) hr _) ?_
  rw [value_scaled, ← mul_div_assoc, ← sub_lt_iff_lt_add, lt_div_iff₀ hunit]
  exact h

theorem lastPlace_eq (hr : 0 < r.den) (h : (10 : ℚ) ^ order ≤ r.value)
    (h' : r.value < (10 : ℚ) ^ (order + 1)) (count : Nat) :
    lastPlace count r = order - count + 1 := by
  have hzero : r.num ≠ 0 := fun hzero => by
    rw [Ratio.value_eq_zero hzero] at h
    exact absurd h (not_le.2 (by positivity))
  rw [lastPlace, if_neg hzero,
    Ratio.order_eq (by decide) hr (by exact_mod_cast h) (by exact_mod_cast h')]

theorem lastPlace_le (hr : 0 < r.den) (horder : 0 ≤ order)
    (h : r.value < (10 : ℚ) ^ (order + 1)) (hcount : 1 ≤ count) : lastPlace count r ≤ order := by
  by_cases hzero : r.num = 0
  · rwa [lastPlace, if_pos hzero]
  · have hten : 1 < 10 := by decide
    obtain ⟨hle, -⟩ := Ratio.order_spec hten (Nat.pos_of_ne_zero hzero) hr
    have hlt := (zpow_lt_zpow_iff_right₀ (by norm_num : (1 : ℚ) < 10)).1 (lt_of_le_of_lt hle h)
    rw [lastPlace, if_neg hzero]
    omega

end Digits

/-! ### Candidates for a single -/

namespace Numeral

variable {magnitude single : Dyadic} {digits : Digits} {m count : Nat}

theorem limit_single : binary32.limit = 2 ^ 128 - 2 ^ 103 := by
  rw [limit, value_largest, value_beyond (by decide)]
  norm_num [binary32]

theorem exists_rounds_single_iff :
    (∃ single, binary32.Rounds magnitude.value single) ↔ magnitude.value < 2 ^ 128 - 2 ^ 103 := by
  rw [← limit_single, ← Dyadic.value_ratio,
    exists_rounds_iff (by decide) (by decide) magnitude.ratio_den_pos]

/-- A single with the largest exponent is a double as well. -/
theorem exists_double (h : 2 ^ 23 ≤ m) (h' : m < 2 ^ 24) : ∃ double : Dyadic,
    binary64.Canonical double ∧ double.exponent ≤ binary64.maxExponent ∧
      double.value = (⟨m, 104⟩ : Dyadic).value := by
  have hmin : binary64.minExponent ≤ 75 := by decide
  have hmax : 75 ≤ binary64.maxExponent := by decide
  refine ⟨⟨m * 2 ^ 29, 75⟩, ⟨?_, hmin, .inr ?_⟩, hmax, ?_⟩
  · show m * 2 ^ 29 < 2 ^ 53
    omega
  · show 2 ^ 53 ≤ 2 * (m * 2 ^ 29)
    omega
  · simp only [Dyadic.value]
    push_cast
    ring

/-- Digits up to a single with the largest exponent are read as a single up to there. -/
theorem exists_readSingle (h : 2 ^ 23 ≤ m) (h' : m < 2 ^ 24)
    (hle : digits.value ≤ (⟨m, 104⟩ : Dyadic).value) :
    ∃ read, readSingle digits = some read ∧ read.value ≤ (⟨m, 104⟩ : Dyadic).value := by
  obtain ⟨top, hcanonical, hmax, htop⟩ := exists_double h h'
  rw [← htop, ← Digits.value_ratio] at hle
  obtain ⟨double, hdouble, hdle⟩ :=
    exists_nearest_le (by decide) (by decide) digits.ratio_den_pos hcanonical hmax hle
  rw [htop, ← Dyadic.value_ratio] at hdle
  have hmin : binary32.minExponent ≤ 104 := by decide
  have hsingle : binary32.Canonical ⟨m, 104⟩ := by
    refine ⟨h', hmin, .inr ?_⟩
    show 2 ^ 24 ≤ 2 * m
    omega
  obtain ⟨read, hread, hrle⟩ := exists_nearest_le (by decide) (by decide)
    double.ratio_den_pos hsingle le_rfl hdle
  exact ⟨read, Option.bind_eq_some_iff.2 ⟨double, hdouble, hread⟩, hrle⟩

/-- Digits past the largest single are not read as one. -/
theorem readSingle_eq_none (h : 2 ^ 128 ≤ digits.value) : readSingle digits = none := by
  rw [Option.eq_none_iff_forall_ne_some]
  intro read hread
  obtain ⟨double, hdouble, hsingle⟩ := readSingle_rounds hread
  let past : Dyadic := ⟨2 ^ 52, 76⟩
  have hpast : past.value = 2 ^ 128 := by norm_num [past, Dyadic.value]
  have hcanonical : binary64.Canonical past := ⟨by decide, by decide, .inr (by decide)⟩
  have hle := hdouble.1.le_value hcanonical (hpast.trans_le h)
  have hlt := exists_rounds_single_iff.1 ⟨read, hsingle⟩
  rw [hpast] at hle
  exact absurd (hle.trans_lt hlt) (by norm_num)

/-- No candidate for a number up to `3.4025e38` lies past the largest single. -/
theorem candidate_le {r : Ratio} (hr : 0 < r.den) (hcount : 1 ≤ count)
    (h : r.value ≤ 34025 * 10 ^ 34) :
    (Digits.rounded count r).value ≤ (⟨2 ^ 24 - 1, 104⟩ : Dyadic).value := by
  obtain ⟨place, hplace⟩ : ∃ place, Digits.lastPlace count r = place := ⟨_, rfl⟩
  have hle : place ≤ 38 := hplace ▸ Digits.lastPlace_le hr (by decide)
    (h.trans_lt (by norm_num)) hcount
  have hdown (n : Nat) (hn : n * (10 : ℚ) ^ place ≤ 34025 * 10 ^ 34)
      (hmiddle : 2 * r.value < (2 * n + 1) * (10 : ℚ) ^ place ∨
        2 * r.value = (2 * n + 1) * (10 : ℚ) ^ place ∧ n % 2 = 0) :
      (Digits.rounded count r).value ≤ (⟨2 ^ 24 - 1, 104⟩ : Dyadic).value := by
    refine ((Digits.value_rounded_le hr hplace hmiddle).trans hn).trans ?_
    norm_num [Dyadic.value]
  by_cases hlow : place ≤ 34
  · -- The bound itself has all its digits down to such a place.
    have hunit : (0 : ℚ) < 10 ^ place := by positivity
    have hbound : ((34025 * 10 ^ (34 - place).toNat : Nat) : ℚ) * 10 ^ place = 34025 * 10 ^ 34 := by
      push_cast
      rw [mul_assoc, ← zpow_natCast, ← zpow_add₀ (by norm_num), Int.toNat_of_nonneg (by omega),
        sub_add_cancel]
      rfl
    exact hdown _ hbound.le (.inl (by linarith))
  · obtain rfl | rfl | rfl | rfl : place = 35 ∨ place = 36 ∨ place = 37 ∨ place = 38 := by omega
    · refine hdown 3402 (by norm_num) (h.lt_or_eq.imp (fun hlt => ?_) fun heq => ⟨?_, rfl⟩)
      · norm_num
        linarith
      · rw [heq]
        norm_num
    · exact hdown 340 (by norm_num) (.inl (by norm_num; linarith))
    · exact hdown 34 (by norm_num) (.inl (by norm_num; linarith))
    · exact hdown 3 (by norm_num) (.inl (by norm_num; linarith))

/-! ### The first candidate that reads back -/

theorem firstReadable_ne_none {counts : List Nat}
    (h : ∀ count ∈ counts, ∃ read, readSingle (Digits.rounded count magnitude.ratio) = some read) :
    firstReadable magnitude single counts ≠ none := by
  induction counts with
  | nil => exact Option.some_ne_none _
  | cons count rest ih =>
    obtain ⟨hcount, hrest⟩ := List.forall_mem_cons.1 h
    obtain ⟨read, hread⟩ := hcount
    unfold firstReadable
    simp only [hread]
    split_ifs
    · exact Option.some_ne_none _
    · exact ih hrest

/-- A candidate that is read as another single is passed over. -/
theorem firstReadable_of_ne {read : Dyadic}
    (hread : readSingle (Digits.rounded count magnitude.ratio) = some read) (hne : read ≠ single)
    (rest : List Nat) :
    firstReadable magnitude single (count :: rest) = firstReadable magnitude single rest := by
  conv_lhs => unfold firstReadable
  simp only [hread, if_neg hne]

/-- A candidate past the largest single ends the search. -/
theorem firstReadable_of_none
    (hread : readSingle (Digits.rounded count magnitude.ratio) = none) (rest : List Nat) :
    firstReadable magnitude single (count :: rest) = none := by
  unfold firstReadable
  simp only [hread]

/-- Above `3.4025e38` the candidates of up to three digits are read as smaller singles, and that of four
digits lies past the largest. -/
theorem firstReadable_eq_none (hlow : 34025 * 10 ^ 34 < magnitude.value)
    (hhigh : magnitude.value < 2 ^ 128) (hsingle : binary32.Rounds magnitude.value single)
    (rest : List Nat) : firstReadable magnitude single (1 :: 2 :: 3 :: 4 :: rest) = none := by
  have hr := magnitude.ratio_den_pos
  have hvalue := magnitude.value_ratio
  have hplace (count : Nat) : Digits.lastPlace count magnitude.ratio = 38 - count + 1 :=
    Digits.lastPlace_eq hr (by rw [hvalue]; norm_num; linarith) (by rw [hvalue]; norm_num; linarith)
      count
  -- Two singles next to each other lie between the short candidates and the number.
  let below : Dyadic := ⟨16775619, 104⟩
  let above : Dyadic := ⟨16775620, 104⟩
  have hgap : below.value < above.value := by norm_num [below, above, Dyadic.value]
  have habove : above.value ≤ 34025 * 10 ^ 34 := by norm_num [above, Dyadic.value]
  have hcanonical : binary32.Canonical above := ⟨by decide, by decide, .inr (by decide)⟩
  have hreach := hsingle.1.le_value hcanonical (habove.trans hlow.le)
  have hshort (count n : Nat)
      (h : 2 * magnitude.value < (2 * n + 1) * (10 : ℚ) ^ (38 - count + 1 : Int))
      (hn : n * (10 : ℚ) ^ (38 - count + 1 : Int) ≤ 34 * 10 ^ 37) :
      ∃ read, readSingle (Digits.rounded count magnitude.ratio) = some read ∧ read ≠ single := by
    have hdown := Digits.value_rounded_le hr (hplace count) (.inl (hvalue.symm ▸ h))
    obtain ⟨read, hread, hle⟩ := exists_readSingle (m := 16775619) (by decide) (by decide)
      ((hdown.trans hn).trans (by norm_num [Dyadic.value]))
    exact ⟨read, hread, fun heq => absurd (heq ▸ hle) (not_le.2 (hgap.trans_le hreach))⟩
  obtain ⟨read₁, hread₁, hne₁⟩ := hshort 1 3 (by norm_num; linarith) (by norm_num)
  obtain ⟨read₂, hread₂, hne₂⟩ := hshort 2 34 (by norm_num; linarith) (by norm_num)
  obtain ⟨read₃, hread₃, hne₃⟩ := hshort 3 340 (by norm_num; linarith) (by norm_num)
  have hpast : readSingle (Digits.rounded 4 magnitude.ratio) = none := by
    have hup := Digits.le_value_rounded (n := 3403) hr (hplace 4) (by rw [hvalue]; norm_num; linarith)
    exact readSingle_eq_none (hup.trans' (by norm_num))
  rw [firstReadable_of_ne hread₁ hne₁, firstReadable_of_ne hread₂ hne₂,
    firstReadable_of_ne hread₃ hne₃, firstReadable_of_none hpast]

/-- A number that is rounded to a single has no text as one just where a candidate ends the search. -/
theorem ofSingle?_eq_none (negative : Bool)
    (hnearest : binary32.nearest magnitude.ratio = some single) :
    ofSingle? (.finite negative magnitude) = none ↔
      firstReadable magnitude single [1, 2, 3, 4, 5, 6, 7, 8, 9] = none := by
  simp only [ofSingle?, hnearest, Option.bind_eq_bind, Option.bind_some]
  cases firstReadable magnitude single [1, 2, 3, 4, 5, 6, 7, 8, 9] with
  | none => exact iff_of_true rfl rfl
  | some found => cases found <;> exact iff_of_false nofun nofun

/-- A number has no text as a single just where it lies above `3.4025e38`, though it is rounded to a
single all the way up to `2 ^ 128 - 2 ^ 103`. -/
theorem single_without_text_iff (negative : Bool) (magnitude : Dyadic) :
    (ofSingle? (.finite negative magnitude) = none ↔ 34025 * 10 ^ 34 < magnitude.value) ∧
    ((∃ single, binary32.Rounds magnitude.value single) ↔
      magnitude.value < 2 ^ 128 - 2 ^ 103) := by
  refine ⟨?_, exists_rounds_single_iff⟩
  have hr := magnitude.ratio_den_pos
  cases hnearest : binary32.nearest magnitude.ratio with
  | none =>
    have hfar := (nearest_eq_none_iff (by decide) (by decide) hr).1 hnearest
    rw [limit_single, Dyadic.value_ratio] at hfar
    have hnone : ofSingle? (.finite negative magnitude) = none := by
      simp only [ofSingle?, hnearest]
      rfl
    exact iff_of_true hnone (lt_of_lt_of_le (by norm_num) hfar)
  | some single =>
    have hsingle : binary32.Rounds magnitude.value single := by
      rw [← Dyadic.value_ratio]
      exact (nearest_eq_some_iff (by decide) hr).1 hnearest
    have hhigh := exists_rounds_single_iff.1 ⟨single, hsingle⟩
    rw [ofSingle?_eq_none negative hnearest]
    by_cases hlow : 34025 * 10 ^ 34 < magnitude.value
    · exact iff_of_true
        (firstReadable_eq_none hlow (hhigh.trans (by norm_num)) hsingle [5, 6, 7, 8, 9]) hlow
    · refine iff_of_false (firstReadable_ne_none fun count hcount => ?_) hlow
      have hone : 1 ≤ count := by revert count; decide
      have hle := candidate_le hr hone (by rw [Dyadic.value_ratio]; exact not_lt.1 hlow)
      obtain ⟨read, hread, -⟩ := exists_readSingle (by decide) (by decide) hle
      exact ⟨read, hread⟩

/-- The largest single is a double that is rounded to itself, and it has no text. -/
theorem largest_single_without_text :
    let largest : Dyadic := ⟨0x1fffffe0000000, 75⟩
    Double.ofBits 0x47efffffe0000000 = .finite false largest ∧
      binary32.Rounds largest.value ⟨0xffffff, 104⟩ ∧
      ofSingle? (.finite false largest) = none := by
  intro largest
  have hvalue : largest.value = (⟨0xffffff, 104⟩ : Dyadic).value := by
    norm_num [largest, Dyadic.value]
  have hcanonical : binary32.Canonical ⟨0xffffff, 104⟩ := ⟨by decide, by decide, .inr (by decide)⟩
  refine ⟨by decide, ⟨?_, by decide⟩, by decide +kernel⟩
  rw [hvalue]
  exact hcanonical.isNearest

end Numeral

end Scribe
