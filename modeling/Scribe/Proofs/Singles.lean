import Mathlib.Tactic.FieldSimp
import Scribe.Proofs.NumeralReading
import Scribe.Proofs.Rounding

/-!
# Texts of singles read back

`Numeral.single_reads_back`: whatever double is written as a single, the text is a numeral of the
form that the code has, and what it denotes is rounded to the same single as the double, by way of the
nearest double. Up to nine digits the text was read before it was chosen. Where nine digits do not
suffice the text is that of the double itself, whose shortest digits read back as the double:
`Digits.shortest_rounds`.
-/

namespace Scribe

open BinaryFormat

namespace Digits

theorem value_ratio (d : Digits) : d.ratio.value = d.value := by
  rw [ratio, Ratio.value_scale _ (by decide), Ratio.value_ofNat, value, Nat.cast_ofNat]

theorem ratio_den_pos (d : Digits) : 0 < d.ratio.den :=
  Ratio.scale_den_pos (by decide) Nat.one_pos d.exponent

/-- A format reads digits as the number that they are rounded to. -/
theorem nearest_ratio {f : BinaryFormat} (hp : 2 ≤ f.precision) {c : Digits} {d : Dyadic} :
    f.nearest c.ratio = some d ↔ f.Rounds c.value d := by
  rw [nearest_eq_some_iff hp c.ratio_den_pos, value_ratio]

/-- All digits of a dyadic number are the number itself: below the point a half is five tenths. -/
theorem value_expansion (d : Dyadic) : (expansion d).value = d.value := by
  obtain ⟨m, e⟩ := d
  rw [expansion, value, Dyadic.value]
  dsimp only
  push_cast
  rcases le_total 0 e with he | he
  · have hneg : (-e).toNat = 0 := by omega
    have hexponent : e = e.toNat := by omega
    rw [hneg, min_eq_right he]
    conv_rhs => rw [hexponent, zpow_natCast]
    simp
  · have hpos : e.toNat = 0 := by omega
    have hexponent : e = -((-e).toNat : Int) := by omega
    have hten : (10 : ℚ) = 5 * 2 := by norm_num
    rw [hpos, min_eq_left he, hten]
    conv_lhs => rw [hexponent]
    conv_rhs => rw [hexponent]
    rw [zpow_neg, zpow_neg, zpow_natCast, zpow_natCast, neg_neg, Int.toNat_natCast, mul_pow]
    simp
    field_simp

theorem nearer_cases (r : Ratio) (below above : Digits) :
    nearer r below above = below ∨ nearer r below above = above := by
  unfold nearer
  dsimp only
  split_ifs
  exacts [.inl rfl, .inr rfl, .inl rfl, .inr rfl]

/-- Candidates are taken only if they read back. -/
theorem nearest_of_readable? {f : BinaryFormat} {d : Dyadic} {count : Nat} {c : Digits}
    (h : readable? f d count = some c) : f.nearest c.ratio = some d := by
  unfold readable? at h
  generalize neighbours count d.ratio = candidates at h
  obtain ⟨below, above⟩ := candidates
  dsimp only at h
  split at h
  · next hbelow habove =>
    cases h
    rcases nearer_cases d.ratio below above with hc | hc <;> rw [hc]
    exacts [eq_of_beq hbelow, eq_of_beq habove]
  · next hbelow _ =>
    cases h
    exact eq_of_beq hbelow
  · next _ habove =>
    cases h
    exact eq_of_beq habove
  · cases h

/-- The shortest digits of a double are rounded to the double. -/
theorem shortest_rounds {d : Dyadic} (hd : binary64.Canonical d)
    (hmax : d.exponent ≤ binary64.maxExponent) : binary64.Rounds (shortest d).value d := by
  unfold shortest
  cases hfound : (List.range 17).findSome? fun n => readable? .binary64 d (n + 1) with
  | some c =>
    obtain ⟨n, -, hn⟩ := List.exists_of_findSome?_eq_some hfound
    exact (nearest_ratio (by decide)).1 (nearest_of_readable? hn)
  | none =>
    rw [Option.getD_none, value_expansion]
    exact ⟨hd.isNearest, hmax⟩

end Digits

/-! ### Doubles from their bits -/

/-- The magnitude of a double is a number of its format, in its one form. -/
theorem Double.canonical_ofBits {bits : UInt64} {negative : Bool} {magnitude : Dyadic}
    (h : ofBits bits = .finite negative magnitude) :
    binary64.Canonical magnitude ∧ magnitude.exponent ≤ binary64.maxExponent := by
  have hfraction : bits.toNat % 0x10000000000000 < 2 ^ 52 := Nat.mod_lt _ (by decide)
  have hexponent : bits.toNat / 0x10000000000000 % 0x800 < 2048 := Nat.mod_lt _ (by decide)
  have hprecision : binary64.precision = 53 := rfl
  have hmin : binary64.minExponent = -1074 := rfl
  have hmax : binary64.maxExponent = 971 := rfl
  unfold ofBits at h
  dsimp only at h
  split_ifs at h with htop hfinite hzero
  · cases h
    refine ⟨⟨?_, ?_, .inl rfl⟩, ?_⟩ <;> simp only [hprecision, hmin, hmax] <;> omega
  · cases h
    refine ⟨⟨?_, ?_, .inr ?_⟩, ?_⟩ <;> simp only [hprecision, hmin, hmax] <;> omega

/-! ### Singles -/

namespace Numeral

theorem readSingle_rounds {digits : Digits} {single : Dyadic} (h : readSingle digits = some single) :
    ∃ double, binary64.Rounds digits.value double ∧ binary32.Rounds double.value single := by
  obtain ⟨double, hdouble, hsingle⟩ := Option.bind_eq_some_iff.1 h
  rw [nearest_eq_some_iff (by decide) double.ratio_den_pos, Dyadic.value_ratio] at hsingle
  exact ⟨double, (Digits.nearest_ratio (by decide)).1 hdouble, hsingle⟩

/-- A candidate that is chosen was read as the single. -/
theorem readSingle_of_firstReadable {magnitude single : Dyadic} {counts : List Nat} {count : Nat}
    {digits : Digits} (h : firstReadable magnitude single counts = some (some (count, digits))) :
    readSingle digits = some single := by
  induction counts with
  | nil => cases h
  | cons first rest ih =>
    unfold firstReadable at h
    dsimp only at h
    split at h
    · cases h
    · next read hread =>
      split_ifs at h with heq
      · cases h
        rw [hread, heq]
      · exact ih h

/-- The text of a double that is written as a single is a numeral with the sign of the double, and the
exact number that it denotes is rounded to a double, and then to a single, with the same result as
rounding the double itself to a single. -/
theorem single_reads_back {bits : UInt64} {negative : Bool} {magnitude : Dyadic} {text : String}
    (hbits : Double.ofBits bits = .finite negative magnitude)
    (h : ofSingle? (.finite negative magnitude) = some text) :
    ∃ value double single, Form.code.read? text.toList = some (negative, value) ∧
      binary64.Rounds value double ∧ binary32.Rounds double.value single ∧
      binary32.Rounds magnitude.value single := by
  obtain ⟨hcanonical, hmax⟩ := Double.canonical_ofBits hbits
  obtain ⟨single, hsingle, h⟩ := Option.bind_eq_some_iff.1 h
  obtain ⟨found, hfound, h⟩ := Option.bind_eq_some_iff.1 h
  rw [nearest_eq_some_iff (by decide) magnitude.ratio_den_pos, Dyadic.value_ratio] at hsingle
  cases found with
  | some candidate =>
    obtain ⟨count, digits⟩ := candidate
    cases h
    obtain ⟨double, hdouble, hread⟩ := readSingle_rounds (readSingle_of_firstReadable hfound)
    refine ⟨digits.value, double, single, ?_, hdouble, hread, hsingle⟩
    rw [String.toList_ofList]
    exact read?_restyle (read?_significant count negative digits)
  | none =>
    cases h
    refine ⟨(Digits.shortest magnitude).value, magnitude, single, ?_,
      Digits.shortest_rounds hcanonical hmax, hsingle, hsingle⟩
    rw [String.toList_ofList]
    exact read?_restyle (read?_shortest negative magnitude)

/-- A double in the middle of two singles, for which nine digits do not suffice. -/
theorem single_reads_back_middle :
    let bits : UInt64 := 0x411f9270f0000000
    let magnitude : Dyadic := ⟨0x1f9270f0000000, -34⟩
    Double.ofBits bits = .finite false magnitude ∧
      ofSingle? (.finite false magnitude) = some "517276.234375" ∧
      ∃ value double single, Form.code.read? "517276.234375".toList = some (false, value) ∧
        binary64.Rounds value double ∧ binary32.Rounds double.value single ∧
        binary32.Rounds magnitude.value single := by
  intro bits magnitude
  have hbits : Double.ofBits bits = .finite false magnitude := by decide
  have htext : ofSingle? (.finite false magnitude) = some "517276.234375" := by decide +kernel
  exact ⟨hbits, htext, single_reads_back hbits htext⟩

end Numeral

end Scribe
