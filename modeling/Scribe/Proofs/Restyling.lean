import Scribe.Proofs.NumeralReading

/-!
# Restyled numerals

`Numeral.Parts`: a numeral by its parts, which are a minus or nothing, digits, a point with digits behind
it or nothing, and an exponent or nothing. What `Numeral.restyle` makes of a numeral is the numeral of
the restyled parts (`Parts.restyle_chars`): a fraction of one zero goes, and an exponent gets its sign and
a second digit. `Numeral.restyle_numeral` says what that comes to: the number and its sign stay, and a
second restyling finds nothing to do.
-/

namespace Scribe

namespace Numeral

/-! ### Exponents -/

/-- The sign of an exponent, which may be left out. -/
inductive ExponentSign
  | missing | plus | minus
deriving DecidableEq, Repr

def ExponentSign.chars : ExponentSign → List Char
  | .missing => []
  | .plus => ['+']
  | .minus => ['-']

structure Exponent where
  sign : ExponentSign
  digits : List Char
  areDigits : AreDigits digits

namespace Exponent

variable (e : Exponent)

def chars : List Char := e.sign.chars ++ e.digits

/-- The power of ten. -/
def power : Int := if e.sign = .minus then -(readNat e.digits : Int) else readNat e.digits

/-- The exponent with a sign and two digits or more. -/
def restyled : Exponent where
  sign := if e.sign = .minus then .minus else .plus
  digits := zeros (2 - e.digits.length) ++ e.digits
  areDigits := e.areDigits.prepend (isDigit_zeros _)

theorem sign_restyled : e.restyled.sign ≠ .missing := by
  show (if e.sign = .minus then ExponentSign.minus else .plus) ≠ .missing
  split_ifs <;> decide

theorem two_le_length_restyled : 2 ≤ e.restyled.digits.length := by
  simp only [restyled, zeros, List.length_append, List.length_replicate]
  omega

theorem not_mem_chars {c : Char} (hc : c.isDigit = false) (hsign : c ∉ ['+', '-']) : c ∉ e.chars := by
  obtain ⟨sign, digits, hdigits⟩ := e
  rw [List.mem_cons, List.mem_singleton, not_or] at hsign
  cases sign with
  | missing => exact hdigits.not_mem hc
  | plus => exact List.not_mem_cons_of_ne_of_not_mem hsign.1 (hdigits.not_mem hc)
  | minus => exact List.not_mem_cons_of_ne_of_not_mem hsign.2 (hdigits.not_mem hc)

theorem restyleExponent_chars : restyleExponent e.chars = e.restyled.chars := by
  obtain ⟨sign, digits, hdigits⟩ := e
  cases sign with
  | missing => exact restyleExponent_digits hdigits
  | plus => exact restyleExponent_plus hdigits
  | minus => exact restyleExponent_minus hdigits

theorem readExponent?_chars : Form.plain.readExponent? e.chars = some e.power := by
  obtain ⟨sign, digits, hdigits⟩ := e
  have hread : Form.plain.readWide? digits = some (readNat digits) :=
    Form.readWide?_eq hdigits (List.length_pos_iff.2 hdigits.1)
  cases sign with
  | missing =>
    show Form.plain.readExponent? digits = _
    unfold Form.readExponent?
    split
    · exact absurd (List.mem_cons_self ..) (hdigits.not_mem (c := '-') rfl)
    · exact absurd (List.mem_cons_self ..) (hdigits.not_mem (c := '+') rfl)
    · rw [hread]
      rfl
  | plus =>
    show Form.plain.readExponent? ('+' :: digits) = _
    rw [Form.readExponent?, hread]
    rfl
  | minus =>
    show Form.plain.readExponent? ('-' :: digits) = _
    rw [Form.readExponent?, hread]
    rfl

end Exponent

/-! ### Numerals -/

/-- A numeral by its parts. -/
structure Parts where
  negative : Bool
  whole : List Char
  fraction : Option (List Char)
  exponent : Option Exponent
  areDigits_whole : AreDigits whole
  areDigits_fraction : ∀ digits ∈ fraction, AreDigits digits

namespace Parts

/-- The digits, with a point among them if there is a fraction. -/
def mantissa (n : Parts) : List Char :=
  match n.fraction with
  | none => n.whole
  | some digits => n.whole ++ '.' :: digits

/-- The numeral without its sign. -/
def unsigned (mark : Char) (n : Parts) : List Char :=
  match n.exponent with
  | none => n.mantissa
  | some e => n.mantissa ++ mark :: e.chars

/-- The numeral, with a mark before its exponent. -/
def chars (mark : Char) (n : Parts) : List Char := signed n.negative (n.unsigned mark)

/-- The number that the mantissa stands for. -/
def significand (n : Parts) : ℚ :=
  match n.fraction with
  | none => readNat n.whole
  | some digits => readNat n.whole + readNat digits / 10 ^ digits.length

/-- The number without its sign. -/
def magnitude (n : Parts) : ℚ :=
  match n.exponent with
  | none => n.significand
  | some e => n.significand * 10 ^ e.power

/-- The parts without a fraction of one zero, and with the exponent restyled. -/
def restyled (n : Parts) : Parts where
  negative := n.negative
  whole := n.whole
  fraction := if n.fraction = some ['0'] then none else n.fraction
  exponent := n.exponent.map Exponent.restyled
  areDigits_whole := n.areDigits_whole
  areDigits_fraction := fun digits h => by
    split_ifs at h
    · cases h
    · exact n.areDigits_fraction digits h

variable (n : Parts)

theorem readMantissa?_mantissa : readMantissa? n.mantissa = some n.significand := by
  obtain ⟨negative, whole, fraction, exponent, hwhole, hfraction⟩ := n
  cases fraction with
  | none => exact readMantissa?_digits hwhole
  | some digits => exact readMantissa?_point hwhole (hfraction digits rfl)

/-- Nothing stands in a mantissa but digits and a point. -/
theorem not_mem_mantissa {c : Char} (hc : c.isDigit = false) (hpoint : c ≠ '.') : c ∉ n.mantissa :=
  not_mem_of_readMantissa? n.readMantissa?_mantissa hc hpoint

/-- The reader of numerals finds the sign and the number. -/
theorem read?_chars : Form.plain.read? (n.chars 'e') = some (n.negative, n.magnitude) := by
  refine Form.read?_signed (by decide) n.negative ?_
  have hmark : Form.plain.mark ∉ n.mantissa := n.not_mem_mantissa rfl (by decide)
  unfold unsigned magnitude
  cases n.exponent with
  | none => exact (Form.readUnsigned?_mantissa hmark).trans n.readMantissa?_mantissa
  | some e =>
    refine (Form.readUnsigned?_mark hmark e.chars).trans ?_
    rw [n.readMantissa?_mantissa, e.readExponent?_chars]
    rfl

variable {n}

/-- Only a fraction of one zero ends a mantissa in `.0`. -/
theorem mantissa_ne (h : n.fraction ≠ some ['0']) (a : List Char) : n.mantissa ≠ a ++ ['.', '0'] := by
  obtain ⟨negative, whole, fraction, exponent, hwhole, hfraction⟩ := n
  intro heq
  cases fraction with
  | none =>
    have hpoint : '.' ∈ whole := by
      rw [show whole = a ++ ['.', '0'] from heq]
      simp
    exact hwhole.not_mem rfl hpoint
  | some digits =>
    have hdigits : AreDigits digits := hfraction digits rfl
    exact h (congrArg some (append_point_inj (hdigits.not_mem rfl) (by decide) heq).2)

theorem fraction_restyled : n.restyled.fraction ≠ some ['0'] := by
  unfold restyled
  dsimp only
  split_ifs with h
  · exact nofun
  · exact h

theorem dropPointZero_mantissa : dropPointZero n.mantissa = n.restyled.mantissa := by
  by_cases h : n.fraction = some ['0']
  · have hmantissa : n.mantissa = n.whole ++ ['.', '0'] := by rw [mantissa, h]
    have hrestyled : n.restyled.mantissa = n.whole := by simp [mantissa, restyled, h]
    rw [hmantissa, hrestyled, dropPointZero_append]
  · have hrestyled : n.restyled.mantissa = n.mantissa := by simp [mantissa, restyled, h]
    rw [hrestyled, dropPointZero_eq_self (mantissa_ne h)]

/-- Restyling a numeral is restyling its parts. -/
theorem restyle_chars : restyle (n.chars 'e') = n.restyled.chars 'E' := by
  have hmark : 'e' ∉ n.mantissa := n.not_mem_mantissa rfl (by decide)
  have hunsigned : restyle (n.unsigned 'e') = n.restyled.unsigned 'E' := by
    unfold unsigned
    cases hexponent : n.exponent with
    | none =>
      have hrestyled : n.restyled.exponent = none := by simp [restyled, hexponent]
      rw [hrestyled]
      exact (restyle_mantissa hmark).trans dropPointZero_mantissa
    | some e =>
      have hrestyled : n.restyled.exponent = some e.restyled := by simp [restyled, hexponent]
      rw [hrestyled]
      dsimp only
      rw [restyle_mark hmark, dropPointZero_mantissa, e.restyleExponent_chars]
  rw [chars, restyle_signed, hunsigned]
  rfl

/-- A numeral of the code without a fraction of one zero stays as it is. -/
theorem restyle_eq_self (h : n.fraction ≠ some ['0']) : restyle (n.chars 'E') = n.chars 'E' := by
  have hmark : 'e' ∉ n.mantissa := n.not_mem_mantissa rfl (by decide)
  have hunsigned : restyle (n.unsigned 'E') = n.unsigned 'E' := by
    unfold unsigned
    cases n.exponent with
    | none => exact (restyle_mantissa hmark).trans (dropPointZero_eq_self (mantissa_ne h))
    | some e =>
      have hplain : 'e' ∉ 'E' :: e.chars :=
        List.not_mem_cons_of_ne_of_not_mem (by decide) (e.not_mem_chars rfl (by decide))
      have hpoint : '.' ∉ 'E' :: e.chars :=
        List.not_mem_cons_of_ne_of_not_mem (by decide) (e.not_mem_chars rfl (by decide))
      refine (restyle_mantissa ?_).trans (dropPointZero_eq_self fun a heq => ?_)
      · exact fun hin => (List.mem_append.1 hin).elim hmark hplain
      · -- The mark of the exponent would have to stand among the last two characters, or before them.
        rcases List.append_eq_append_iff.1 heq with ⟨x, rfl, hx⟩ | ⟨x, -, hx⟩
        · exact hpoint (by rw [hx]; simp)
        · have hmark : 'E' ∈ ['.', '0'] := by rw [hx]; simp
          exact absurd hmark (by decide)
  rw [chars, restyle_signed, hunsigned]

end Parts

/-- Restyling takes a numeral with any parts to one that is read as the same number with the same sign,
with an exponent just where there was one, which has a sign and two digits or more. Its mantissa does not
end in `.0`, and restyling it again changes nothing. -/
theorem restyle_numeral (n : Parts) : ∃ m : Parts,
    restyle (n.chars 'e') = m.chars 'E' ∧
      Form.plain.read? (n.chars 'e') = some (n.negative, n.magnitude) ∧
      Form.code.read? (m.chars 'E') = some (n.negative, n.magnitude) ∧
      m.exponent.isSome = n.exponent.isSome ∧
      (∀ e ∈ m.exponent, e.sign ≠ .missing ∧ 2 ≤ e.digits.length) ∧
      ¬ ['.', '0'] <:+ m.mantissa ∧ restyle (m.chars 'E') = m.chars 'E' := by
  have hcode := read?_restyle n.read?_chars
  rw [Parts.restyle_chars] at hcode
  refine ⟨n.restyled, Parts.restyle_chars, n.read?_chars, hcode, Option.isSome_map .., ?_, ?_,
    Parts.restyle_eq_self Parts.fraction_restyled⟩
  · intro e he
    obtain ⟨d, -, rfl⟩ := Option.mem_map.1 he
    exact ⟨d.sign_restyled, d.two_le_length_restyled⟩
  · rintro ⟨a, ha⟩
    exact Parts.mantissa_ne Parts.fraction_restyled a ha.symm

/-- The numeral `-12.0e5` by its parts. -/
def Parts.minusTwelve : Parts where
  negative := true
  whole := ['1', '2']
  fraction := some ['0']
  exponent := some {
    sign := .missing
    digits := ['5']
    areDigits := ⟨List.cons_ne_nil _ _, List.forall_mem_singleton.2 rfl⟩ }
  areDigits_whole :=
    ⟨List.cons_ne_nil _ _, List.forall_mem_cons.2 ⟨rfl, List.forall_mem_singleton.2 rfl⟩⟩
  areDigits_fraction := by
    rintro _ ⟨⟩
    exact ⟨List.cons_ne_nil _ _, List.forall_mem_singleton.2 rfl⟩

/-- The numeral `-12.0e5` is read as minus 1200000, and so is `-12E+05`, which it is restyled to. -/
theorem restyle_numeral_minus_twelve :
    Parts.minusTwelve.chars 'e' = "-12.0e5".toList ∧
      restyle "-12.0e5".toList = "-12E+05".toList ∧
      Form.plain.read? "-12.0e5".toList = some (true, 1200000) ∧
      Form.code.read? "-12E+05".toList = some (true, 1200000) ∧
      restyle "-12E+05".toList = "-12E+05".toList := by
  have hchars : Parts.minusTwelve.chars 'e' = "-12.0e5".toList := by decide
  have hrestyle : restyle "-12.0e5".toList = "-12E+05".toList := by decide
  have hmagnitude : Parts.minusTwelve.magnitude = 1200000 := by
    have hwhole : readNat ['1', '2'] = 12 := by decide
    have hzero : readNat ['0'] = 0 := by decide
    show (readNat ['1', '2'] + readNat ['0'] / 10 ^ 1 : ℚ) * 10 ^ (5 : Int) = 1200000
    rw [hwhole, hzero]
    norm_num
  obtain ⟨m, hm, hplain, hcode, -, -, -, hfixed⟩ := restyle_numeral Parts.minusTwelve
  rw [hchars, hrestyle] at hm
  rw [hchars, hmagnitude] at hplain
  rw [← hm, hmagnitude] at hcode
  rw [← hm] at hfixed
  exact ⟨hchars, hrestyle, hplain, hcode, hfixed⟩

end Numeral

end Scribe
