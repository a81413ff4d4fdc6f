import Mathlib.Algebra.Order.Field.Power
import Mathlib.Algebra.Order.Field.Rat
import Mathlib.Data.List.TakeWhile
import Mathlib.Tactic.Ring
import Scribe.Number.Numeral
import Scribe.Proofs.Equality
import Scribe.Proofs.Numerals

/-!
# What a numeral denotes

`Numeral.Form.read?` reads a numeral: a minus or nothing, digits that may have a point among them, and
an exponent or none. It takes nothing else, and gives the sign and the exact number. There are two forms
of exponents: that of the plain numeral, and that of the rendered code.

What `Numeral.general` spells out is the number of its digits (`readUnsigned?_general`), with zeros
left out at their end or not, and `Numeral.restyle` takes the plain form of a numeral to the form of the
code without a change to its sign or its number: `read?_restyle`.
-/

namespace Scribe

namespace Numeral

/-! ### Digits -/

/-- One decimal digit or more, and nothing else. -/
def AreDigits (digits : List Char) : Prop := digits ≠ [] ∧ ∀ c ∈ digits, c.isDigit = true

theorem readNat_append (a b : List Char) :
    readNat (a ++ b) = readNat a * 10 ^ b.length + readNat b := by
  show Nat.ofDigitChars 10 (a ++ b) 0 = _
  rw [Nat.ofDigitChars_append, Nat.ofDigitChars_eq_ofDigitChars_zero, Nat.mul_comm]
  rfl

theorem readNat_zeros (n : Nat) : readNat (zeros n) = 0 :=
  Nat.ofDigitChars_replicate_zero.trans (Nat.mul_zero _)

theorem readNat_toDigits (n : Nat) : readNat (Nat.toDigits 10 n) = n := Nat.ofDigitChars_ten_toDigits

theorem digit?_eq {c : Char} (h : c.isDigit = true) : digit? 10 c = some (c.toNat - '0'.toNat) := by
  obtain ⟨hlow, hhigh⟩ := Char.isDigit_iff_toNat.1 h
  have hlt : c.toNat - '0'.toNat < 10 := by
    have h9 : '9'.toNat = '0'.toNat + 9 := rfl
    omega
  rw [digit?, if_pos ⟨hlow, hhigh, hlt⟩]

theorem isDigit_of_digit? {c : Char} (h : (digit? 10 c).isSome = true) : c.isDigit = true := by
  unfold digit? at h
  split_ifs at h with hdecimal hletter
  · exact Char.isDigit_iff_toNat.2 ⟨hdecimal.1, hdecimal.2.1⟩
  · omega
  · cases h

theorem foldlM_readDigit? {digits : List Char} (h : ∀ c ∈ digits, c.isDigit = true) (n : Nat) :
    digits.foldlM (readDigit? 10) n = some (Nat.ofDigitChars 10 digits n) := by
  induction digits generalizing n with
  | nil => rfl
  | cons c digits ih =>
    obtain ⟨hc, hdigits⟩ := List.forall_mem_cons.1 h
    rw [List.foldlM_cons, readDigit?, digit?_eq hc, Nat.ofDigitChars_cons]
    exact ih hdigits _

theorem readDigits?_eq_some_iff {digits : List Char} {n : Nat} :
    readDigits? 10 digits = some n ↔ AreDigits digits ∧ readNat digits = n := by
  constructor
  · intro h
    have hdigits (c : Char) (hc : c ∈ digits) : c.isDigit = true :=
      isDigit_of_digit? (digit?_of_readDigits? h c hc)
    unfold readDigits? at h
    split_ifs at h with hempty
    rw [foldlM_readDigit? hdigits] at h
    exact ⟨⟨fun hnil => hempty (by rw [hnil]; rfl), hdigits⟩, Option.some.inj h⟩
  · rintro ⟨⟨hne, hdigits⟩, rfl⟩
    rw [readDigits?, if_neg (by simpa using hne), foldlM_readDigit? hdigits]
    rfl

namespace AreDigits

variable {a b : List Char}

theorem append (ha : AreDigits a) (hb : ∀ c ∈ b, c.isDigit = true) : AreDigits (a ++ b) :=
  ⟨List.append_ne_nil_of_left_ne_nil ha.1 b, List.forall_mem_append.2 ⟨ha.2, hb⟩⟩

theorem prepend (hb : AreDigits b) (ha : ∀ c ∈ a, c.isDigit = true) : AreDigits (a ++ b) :=
  ⟨List.append_ne_nil_of_right_ne_nil a hb.1, List.forall_mem_append.2 ⟨ha, hb.2⟩⟩

theorem not_mem (h : AreDigits a) {c : Char} (hc : c.isDigit = false) : c ∉ a := fun hin => by
  rw [h.2 c hin] at hc
  cases hc

theorem toDigits (n : Nat) : AreDigits (Nat.toDigits 10 n) :=
  ⟨Nat.toDigits_ne_nil, fun _ => Nat.isDigit_of_mem_toDigits (by decide) (by decide)⟩

end AreDigits

theorem isDigit_zeros (n : Nat) : ∀ c ∈ zeros n, c.isDigit = true := fun c hc => by
  rw [List.eq_of_mem_replicate hc]
  rfl

/-! ### The reader -/

/-- The number that digits spell out, with a point among them or without. -/
def readMantissa? (mantissa : List Char) : Option ℚ :=
  match mantissa.dropWhile (· != '.') with
  | [] => (readDigits? 10 mantissa).map Nat.cast
  | _ :: fraction => do
    let whole ← readDigits? 10 (mantissa.takeWhile (· != '.'))
    let part ← readDigits? 10 fraction
    some (whole + part / 10 ^ fraction.length)

/-- How exponents are written: after a mark, with a sign that may have to be there, and with no fewer
digits than `width`. -/
structure Form where
  mark : Char
  needsSign : Bool
  width : Nat

namespace Form

/-- The form that numerals have before they are restyled. -/
def plain : Form := ⟨'e', false, 1⟩

/-- The form of numerals in the rendered code. -/
def code : Form := ⟨'E', true, 2⟩

variable (f : Form)

def readWide? (digits : List Char) : Option Nat :=
  if f.width ≤ digits.length then readDigits? 10 digits else none

def readExponent? : List Char → Option Int
  | '-' :: digits => (f.readWide? digits).map fun n : Nat => -(n : Int)
  | '+' :: digits => (f.readWide? digits).map Nat.cast
  | digits => if f.needsSign then none else (f.readWide? digits).map Nat.cast

def readUnsigned? (numeral : List Char) : Option ℚ :=
  match numeral.dropWhile (· != f.mark) with
  | [] => readMantissa? numeral
  | _ :: exponent => do
    let mantissa ← readMantissa? (numeral.takeWhile (· != f.mark))
    let power ← f.readExponent? exponent
    some (mantissa * 10 ^ power)

/-- Whether a numeral of the form has a minus, and the number after it. -/
def read? : List Char → Option (Bool × ℚ)
  | '-' :: rest => (f.readUnsigned? rest).map fun q => (true, q)
  | numeral => (f.readUnsigned? numeral).map fun q => (false, q)

end Form

/-! A numeral is taken apart where a character stands first. -/

section

variable {a b : List Char} {c : Char}

theorem takeWhile_mark (h : c ∉ a) : (a ++ c :: b).takeWhile (· != c) = a := by
  have hall : ∀ d ∈ a, (d != c) = true := fun d hd => bne_iff_ne.2 fun heq => h (heq ▸ hd)
  rw [List.takeWhile_append_of_pos hall, List.takeWhile_cons_of_neg (by simp), List.append_nil]

theorem dropWhile_mark (h : c ∉ a) : (a ++ c :: b).dropWhile (· != c) = c :: b := by
  have hall : ∀ d ∈ a, (d != c) = true := fun d hd => bne_iff_ne.2 fun heq => h (heq ▸ hd)
  rw [List.dropWhile_append_of_pos hall, List.dropWhile_cons_of_neg (by simp)]

theorem takeWhile_no_mark (h : c ∉ a) : a.takeWhile (· != c) = a :=
  List.takeWhile_eq_self_iff.2 fun _ hd => bne_iff_ne.2 fun heq => h (heq ▸ hd)

theorem dropWhile_no_mark (h : c ∉ a) : a.dropWhile (· != c) = [] :=
  List.dropWhile_eq_nil_iff.2 fun _ hd => bne_iff_ne.2 fun heq => h (heq ▸ hd)

end

variable {m n a b : List Char} {q : ℚ}

theorem readMantissa?_digits (h : AreDigits m) : readMantissa? m = some (readNat m : ℚ) := by
  rw [readMantissa?, dropWhile_no_mark (h.not_mem rfl), readDigits?_eq_some_iff.2 ⟨h, rfl⟩]
  rfl

theorem readMantissa?_point (ha : AreDigits a) (hb : AreDigits b) :
    readMantissa? (a ++ '.' :: b) = some (readNat a + readNat b / 10 ^ b.length : ℚ) := by
  have hpoint : '.' ∉ a := ha.not_mem rfl
  have hwhole := readDigits?_eq_some_iff.2 ⟨ha, rfl⟩
  have hpart := readDigits?_eq_some_iff.2 ⟨hb, rfl⟩
  rw [readMantissa?, dropWhile_mark hpoint, takeWhile_mark hpoint]
  simp [hwhole, hpart]

/-- A mantissa is digits, or digits with a point among them. -/
theorem readMantissa?_cases (h : readMantissa? m = some q) :
    AreDigits m ∨ ∃ a b, m = a ++ '.' :: b ∧ AreDigits a ∧ AreDigits b := by
  by_cases hpoint : '.' ∈ m
  · obtain ⟨a, b, rfl, ha⟩ := List.eq_append_cons_of_mem hpoint
    rw [readMantissa?, dropWhile_mark ha, takeWhile_mark ha] at h
    obtain ⟨x, hx, h⟩ := Option.bind_eq_some_iff.1 h
    obtain ⟨y, hy, -⟩ := Option.bind_eq_some_iff.1 h
    exact .inr ⟨a, b, rfl, (readDigits?_eq_some_iff.1 hx).1, (readDigits?_eq_some_iff.1 hy).1⟩
  · rw [readMantissa?, dropWhile_no_mark hpoint] at h
    obtain ⟨x, hx, -⟩ := Option.map_eq_some_iff.1 h
    exact .inl (readDigits?_eq_some_iff.1 hx).1

/-- Nothing stands in a mantissa but digits and points. -/
theorem not_mem_of_readMantissa? (h : readMantissa? m = some q) {c : Char} (hc : c.isDigit = false)
    (hpoint : c ≠ '.') : c ∉ m := by
  rcases readMantissa?_cases h with hm | ⟨a, b, rfl, ha, hb⟩
  · exact hm.not_mem hc
  · simp [ha.not_mem hc, hb.not_mem hc, hpoint]

namespace Form

variable {f : Form}

theorem readUnsigned?_mantissa (h : f.mark ∉ m) : f.readUnsigned? m = readMantissa? m := by
  rw [readUnsigned?, dropWhile_no_mark h]

theorem readUnsigned?_mark (h : f.mark ∉ m) (e : List Char) :
    f.readUnsigned? (m ++ f.mark :: e) = (readMantissa? m).bind fun mantissa =>
      (f.readExponent? e).bind fun power => some (mantissa * 10 ^ power) := by
  rw [readUnsigned?, dropWhile_mark h, takeWhile_mark h]
  rfl

/-- An unsigned numeral is a mantissa, or a mantissa and an exponent with the mark between them. -/
theorem readUnsigned?_cases (h : f.readUnsigned? n = some q) :
    (f.mark ∉ n ∧ readMantissa? n = some q) ∨ ∃ m e mantissa power, n = m ++ f.mark :: e ∧
      f.mark ∉ m ∧ readMantissa? m = some mantissa ∧ f.readExponent? e = some power ∧
      mantissa * 10 ^ power = q := by
  by_cases hmark : f.mark ∈ n
  · obtain ⟨m, e, rfl, hm⟩ := List.eq_append_cons_of_mem hmark
    rw [readUnsigned?_mark hm] at h
    obtain ⟨x, hx, h⟩ := Option.bind_eq_some_iff.1 h
    obtain ⟨y, hy, h⟩ := Option.bind_eq_some_iff.1 h
    exact .inr ⟨m, e, x, y, rfl, hm, hx, hy, Option.some.inj h⟩
  · rw [readUnsigned?_mantissa hmark] at h
    exact .inl ⟨hmark, h⟩

/-- A minus is part of no unsigned numeral. -/
theorem readUnsigned?_minus (hf : f.mark ≠ '-') (n : List Char) :
    f.readUnsigned? ('-' :: n) = none := by
  rw [← Option.not_isSome_iff_eq_none, Option.isSome_iff_exists]
  rintro ⟨q, h⟩
  rcases readUnsigned?_cases h with ⟨-, hm⟩ | ⟨m, e, x, y, hn, -, hx, -, -⟩
  · exact not_mem_of_readMantissa? hm rfl (by decide) (List.mem_cons_self ..)
  · cases m with
    | nil => exact hf (List.head_eq_of_cons_eq hn).symm
    | cons c m =>
      rw [List.cons_append] at hn
      obtain rfl : '-' = c := List.head_eq_of_cons_eq hn
      exact not_mem_of_readMantissa? hx rfl (by decide) (List.mem_cons_self ..)

theorem read?_signed (hf : f.mark ≠ '-') (negative : Bool) (h : f.readUnsigned? n = some q) :
    f.read? (signed negative n) = some (negative, q) := by
  cases negative with
  | true => rw [signed, if_pos rfl, read?, h]; rfl
  | false =>
    rw [signed, if_neg Bool.false_ne_true]
    unfold read?
    split
    · rw [readUnsigned?_minus hf] at h
      cases h
    · rw [h]
      rfl

/-- A numeral is an unsigned one with its sign. -/
theorem exists_of_read? {text : List Char} {negative : Bool} (h : f.read? text = some (negative, q)) :
    ∃ n, text = signed negative n ∧ f.readUnsigned? n = some q := by
  unfold read? at h
  split at h
  · obtain ⟨x, hx, h⟩ := Option.map_eq_some_iff.1 h
    cases h
    exact ⟨_, rfl, hx⟩
  · obtain ⟨x, hx, h⟩ := Option.map_eq_some_iff.1 h
    cases h
    exact ⟨_, rfl, hx⟩

end Form

/-! ### What digits spell out -/

/-- The number that digits stand for if the first of them stands at `order`. -/
def spelled (digits : List Char) (order : Int) : ℚ :=
  readNat digits * 10 ^ (order + 1 - digits.length)

/-- Zeros at the end change nothing. -/
theorem spelled_zeros (digits : List Char) (count : Nat) (order : Int) :
    spelled (digits ++ zeros count) order = spelled digits order := by
  have hlength : (digits ++ zeros count).length = digits.length + count := by simp [zeros]
  have hexponent : order + 1 - digits.length =
      (count : Int) + (order + 1 - (digits.length + count : Nat)) := by
    push_cast
    ring
  rw [spelled, spelled, readNat_append, readNat_zeros, hlength, hexponent, zpow_add₀ (by norm_num)]
  simp [zeros]
  ring

theorem trimZeros_eq (digits : List Char) : ∃ count, digits = trimZeros digits ++ zeros count := by
  cases digits with
  | nil => exact ⟨0, rfl⟩
  | cons first rest =>
    have hsplit := congrArg List.reverse
      (List.takeWhile_append_dropWhile (p := (· == '0')) (l := rest.reverse))
    have hzeros : (rest.reverse.takeWhile (· == '0')).reverse =
        zeros (rest.reverse.takeWhile (· == '0')).length := by
      rw [zeros, List.eq_replicate_iff, List.length_reverse]
      exact ⟨rfl, fun c hc => by simpa using List.mem_takeWhile_imp (List.mem_reverse.1 hc)⟩
    rw [List.reverse_append, List.reverse_reverse, hzeros] at hsplit
    exact ⟨_, by rw [trimZeros, List.cons_append, hsplit]⟩

variable {digits : List Char} (h : AreDigits digits)

include h

theorem areDigits_trimZeros : AreDigits (trimZeros digits) := by
  obtain ⟨count, hcount⟩ := trimZeros_eq digits
  refine ⟨fun hnil => ?_, fun c hc => h.2 c (by rw [hcount]; exact List.mem_append_left _ hc)⟩
  cases digits with
  | nil => exact h.1 rfl
  | cons first rest => cases hnil

/-- Digits with a point at the place that their order asks for. -/
theorem readMantissa?_positional (order : Int) :
    readMantissa? (positional digits (order + 1)) = some (spelled digits order) := by
  unfold positional
  split_ifs with hsmall hlarge
  · have hfraction : AreDigits (zeros (-(order + 1)).toNat ++ digits) := h.prepend (isDigit_zeros _)
    have hexponent : order + 1 - digits.length =
        -((zeros (-(order + 1)).toNat ++ digits).length : Int) := by
      simp only [zeros, List.length_append, List.length_replicate]
      omega
    have hzero : AreDigits ['0'] := .toDigits 0
    refine (readMantissa?_point hzero hfraction).trans (congrArg some ?_)
    rw [spelled, hexponent, zpow_neg, zpow_natCast, readNat_append, readNat_zeros, zero_mul, zero_add,
      div_eq_mul_inv]
    exact zero_add _
  · have hwhole : AreDigits (digits ++ zeros ((order + 1).toNat - digits.length)) :=
      h.append (isDigit_zeros _)
    have hexponent : order + 1 - digits.length = ((order + 1).toNat - digits.length : Nat) := by omega
    rw [readMantissa?_digits hwhole, readNat_append, readNat_zeros, spelled, hexponent, zpow_natCast]
    simp [zeros]
  · have hwhole : AreDigits (digits.take (order + 1).toNat) := by
      refine ⟨?_, fun c hc => h.2 c (List.mem_of_mem_take hc)⟩
      rw [ne_eq, List.take_eq_nil_iff]
      exact fun hnil => hnil.elim (by omega) h.1
    have hpart : AreDigits (digits.drop (order + 1).toNat) := by
      refine ⟨?_, fun c hc => h.2 c (List.mem_of_mem_drop hc)⟩
      rw [ne_eq, List.drop_eq_nil_iff]
      omega
    have hsplit := readNat_append (digits.take (order + 1).toNat) (digits.drop (order + 1).toNat)
    rw [List.take_append_drop] at hsplit
    have hexponent : order + 1 - digits.length = -((digits.drop (order + 1).toNat).length : Int) := by
      rw [List.length_drop]
      omega
    rw [readMantissa?_point hwhole hpart, spelled, hsplit, hexponent, zpow_neg, zpow_natCast]
    push_cast
    rw [add_mul, mul_inv_cancel_right₀ (by positivity), div_eq_mul_inv]

theorem Form.readWide?_eq {f : Form} (hwidth : f.width ≤ digits.length) :
    f.readWide? digits = some (readNat digits) := by
  rw [Form.readWide?, if_pos hwidth]
  exact readDigits?_eq_some_iff.2 ⟨h, rfl⟩

omit h in
theorem areDigits_twoDigits (n : Nat) : AreDigits (twoDigits n) :=
  AreDigits.prepend (.toDigits n) (isDigit_zeros _)

omit h in
theorem readNat_twoDigits (n : Nat) : readNat (twoDigits n) = n := by
  rw [twoDigits, readNat_append, readNat_zeros, zero_mul, zero_add, readNat_toDigits]

omit h in
theorem readExponent?_twoDigits (exponent : Int) : Form.plain.readExponent?
    ((if exponent < 0 then '-' else '+') :: twoDigits exponent.natAbs) = some exponent := by
  have hdigits := areDigits_twoDigits exponent.natAbs
  have hread : Form.plain.readWide? (twoDigits exponent.natAbs) = some exponent.natAbs := by
    have hwidth : Form.plain.width ≤ (twoDigits exponent.natAbs).length :=
      List.length_pos_iff.2 hdigits.1
    rw [Form.readWide?_eq hdigits hwidth, readNat_twoDigits]
  split_ifs with hneg
  · rw [Form.readExponent?, hread, Option.map_some]
    congr 1
    omega
  · rw [Form.readExponent?, hread, Option.map_some]
    congr 1
    omega

/-- The mantissa of a scientific numeral has its point after the first digit. -/
theorem scientific_eq (exponent : Int) : scientific digits exponent =
    positional digits (0 + 1) ++ 'e' :: (if exponent < 0 then '-' else '+') ::
      twoDigits exponent.natAbs := by
  match digits, h with
  | [first], _ => simp [scientific, positional, zeros]
  | first :: second :: rest, _ =>
    have hlong : ¬(rest.length : Int) + 1 ≤ 0 := by omega
    simp [scientific, positional, hlong]

theorem readUnsigned?_scientific (order : Int) :
    Form.plain.readUnsigned? (scientific digits order) = some (spelled digits order) := by
  have hmantissa := readMantissa?_positional h 0
  have hmark : Form.plain.mark ∉ positional digits (0 + 1) :=
    not_mem_of_readMantissa? hmantissa rfl (by decide)
  rw [scientific_eq h]
  refine (Form.readUnsigned?_mark hmark _).trans ?_
  rw [hmantissa, readExponent?_twoDigits, Option.bind_some, Option.bind_some, spelled, spelled,
    mul_assoc, ← zpow_add₀ (by norm_num)]
  congr 3
  ring

/-- A numeral of either kind denotes what its digits spell out. -/
theorem readUnsigned?_general (limit order : Int) :
    Form.plain.readUnsigned? (general limit digits order) = some (spelled digits order) := by
  unfold general
  split_ifs
  · exact readUnsigned?_scientific h order
  · have hmantissa := readMantissa?_positional h order
    rw [Form.readUnsigned?_mantissa (not_mem_of_readMantissa? hmantissa rfl (by decide)), hmantissa]

omit h

theorem areDigits_zero : AreDigits ['0'] := .toDigits 0

/-- A fraction of one zero adds nothing. -/
theorem readMantissa?_pointZero (h : AreDigits a) :
    readMantissa? (a ++ ['.', '0']) = some (readNat a : ℚ) := by
  refine (readMantissa?_point h areDigits_zero).trans (congrArg some ?_)
  have hzero : readNat ['0'] = 0 := readNat_zeros 1
  rw [hzero, Nat.cast_zero, zero_div, add_zero]

theorem readUnsigned?_withPoint (h : Form.plain.readUnsigned? n = some q) :
    Form.plain.readUnsigned? (withPoint n) = some q := by
  unfold withPoint
  split_ifs with hmarked
  · exact h
  · have hpoint : '.' ∉ n := fun hin => hmarked (List.any_eq_true.2 ⟨'.', hin, rfl⟩)
    have hmark : 'e' ∉ n := fun hin => hmarked (List.any_eq_true.2 ⟨'e', hin, rfl⟩)
    rw [Form.readUnsigned?_mantissa hmark] at h
    have hdigits : AreDigits n := by
      rcases readMantissa?_cases h with hn | ⟨x, y, rfl, -, -⟩
      · exact hn
      · exact absurd (by simp) hpoint
    rw [readMantissa?_digits hdigits] at h
    have hread := readMantissa?_pointZero hdigits
    rw [Form.readUnsigned?_mantissa (not_mem_of_readMantissa? hread rfl (by decide)), hread, h]

/-! ### The form of the rendered code -/

theorem dropPointZero_append (m : List Char) : dropPointZero (m ++ ['.', '0']) = m := by
  simp [dropPointZero]

theorem dropPointZero_eq_self (h : ∀ a, m ≠ a ++ ['.', '0']) : dropPointZero m = m := by
  unfold dropPointZero
  split
  · next rest hrest =>
    have hm := congrArg List.reverse hrest
    rw [List.reverse_reverse, List.reverse_cons, List.reverse_cons, List.append_assoc] at hm
    exact absurd hm (h _)
  · rfl

theorem dropPointZero_minus (m : List Char) : dropPointZero ('-' :: m) = '-' :: dropPointZero m := by
  by_cases h : ∃ a, m = a ++ ['.', '0']
  · obtain ⟨a, rfl⟩ := h
    rw [dropPointZero_append, ← List.cons_append, dropPointZero_append]
  · rw [not_exists] at h
    rw [dropPointZero_eq_self h, dropPointZero_eq_self]
    rintro (_ | ⟨c, a⟩) heq
    · cases heq
    · exact h a (List.tail_eq_of_cons_eq heq)

/-- What stands after the last point of two equal texts is the same. -/
theorem append_point_inj {x y : List Char} (hb : '.' ∉ b) (hy : '.' ∉ y)
    (h : a ++ '.' :: b = x ++ '.' :: y) : a = x ∧ b = y := by
  have hreverse := congrArg (fun l => l.reverse.takeWhile (· != '.')) h
  simp only [List.reverse_append, List.reverse_cons, List.append_assoc, List.singleton_append]
    at hreverse
  rw [takeWhile_mark (by simpa using hb), takeWhile_mark (by simpa using hy)] at hreverse
  obtain rfl : b = y := List.reverse_inj.1 hreverse
  exact ⟨List.append_cancel_right h, rfl⟩

theorem readMantissa?_dropPointZero (h : readMantissa? m = some q) :
    readMantissa? (dropPointZero m) = some q := by
  by_cases hm : ∃ a, m = a ++ ['.', '0']
  · obtain ⟨a, rfl⟩ := hm
    have hdigits : AreDigits a := by
      rcases readMantissa?_cases h with hall | ⟨x, y, heq, hx, hy⟩
      · exact absurd (by simp) (hall.not_mem (c := '.') rfl)
      · rw [(append_point_inj (by decide) (hy.not_mem rfl) heq).1]
        exact hx
    rw [dropPointZero_append, readMantissa?_digits hdigits, ← h, readMantissa?_pointZero hdigits]
  · rw [not_exists] at hm
    rw [dropPointZero_eq_self hm, h]

theorem dropWhile_sign (h : AreDigits a) : a.dropWhile (fun c => c == '+' || c == '-') = a := by
  cases a with
  | nil => rfl
  | cons c a =>
    have hc := h.2 c (List.mem_cons_self ..)
    refine List.dropWhile_cons_of_neg fun hsign => ?_
    rcases Bool.or_eq_true_iff.1 hsign with heq | heq <;> rw [beq_iff_eq.1 heq] at hc <;> cases hc

/-- Two digits are enough for an exponent in the code, and zeros before the others make them up. -/
theorem readWide?_padded {k : Nat} (h : Form.plain.readWide? a = some k) :
    AreDigits a ∧ Form.code.readWide? (zeros (2 - a.length) ++ a) = some k := by
  unfold Form.readWide? at h
  split_ifs at h
  obtain ⟨hdigits, rfl⟩ := readDigits?_eq_some_iff.1 h
  have hpadded : AreDigits (zeros (2 - a.length) ++ a) := hdigits.prepend (isDigit_zeros _)
  have hwidth : Form.code.width ≤ (zeros (2 - a.length) ++ a).length := by
    show 2 ≤ _
    simp only [zeros, List.length_append, List.length_replicate]
    omega
  rw [Form.readWide?_eq hpadded hwidth, readNat_append, readNat_zeros, zero_mul, zero_add]
  exact ⟨hdigits, rfl⟩

theorem restyleExponent_minus (h : AreDigits a) :
    restyleExponent ('-' :: a) = '-' :: (zeros (2 - a.length) ++ a) := by
  have hrest : ('-' :: a).dropWhile (fun c => c == '+' || c == '-') = a := dropWhile_sign h
  rw [restyleExponent, hrest]
  rfl

theorem restyleExponent_plus (h : AreDigits a) :
    restyleExponent ('+' :: a) = '+' :: (zeros (2 - a.length) ++ a) := by
  have hrest : ('+' :: a).dropWhile (fun c => c == '+' || c == '-') = a := dropWhile_sign h
  rw [restyleExponent, hrest]
  · rfl
  · nofun

/-- An exponent without a sign gets a plus. -/
theorem restyleExponent_digits (h : AreDigits a) :
    restyleExponent a = '+' :: (zeros (2 - a.length) ++ a) := by
  rw [restyleExponent, dropWhile_sign h]
  · rfl
  · rintro tail rfl
    exact h.not_mem (c := '-') rfl (List.mem_cons_self ..)

theorem readExponent?_restyleExponent {e : List Char} {power : Int}
    (h : Form.plain.readExponent? e = some power) :
    Form.code.readExponent? (restyleExponent e) = some power := by
  unfold Form.readExponent? at h
  split at h
  · obtain ⟨k, hk, rfl⟩ := Option.map_eq_some_iff.1 h
    obtain ⟨hdigits, hread⟩ := readWide?_padded hk
    rw [restyleExponent_minus hdigits, Form.readExponent?, hread]
    rfl
  · obtain ⟨k, hk, rfl⟩ := Option.map_eq_some_iff.1 h
    obtain ⟨hdigits, hread⟩ := readWide?_padded hk
    rw [restyleExponent_plus hdigits, Form.readExponent?, hread]
    rfl
  · replace h : (Form.plain.readWide? e).map Nat.cast = some power := h
    obtain ⟨k, hk, rfl⟩ := Option.map_eq_some_iff.1 h
    obtain ⟨hdigits, hread⟩ := readWide?_padded hk
    rw [restyleExponent_digits hdigits, Form.readExponent?, hread]
    rfl

theorem restyle_mantissa (h : 'e' ∉ m) : restyle m = dropPointZero m := by
  rw [restyle, takeWhile_no_mark h, dropWhile_no_mark h]

theorem restyle_mark (h : 'e' ∉ m) (e : List Char) :
    restyle (m ++ 'e' :: e) = dropPointZero m ++ 'E' :: restyleExponent e := by
  rw [restyle, takeWhile_mark h, dropWhile_mark h]

theorem restyle_minus (n : List Char) : restyle ('-' :: n) = '-' :: restyle n := by
  have hminus {m : List Char} (h : 'e' ∉ m) : 'e' ∉ '-' :: m := by simpa using h
  by_cases hmark : 'e' ∈ n
  · obtain ⟨m, e, rfl, hm⟩ := List.eq_append_cons_of_mem hmark
    rw [restyle_mark hm, ← List.cons_append, restyle_mark (hminus hm), dropPointZero_minus]
    rfl
  · rw [restyle_mantissa hmark, restyle_mantissa (hminus hmark), dropPointZero_minus]

theorem restyle_signed (negative : Bool) (n : List Char) :
    restyle (signed negative n) = signed negative (restyle n) := by
  cases negative with
  | true => exact restyle_minus n
  | false => rfl

theorem readUnsigned?_restyle (h : Form.plain.readUnsigned? n = some q) :
    Form.code.readUnsigned? (restyle n) = some q := by
  have hcode {m : List Char} {x : ℚ} (hm : readMantissa? m = some x) :
      Form.code.mark ∉ dropPointZero m :=
    not_mem_of_readMantissa? (readMantissa?_dropPointZero hm) rfl (by decide)
  rcases Form.readUnsigned?_cases h with ⟨hmark, hm⟩ | ⟨m, e, x, power, rfl, hmark, hm, he, rfl⟩
  · rw [restyle_mantissa hmark, Form.readUnsigned?_mantissa (hcode hm), readMantissa?_dropPointZero hm]
  · have hrestyle : restyle (m ++ Form.plain.mark :: e) =
        dropPointZero m ++ Form.code.mark :: restyleExponent e := restyle_mark hmark e
    rw [hrestyle, Form.readUnsigned?_mark (hcode hm), readMantissa?_dropPointZero hm,
      readExponent?_restyleExponent he]
    rfl

/-- Restyling keeps the sign and the number of a plain numeral. -/
theorem read?_restyle {text : List Char} {negative : Bool}
    (h : Form.plain.read? text = some (negative, q)) :
    Form.code.read? (restyle text) = some (negative, q) := by
  obtain ⟨n, rfl, hn⟩ := Form.exists_of_read? h
  rw [restyle_signed]
  exact Form.read?_signed (by decide) negative (readUnsigned?_restyle hn)

/-! ### The numerals of decimal digits -/

theorem areDigits_chars (d : Digits) : AreDigits d.chars := .toDigits d.coefficient

/-- The digits of a coefficient spell out the number that they are the digits of. -/
theorem spelled_chars (d : Digits) : spelled d.chars d.order = d.value := by
  have hlength : 0 < d.chars.length := Nat.length_toDigits_pos
  have hexponent : d.order + 1 - d.chars.length = d.exponent := by
    unfold Digits.order
    omega
  have hread : readNat d.chars = d.coefficient := readNat_toDigits d.coefficient
  rw [spelled, hexponent, hread, Digits.value]

theorem readUnsigned?_trimmed (limit : Int) (d : Digits) :
    Form.plain.readUnsigned? (general limit (trimZeros d.chars) d.order) = some d.value := by
  obtain ⟨count, hcount⟩ := trimZeros_eq d.chars
  rw [readUnsigned?_general (areDigits_trimZeros (areDigits_chars d)), ← spelled_chars d]
  conv_rhs => rw [hcount, spelled_zeros]

/-- A numeral of so many digits denotes the digits. -/
theorem read?_significant (count : Nat) (negative : Bool) (d : Digits) :
    Form.plain.read? (significant count negative d) = some (negative, d.value) :=
  Form.read?_signed (by decide) negative (readUnsigned?_trimmed count d)

/-- The shortest numeral of a double denotes its shortest digits. -/
theorem read?_shortest (negative : Bool) (d : Dyadic) :
    Form.plain.read? (shortest negative d) = some (negative, (Digits.shortest d).value) :=
  Form.read?_signed (by decide) negative (readUnsigned?_withPoint (readUnsigned?_trimmed 16 _))

end Numeral

end Scribe
