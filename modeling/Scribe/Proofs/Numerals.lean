import Mathlib.Data.Option.Basic
import Mathlib.Tactic.NormNum
import Scribe.Literal

/-!
# Integer literals read back

`Numeral.readDigits?` reads digits in a base, and `IntegerKind.read?` reads a literal of an integer
kind: in base ten, or after `0x` as a word in base sixteen, which is in two's complement where the
kind is signed. `Literal.integer_outcome`: in every format, a literal has a text just if its integer
is in the range of its kind, and the text reads back as the integer. An integer out of range is
refused with a message that shows it, which fails in its turn if the integer has too many digits.
-/

namespace Scribe

namespace Numeral

/-- The value of a digit: `0` to `9`, then `a` to `f`. -/
def digit? (base : Nat) (c : Char) : Option Nat :=
  if '0' ≤ c ∧ c ≤ '9' ∧ c.toNat - '0'.toNat < base then some (c.toNat - '0'.toNat)
  else if 'a' ≤ c ∧ c ≤ 'f' ∧ c.toNat - 'a'.toNat + 10 < base then some (c.toNat - 'a'.toNat + 10)
  else none

/-- One more digit after those that spell out `n`. -/
def readDigit? (base n : Nat) (c : Char) : Option Nat := (digit? base c).map (base * n + ·)

/-- The natural that one digit or more spell out in a base. -/
def readDigits? (base : Nat) (digits : List Char) : Option Nat :=
  if digits.isEmpty then none else digits.foldlM (readDigit? base) 0

theorem digit?_digitChar {base d : Nat} (hb : base ≤ 16) (hd : d < base) :
    digit? base d.digitChar = some d := by
  have hall : ∀ b ≤ 16, ∀ d < b, digit? b d.digitChar = some d := by decide
  exact hall base hb d hd

theorem mem_toDigits {base n : Nat} (hb : 1 < base) {c : Char} (h : c ∈ Nat.toDigits base n) :
    ∃ d < base, c = d.digitChar := by
  induction n using Nat.strongRecOn with
  | _ n ih =>
    rw [Nat.toDigits_eq_if hb] at h
    split_ifs at h with hn
    · exact ⟨n, hn, List.mem_singleton.1 h⟩
    · rcases List.mem_append.1 h with h | h
      · exact ih _ (Nat.div_lt_self (by omega) hb) h
      · exact ⟨n % base, Nat.mod_lt n (by omega), List.mem_singleton.1 h⟩

theorem foldlM_toDigits {base : Nat} (hb : 1 < base) (hb' : base ≤ 16) (n : Nat) :
    (Nat.toDigits base n).foldlM (readDigit? base) 0 = some n := by
  induction n using Nat.strongRecOn with
  | _ n ih =>
    rw [Nat.toDigits_eq_if hb]
    split_ifs with hn
    · simp [readDigit?, digit?_digitChar hb' hn]
    · have hlt : n / base < n := Nat.div_lt_self (by omega) hb
      have hmod : n % base < base := Nat.mod_lt n (by omega)
      rw [List.foldlM_append, ih _ hlt]
      simp [readDigit?, digit?_digitChar hb' hmod, Nat.div_add_mod]

theorem digit?_of_foldlM {base n m : Nat} {digits : List Char}
    (h : digits.foldlM (readDigit? base) n = some m) : ∀ c ∈ digits, (digit? base c).isSome = true := by
  induction digits generalizing n with
  | nil => exact List.forall_mem_nil _
  | cons c digits ih =>
    rw [List.foldlM_cons] at h
    obtain ⟨n', hc, h⟩ := Option.bind_eq_some_iff.1 h
    obtain ⟨d, hd, -⟩ := Option.map_eq_some_iff.1 hc
    exact List.forall_mem_cons.2 ⟨Option.isSome_iff_exists.2 ⟨d, hd⟩, ih h⟩

theorem digit?_of_readDigits? {base n : Nat} {digits : List Char}
    (h : readDigits? base digits = some n) : ∀ c ∈ digits, (digit? base c).isSome = true := by
  unfold readDigits? at h
  split_ifs at h
  exact digit?_of_foldlM h

/-- The digits of a natural read back as the natural. -/
theorem readDigits?_toDigits {base : Nat} (hb : 1 < base) (hb' : base ≤ 16) (n : Nat) :
    readDigits? base (Nat.toDigits base n) = some n := by
  have hne : (Nat.toDigits base n).isEmpty = false := by simp [Nat.toDigits_ne_nil]
  rw [readDigits?, hne, if_neg Bool.false_ne_true, foldlM_toDigits hb hb']

end Numeral

namespace IntegerKind

open Numeral

/-- The integers of the kind. -/
def Represents (k : IntegerKind) (n : Int) : Prop :=
  if k.signed then -2 ^ (k.bits - 1) ≤ n ∧ n < 2 ^ (k.bits - 1) else 0 ≤ n ∧ n < 2 ^ k.bits

/-- The integer that a word stands for: in two's complement, or without a sign. -/
def ofWord (k : IntegerKind) (word : Nat) : Int :=
  if k.signed then (BitVec.ofNat k.bits word).toInt else word

/-- The integer that a literal of the kind spells out. -/
def read? (k : IntegerKind) (literal : String) : Option Int :=
  match literal.toList with
  | '0' :: 'x' :: digits => (readDigits? 16 digits).map k.ofWord
  | '-' :: digits => (readDigits? 10 digits).map fun n : Nat => -(n : Int)
  | digits => (readDigits? 10 digits).map Int.ofNat

variable {k : IntegerKind} {n : Int}

theorem contains_iff : k.contains n = true ↔ k.Represents n := by
  obtain ⟨bits, signed⟩ := k
  cases signed <;> simp [contains, least, bound, Represents]

/-- A word of an integer of the kind stands for that integer. -/
theorem ofWord_emod (hk : 0 < k.bits) (h : k.Represents n) :
    k.ofWord (n % (2 ^ k.bits : Nat)).toNat = n := by
  obtain ⟨bits, signed⟩ := k
  cases signed with
  | false =>
    obtain ⟨hlow, hhigh⟩ : 0 ≤ n ∧ n < 2 ^ bits := h
    have hmod : n % (2 ^ bits : Nat) = n := Int.emod_eq_of_lt hlow (by simpa using hhigh)
    show (((n % (2 ^ bits : Nat)).toNat : Nat) : Int) = n
    rw [hmod, Int.toNat_of_nonneg hlow]
  | true =>
    obtain ⟨hlow, hhigh⟩ : -2 ^ (bits - 1) ≤ n ∧ n < 2 ^ (bits - 1) := h
    have hword : BitVec.ofNat bits (n % (2 ^ bits : Nat)).toNat = BitVec.ofInt bits n := by
      rw [← BitVec.toNat_ofInt, BitVec.ofNat_toNat, BitVec.setWidth_eq]
    have hhalf : ((2 ^ bits : Nat) : Int) = 2 * 2 ^ (bits - 1) := by
      obtain ⟨b, rfl⟩ := Nat.exists_eq_succ_of_ne_zero (Nat.ne_of_gt hk)
      simp [pow_succ, mul_comm]
    show (BitVec.ofNat bits (n % (2 ^ bits : Nat)).toNat).toInt = n
    rw [hword, BitVec.toInt_ofInt]
    exact Int.bmod_eq_of_le (by omega) (by omega)

theorem read?_natural (k : IntegerKind) (n : Nat) :
    k.read? (String.ofList (Nat.toDigits 10 n)) = some (n : Int) := by
  have hdigit : ∀ c ∈ Nat.toDigits 10 n, c.isDigit = true :=
    fun c => Nat.isDigit_of_mem_toDigits (by decide) (by decide)
  have hread : readDigits? 10 (Nat.toDigits 10 n) = some n :=
    readDigits?_toDigits (by decide) (by decide) n
  unfold read?
  rw [String.toList_ofList]
  -- Neither an `x` nor a minus is a decimal digit.
  split
  · next hx =>
    rw [hx] at hdigit
    exact absurd (hdigit 'x' (by simp)) (by decide)
  · next hminus =>
    rw [hminus] at hdigit
    exact absurd (hdigit '-' (by simp)) (by decide)
  · rw [hread]
    rfl

theorem read?_toString (k : IntegerKind) (n : Int) : k.read? (toString n) = some n := by
  cases n with
  | ofNat n => exact k.read?_natural n
  | negSucc n =>
    have htext : (toString (Int.negSucc n)).toList = '-' :: Nat.toDigits 10 (n + 1) := by
      show ("-" ++ String.ofList (Nat.toDigits 10 (n + 1))).toList = _
      simp
    unfold read?
    rw [htext]
    show (readDigits? 10 (Nat.toDigits 10 (n + 1))).map _ = _
    rw [readDigits?_toDigits (by decide) (by decide)]
    rfl

theorem read?_hexadecimal (hk : 0 < k.bits) (h : k.Represents n) :
    k.read? (k.hexadecimal n) = some n := by
  unfold read? hexadecimal
  rw [String.toList_ofList]
  show (readDigits? 16 (Nat.toDigits 16 (n % (2 ^ k.bits : Nat)).toNat)).map k.ofWord = some n
  rw [readDigits?_toDigits (by decide) (by decide), Option.map_some, ofWord_emod hk h]

/-- In every format, the text of an integer of the kind reads back as the integer. -/
theorem read?_text (hk : 0 < k.bits) (h : k.Represents n) (format : NumberFormat) :
    k.read? (k.text format n) = some n := by
  unfold text
  split
  · exact k.read?_toString n
  · split_ifs
    · exact k.read?_toString n
    · exact read?_hexadecimal hk h
  · exact read?_hexadecimal hk h
  · exact read?_hexadecimal hk h

theorem ofName?_bits {name : String} (h : ofName? name = some k) : 0 < k.bits := by
  unfold ofName? at h
  split at h <;> cases h <;> decide

end IntegerKind

namespace Literal

variable {k : IntegerKind} {kind : Value} {n : Int}

/-- The integers that have a text at a kind, or without one. -/
def InRange (kind : Value) (n : Int) : Prop :=
  match integerKind? kind with
  | some k => k.Represents n
  | none => -2 ^ 63 ≤ n ∧ n < 2 ^ 64

theorem integerKind?_bits (h : integerKind? kind = some k) : 0 < k.bits := by
  unfold integerKind? at h
  split at h
  · exact IntegerKind.ofName?_bits h
  · cases h

/-- None of the names of integer kinds is one that other values have a text at. -/
theorem textAt_int (p : Program) (format : NumberFormat) {name : String}
    (h : IntegerKind.ofName? name = some k) :
    textAt p format (.scalar (.int n)) name =
      some (integer p format (.ofText name) (.scalar (.int n))) := by
  unfold IntegerKind.ofName? at h
  split at h
  case h_9 => cases h
  all_goals rfl

theorem integerKind?_eq_some_iff :
    integerKind? kind = some k ↔ ∃ name, kind = .ofText name ∧ IntegerKind.ofName? name = some k := by
  constructor
  · intro h
    unfold integerKind? at h
    split at h
    · exact ⟨_, rfl, h⟩
    · cases h
  · rintro ⟨name, rfl, h⟩
    exact h

/-- An integer at an integer kind has a text where it is in the range of the kind. -/
theorem text_int (p : Program) (format : NumberFormat)
    (h : integerKind? (kindOf (.scalar (.int n)) kind) = some k) :
    text p format (.scalar (.int n)) kind = if k.contains n then .ok (k.text format n)
      else .error (p.literalFault (.scalar (.int n)) (kindOf (.scalar (.int n)) kind)) := by
  obtain ⟨name, hname, hk⟩ := integerKind?_eq_some_iff.1 h
  unfold text
  rw [hname]
  show (textAt p format (.scalar (.int n)) name).getD _ = _
  rw [textAt_int p format hk, Option.getD_some]
  simp only [integer, integerKind?, Value.ofText, hk]

/-- The fault of an integer at an integer kind shows the integer, if that can be shown. -/
theorem literalFault_int (p : Program) (n : Int) {name : String}
    (h : IntegerKind.ofName? name = some k) :
    p.literalFault (.scalar (.int n)) (.ofText name) =
      if n.natAbs < 10 ^ digitLimit then .literal (toString n) (some name) else .tooManyDigits := by
  have hset : (Value.ofText name).isSet = true := by
    rw [Value.ofText, Value.isSet, Scalar.isSet, Bool.not_eq_true', String.isEmpty_eq_false_iff]
    rintro rfl
    cases h
  have htold : p.exact (.scalar (.int n)) =
      if n.natAbs < 10 ^ digitLimit then .ok (toString n) else .error .tooManyDigits := by
    show Scalar.told _ _ = _
    simp only [Scalar.told, Scalar.isShowable_int_iff, Nat.pow_eq, Scalar.exact, Scalar.plain]
  rw [Program.literalFault, if_pos hset, htold]
  split_ifs <;> rfl

/-- Without a kind, an integer takes one that it is in the range of, if there is one. -/
theorem impliedKind_int (n : Int) : ∃ k, integerKind? (impliedKind (.scalar (.int n))) = some k ∧
    (k.Represents n ↔ -2 ^ 63 ≤ n ∧ n < 2 ^ 64) := by
  rw [impliedKind]
  split_ifs with h h'
  · have hn : -2 ^ 31 ≤ n ∧ n < 2 ^ 31 := IntegerKind.contains_iff.1 h
    exact ⟨⟨32, true⟩, rfl, iff_of_true hn (by omega)⟩
  · have hn : -2 ^ 63 ≤ n ∧ n < 2 ^ 63 := IntegerKind.contains_iff.1 h'
    exact ⟨⟨64, true⟩, rfl, iff_of_true hn (by omega)⟩
  · have hn : ¬(-2 ^ 63 ≤ n ∧ n < 2 ^ 63) := fun hn => h' (IntegerKind.contains_iff.2 hn)
    refine ⟨⟨64, false⟩, rfl, ?_⟩
    show 0 ≤ n ∧ n < 2 ^ 64 ↔ _
    omega

/-- The kind at which an integer is written, and which integers have a text there. -/
theorem kindOf_int (hkind : kind = .null ∨ (integerKind? kind).isSome = true) (n : Int) :
    ∃ k, integerKind? (kindOf (.scalar (.int n)) kind) = some k ∧
      (k.Represents n ↔ InRange kind n) := by
  rcases hkind with rfl | hkind
  · exact impliedKind_int n
  · obtain ⟨k, hk⟩ := Option.isSome_iff_exists.1 hkind
    obtain ⟨name, rfl, -⟩ := integerKind?_eq_some_iff.1 hk
    refine ⟨k, hk, ?_⟩
    unfold InRange
    rw [hk]

/-- What becomes of an integer literal. In the range of its kind it has a text that reads back as the
integer. Out of range it is refused with a message, unless the integer has too many digits for the
message. -/
theorem integer_outcome (p : Program) (format : NumberFormat) (n : Int) (kind : Value)
    (hkind : kind = .null ∨ (integerKind? kind).isSome = true) :
    ∃ name k, kindOf (.scalar (.int n)) kind = .ofText name ∧ IntegerKind.ofName? name = some k ∧
      (InRange kind n →
        ∃ s, text p format (.scalar (.int n)) kind = .ok s ∧ k.read? s = some n) ∧
      (¬InRange kind n → text p format (.scalar (.int n)) kind = .error
        (if n.natAbs < 10 ^ digitLimit then .literal (toString n) (some name)
          else .tooManyDigits)) := by
  obtain ⟨k, hk, hrange⟩ := kindOf_int hkind n
  obtain ⟨name, hname, hk'⟩ := integerKind?_eq_some_iff.1 hk
  refine ⟨name, k, hname, hk', ?_⟩
  rw [text_int p format hk, hname, literalFault_int p n hk', ← hrange]
  constructor
  · intro h
    rw [if_pos (IntegerKind.contains_iff.2 h)]
    exact ⟨_, rfl, IntegerKind.read?_text (IntegerKind.ofName?_bits hk') h format⟩
  · intro h
    rw [if_neg (mt IntegerKind.contains_iff.1 h)]

/-- The least integer of 64 bits, without a kind and in base sixteen. -/
theorem integer_outcome_least :
    let n : Int := -2 ^ 63
    let k : IntegerKind := ⟨64, true⟩
    InRange .null n ∧ kindOf (.scalar (.int n)) .null = .ofText "int64" ∧
      ∃ s, text {} .hexadecimal (.scalar (.int n)) .null = .ok s ∧ k.read? s = some n := by
  intro n k
  have hn : InRange .null n := by
    show -2 ^ 63 ≤ n ∧ n < 2 ^ 64
    decide
  have hkind : kindOf (.scalar (.int n)) .null = .ofText "int64" := by rfl
  obtain ⟨name, k', hname, hk', hread, -⟩ := integer_outcome {} .hexadecimal n .null (.inl rfl)
  obtain rfl : name = "int64" := by
    rw [hkind] at hname
    cases hname
    rfl
  obtain rfl : k' = k := Option.some.inj (hk'.symm.trans rfl)
  exact ⟨hn, hkind, hread hn⟩

/-- The first integer of too many digits is out of the range of 32 bits, and is not refused as such:
no message can show it. -/
theorem integer_unshown :
    let n : Int := 10 ^ digitLimit
    let kind := Value.ofText "int32"
    ¬InRange kind n ∧ text {} .auto (.scalar (.int n)) kind = .error .tooManyDigits ∧
      ∀ message, text {} .auto (.scalar (.int n)) kind ≠ .error (.literal message (some "int32")) := by
  intro n kind
  have hn : (2 : Int) ^ 31 ≤ n := (pow_le_pow_left₀ (by decide) (by decide) 31).trans
    (pow_le_pow_right₀ (by decide) (by decide))
  have hrange : ¬InRange kind n := fun h => absurd (show n < 2 ^ 31 from h.2) (not_lt_of_ge hn)
  have hsize : ¬n.natAbs < 10 ^ digitLimit := by simp [n, Int.natAbs_pow]
  have htext : text {} .auto (.scalar (.int n)) kind = .error .tooManyDigits := by
    rw [text_int {} .auto (k := ⟨32, true⟩) rfl, if_neg (mt IntegerKind.contains_iff.1 hrange)]
    show Except.error (Program.literalFault _ _ (.ofText "int32")) = _
    rw [literalFault_int _ n (k := ⟨32, true⟩) rfl, if_neg hsize]
  exact ⟨hrange, htext, fun message h => by rw [htext] at h; cases h⟩

end Literal

end Scribe
