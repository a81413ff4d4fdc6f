import Mathlib.Data.List.Basic
import Mathlib.Data.List.Infix
import Scribe.Proofs.Numerals
import Scribe.Text.Quoted

/-!
# String literals read back

`Text.unquote` reads a string literal as UTF-16 code units. It knows the escapes of five control
characters and of code units, and no others; in particular a quote and a backslash have none.
`Text.quoted_reads_back_iff`: a literal reads back as the text that it was written for just if the
text is `Text.Plain`: without quotes and backslashes, and without a digit behind a NUL.
-/

namespace Scribe

namespace Text

open Numeral

/-! ### Reading literals -/

/-- A character in UTF-16: one code unit, or a pair of surrogates. -/
def utf16 (c : Char) : List Nat :=
  if c.toNat < 0x10000 then [c.toNat]
  else [0xD800 + (c.toNat - 0x10000) / 0x400, 0xDC00 + (c.toNat - 0x10000) % 0x400]

/-- Whether a decimal digit comes next. -/
def digitNext (chars : List Char) : Bool := chars.head?.any Char.isDigit

/-- The code unit of what follows a backslash, and what follows that. A digit after the escape of a
NUL would make it another number. -/
def readEscape? : List Char → Option (Nat × List Char)
  | 'r' :: rest => some (0x0D, rest)
  | 't' :: rest => some (0x09, rest)
  | '\x27' :: rest => some (0x27, rest)
  | 'n' :: rest => some (0x0A, rest)
  | '0' :: rest => if digitNext rest then none else some (0x00, rest)
  | 'u' :: a :: b :: c :: d :: rest =>
    (readDigits? 16 ([a, b, c, d].map Char.toLower)).map fun unit => (unit, rest)
  | _ => none

/-- An escape takes up some characters, none of which is a backslash or a quote. -/
theorem readEscape?_chars {chars rest : List Char} {unit : Nat}
    (h : readEscape? chars = some (unit, rest)) : ∃ read, chars = read ++ rest ∧ read ≠ [] ∧
      ∀ c ∈ read, c ≠ '\x5c' ∧ c ≠ '\x22' := by
  unfold readEscape? at h
  split at h
  · cases h
    exact ⟨['r'], rfl, by simp⟩
  · cases h
    exact ⟨['t'], rfl, by simp⟩
  · cases h
    exact ⟨['\x27'], rfl, by simp⟩
  · cases h
    exact ⟨['n'], rfl, by simp⟩
  · split_ifs at h
    cases h
    exact ⟨['0'], rfl, by simp⟩
  · next a b c d rest =>
    obtain ⟨_, hread, h⟩ := Option.map_eq_some_iff.1 h
    cases h
    refine ⟨['u', a, b, c, d], rfl, List.cons_ne_nil _ _, List.forall_mem_cons.2 ⟨by decide, ?_⟩⟩
    intro x hx
    have hdigit := digit?_of_readDigits? hread _ (List.mem_map_of_mem hx)
    constructor
    · rintro rfl
      exact absurd hdigit (by decide)
    · rintro rfl
      exact absurd hdigit (by decide)
  · cases h

/-- The code units up to the closing quote, which must be the last character. -/
def readUnits? (chars : List Char) : Option (List Nat) :=
  match chars with
  | [] => none
  | '\x22' :: rest => if rest.isEmpty then some [] else none
  | '\x5c' :: rest =>
    match _h : readEscape? rest with
    | some (unit, rest') => (readUnits? rest').map (unit :: ·)
    | none => none
  | c :: rest => (readUnits? rest).map (utf16 c ++ ·)
termination_by chars.length
decreasing_by
  · obtain ⟨read, rfl, -, -⟩ := readEscape?_chars _h
    simp only [List.length_cons, List.length_append]
    omega
  · simp

/-- The code units of a string literal. -/
def unquote (literal : String) : Option (List Nat) :=
  match literal.toList with
  | '\x22' :: rest => readUnits? rest
  | _ => none

/-- What can be read back from a literal. -/
structure Plain (text : List Char) : Prop where
  quote : '\x22' ∉ text
  backslash : '\x5c' ∉ text
  /-- No digit stands behind a NUL. -/
  digit (c : Char) : ['\x00', c] <:+: text → c.isDigit = false

/-! ### Code units -/

theorem mem_hex {width n : Nat} {c : Char} (h : c ∈ hex width n) : ∃ d < 16, c = d.digitChar := by
  rcases List.mem_append.1 h with h | h
  · exact ⟨0, by decide, List.eq_of_mem_replicate h⟩
  · exact mem_toDigits (by decide) h

theorem readDigits?_hex (width n : Nat) : readDigits? 16 (hex width n) = some n := by
  have hzeros (k : Nat) : (List.replicate k '0').foldlM (readDigit? 16) 0 = some 0 := by
    induction k with
    | zero => rfl
    | succ k ih => exact ih
  have hne : (hex width n).isEmpty = false := by simp [hex, Nat.toDigits_ne_nil]
  rw [readDigits?, hne, if_neg Bool.false_ne_true, hex, List.foldlM_append, hzeros]
  exact foldlM_toDigits (by decide) (by decide) n

/-- The digits of a code unit are four, and read back as the unit. -/
theorem hex_four {unit : Nat} (h : unit < 0x10000) : ∃ a b c d, hex 4 unit = [a, b, c, d] ∧
    readDigits? 16 ([a, b, c, d].map Char.toLower) = some unit := by
  have hcount : (Nat.toDigits 16 unit).length ≤ 4 :=
    (Nat.length_toDigits_le_iff (by decide) (by decide)).2 h
  have hlength : (hex 4 unit).length = 4 := by
    simp only [hex, List.length_append, List.length_replicate]
    omega
  have hlower : ∀ c ∈ hex 4 unit, c.toLower = c := by
    have hdigits : ∀ d < 16, d.digitChar.toLower = d.digitChar := by decide +kernel
    intro c hc
    obtain ⟨d, hd, rfl⟩ := mem_hex hc
    exact hdigits d hd
  obtain ⟨a, b, c, d, hhex⟩ : ∃ a b c d, hex 4 unit = [a, b, c, d] := List.length_eq_four.1 hlength
  refine ⟨a, b, c, d, hhex, ?_⟩
  rw [← hhex, List.map_congr_left hlower, List.map_id']
  exact readDigits?_hex 4 unit

theorem readEscape?_hex {unit : Nat} (h : unit < 0x10000) (rest : List Char) :
    readEscape? ('u' :: hex 4 unit ++ rest) = some (unit, rest) := by
  obtain ⟨a, b, c, d, hhex, hread⟩ := hex_four h
  rw [hhex]
  show (readDigits? 16 ([a, b, c, d].map Char.toLower)).map _ = _
  rw [hread]
  rfl

theorem readUnits?_escape {chars rest : List Char} {unit : Nat}
    (h : readEscape? chars = some (unit, rest)) :
    readUnits? ('\x5c' :: chars) = (readUnits? rest).map (unit :: ·) := by
  rw [readUnits?]
  split
  · next h' =>
    cases h.symm.trans h'
    rfl
  · next h' => cases h.symm.trans h'

theorem readUnits?_noEscape {chars : List Char} (h : readEscape? chars = none) :
    readUnits? ('\x5c' :: chars) = none := by
  rw [readUnits?]
  split
  · next h' => cases h.symm.trans h'
  · rfl

theorem readUnits?_unitEscape {unit : Nat} (h : unit < 0x10000) (rest : List Char) :
    readUnits? (unitEscape unit ++ rest) = (readUnits? rest).map (unit :: ·) :=
  readUnits?_escape (readEscape?_hex h rest)

theorem readUnits?_char {c : Char} (hquote : c ≠ '\x22') (hback : c ≠ '\x5c') (rest : List Char) :
    readUnits? (c :: rest) = (readUnits? rest).map (utf16 c ++ ·) := by
  rw [readUnits?]
  · exact hquote
  · exact hback

/-! ### Literals -/

/-- What stands in a literal behind the opening quote. -/
def quotedBody (text : List Char) : List Char := text.flatMap (fun c => quotedPoint c.toNat) ++ ['\x22']

theorem quotedBody_cons (c : Char) (text : List Char) :
    quotedBody (c :: text) = quotedPoint c.toNat ++ quotedBody text := by
  simp [quotedBody]

theorem unquote_quoted (text : String) : unquote (quoted text) = readUnits? (quotedBody text.toList) := by
  simp [unquote, quoted, quotedPoints, quotedBody, List.flatMap_map]

/-- The code points with an escape of one letter, and the letters. -/
def letterEscapes : List (Nat × Char) :=
  [(0x0D, 'r'), (0x09, 't'), (0x27, '\x27'), (0x00, '0'), (0x0A, 'n')]

/-- A code point is written as its code units, as an escape of one letter, or as it is. -/
theorem quotedPoint_forms (code : Nat) :
    (0xFFFF < code ∧ quotedPoint code = unitEscape (0xD800 + (code - 0x10000) / 0x400) ++
      unitEscape (0xDC00 + (code - 0x10000) % 0x400)) ∨
    (0xFF < code ∧ code ≤ 0xFFFF ∧ quotedPoint code = unitEscape code) ∨
    (∃ letter, (code, letter) ∈ letterEscapes ∧ quotedPoint code = ['\x5c', letter]) ∨
    (code ≤ 0xFF ∧ quotedPoint code = [Char.ofNat code]) := by
  unfold quotedPoint
  split
  · next hpair => exact .inl ⟨hpair, rfl⟩
  next hpair =>
  split
  · next hunit => exact .inr (.inl ⟨hunit, Nat.le_of_not_lt hpair, rfl⟩)
  next hunit =>
  iterate 5
    split
    · next hcode => exact .inr (.inr (.inl ⟨_, by rw [hcode]; decide, rfl⟩))
  exact .inr (.inr (.inr ⟨Nat.le_of_not_lt hunit, rfl⟩))

/-- A character is escaped, or stands for itself. -/
theorem quotedPoint_cases (c : Char) :
    (∃ chars, quotedPoint c.toNat = '\x5c' :: chars) ∨ quotedPoint c.toNat = [c] := by
  obtain ⟨-, h⟩ | ⟨-, -, h⟩ | ⟨letter, -, h⟩ | ⟨-, h⟩ := quotedPoint_forms c.toNat
  · exact .inl ⟨_, h⟩
  · exact .inl ⟨_, h⟩
  · exact .inl ⟨_, h⟩
  · exact .inr (by rw [h, Char.ofNat_toNat])

/-- Where the body of a literal starts with characters other than backslashes and quotes, the text
starts with the same characters. -/
theorem eq_append_of_quotedBody {chars text rest : List Char}
    (hchars : ∀ c ∈ chars, c ≠ '\x5c' ∧ c ≠ '\x22') (h : quotedBody text = chars ++ rest) :
    ∃ text', text = chars ++ text' ∧ rest = quotedBody text' := by
  induction chars generalizing text with
  | nil => exact ⟨text, rfl, h.symm⟩
  | cons c chars ih =>
    obtain ⟨⟨hback, hquote⟩, hothers⟩ := List.forall_mem_cons.1 hchars
    cases text with
    | nil => exact absurd (List.cons.inj h).1.symm hquote
    | cons d text =>
      rw [quotedBody_cons] at h
      rcases quotedPoint_cases d with ⟨_, hd⟩ | hd
      · rw [hd] at h
        exact absurd (List.cons.inj h).1.symm hback
      · rw [hd] at h
        obtain ⟨rfl, hbody⟩ := List.cons.inj h
        obtain ⟨text', rfl, hrest⟩ := ih hothers hbody
        exact ⟨text', rfl, hrest⟩

/-- Digits stand for themselves. -/
theorem quotedPoint_digit {c : Char} (h : c.isDigit = true) : quotedPoint c.toNat = [c] := by
  obtain ⟨hlow, hhigh⟩ : 48 ≤ c.toNat ∧ c.toNat ≤ 57 := Char.isDigit_iff_toNat.1 h
  have hletters : ∀ e ∈ letterEscapes, e.1 < 48 := by decide
  obtain ⟨hpair, -⟩ | ⟨hunit, -⟩ | ⟨letter, hletter, -⟩ | ⟨-, h⟩ := quotedPoint_forms c.toNat
  · omega
  · omega
  · exact absurd (hletters _ hletter) (Nat.not_lt.2 hlow)
  · rw [h, Char.ofNat_toNat]

theorem digitNext_quotedBody (text : List Char) : digitNext (quotedBody text) = digitNext text := by
  cases text with
  | nil => rfl
  | cons c text =>
    rw [quotedBody_cons]
    cases hc : c.isDigit with
    | true =>
      rw [quotedPoint_digit hc]
      rfl
    | false =>
      rcases quotedPoint_cases c with ⟨chars, h⟩ | h
      · rw [h]
        exact hc.symm
      · rw [h]
        rfl

/-- An escape of one letter is read as its code point, unless a digit follows that of a NUL. -/
theorem readEscape?_letter {code : Nat} {letter : Char} {rest : List Char}
    (h : (code, letter) ∈ letterEscapes) (hnul : code = 0 → digitNext rest = false) :
    readEscape? (letter :: rest) = some (code, rest) := by
  simp only [letterEscapes, List.mem_cons, Prod.mk.injEq, List.not_mem_nil, or_false] at h
  obtain ⟨rfl, rfl⟩ | ⟨rfl, rfl⟩ | ⟨rfl, rfl⟩ | ⟨rfl, rfl⟩ | ⟨rfl, rfl⟩ := h
  · rfl
  · rfl
  · rfl
  · show (if digitNext rest then none else some (0x00, rest)) = _
    rw [hnul rfl]
    rfl
  · rfl

/-- A character that is neither a quote nor a backslash is read back, unless a digit follows the
escape of a NUL. -/
theorem readUnits?_quotedPoint {c : Char} (hquote : c ≠ '\x22') (hback : c ≠ '\x5c')
    {rest : List Char} (hnul : c.toNat = 0 → digitNext rest = false) :
    readUnits? (quotedPoint c.toNat ++ rest) = (readUnits? rest).map (utf16 c ++ ·) := by
  have hvalid : c.toNat < 0x110000 := by
    have h : c.toNat < 0xD800 ∨ 0xDFFF < c.toNat ∧ c.toNat < 0x110000 := c.valid
    omega
  have hletters : ∀ e ∈ letterEscapes, e.1 < 0x10000 := by decide
  obtain ⟨hpair, h⟩ | ⟨-, hunit, h⟩ | ⟨letter, hletter, h⟩ | ⟨-, h⟩ := quotedPoint_forms c.toNat
  · rw [h, List.append_assoc, readUnits?_unitEscape (by omega), readUnits?_unitEscape (by omega),
      utf16, if_neg (by omega), Option.map_map]
    rfl
  · rw [h, readUnits?_unitEscape (by omega), utf16, if_pos (by omega)]
    rfl
  · rw [h, utf16, if_pos (hletters _ hletter)]
    exact readUnits?_escape (readEscape?_letter hletter hnul)
  · rw [h, Char.ofNat_toNat]
    exact readUnits?_char hquote hback rest

theorem plain_nil : Plain [] := by
  refine ⟨List.not_mem_nil, List.not_mem_nil, fun c h => ?_⟩
  exact absurd (List.infix_nil.1 h) (List.cons_ne_nil _ _)

theorem plain_cons {c : Char} {text : List Char} : Plain (c :: text) ↔
    c ≠ '\x22' ∧ c ≠ '\x5c' ∧ (c.toNat = 0 → digitNext text = false) ∧ Plain text := by
  have hnul : c.toNat = 0 ↔ '\x00' = c := by
    rw [← Char.toNat_inj]
    exact eq_comm
  constructor
  · rintro ⟨hquote, hback, hdigit⟩
    rw [List.mem_cons, not_or] at hquote hback
    refine ⟨Ne.symm hquote.1, Ne.symm hback.1, fun h => ?_, hquote.2, hback.2,
      fun d hd => hdigit d (List.infix_cons hd)⟩
    cases text with
    | nil => rfl
    | cons d text => exact hdigit d ⟨[], text, by rw [hnul.1 h]; rfl⟩
  · rintro ⟨hquote, hback, hnext, hplain⟩
    refine ⟨List.not_mem_cons_of_ne_of_not_mem (Ne.symm hquote) hplain.quote,
      List.not_mem_cons_of_ne_of_not_mem (Ne.symm hback) hplain.backslash, fun d hd => ?_⟩
    rcases List.infix_cons_iff.1 hd with hd | hd
    · obtain ⟨h, hd⟩ := List.cons_prefix_cons.1 hd
      have hnot := hnext (hnul.2 h)
      cases text with
      | nil => cases List.prefix_nil.1 hd
      | cons d' text =>
        obtain ⟨rfl, -⟩ := List.cons_prefix_cons.1 hd
        exact hnot
    · exact hplain.digit d hd

theorem readUnits?_of_plain {text : List Char} (h : Plain text) :
    readUnits? (quotedBody text) = some (text.flatMap utf16) := by
  induction text with
  | nil =>
    show readUnits? ['\x22'] = _
    rw [readUnits?]
    rfl
  | cons c text ih =>
    obtain ⟨hquote, hback, hnext, hplain⟩ := plain_cons.1 h
    rw [quotedBody_cons, readUnits?_quotedPoint hquote hback, ih hplain]
    · rfl
    · rw [digitNext_quotedBody]
      exact hnext

theorem length_utf16_pos (c : Char) : 0 < (utf16 c).length := by
  unfold utf16
  split_ifs
  · exact Nat.one_pos
  · exact Nat.two_pos

/-- A text has at least as many code units as characters. -/
theorem length_le_utf16 (text : List Char) : text.length ≤ (text.flatMap utf16).length := by
  induction text with
  | nil => exact Nat.le_refl 0
  | cons c text ih =>
    have := length_utf16_pos c
    rw [List.flatMap_cons, List.length_append, List.length_cons]
    omega

/-- An escape that begins with a backslash of the text takes up some characters of the text. -/
theorem readUnits?_backslash {text : List Char} {units : List Nat}
    (h : readUnits? ('\x5c' :: quotedBody text) = some units) :
    ∃ unit units' read text', units = unit :: units' ∧ readUnits? (quotedBody text') = some units' ∧
      text = read ++ text' ∧ read ≠ [] := by
  cases hescape : readEscape? (quotedBody text) with
  | none => cases (readUnits?_noEscape hescape).symm.trans h
  | some escape =>
    obtain ⟨unit, rest⟩ := escape
    obtain ⟨read, hbody, hne, hread⟩ := readEscape?_chars hescape
    obtain ⟨text', rfl, rfl⟩ := eq_append_of_quotedBody hread hbody
    rw [readUnits?_escape hescape] at h
    obtain ⟨units', hunits', rfl⟩ := Option.map_eq_some_iff.1 h
    exact ⟨unit, units', read, text', rfl, hunits', rfl, hne⟩

/-- What is read from a literal has no more code units than the text, and less if the text is not
plain. -/
theorem plain_of_readUnits? {text : List Char} {units : List Nat}
    (h : readUnits? (quotedBody text) = some units) :
    units.length ≤ (text.flatMap utf16).length ∧
      (units.length = (text.flatMap utf16).length → Plain text) := by
  -- The induction is on the length: a backslash in the text takes several characters with it.
  induction hn : text.length using Nat.strongRecOn generalizing text units with
  | _ n ih =>
    cases text with
    | nil =>
      change readUnits? ['\x22'] = _ at h
      rw [readUnits?] at h
      cases h
      exact ⟨Nat.le_refl 0, fun _ => plain_nil⟩
    | cons c text =>
      rw [quotedBody_cons] at h
      rw [List.length_cons] at hn
      by_cases hquote : c = '\x22'
      · -- The literal ends before its last character.
        subst hquote
        have hne : (quotedBody text).isEmpty = false := by simp [quotedBody]
        change readUnits? ('\x22' :: quotedBody text) = _ at h
        rw [readUnits?, hne] at h
        cases h
      by_cases hback : c = '\x5c'
      · subst hback
        obtain ⟨unit, units', read, text', rfl, hunits', rfl, hne⟩ := readUnits?_backslash h
        rw [List.length_append] at hn
        have hread := length_le_utf16 read
        have hpos := List.length_pos_of_ne_nil hne
        obtain ⟨hle, -⟩ := ih text'.length (by omega) hunits' rfl
        have hlt : (unit :: units').length < (('\x5c' :: (read ++ text')).flatMap utf16).length := by
          simp only [List.flatMap_cons, List.flatMap_append, List.length_append, List.length_cons]
          have := length_utf16_pos '\x5c'
          omega
        exact ⟨Nat.le_of_lt hlt, fun heq => absurd heq (Nat.ne_of_lt hlt)⟩
      by_cases hnul : c.toNat = 0 → digitNext text = false
      · rw [readUnits?_quotedPoint hquote hback (by rwa [digitNext_quotedBody])] at h
        obtain ⟨units', hunits', rfl⟩ := Option.map_eq_some_iff.1 h
        obtain ⟨hle, hplain⟩ := ih text.length (by omega) hunits' rfl
        rw [List.flatMap_cons, List.length_append, List.length_append]
        refine ⟨by omega, fun heq => plain_cons.2 ⟨hquote, hback, hnul, hplain (by omega)⟩⟩
      · -- A digit after the escape of a NUL is refused.
        obtain ⟨h0, hdigit⟩ := Classical.not_imp.1 hnul
        rw [h0] at h
        change readUnits? ('\x5c' :: '0' :: quotedBody text) = _ at h
        rw [readUnits?_noEscape] at h
        · cases h
        · show (if digitNext (quotedBody text) then none else some (0x00, _)) = none
          rw [digitNext_quotedBody, if_pos (Bool.eq_true_of_not_eq_false hdigit)]

theorem unitEscape_le {unit : Nat} : ∀ x ∈ unitEscape unit, x.toNat ≤ 0xFF := by
  have hdigits : ∀ d < 16, d.digitChar.toNat ≤ 0xFF := by decide +kernel
  rw [unitEscape, List.forall_mem_cons, List.forall_mem_cons]
  refine ⟨by decide, by decide, fun x hx => ?_⟩
  obtain ⟨d, hd, rfl⟩ := mem_hex hx
  exact hdigits d hd

theorem quotedPoint_le (c : Char) : ∀ x ∈ quotedPoint c.toNat, x.toNat ≤ 0xFF := by
  have hletters : ∀ e ∈ letterEscapes, e.2.toNat ≤ 0xFF := by decide
  obtain ⟨-, h⟩ | ⟨-, -, h⟩ | ⟨letter, hletter, h⟩ | ⟨hle, h⟩ := quotedPoint_forms c.toNat
  · rw [h]
    exact List.forall_mem_append.2 ⟨unitEscape_le, unitEscape_le⟩
  · rw [h]
    exact unitEscape_le
  · rw [h]
    exact List.forall_mem_cons.2 ⟨by decide, List.forall_mem_singleton.2 (hletters _ hletter)⟩
  · rw [h, Char.ofNat_toNat]
    exact List.forall_mem_singleton.2 hle

/-- A string literal reads back as the text that it was written for just if the text is plain; and no
character of a literal lies past U+00FF. -/
theorem quoted_reads_back_iff (text : String) :
    (unquote (quoted text) = some (text.toList.flatMap utf16) ↔ Plain text.toList) ∧
      ∀ c ∈ (quoted text).toList, c.toNat ≤ 0xFF := by
  rw [unquote_quoted]
  refine ⟨⟨fun h => (plain_of_readUnits? h).2 rfl, readUnits?_of_plain⟩, ?_⟩
  have hpoints : ∀ c ∈ text.toList.flatMap (fun c => quotedPoint c.toNat), c.toNat ≤ 0xFF :=
    List.forall_mem_flatMap.2 fun c _ => quotedPoint_le c
  rw [quoted, quotedPoints, String.toList_ofList, List.flatMap_map]
  exact List.forall_mem_append.2 ⟨List.forall_mem_cons.2 ⟨by decide, hpoints⟩, by simp⟩

end Text

end Scribe
