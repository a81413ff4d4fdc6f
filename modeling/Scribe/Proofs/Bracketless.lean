import Mathlib.Data.List.Basic
import Scribe.Proofs.Brackets
import Scribe.Proofs.Quotation
import Scribe.Proofs.Slots
import Scribe.Render

/-!
# Texts without brackets

What a program must keep free of brackets for its rendered code to nest (`Program.Bracketless`,
`Value.Bracketless`): names, texts of literals, comments and snippets, and the details in headers.
Whatever is made of such texts on the way (escaped names, dotted names, numerals, quoted literals,
the lines of a comment) is free of brackets too.
-/

namespace Scribe

open Scribe.Bracket

/-! ### Names -/

namespace Identifier

theorem free_declared {name : String} (h : Free name.toList) : Free (declared name).toList := by
  unfold declared
  split_ifs
  · decide
  · exact .toList_append (by decide) h
  · exact h

theorem free_referenced {name : String} (h : Free name.toList) : Free (referenced name).toList := by
  unfold referenced
  split_ifs
  · decide
  · exact .toList_append (by decide) h
  · exact h

theorem free_ofMethod {name : String} (special : Bool) (h : Free name.toList) :
    Free (ofMethod name special).toList := by
  unfold ofMethod
  split_ifs
  · decide
  · cases hl : operatorNames.lookup name with
    | none => exact h
    | some found =>
      have hfound : Value.lookup? operatorNames (.ofText name) = some found := hl
      exact Value.free_lookup (by decide) hfound
  · exact h

end Identifier

/-- Changing texts to texts without brackets leaves scalars without brackets. -/
theorem Scalar.free_mapText {f : String → String} (hf : ∀ t, Free t.toList → Free (f t).toList)
    {s : Scalar} (h : Free s.plain.toList) : Free (s.mapText f).plain.toList := by
  cases s with
  | text t => exact hf t h
  | _ => exact h

/-! ### Numbers -/

theorem free_digitChar (n : Nat) : opened? n.digitChar = none ∧ closed? n.digitChar = none := by
  have hdigit : ∀ m < 16, opened? m.digitChar = none ∧ closed? m.digitChar = none := by
    decide +kernel
  rcases Nat.lt_or_ge n 16 with h | h
  · exact hdigit n h
  · have hstar : n.digitChar = '*' := by
      unfold Nat.digitChar
      iterate 16 rw [if_neg (by omega)]
    rw [hstar]
    exact ⟨rfl, rfl⟩

theorem free_toDigits {base : Nat} (hb : 1 < base) (n : Nat) : Free (Nat.toDigits base n) := by
  induction n using Nat.strongRecOn with
  | _ n ih =>
    rw [Nat.toDigits_eq_if hb]
    split_ifs with h
    · exact .cons (free_digitChar n) .nil
    · exact (ih _ (Nat.div_lt_self (by omega) hb)).append (.cons (free_digitChar _) .nil)

theorem free_toString_nat (n : Nat) : Free (toString n).toList := by
  rw [Nat.toString_eq_repr, Nat.repr, String.toList_ofList]
  exact free_toDigits (by decide) n

theorem free_toString_int (n : Int) : Free (toString n).toList := by
  show Free (Int.repr n).toList
  rw [Int.repr_eq_if]
  split_ifs
  · exact free_toString_nat _
  · exact .toList_append (by decide) (free_toString_nat _)

namespace Numeral

variable {digits numeral : List Char}

theorem free_zeros (n : Nat) : Free (zeros n) := .replicate n ⟨rfl, rfl⟩

theorem free_positional (h : Free digits) (point : Int) : Free (positional digits point) := by
  unfold positional
  split_ifs
  · exact .cons ⟨rfl, rfl⟩ (.cons ⟨rfl, rfl⟩ ((free_zeros _).append h))
  · exact h.append (free_zeros _)
  · exact (h.subset (List.take_subset _ _)).append
      (.cons ⟨rfl, rfl⟩ (h.subset (List.drop_subset _ _)))

theorem free_scientific (h : Free digits) (exponent : Int) : Free (scientific digits exponent) := by
  have hexponent : Free (twoDigits exponent.natAbs) :=
    (free_zeros _).append (free_toDigits (by decide) _)
  have hsign : Free ('e' :: (if exponent < 0 then '-' else '+') :: twoDigits exponent.natAbs) := by
    split_ifs
    · exact .cons ⟨rfl, rfl⟩ (.cons ⟨rfl, rfl⟩ hexponent)
    · exact .cons ⟨rfl, rfl⟩ (.cons ⟨rfl, rfl⟩ hexponent)
  unfold scientific
  refine .append ?_ hsign
  split
  · next first second rest =>
    have hpoint : Free ('.' :: first :: second :: rest) := .cons ⟨rfl, rfl⟩ h
    refine hpoint.subset fun c hc => ?_
    simp only [List.mem_cons] at hc ⊢
    tauto
  · exact h

theorem free_general (h : Free digits) (limit order : Int) : Free (general limit digits order) := by
  unfold general
  split_ifs
  · exact free_scientific h _
  · exact free_positional h _

theorem free_trimZeros (h : Free digits) : Free (trimZeros digits) := by
  cases digits with
  | nil => exact .nil
  | cons first rest =>
    refine h.subset (List.cons_subset_cons _ ?_)
    rw [List.reverse_subset]
    exact List.Subset.trans (List.dropWhile_subset _) (List.reverse_subset.2 (List.Subset.refl _))

theorem free_signed (h : Free numeral) (negative : Bool) : Free (signed negative numeral) := by
  unfold signed
  split_ifs
  · exact .cons ⟨rfl, rfl⟩ h
  · exact h

theorem free_withPoint (h : Free numeral) : Free (withPoint numeral) := by
  unfold withPoint
  split_ifs
  · exact h
  · exact h.append (by decide)

theorem free_chars (digits : Digits) : Free digits.chars := free_toDigits (by decide) _

theorem free_shortest (negative : Bool) (d : Dyadic) : Free (shortest negative d) :=
  free_signed (free_withPoint (free_general (free_trimZeros (free_chars _)) _ _)) _

theorem free_significant (count : Nat) (negative : Bool) (digits : Digits) :
    Free (significant count negative digits) :=
  free_signed (free_general (free_trimZeros (free_chars _)) _ _) _

theorem free_dropPointZero (h : Free numeral) : Free (dropPointZero numeral) := by
  unfold dropPointZero
  split
  · next rest hr =>
    refine h.subset (List.reverse_subset.2 fun c hc => ?_)
    have : c ∈ numeral.reverse := by simp [hr, hc]
    simpa using this
  · exact h

theorem free_restyle (h : Free numeral) : Free (restyle numeral) := by
  have hmantissa := free_dropPointZero (h.subset (List.takeWhile_subset (· != 'e')))
  unfold restyle
  split
  · exact hmantissa
  · next first exponent he =>
    have hexponent : Free exponent := h.subset fun c hc =>
      List.dropWhile_subset (· != 'e') (by rw [he]; exact List.mem_cons_of_mem _ hc)
    refine hmantissa.append (.cons ⟨rfl, rfl⟩ (.cons ?_ ((free_zeros _).append
      (hexponent.subset (List.dropWhile_subset _)))))
    split <;> exact ⟨rfl, rfl⟩

theorem free_infinity (negative : Bool) : Free (infinity negative).toList := by
  cases negative <;> decide

theorem free_ofDouble (x : Double) : Free (ofDouble x).toList := by
  cases x with
  | nan => decide
  | infinite negative => exact free_infinity negative
  | finite negative magnitude =>
    rw [ofDouble, String.toList_ofList]
    exact free_restyle (free_shortest _ _)

theorem free_ofSingle {x : Double} {text : String} (h : ofSingle? x = some text) :
    Free text.toList := by
  cases x with
  | nan => cases h; decide
  | infinite negative => cases h; exact free_infinity negative
  | finite negative magnitude =>
    simp only [ofSingle?, Option.bind_eq_bind, Option.bind_eq_some_iff] at h
    obtain ⟨single, -, found, -, h⟩ := h
    split at h <;> cases h <;> rw [String.toList_ofList]
    · exact free_restyle (free_significant _ _ _)
    · exact free_restyle (free_shortest _ _)

end Numeral

theorem IntegerKind.free_text (k : IntegerKind) (format : NumberFormat) (n : Int) :
    Free (k.text format n).toList := by
  have hhex : Free (k.hexadecimal n).toList := by
    rw [hexadecimal, String.toList_ofList]
    exact .cons ⟨rfl, rfl⟩ (.cons ⟨rfl, rfl⟩ (free_toDigits (by decide) _))
  unfold text
  split
  · exact free_toString_int n
  · split_ifs
    · exact free_toString_int n
    · exact hhex
  · exact hhex
  · exact hhex

/-! ### Literals -/

namespace Text

theorem free_hex (width n : Nat) : Free (hex width n) :=
  (Numeral.free_zeros _).append (free_toDigits (by decide) n)

/-- A code point that is no bracket is written without one. -/
theorem free_quotedPoint {code : Nat} (h : Free [Char.ofNat code]) : Free (quotedPoint code) := by
  have hunit (unit : Nat) : Free (unitEscape unit) :=
    .cons ⟨rfl, rfl⟩ (.cons ⟨rfl, rfl⟩ (free_hex _ _))
  have hletters : ∀ e ∈ letterEscapes, opened? e.2 = none ∧ closed? e.2 = none := by decide
  obtain ⟨-, hw⟩ | ⟨-, -, hw⟩ | ⟨letter, hletter, hw⟩ | ⟨-, hw⟩ := quotedPoint_forms code
  · rw [hw]
    exact (hunit _).append (hunit _)
  · rw [hw]
    exact hunit _
  · rw [hw]
    exact .cons ⟨rfl, rfl⟩ (.cons (hletters _ hletter) .nil)
  · rwa [hw]

theorem free_quotedPoints {codes : List Nat} (h : ∀ n ∈ codes, Free [Char.ofNat n]) :
    Free (quotedPoints codes) := by
  refine .cons ⟨rfl, rfl⟩ (.append (fun c hc => ?_) (.cons ⟨rfl, rfl⟩ .nil))
  obtain ⟨n, hn, hc⟩ := List.mem_flatMap.1 hc
  exact free_quotedPoint (h n hn) c hc

theorem free_quoted {s : String} (h : Free s.toList) : Free (quoted s).toList := by
  rw [quoted, String.toList_ofList]
  refine free_quotedPoints fun n hn => ?_
  obtain ⟨c, hc, rfl⟩ := List.mem_map.1 hn
  rw [Char.ofNat_toNat]
  exact .cons (h c hc) .nil

/-- The lines of a text without brackets have none. -/
theorem free_lines {s : String} (h : Free s.toList) : ∀ line ∈ lines s, Free line.toList :=
  fun _ hline c hc => h c (mem_of_mem_lines hline hc).1

end Text

namespace Literal

/-- The text of a text literal, the character of a character literal and the payload of a decimal
that is no number have no brackets; no other literal can have any. -/
def Bracketless (value kind : Value) : Prop :=
  match value with
  | .scalar (.text s) => Free s.toList
  | .scalar (.int n) => kind.isText "char" = true → Free [Char.ofNat n.toNat]
  | .scalar (.decimal (.nan _ _ payload) _) => Free payload.toList
  | _ => True

theorem free_decimal {d : Decimal} (h : ∀ negative signaling payload,
    d = .nan negative signaling payload → Free payload.toList) : Free d.plain.toList := by
  have hspecial (negative : Bool) {word : String} (hw : Free word.toList) :
      Free (Decimal.special negative word).toList := by
    cases negative
    · exact hw
    · exact .toList_append (by decide) hw
  cases d with
  | infinite negative => exact hspecial negative (by decide)
  | nan negative signaling payload =>
    refine hspecial negative (.toList_append ?_ (h _ _ _ rfl))
    cases signaling <;> decide
  | finite negative digits =>
    rw [Decimal.plain, String.toList_ofList]
    exact Numeral.free_signed (Numeral.free_positional (Numeral.free_chars _) _) _

theorem free_single {s : Scalar} {t : String} (h : single s = some (.ok t)) : Free t.toList := by
  have hsingle {x : Double} (hx : singleText x = .ok t) : Free t.toList := by
    unfold singleText at hx
    split at hx
    · next hs => cases hx; exact Numeral.free_ofSingle hs
    · cases hx
  unfold single at h
  split at h
  · exact hsingle (Option.some.inj h)
  · split at h
    · exact hsingle (Option.some.inj h)
    · cases h
  · cases h

theorem free_double {s : Scalar} {t : String} (h : double s = some (.ok t)) : Free t.toList := by
  unfold double at h
  split at h
  · cases h; exact Numeral.free_ofDouble _
  · split at h
    · cases h; exact Numeral.free_ofDouble _
    · cases h
  · cases h

theorem free_integer {p : Program} {format : NumberFormat} {kind : Value} {n : Int} {t : String}
    (h : integer p format kind (.scalar (.int n)) = .ok t) : Free t.toList := by
  cases hk : integerKind? kind with
  | none => simp [integer, hk] at h
  | some k =>
    simp only [integer, hk] at h
    split_ifs at h
    cases h
    exact k.free_text format n

theorem free_textOfScalar {p : Program} {format : NumberFormat} {s : Scalar} {kind t : String}
    (h : textOfScalar p format s kind = some (.ok t))
    (hs : Bracketless (.scalar s) (.ofText kind)) : Free t.toList := by
  unfold textOfScalar at h
  split at h
  · cases h; split_ifs <;> decide
  · cases h; exact Text.free_quoted hs
  · split_ifs at h
    cases h
    exact Text.free_quoted hs
  · next n =>
    have hc := Option.some.inj h
    unfold character at hc
    split_ifs at hc
    cases hc
    rw [String.toList_ofList]
    exact Text.free_quotedPoints (List.forall_mem_singleton.2 (hs rfl))
  · exact free_single h
  · exact free_double h
  · next d mark =>
    cases h
    exact free_decimal fun negative signaling payload hd => by cases hd; exact hs
  · cases h; exact free_decimal nofun
  · exact free_integer (Option.some.inj h)
  · cases h

/-- The kind that a value implies is never that of a character. -/
theorem Bracketless.kindOf {value kind : Value} {k : String} (h : Bracketless value kind)
    (hk : kindOf value kind = .scalar (.text k)) : Bracketless value (.ofText k) := by
  unfold Literal.kindOf at hk
  split_ifs at hk
  · unfold Bracketless at h ⊢
    split
    · exact h
    · next n =>
      intro hchar
      unfold impliedKind at hk
      dsimp only at hk
      split_ifs at hk <;> cases hk <;> exact absurd hchar (by decide)
    · exact h
    · trivial
  · rw [hk] at h
    exact h

/-- The text of a literal has no brackets but those of its value. -/
theorem free_text {p : Program} {format : NumberFormat} {value kind : Value} {t : String}
    (h : text p format value kind = .ok t) (hv : Bracketless value kind) : Free t.toList := by
  unfold text at h
  split at h
  · next k hk =>
    have hv' := hv.kindOf hk
    cases ht : textAt p format value k with
    | none => rw [ht] at h; cases h
    | some r =>
      rw [ht] at h
      obtain rfl : r = .ok t := h
      unfold textAt at ht
      split_ifs at ht
      · cases ht; decide
      · split at ht
        · exact free_textOfScalar ht hv'
        · cases ht
  · cases h

end Literal

/-! ### Dotted names and dimensions -/

namespace Value

/-- What is written in place of a text has no brackets. -/
def IsFree : Value → Prop
  | .scalar s => Free s.plain.toList
  | _ => True

/-- The text of a node that has one has no brackets. -/
def HasFreeText : Value → Prop
  | .stmt (.goto _ label) | .stmt (.labeled _ label _) => label.IsFree
  | .stmt (.comment content) => content.IsFree
  | .expr (.snippet code) => code.IsFree
  | .expr (.literal value kind) => Literal.Bracketless value kind
  | .bounds lower upper => Free lower.plain.toList ∧ Free upper.plain.toList
  | _ => True

/-- No text that stands in the value has brackets. -/
def Bracketless (v : Value) : Prop := ∀ u, Inside u v → u.HasFreeText

theorem Bracketless.node {v : Value} (h : Bracketless v) : v.HasFreeText := h v (.refl v)

theorem Bracketless.slot {u v : Value} (h : Bracketless v) (hu : u ∈ v.slots) : Bracketless u :=
  fun w hw => h w (.slot hw hu)

theorem Bracketless.slots {v : Value} (h : Bracketless v) : v.slots.Forall Bracketless :=
  List.forall_iff_forall_mem.2 fun _ hu => h.slot hu

theorem bracketless_iff (v : Value) :
    Bracketless v ↔ v.HasFreeText ∧ ∀ u ∈ v.slots, Bracketless u :=
  forall_inside_iff

theorem bracketless_scalar (s : Scalar) : Bracketless (.scalar s) :=
  (bracketless_iff _).2 ⟨trivial, nofun⟩

theorem Bracketless.items {v : Value} (h : Bracketless v) {items : List Value}
    (hi : v.items = .ok items) : ∀ u ∈ items, Bracketless u := by
  intro u hu
  rcases mem_items hi hu with hslot | ⟨s, rfl⟩
  · exact h.slot hslot
  · exact bracketless_scalar s

theorem free_told {s : Scalar} {form : Scalar → String} {t : String} (h : s.told form = .ok t)
    (hs : Free (form s).toList) : Free t.toList := by
  unfold Scalar.told at h
  split_ifs at h
  cases h
  exact hs

theorem free_dimensionText {v : Value} {t : String} (h : v.dimensionText = .ok t)
    (hv : v.HasFreeText) : Free t.toList := by
  unfold dimensionText at h
  split at h
  · next lower upper =>
    split_ifs at h with hopen hbelow
    · cases h
      decide
    all_goals
      obtain ⟨first, hfirst, h⟩ := Except.bind_eq_ok h
      obtain ⟨last, hlast, h⟩ := Except.bind_eq_ok h
      cases h
      refine .toList_append (.toList_append ?_ (by decide)) (free_told hlast hv.2)
    · cases hfirst
      decide
    · exact free_told hfirst hv.1
  · cases h

theorem free_intercalate {separator : String} (hs : Free separator.toList) {texts : List String}
    (h : ∀ t ∈ texts, Free t.toList) : Free (separator.intercalate texts).toList :=
  forall_intercalate .nil (fun _ _ => .append) hs h

theorem free_dimensionsText {v : Value} {t : String} (h : v.dimensionsText = .ok t)
    (hv : v.Bracketless) : Free t.toList := by
  unfold dimensionsText at h
  have hmap {items : List Value} (hi : ∀ u ∈ items, u.HasFreeText) {texts : List String}
      (ht : items.mapM dimensionText = .ok texts) : ∀ t ∈ texts, Free t.toList := by
    induction items generalizing texts with
    | nil => cases ht; exact nofun
    | cons u items ih =>
      rw [List.mapM_cons] at ht
      obtain ⟨first, hu, ht⟩ := Except.bind_eq_ok ht
      obtain ⟨rest, hr, ht⟩ := Except.bind_eq_ok ht
      cases ht
      obtain ⟨hfirst, hothers⟩ := List.forall_mem_cons.1 hi
      exact List.forall_mem_cons.2 ⟨free_dimensionText hu hfirst, ih hothers hr⟩
  obtain ⟨items, hi, h⟩ := Except.bind_eq_ok h
  obtain ⟨texts, ht, rfl⟩ := Except.map_eq_ok h
  exact free_intercalate (by decide) (hmap (fun u hu => (hv.items hi u hu).node) ht)

end Value

/-- The details that stand in the header of a container. -/
def Program.details (p : Program) : Entity → List Value
  | ⟨.assembly, i⟩ => (p.assembly ⟨i⟩).version :: (p.assembly ⟨i⟩).declared.elim [] fun d =>
    [d.location]
  | ⟨.module, i⟩ => (p.module ⟨i⟩).declared.elim [] fun d => [d.version, d.location, d.size]
  | ⟨.resource, i⟩ => [(p.resource ⟨i⟩).visibility, (p.resource ⟨i⟩).location]
  | _ => []

/-- If the value can be shown as part of a line, its text has no brackets. -/
def Program.ShowsFree (p : Program) (v : Value) : Prop := ∀ t, p.plain v = .ok t → Free t.toList

/-- No name, no namespace and no detail of a header has brackets, and no text in the trees that
entities hold. -/
structure Program.Bracketless (p : Program) : Prop where
  name (e : Entity) : (p.nameOf e).IsFree
  nameSpace (t : TypeId) : (p.type t).nameSpace.IsFree
  detail (e : Entity) : ∀ v ∈ p.details e, p.ShowsFree v
  part (e : Entity) : ∀ part ∈ p.parts e, part.value.Bracketless

namespace Program

variable {p : Program} (hp : p.Bracketless)

include hp

theorem Bracketless.value (e : Entity) {v : Value} (h : v ∈ (p.parts e).map (·.value)) :
    v.Bracketless :=
  List.forall_mem_map.2 (hp.part e) v h

theorem Bracketless.type_name (t : TypeId) : (p.type t).name.IsFree := hp.name t.entity

omit hp in
theorem free_asText {v : Value} (hv : v.IsFree) {t : String} (h : v.asText = .ok t) :
    Free t.toList := by
  unfold Value.asText at h
  split at h
  · cases h; exact hv
  · cases h

/-- What stands before the names of types has no brackets. -/
theorem Bracketless.qualifierWithin {links : Nat} {t : TypeId} {q : String}
    (h : p.qualifierWithin links t = .ok q) : Free q.toList := by
  fun_induction p.qualifierWithin links t generalizing q with
  | case1 links t _ =>
    unfold nameSpaceQualifier at h
    split_ifs at h
    · obtain ⟨space, hs, rfl⟩ := Except.map_eq_ok h
      exact .toList_append (free_asText (hp.nameSpace t) hs) (by decide)
    · cases h; exact .nil
  | case2 t i links _ ih =>
    obtain ⟨qualifier, hq, h⟩ := Except.bind_eq_ok h
    obtain ⟨name, hn, rfl⟩ := Except.map_eq_ok h
    exact .toList_append (.toList_append (ih hq) (free_asText (hp.type_name ⟨i⟩) hn)) (by decide)
  | case3 => cases h
  | case4 => cases h

/-- The dotted names of types have no brackets. -/
theorem Bracketless.scope {t : TypeId} {v : Value} (h : p.scope t = .ok v) : v.IsFree := by
  obtain ⟨qualifier, hq, h⟩ := Except.bind_eq_ok h
  have hname := hp.type_name t
  split at h
  · next name hn =>
    cases h
    rw [hn] at hname
    exact .toList_append (hp.qualifierWithin hq) hname
  · split_ifs at h
    cases h
    exact hname

theorem Bracketless.scopeText {t : TypeId} {s : String} (h : p.scopeText t = .ok s) :
    Free s.toList := by
  obtain ⟨v, hs, hv⟩ := Except.bind_eq_ok h
  exact free_asText (hp.scope hs) hv

omit hp in
theorem free_shownName (t : TypeId) {scope : Scalar} (h : Free scope.plain.toList) :
    Free (p.shownName t scope).plain.toList := by
  unfold shownName
  split
  · next name hn =>
    unfold builtinName? at hn
    split at hn
    · next found _ =>
      split_ifs at hn
      have hfound : Value.lookup? builtinNames (.ofText found) = some name := hn
      exact Value.free_lookup (by decide) hfound
    · cases hn
  · exact Scalar.free_mapText (fun _ => Identifier.free_referenced) h

omit hp in
theorem free_shortAttributeName {name : String} (h : Free name.toList) :
    Free (shortAttributeName name).toList := by
  unfold shortAttributeName
  split_ifs
  · rw [String.toList_ofList]
    exact h.subset (List.take_subset _ _)
  · exact h

end Program

end Scribe
