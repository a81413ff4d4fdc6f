import Scribe.Proofs.Agreement
import Scribe.Proofs.Numerals
import Scribe.Proofs.Variation

/-!
# The format of numbers

`Context.format_respells_integers`: if nothing but the format of numbers changes, a render has the same
fault, and writes the same tokens but for the texts of integer literals. The two texts of such a
literal read back as one integer. Sizes, bounds and counts are always written in base ten, and whether
a literal is in the range of its kind does not depend on how it is written.
-/

namespace Scribe

open Script

/-! ### What is written with a slot -/

namespace Program

/-- What is declared with `v`, at any depth. -/
inductive Declares (p : Program) (v : Value) : Value → Prop
  | self : Declares p v v
  | member {e : Entity} {slot w : Value} :
    Declares p v (.entity e) → slot ∈ p.memberSlots e → w ∈ slot.slots → Declares p v w

/-- Whether `w` stands in `v`, or in the code of what is declared with it. -/
def Writes (p : Program) (v w : Value) : Prop :=
  w.Inside v ∨ ∃ e slot, p.Declares v (.entity e) ∧ slot ∈ p.codeSlots e ∧ w.Inside slot

variable {p : Program} {u v w : Value}

theorem Writes.slot (h : p.Writes v u) (hw : w ∈ u.slots) : p.Writes v w := by
  have hin : w.Inside u := (Value.Inside.refl w).slot hw
  obtain h | ⟨e, slot, he, hslot, h⟩ := h
  · exact .inl (hin.trans h)
  · exact .inr ⟨e, slot, he, hslot, hin.trans h⟩

/-- A render of `v` meets nothing but scalars and what is written with `v`. -/
theorem closed_writes (p : Program) (v : Value) :
    p.Closed (fun w => (∃ s, w = .scalar s) ∨ p.Declares v w)
      (fun w => (∃ s, w = .scalar s) ∨ p.Writes v w) where
  scalar s := ⟨.inl ⟨s, rfl⟩, .inl ⟨s, rfl⟩⟩
  slot := by
    rintro u w (⟨s, rfl⟩ | h) hw
    · exact absurd hw List.not_mem_nil
    · exact .inr (h.slot hw)
  code := by
    rintro e slot (⟨s, ⟨⟩⟩ | h) hslot
    exact .inr (.inr ⟨e, slot, h, hslot, .refl slot⟩)
  member := by
    rintro e slot w (⟨s, ⟨⟩⟩ | h) hslot hw
    exact .inr (.member h hslot hw)

end Program

/-! ### Literals in two formats -/

/-- The same token, or the texts of an integer literal that is written with `v` in two formats, which
read back as the integer at the kind of the literal. -/
inductive Token.Respelled (p : Program) (v : Value) (format format' : NumberFormat) :
    Token → Token → Prop
  | same (t : Token) : Respelled p v format format' t t
  | integer {n : Int} {kind : Value} {k : IntegerKind} {text text' : String} :
    p.Writes v (.expr (.literal (.scalar (.int n)) kind)) →
    Literal.integerKind? (Literal.kindOf (.scalar (.int n)) kind) = some k →
    Literal.text p format (.scalar (.int n)) kind = .ok text →
    Literal.text p format' (.scalar (.int n)) kind = .ok text' →
    k.read? text = some n → k.read? text' = some n →
    Respelled p v format format' (.text text) (.text text')

theorem Token.Respelled.aligned (p : Program) (v : Value) (format format' : NumberFormat) :
    Token.Aligned (Token.Respelled p v format format') where
  refl := .same
  move h l := by cases h <;> rfl

namespace Literal

variable {value kind : Value}

/-- The format is of no account but for integers at integer kinds. -/
theorem text_eq_of_format (p : Program)
    (h : ∀ n, value = .scalar (.int n) → integerKind? (kindOf value kind) = none)
    (format format' : NumberFormat) : text p format value kind = text p format' value kind := by
  unfold text
  generalize kindOf value kind = slot at h ⊢
  split
  · next name =>
    congr 1
    unfold textAt textOfScalar
    split_ifs
    · rfl
    split
    · next s =>
      split
      case h_9 n _ _ _ _ =>
        have hname : integerKind? (.ofText name) = none := h n rfl
        simp only [integer, hname]
      all_goals rfl
    · rfl
  · rfl

end Literal

namespace Context

/-- The context with numbers written in another format. -/
def inFormat (c : Context) (format : NumberFormat) : Context :=
  { c with style := { c.style with numberFormat := format } }

variable (c : Context) (format : NumberFormat) {v : Value}

theorem literal_respelled {value kind : Value} (h : c.program.Writes v (.expr (.literal value kind))) :
    Agree Eq (Token.Respelled c.program v c.style.numberFormat format) (c.expr (.literal value kind))
      ((c.inFormat format).expr (.literal value kind)) := by
  have hr := Agree.congruence (Eq.refl (α := Fault))
    (Token.Respelled c.program v c.style.numberFormat format)
  show Agree Eq _ (given (Literal.text c.program c.style.numberFormat value kind) text)
    (given (Literal.text c.program format value kind) text)
  by_cases hint : ∃ n k, value = .scalar (.int n) ∧
    Literal.integerKind? (Literal.kindOf value kind) = some k
  · obtain ⟨n, k, rfl, hk⟩ := hint
    have htext := Literal.text_int c.program c.style.numberFormat hk
    have htext' := Literal.text_int c.program format hk
    by_cases hn : k.contains n
    · rw [if_pos hn] at htext htext'
      have hread := IntegerKind.read?_text (Literal.integerKind?_bits hk)
        (IntegerKind.contains_iff.1 hn)
      have htoken := Token.Respelled.integer h hk htext htext' (hread _) (hread _)
      rw [htext, htext']
      exact Agree.token htoken
    · rw [if_neg hn] at htext htext'
      rw [htext, htext']
      exact hr.fail _
  · refine hr.of_eq ?_
    rw [Literal.text_eq_of_format c.program _ c.style.numberFormat format]
    rintro n rfl
    exact Option.eq_none_iff_forall_ne_some.2 fun k hk => hint ⟨n, k, rfl, hk⟩

/-- Two formats of numbers are rendered alike, but for the integer literals that are written. -/
theorem format_varies (v : Value) : Varies c c.program.locals format
    (fun w => (∃ s, w = .scalar s) ∨ c.program.Declares v w)
    (fun w => (∃ s, w = .scalar s) ∨ c.program.Writes v w)
    (Agree Eq (Token.Respelled c.program v c.style.numberFormat format)) where
  toCongruence := Agree.congruence Eq.refl _
  closed := c.program.closed_writes v
  named w := by
    show Option.Rel _ (c.program.named? w) (c.program.named? w)
    cases c.program.named? w with
    | none => exact .none
    | some n => exact .some (.refl (Agree.congruence Eq.refl _) n)
  literal := by
    rintro value kind (⟨s, ⟨⟩⟩ | h)
    exact c.literal_respelled format h
  hoisted _ := rfl
  attributeName _ := rfl
  findMethod _ _ := rfl
  shownText _ _ _ := (Agree.congruence Eq.refl _).refl _
  noAccessor _ := (Agree.congruence Eq.refl _).refl _
  noInvoke _ := (Agree.congruence Eq.refl _).refl _

/-- The format of numbers touches nothing but integer literals: the fault is the same, and so is every
token but for the texts of integer literals that stand in what is rendered, and these two texts read
back as one integer. -/
theorem format_respells_integers (v : Value) :
    ((c.inFormat format).render v).fault = (c.render v).fault ∧
      List.Forall₂ (Token.Respelled c.program v c.style.numberFormat format)
        (c.render v).outcome.tokens ((c.inFormat format).render v).outcome.tokens := by
  have h : Agree Eq (Token.Respelled c.program v c.style.numberFormat format) (c.render v)
      ((c.inFormat format).render v) :=
    (c.format_varies format v).rendered (.inr .self) (.inr (.inl (.refl v)))
  exact ⟨(Agree.fault_eq h).symm, h.tokens (Token.Respelled.aligned ..)⟩

end Context

end Scribe
