import Scribe.Proofs.Shown

/-!
# Equal expressions and their text

Equality compares numbers of different kinds by value, and leaves out the links of an entity that its
text is made of: what a type is nested in or instantiates, the type that a member belongs to, the
accessors of a property. Where one of these is written, the texts of equal expressions may differ
(`Context.Varied`). All else that is written of them is the same: `Context.same_text_in_pieces`.
-/

namespace Scribe

open Script

namespace Context

/-- What is written of parts that equality does not tell apart, though their texts may differ. -/
inductive Varied (c : Context) : Script → Script → Prop
  /-- Literals of one value, at one kind. -/
  | literal {a b : Scalar} (kind : Value) : a.same b = true →
    Varied c (c.expr (.literal (.scalar a) kind)) (c.expr (.literal (.scalar b) kind))
  /-- New arrays whose size is one literal: `[]` is written for an integer that is zero. -/
  | newArray {a b : Scalar} (kind : Value) : a.same b = true →
    Varied c (c.expr (.arrayCreate .null (.list [.expr (.literal (.scalar a) kind)]) .null))
      (c.expr (.arrayCreate .null (.list [.expr (.literal (.scalar b) kind)]) .null))
  /-- The bounds of array types. -/
  | dimensions {v w : Value} : c.program.same v w = true →
    Varied c (given v.dimensionsText fun inner => text ("[" ++ inner ++ "]"))
      (given w.dimensionsText fun inner => text ("[" ++ inner ++ "]"))
  /-- The names that types are shown by. -/
  | typeName {i j : Nat} : c.program.same (.entity ⟨.type, i⟩) (.entity ⟨.type, j⟩) = true →
    Varied c (c.program.typeName (.entity ⟨.type, i⟩)) (c.program.typeName (.entity ⟨.type, j⟩))
  /-- The names of types where they are constructed. -/
  | constructedType {i j : Nat} (k l : Value) :
    c.program.same (.entity ⟨.type, i⟩) (.entity ⟨.type, j⟩) = true →
    Varied c (c.program.constructedType ⟨i⟩ k) (c.program.constructedType ⟨j⟩ l)
  /-- The owners of members, where members are referred to as such. -/
  | owner {v w : Value} : c.program.same v w = true →
    Varied c (c.program.memberOf v) (c.program.memberOf w)
  /-- The getters of properties. -/
  | getter {i j : Nat} : c.program.same (.entity ⟨.property, i⟩) (.entity ⟨.property, j⟩) = true →
    Varied c (c.program.accessorName (c.program.property ⟨i⟩).getter)
      (c.program.accessorName (c.program.property ⟨j⟩).getter)
  /-- The setters of properties. -/
  | setter {i j : Nat} : c.program.same (.entity ⟨.property, i⟩) (.entity ⟨.property, j⟩) = true →
    Varied c (c.program.accessorName (c.program.property ⟨i⟩).setter)
      (c.program.accessorName (c.program.property ⟨j⟩).setter)

/-- The tokens of two parts that may differ. -/
def VariedPiece (c : Context) (ts us : List Token) : Prop :=
  ∃ a b, c.Varied a b ∧ a.fault = none ∧ b.fault = none ∧
    a.outcome.tokens = ts ∧ b.outcome.tokens = us

/-- Two scripts that show the same but for what varies, if both complete. -/
abbrev Alike (c : Context) : Script → Script → Prop := Pieced c.VariedPiece

variable {c : Context} {a b : Script}

theorem typeName_inLine (p : Program) (v : Value) : InLine (p.typeName v) := by
  unfold Program.typeName
  split
  · exact .given fun _ => .given fun _ => .token fun _ => rfl
  · exact .fail _

theorem accessorName_inLine (p : Program) (v : Value) : InLine (p.accessorName v) := by
  unfold Program.accessorName
  split
  · exact .given fun _ => .reference _ _ _
  · exact .fail _

theorem memberOf_inLine (p : Program) (v : Value) : InLine (p.memberOf v) := by
  refine .given fun owner => ?_
  split_ifs
  · exact .empty
  · exact .append (typeName_inLine p owner) (.text _)

theorem constructedType_inLine (p : Program) (t : TypeId) (k : Value) :
    InLine (p.constructedType t k) := by
  unfold Program.constructedType
  split
  · exact .given fun _ => .given fun _ => .given fun _ => .token fun _ => rfl
  · exact .fail _

theorem newArray_inLine (c : Context) (v kind : Value) :
    InLine (c.expr (.arrayCreate .null (.list [.expr (.literal v kind)]) .null)) := by
  have hsize : InLine (given (Literal.text c.program c.style.numberFormat v kind) text) :=
    .given fun _ => .text _
  show InLine (if _ then text "[]" else _)
  split_ifs
  · exact .text _
  · exact .append (.append (.text _) hsize) (.text _)

theorem Varied.inLine (h : c.Varied a b) : InLine a ∧ InLine b := by
  cases h with
  | literal => exact ⟨.given fun _ => .text _, .given fun _ => .text _⟩
  | newArray => exact ⟨newArray_inLine .., newArray_inLine ..⟩
  | dimensions => exact ⟨.given fun _ => .text _, .given fun _ => .text _⟩
  | typeName => exact ⟨typeName_inLine .., typeName_inLine ..⟩
  | constructedType => exact ⟨constructedType_inLine .., constructedType_inLine ..⟩
  | owner => exact ⟨memberOf_inLine .., memberOf_inLine ..⟩
  | getter => exact ⟨accessorName_inLine .., accessorName_inLine ..⟩
  | setter => exact ⟨accessorName_inLine .., accessorName_inLine ..⟩

theorem variedPiece_still (c : Context) : Token.Still c.VariedPiece := by
  rintro _ _ ⟨a, b, h, -, -, rfl, rfl⟩ l
  exact ⟨fun t ht => h.inLine.1.tokens.2 t ht l, fun t ht => h.inLine.2.tokens.2 t ht l⟩

theorem Varied.alike (h : c.Varied a b) : c.Alike a b := by
  intro ha hb
  have hpiece : c.VariedPiece a.outcome.tokens b.outcome.tokens :=
    ⟨a, b, h, ha.1, hb.1, rfl, rfl⟩
  rw [h.inLine.1.tokens.1, h.inLine.2.tokens.1]
  simpa using Step.Pieced.varied hpiece .nil

end Context

namespace Program

variable {p : Program} {a b : Entity} {v w : Value}

/-- Entities that are equal. -/
def SameEntity (p : Program) (a b : Entity) : Prop := p.same (.entity a) (.entity b) = true

theorem same_refl (p : Program) (v : Value) : p.same v v = true := (v.alike p.equality v).2 rfl

theorem paired_of_same (h : p.same v w = true) : Value.Paired (fun a b => a.same b = true)
    p.SameEntity (fun v w => p.same v w = true) v w :=
  Value.same_iff.1 h

theorem matched_of_same (h : p.same v w = true) :
    Value.Matched (fun v w => p.same v w = true) v w :=
  Value.matched_of_same h

namespace SameEntity

variable (h : p.SameEntity a b)

include h

/-- Two entities that are the same are one entity, or agree in what makes them alike. -/
theorem cases : a = b ∨ a.kind ≠ .variable ∧ p.kindName a = p.kindName b ∧
    ∃ depth, List.Forall₂ (fun v w => v.same ⟨Scalar.alike, p.sameWithin depth⟩ w = true)
      (p.compared a) (p.compared b) := by
  have hs : (p.sameWithin (p.size * p.size) a b).1 = true := h
  cases hd : p.size * p.size with
  | zero =>
    rw [hd] at hs
    exact .inl (beq_iff_eq.1 hs)
  | succ depth =>
    rw [hd, p.sameWithin_succ, p.sameDetails_iff] at hs
    exact hs.imp_right fun ⟨hv, hk, hc⟩ => ⟨hv, hk, depth, hc⟩

theorem kind : a.kind = b.kind := by
  rcases h.cases with rfl | ⟨-, hk, -⟩
  · rfl
  · exact p.kind_eq_of_kindName hk

theorem indices : ∃ kind i j, a = ⟨kind, i⟩ ∧ b = ⟨kind, j⟩ :=
  ⟨a.kind, a.index, b.index, rfl, by rw [h.kind]⟩

theorem eq_of_variable (hv : a.kind = .variable) : a = b := by
  rcases h.cases with rfl | ⟨hn, -⟩
  · rfl
  · exact absurd hv hn

end SameEntity

/-! ### Names -/

theorem nameOf_of_compared {Q : Value → Value → Prop} (hk : a.kind = b.kind)
    (hc : List.Forall₂ Q (p.compared a) (p.compared b)) : Q (p.nameOf a) (p.nameOf b) := by
  obtain ⟨kind, i⟩ := a
  obtain ⟨_, j⟩ := b
  obtain rfl : kind = _ := hk
  have hcons {x y : Value} {xs ys : List Value} (h : List.Forall₂ Q (x :: xs) (y :: ys)) :
      Q x y ∧ List.Forall₂ Q xs ys := List.forall₂_cons.1 h
  cases kind with
  | type => exact (hcons (hcons hc).2).1
  | _ => exact (hcons hc).1

/-- Names that are written alike, as they are and where parameters are used. -/
structure NamedAlike (m n : Value) : Prop where
  plain : m.text? = n.text?
  parameter : (parameterName m).text? = (parameterName n).text?

theorem NamedAlike.of_matched {P : Value → Value → Prop} (h : Value.Matched P v w) :
    NamedAlike v w := by
  refine ⟨h.text?, ?_⟩
  unfold parameterName
  rw [h.isSet]
  split_ifs
  · exact h.text?
  · rfl

theorem SameEntity.named (h : p.SameEntity a b) : NamedAlike (p.nameOf a) (p.nameOf b) := by
  rcases h.cases with rfl | ⟨-, -, depth, hc⟩
  · exact ⟨rfl, rfl⟩
  · exact .of_matched (Value.matched_of_same (nameOf_of_compared h.kind hc))

theorem named?_alike (h : p.same v w = true) :
    Option.Rel (fun m n => NamedAlike m.name n.name) (p.named? v) (p.named? w) := by
  cases paired_of_same h with
  | entity he => exact .some he.named
  | stmt hs =>
    cases hs with
    | goto hl | labeled hl => exact .some (.of_matched (matched_of_same hl))
    | _ => exact .none
  | _ => exact .none

variable {c : Context}

/-- What is shown of something with a name, by its name alone, is shown alike. -/
theorem alike_of_named {use : Value → Script} {of : Named → Script} {t : Named → Option Token}
    (hu : ∀ v, use v = (c.program.named? v).elim (fail .malformed) of)
    (hof : ∀ n, Shows (of n) (t n)) (ht : ∀ m n, NamedAlike m.name n.name → t m = t n)
    (h : c.program.same v w = true) : c.Alike (use v) (use w) := by
  rw [hu, hu]
  have hn := named?_alike h
  generalize c.program.named? v = m at hn ⊢
  generalize c.program.named? w = n at hn ⊢
  cases hn with
  | none => exact Pieced.congruence.fail _
  | some hn => exact (hof _).pieced (ht _ _ hn ▸ hof _)

theorem argumentUse_alike (h : c.program.same v w = true) :
    c.Alike (c.program.argumentUse v) (c.program.argumentUse w) := by
  have hshows (n : Named) : Shows (given (parameterDescription n.name) fun tooltip =>
      reference (parameterName n.name) tooltip n.target)
      (shownReference (parameterName n.name).text?) :=
    .given fun _ _ => .reference _ _ _
  refine alike_of_named (fun v => ?_) hshows (fun m n hn => by rw [hn.parameter]) h
  unfold argumentUse
  split <;> simp [*]

theorem variableUse_alike (h : c.program.same v w = true) :
    c.Alike (c.program.variableUse v) (c.program.variableUse w) := by
  have hshows (n : Named) : Shows (given (variableDescription n.name) fun tooltip =>
      reference n.name tooltip n.target) (shownReference n.name.text?) :=
    .given fun _ _ => .reference _ _ _
  refine alike_of_named (fun v => ?_) hshows (fun m n hn => by rw [hn.plain]) h
  unfold variableUse
  split <;> simp [*]

theorem variableDeclaration_alike (h : c.program.same v w = true) :
    c.Alike (c.program.variableDeclaration v) (c.program.variableDeclaration w) := by
  have hshows (n : Named) : Shows (declaration n.name (some n.target))
      (shownDeclaration n.name.text?) := .declaration _ _
  refine alike_of_named (fun v => ?_) hshows (fun m n hn => by rw [hn.plain]) h
  unfold variableDeclaration
  split <;> simp [*]

/-- What is shown of entities by their names alone is shown alike. -/
theorem alike_of_names {f : Value → Script}
    (hf : ∀ e, Shows (f (.entity e)) (shownReference (c.program.nameOf e).text?))
    (hn : ∀ v, (f v).fault = none → ∃ e, v = .entity e) (h : c.program.same v w = true) :
    c.Alike (f v) (f w) := by
  intro hfv
  obtain ⟨a, rfl⟩ := hn v hfv.1
  cases paired_of_same h with
  | entity he =>
    refine (hf a).pieced ?_ hfv
    rw [he.named.plain]
    exact hf _

theorem fieldName_shows (p : Program) (e : Entity) :
    Shows (p.fieldName (.entity e)) (shownReference (p.nameOf e).text?) := by
  obtain ⟨kind, i⟩ := e
  cases kind with
  | field => exact .given fun _ _ => .reference _ _ _
  | _ => exact .fail _

theorem methodName_shows (p : Program) (e : Entity) :
    Shows (p.methodName (.entity e)) (shownReference (p.nameOf e).text?) := by
  obtain ⟨kind, i⟩ := e
  cases kind with
  | method =>
    unfold methodName
    dsimp only
    split
    · exact .given fun _ _ => .reference _ _ _
    · exact .given fun _ _ => .reference _ _ _
    · exact .fail _
  | _ => exact .fail _

theorem memberName_shows (p : Program) (e : Entity) :
    Shows (p.memberName (.entity e)) (shownReference (p.nameOf e).text?) := by
  obtain ⟨kind, i⟩ := e
  cases kind with
  | property =>
    rw [memberName, propertyName]
    exact .given fun _ _ => .reference _ _ _
  | field =>
    rw [memberName]
    · exact p.fieldName_shows _
    · exact fun _ h => by cases h
  | _ => exact .fail _

theorem eventName_shows (p : Program) (e : Entity) :
    Shows (p.eventName (.entity e)) (shownReference (p.nameOf e).text?) := by
  obtain ⟨kind, i⟩ := e
  cases kind with
  | event => exact .given fun _ _ => .reference _ _ _
  | _ => exact .fail _

theorem fieldName_alike (h : c.program.same v w = true) :
    c.Alike (c.program.fieldName v) (c.program.fieldName w) := by
  refine alike_of_names c.program.fieldName_shows (fun v hv => ?_) h
  cases v with
  | entity e => exact ⟨e, rfl⟩
  | _ => cases hv

theorem methodName_alike (h : c.program.same v w = true) :
    c.Alike (c.program.methodName v) (c.program.methodName w) := by
  refine alike_of_names c.program.methodName_shows (fun v hv => ?_) h
  cases v with
  | entity e => exact ⟨e, rfl⟩
  | _ => cases hv

theorem memberName_alike (h : c.program.same v w = true) :
    c.Alike (c.program.memberName v) (c.program.memberName w) := by
  refine alike_of_names c.program.memberName_shows (fun v hv => ?_) h
  cases v with
  | entity e => exact ⟨e, rfl⟩
  | _ => cases hv

theorem eventName_alike (h : c.program.same v w = true) :
    c.Alike (c.program.eventName v) (c.program.eventName w) := by
  refine alike_of_names c.program.eventName_shows (fun v hv => ?_) h
  cases v with
  | entity e => exact ⟨e, rfl⟩
  | _ => cases hv

/-! ### Types -/

theorem typeName_alike (h : c.program.same v w = true) :
    c.Alike (c.program.typeName v) (c.program.typeName w) := by
  cases paired_of_same h with
  | entity he =>
    obtain ⟨kind, i, j, rfl, rfl⟩ := he.indices
    cases kind with
    | type => exact (Context.Varied.typeName h).alike
    | _ => exact Pieced.congruence.fail _
  | _ => exact Pieced.congruence.fail _

/-- A type is shown alike where one is asked for, and so are the types of a list. -/
structure TypesAlike (c : Context) (v w : Value) : Prop where
  slot : c.Alike (c.program.typeSlot v) (c.program.typeSlot w)
  items : List.Forall₂ c.Alike (c.program.typeItems v) (c.program.typeItems w)

theorem typeTree_alike {t u : TypeTree}
    (h : TypeTree.Paired (fun v w => c.program.same v w = true ∧ TypesAlike c v w) t u) :
    c.Alike (c.program.typeTree t) (c.program.typeTree u) := by
  have hr := Pieced.congruence (V := c.VariedPiece)
  cases h with
  | bare => exact hr.fail _
  | array he hd =>
    rw [typeTree, typeTree]
    exact hr.append he.2.slot (Context.Varied.dimensions hd.1).alike
  | pointer he => exact hr.before he.2.slot _
  | reference he => exact he.2.slot
  | required he hm | «optional» he hm =>
    exact hr.before (hr.append (hr.before he.2.slot _) (typeName_alike hm.1)) _
  | functionPointer hres hp =>
    rw [typeTree, typeTree, (matched_of_same hres.1).isNull]
    refine hr.before (hr.append (hr.before ?_ _) (hr.commaSeparated hp.2.items)) _
    exact related_ite (hr.refl _) hres.2.slot
  | genericArgument _ ht =>
    rw [typeTree, typeTree, (matched_of_same ht.1).isNull]
    exact related_ite (hr.fail _) ht.2.slot

/-- What only a text is written as is written alike where the texts are one. -/
theorem alike_of_text {f : Value → Script} (hf : ∀ v, (f v).Completes → ∃ s, v = .ofText s)
    (h : v.text? = w.text?) : c.Alike (f v) (f w) := by
  intro hv hw
  obtain ⟨s, rfl⟩ := hf v hv
  obtain ⟨t, rfl⟩ := hf w hw
  obtain rfl : s = t := Option.some.inj h
  exact Pieced.congruence.refl _ hv hw

theorem ofText_of_content (v : Value) (h : (content v).Completes) : ∃ s, v = .ofText s := by
  cases v with
  | scalar s =>
    cases s with
    | text s => exact ⟨s, rfl⟩
    | _ => cases h.2 _ (List.mem_singleton_self _)
  | _ => cases h.1

theorem typeSlot_of_paired (hp : c.program.same v w = true)
    (h : Value.Paired (fun a b => a.same b = true) c.program.SameEntity
      (fun v w => c.program.same v w = true ∧ TypesAlike c v w) v w) :
    c.Alike (c.program.typeSlot v) (c.program.typeSlot w) := by
  have hstray {s t : Scalar} : c.Alike (c.program.typeSlot (.scalar s))
      (c.program.typeSlot (.scalar t)) := by
    cases s <;> exact .of_fault_left (Option.some_ne_none _)
  cases h with
  | scalar => exact hstray
  | entity he =>
    obtain ⟨kind, i, j, rfl, rfl⟩ := he.indices
    cases kind with
    | type =>
      rw [typeSlot, typeSlot]
      exact typeName_alike hp
    | genericParameter => exact alike_of_text (f := content) ofText_of_content he.named.plain
    | _ => exact .of_fault_left (Option.some_ne_none _)
  | type ht => exact typeTree_alike ht
  | _ => exact .of_fault_left (Option.some_ne_none _)

theorem typeItems_of_paired (hp : c.program.same v w = true)
    (h : Value.Paired (fun a b => a.same b = true) c.program.SameEntity
      (fun v w => c.program.same v w = true ∧ TypesAlike c v w) v w) :
    List.Forall₂ c.Alike (c.program.typeItems v) (c.program.typeItems w) := by
  have hstrays : List.Forall₂ c.Alike
      (v.strays fun item => fail (.unsupported .type (item.found c.program)))
      (w.strays fun item => fail (.unsupported .type (item.found c.program))) :=
    (matched_of_same hp).strays Pieced.congruence (fun _ => c.program.same_refl _) _ _
      fun _ => .of_fault_left (Option.some_ne_none _)
  cases h with
  | list hl =>
    rw [typeItems, typeItems]
    clear hp hstrays
    induction hl with
    | nil => exact .nil
    | cons ht _ ih => exact .cons ht.2.slot ih
  | _ => exact hstrays

theorem types_alike (h : c.program.same v w = true) : TypesAlike c v w := by
  refine Value.paired_induction (Q := TypesAlike c) (fun _ _ => paired_of_same) ?_ h
  intro v w hp h
  exact ⟨typeSlot_of_paired hp h, typeItems_of_paired hp h⟩

/-! ### Members -/

theorem ownField_alike (h : c.program.same v w = true) :
    c.Alike (c.program.memberOf v ++ c.program.fieldName v)
      (c.program.memberOf w ++ c.program.fieldName w) :=
  Pieced.congruence.append (Context.Varied.owner h).alike (fieldName_alike h)

theorem ownMethod_alike (h : c.program.same v w = true) :
    c.Alike (c.program.memberOf v ++ c.program.methodName v)
      (c.program.memberOf w ++ c.program.methodName w) :=
  Pieced.congruence.append (Context.Varied.owner h).alike (methodName_alike h)

theorem accessorCall_alike {id id' : PropertyId} {x x' : Value} {s s' : Script}
    {l l' : List Script} (h : c.Alike (c.program.accessorName x) (c.program.accessorName x'))
    (hs : c.Alike s s') (hl : List.Forall₂ c.Alike l l') :
    c.Alike (c.program.accessorCall id x s l) (c.program.accessorCall id' x' s' l') := by
  have hr := Pieced.congruence (V := c.VariedPiece)
  unfold accessorCall
  split_ifs
  · exact .of_fault_left (Option.some_ne_none _)
  · exact .of_fault_left (Option.some_ne_none _)
  · exact .of_fault_right (Option.some_ne_none _)
  · exact hr.before (hr.append (hr.before (hr.append hs h) _) (hr.commaSeparated hl)) _

theorem createdType_alike {k k' : Value} (hk : c.program.same k k' = true)
    (h : c.program.same v w = true) :
    c.Alike (c.program.createdType k v) (c.program.createdType k' w) := by
  have htype := (types_alike h).slot
  cases paired_of_same h with
  | entity he =>
    obtain ⟨kind, i, j, rfl, rfl⟩ := he.indices
    cases kind with
    | type =>
      unfold createdType
      dsimp only
      rw [(matched_of_same hk).isNull]
      exact related_ite htype (Context.Varied.constructedType k k' h).alike
    | _ => exact htype
  | _ => exact htype

/-! ### Parameters -/

theorem parameterDeclaration_alike (h : c.program.same v w = true) :
    c.Alike (c.program.parameterDeclaration v) (c.program.parameterDeclaration w) := by
  cases paired_of_same h with
  | entity he =>
    obtain ⟨kind, i, j, rfl, rfl⟩ := he.indices
    cases kind with
    | parameter =>
      have hn : (parameterName (c.program.parameter ⟨i⟩).name).text? =
          (parameterName (c.program.parameter ⟨j⟩).name).text? := he.named.parameter
      refine Shows.pieced (.declaration _ _) ?_
      rw [hn]
      exact .declaration _ _
    | _ => exact Pieced.congruence.fail _
  | _ => exact Pieced.congruence.fail _

theorem isUntyped_alike (h : p.same v w = true) : p.isUntyped v = p.isUntyped w := by
  cases paired_of_same h with
  | entity he =>
    obtain ⟨kind, i, j, rfl, rfl⟩ := he.indices
    cases kind with
    | parameter =>
      rcases he.cases with heq | ⟨-, -, depth, hc⟩
      · rw [heq]
      · have htypes := (List.forall₂_cons.1 (List.forall₂_cons.1 hc).2).1
        exact (Value.matched_of_same htypes).isNull
    | _ => rfl
  | _ => rfl

theorem namedParameters_alike {l l' : List Value}
    (h : List.Forall₂ (fun v w => p.same v w = true) l l') :
    List.Forall₂ (fun v w => p.same v w = true) (p.namedParameters l) (p.namedParameters l') := by
  have hlast : Option.Rel (fun v w => p.same v w = true) l.getLast? l'.getLast? := by
    rw [List.getLast?_eq_head?_reverse, List.getLast?_eq_head?_reverse]
    have hrev := List.rel_reverse h
    generalize l.reverse = r at hrev ⊢
    generalize l'.reverse = r' at hrev ⊢
    cases hrev with
    | nil => exact .none
    | cons h _ => exact .some h
  unfold namedParameters
  generalize l.getLast? = a at hlast ⊢
  generalize l'.getLast? = b at hlast ⊢
  cases hlast with
  | none => exact .nil
  | some hl =>
    dsimp only
    rw [isUntyped_alike hl]
    split_ifs
    · rw [List.dropLast_eq_take, List.dropLast_eq_take, h.length_eq]
      exact List.forall₂_take _ h
    · exact h

theorem parameterList_alike (h : c.program.same v w = true) :
    c.Alike (c.program.parameterList v) (c.program.parameterList w) := by
  unfold parameterList
  rcases (matched_of_same h).items fun _ => c.program.same_refl _ with
    ⟨f, hv, hw⟩ | ⟨l, l', hv, hw, hl⟩
  · rw [hv, hw]
    exact Pieced.congruence.fail f
  · rw [hv, hw]
    refine Pieced.congruence.commaSeparated ?_
    rw [List.forall₂_map_left_iff, List.forall₂_map_right_iff]
    exact (namedParameters_alike hl).imp fun _ _ => parameterDeclaration_alike

/-! ### Function bodies -/

theorem locals_alike (h : p.same v w = true) : v.locals = w.locals := by
  refine Value.paired_induction (Q := fun v w => v.locals = w.locals)
    (fun _ _ => paired_of_same) ?_ h
  rintro v w - h
  cases h with
  | list hl =>
    rw [Value.locals, Value.locals]
    induction hl with
    | nil => rfl
    | cons hv _ ih => rw [Value.localsOfAll, Value.localsOfAll, hv.2, ih]
  | entity he =>
    obtain ⟨kind, i, j, rfl, rfl⟩ := he.indices
    cases kind with
    | «variable» => rw [he.eq_of_variable rfl]
    | _ => rfl
  | @expr e e' he =>
    have hscope : e.opensScope = e'.opensScope := by cases he <;> rfl
    have hlocals : e.locals = e'.locals := by cases he <;> simp only [Expr.locals, *]
    rw [Value.locals, Value.locals, hscope, hlocals]
  | stmt hs => cases hs <;> simp only [Value.locals, Stmt.locals, *]
  | clause hc => cases hc <;> simp only [Value.locals, Clause.locals, *]
  | _ => rfl

end Program

namespace Context

variable (c : Context) {v w : Value}

/-- Of a value that is no scalar, a literal is written only at the kind `null`, and is always the
same. -/
theorem literal_stray_alike (h : v.form ≠ .scalar) (h' : w.form ≠ .scalar) (k : Scalar) :
    c.Alike (c.expr (.literal v (.scalar k))) (c.expr (.literal w (.scalar k))) := by
  cases k with
  | text kind =>
    have htext {v : Value} (h : v.form ≠ .scalar) :
        Literal.text c.program c.style.numberFormat v (.scalar (.text kind)) =
          if kind = "null" then .ok "null"
          else .error (c.program.literalFault v (.ofText kind)) := by
      show (Literal.textAt _ _ v kind).getD _ = _
      unfold Literal.textAt
      split_ifs
      · rfl
      · cases v with
        | scalar => exact absurd rfl h
        | _ => rfl
    rw [expr, expr, htext h, htext h']
    split_ifs
    · exact Pieced.congruence.refl _
    · exact .of_fault_left (Option.some_ne_none _)
  | null =>
    cases v with
    | scalar => exact absurd rfl h
    | _ => exact .of_fault_left (Option.some_ne_none _)
  | _ => exact .of_fault_left (Option.some_ne_none _)

/-- Kinds of literals that are the same are one kind, or no literal is written at either. -/
theorem literalKind_cases {k k' : Value} (h : c.program.same k k' = true) :
    (∃ s, k = .scalar s ∧ k' = .scalar s) ∨
      ∀ v, (c.expr (.literal v k)).fault ≠ none ∧ (c.expr (.literal v k')).fault ≠ none := by
  have hnumber {s : Scalar} {m : Scalar.Magnitude} (hm : s.magnitude? = some m) (v : Value) :
      (c.expr (.literal v (.scalar s))).fault ≠ none := by
    cases s <;> first | exact Option.some_ne_none _ | cases hm
  cases Program.paired_of_same h with
  | @scalar s _ hs =>
    rcases Scalar.same_cases hs with rfl | ⟨m, n, hm, hn, -⟩
    · exact .inl ⟨s, rfl, rfl⟩
    · exact .inr fun v => ⟨hnumber hm v, hnumber hn v⟩
  | _ => exact .inr fun _ => ⟨Option.some_ne_none _, Option.some_ne_none _⟩

theorem literal_alike {k k' : Value} (h : c.program.same v w = true)
    (hk : c.program.same k k' = true) :
    c.Alike (c.expr (.literal v k)) (c.expr (.literal w k')) := by
  rcases c.literalKind_cases hk with ⟨s, rfl, rfl⟩ | hf
  · cases Program.paired_of_same h with
    | scalar hs => exact (Varied.literal _ hs).alike
    | _ => exact c.literal_stray_alike (by simp [Value.form]) (by simp [Value.form]) s
  · exact .of_fault_left (hf v).1

/-- Dimensions that are the same are both the one literal zero, or are both another, or are one
literal each. -/
theorem areZero_cases (h : c.program.same v w = true) : v.areZero = w.areZero ∨
    ∃ a b k k', a.same b = true ∧ c.program.same k k' = true ∧
      v = .list [.expr (.literal (.scalar a) k)] ∧ w = .list [.expr (.literal (.scalar b) k')] := by
  cases Program.matched_of_same h with
  | list hl =>
    cases hl with
    | nil => exact .inl rfl
    | cons he hl =>
      cases hl with
      | cons => exact .inl (by simp [Value.areZero])
      | nil =>
        cases Program.matched_of_same he with
        | expr hx =>
          cases hx with
          | literal hv hk =>
            cases Program.matched_of_same hv with
            | scalar hs => exact .inr ⟨_, _, _, _, hs, hk, rfl, rfl⟩
            | _ => exact .inl rfl
          | _ => exact .inl rfl
        | _ => exact .inl rfl
  | _ => exact .inl rfl

/-- Sizes of arrays are written alike, unless the size is one literal. -/
theorem sized_alike (h : c.program.same v w = true)
    (hl : List.Forall₂ c.Alike (c.exprItems v) (c.exprItems w)) :
    c.Alike (if v.areZero then text "[]" else between "Array(" ")" (commaSeparated (c.exprItems v)))
      (if w.areZero then text "[]"
        else between "Array(" ")" (commaSeparated (c.exprItems w))) := by
  have hr := Pieced.congruence (V := c.VariedPiece)
  rcases c.areZero_cases h with hz | ⟨a, b, k, k', hs, hk, rfl, rfl⟩
  · rw [hz]
    exact related_ite (hr.refl _) (hr.between _ _ (hr.commaSeparated hl))
  · rcases c.literalKind_cases hk with ⟨s, rfl, rfl⟩ | hf
    · exact (Varied.newArray (.scalar s) hs).alike
    · -- at a kind that no literal has, only `[]` can be written
      have hfault {x y : Value} (hxy : (c.expr (.literal x y)).fault ≠ none) :
          (between "Array(" ")"
            (commaSeparated (c.exprItems (.list [.expr (.literal x y)])))).fault ≠ none := by
        intro hn
        exact hxy (fault_append_eq_none.1 (fault_append_eq_none.1 hn).1).2
      split_ifs
      · exact hr.refl _
      · exact .of_fault_right (hfault (hf _).2)
      · exact .of_fault_left (hfault (hf _).1)
      · exact .of_fault_left (hfault (hf _).1)

theorem read_alike {s s' : Script} {l l' : List Script} (h : c.program.same v w = true)
    (hs : c.Alike s s') (hl : List.Forall₂ c.Alike l l') :
    c.Alike (c.read ⟨v, s, l⟩) (c.read ⟨w, s', l'⟩) := by
  cases Program.paired_of_same h with
  | entity he =>
    obtain ⟨kind, i, j, rfl, rfl⟩ := he.indices
    cases kind with
    | property => exact Program.accessorCall_alike (Varied.getter h).alike hs hl
    | _ => exact Pieced.congruence.fail _
  | _ => exact Pieced.congruence.fail _

theorem write_alike {s s' x x' : Script} {l l' : List Script} (h : c.program.same v w = true)
    (hs : c.Alike s s') (hl : List.Forall₂ c.Alike l l') (hx : c.Alike x x') :
    c.Alike (c.write ⟨v, s, l⟩ x) (c.write ⟨w, s', l'⟩ x') := by
  cases Program.paired_of_same h with
  | entity he =>
    obtain ⟨kind, i, j, rfl, rfl⟩ := he.indices
    cases kind with
    | property =>
      refine Program.accessorCall_alike (Varied.setter h).alike hs ?_
      exact List.rel_append hl (.cons hx .nil)
    | _ => exact Pieced.congruence.fail _
  | _ => exact Pieced.congruence.fail _

/-- A function body opens with the same variables, unless its statements fault. -/
theorem functionBody_alike (h : c.program.same v w = true)
    (hs : c.Alike (v.optionally (c.stmtSlot v)) (w.optionally (c.stmtSlot w))) :
    c.Alike (c.functionBody v (v.optionally (c.stmtSlot v)))
      (c.functionBody w (w.optionally (c.stmtSlot w))) := by
  have hr := Pieced.congruence (V := c.VariedPiece)
  have hfault {v : Value} (hv : (v.optionally (c.stmtSlot v)).fault ≠ none) :
      (c.functionBody v (v.optionally (c.stmtSlot v))).fault ≠ none := by
    unfold functionBody
    split_ifs
    · intro hf
      have hbody := (fault_append_eq_none.1 (fault_append_eq_none.1 hf).1).2
      exact hv (fault_append_eq_none.1 (fault_append_eq_none.1 hbody).1).2
    · exact Option.some_ne_none _
  cases Program.paired_of_same h with
  | @scalar s _ he =>
    obtain ⟨rfl, rfl⟩ | ⟨hn, -⟩ := Scalar.null_cases he
    · exact hr.refl _
    · refine .of_fault_left (hfault ?_)
      cases s <;> first | contradiction | exact Option.some_ne_none _
  | @stmt s t hst =>
    have hl : s.locals = t.locals := Program.locals_alike h
    have hd : c.declarations (.stmt s) = c.declarations (.stmt t) := by
      rw [declarations, declarations, Program.hoisted, Program.hoisted, Program.localsInside,
        Program.localsInside, hl]
    unfold functionBody
    rw [hd]
    exact related_ite (hr.before (hr.after _ (hr.body hs)) _) (hr.fail _)
  | _ => exact .of_fault_left (hfault (Option.some_ne_none _))

/-- Rendering respects equality, but for what varies. -/
theorem related_same : Related c c (fun v w => c.program.same v w = true) c.Alike where
  toCongruence := Pieced.congruence
  matched := Program.matched_of_same
  scalar _ := c.program.same_refl _
  unsupported _ _ := .of_fault_left (Option.some_ne_none _)
  unknown _ _ := .of_fault_left (Option.some_ne_none _)
  same hv hw := c.program.same_congr hv hw
  literal h := by
    cases Program.matched_of_same h with
    | expr h => cases h with | literal hv hk => exact c.literal_alike hv hk
  snippet h := Program.alike_of_text Program.ofText_of_content (Program.matched_of_same h).text?
  jump h := by
    refine Shows.pieced (.declaration _ _) ?_
    rw [(Program.matched_of_same h).text?]
    exact .declaration _ _
  label h := by
    refine Program.alike_of_text (f := fun v => given v.asName fun name => step (.label name))
      (fun v hv => ?_) (Program.matched_of_same h).text?
    cases v with
    | scalar s =>
      cases s with
      | text s => exact ⟨s, rfl⟩
      | _ => cases hv.2 _ (List.mem_singleton_self _)
    | _ => cases hv.1
  sized := c.sized_alike
  typeSlot h := (Program.types_alike h).slot
  typeName := Program.typeName_alike
  ownField := Program.ownField_alike
  ownMethod := Program.ownMethod_alike
  fieldName := Program.fieldName_alike
  methodName := Program.methodName_alike
  memberName := Program.memberName_alike
  eventName := Program.eventName_alike
  argumentUse := Program.argumentUse_alike
  variableUse := Program.variableUse_alike
  variableDeclaration := Program.variableDeclaration_alike
  parameterList := Program.parameterList_alike
  createdType := Program.createdType_alike
  read := c.read_alike
  write := c.write_alike
  functionBody := c.functionBody_alike

/-- Two equal expressions are written in the same pieces, of which those that stand opposite each
other are shown alike, unless they are written of parts that equality does not tell apart. Where
these are shown alike too, the expressions have one text. -/
theorem same_text_in_pieces {s t : String} (h : c.program.same v w = true)
    (hv : (c.expression v).plainText = .ok s) (hw : (c.expression w).plainText = .ok t) :
    ∃ pieces : List (List Token × List Token),
      Token.InPieces c.VariedPiece (c.expression v).outcome.tokens (c.expression w).outcome.tokens
        pieces ∧
      ((∀ q ∈ pieces, q.1.map Token.shown = q.2.map Token.shown) → s = t) := by
  have halike : c.Alike (c.expression v) (c.expression w) := (c.related_same.code h).exprSlot
  obtain ⟨pieces, hp⟩ := halike.tokens c.variedPiece_still (completes_of_plainText hv)
    (completes_of_plainText hw)
  exact ⟨pieces, hp, fun hs => eq_of_tokens_shown hv hw (hp.shown_eq hs)⟩

/-- Types, members and a constructor in pairs that equality does not tell apart: two nested types with
one name, and a field and a property of each. -/
def lookalikes : Context :=
  let type (i : Nat) : Value := .entity ⟨.type, i⟩
  let method (i : Nat) : Value := .entity ⟨.method, i⟩
  let outer (name : String) : TypeSymbol := { nameSpace := .ofText "", name := .ofText name }
  let nested (owner : Nat) : TypeSymbol :=
    { nameSpace := .ofText "", name := .ofText "Point", owner := type owner }
  let field (owner : Nat) : FieldSymbol :=
    { name := .ofText "count", type := type 0, owner := type owner }
  let accessor (name : String) : MethodSymbol := { name := .ofText name, parameters := .list [] }
  let property (owner getter setter : Nat) : PropertySymbol :=
    { name := .ofText "Size", type := type 0, owner := type owner, getter := method getter,
      setter := method setter }
  { program :=
      { types := #[outer "Plane", outer "Space", nested 0, nested 1]
        fields := #[field 2, field 3]
        methods := #[accessor "get_Size", accessor "get_Length", accessor "set_Size",
          accessor "set_Length", accessor ".ctor"]
        properties := #[property 2 0 2, property 3 1 3] } }

/-- A field of two nested types with one name: the names of the types differ, and where the field
belongs is not written. -/
theorem same_text_in_pieces_two_owners :
    let count (i : Nat) : Value :=
      .expr (.field (.entity ⟨.field, i⟩) (.expr (.typeName (.entity ⟨.type, i + 2⟩))))
    let c := lookalikes
    c.program.same (count 0) (count 1) = true ∧
      (c.expression (count 0)).plainText = .ok "Plane.Point.count" ∧
      (c.expression (count 1)).plainText = .ok "Space.Point.count" ∧
      ∃ pieces, Token.InPieces c.VariedPiece (c.expression (count 0)).outcome.tokens
          (c.expression (count 1)).outcome.tokens pieces ∧
        ∃ q ∈ pieces, q.1.map Token.shown ≠ q.2.map Token.shown := by
  intro count c
  have hsame : c.program.same (count 0) (count 1) = true := by rfl
  have hplane : (c.expression (count 0)).plainText = .ok "Plane.Point.count" := by decide +kernel
  have hspace : (c.expression (count 1)).plainText = .ok "Space.Point.count" := by decide +kernel
  obtain ⟨pieces, hp, hs⟩ := c.same_text_in_pieces hsame hplane hspace
  refine ⟨hsame, hplane, hspace, pieces, hp, ?_⟩
  by_contra hall
  push Not at hall
  exact absurd (hs hall) (by decide)

/-- Equal expressions with different texts, one pair for each kind of part that equality does not tell
apart. -/
theorem same_text_differs :
    let c := lookalikes
    let Differs (v w : Value) (s t : String) : Prop := c.program.same v w = true ∧
      (c.expression v).plainText = .ok s ∧ (c.expression w).plainText = .ok t
    let type (i : Nat) : Value := .entity ⟨.type, i⟩
    let literal (s : Scalar) : Value := .expr (.literal (.scalar s) .null)
    let newArray (s : Scalar) : Value := .expr (.arrayCreate (type 0) (.list [literal s]) .null)
    let typeOfArray (s : Scalar) : Value :=
      .expr (.typeOf (.type (.array (type 0) (.list [.bounds s (.int 9)]))))
    let newObject (i : Nat) : Value :=
      .expr (.objectCreate (type i) (.entity ⟨.method, 4⟩) (.list []) .null)
    let fieldOf (i : Nat) : Value := .expr (.fieldOf (.entity ⟨.field, i⟩) .null)
    let size (i : Nat) : Value := .expr (.property (.entity ⟨.property, i⟩) (.expr .this))
    let setSize (i : Nat) : Value := .expr (.assign (size i) (literal .null))
    Differs (literal (.int 1)) (literal (.bool true)) "1" "true" ∧
      Differs (newArray (.int 0)) (newArray (.bool false)) "[]" "Array(false)" ∧
      Differs (typeOfArray (.int 1)) (typeOfArray (.bool true)) "typeof(Plane[1..9])"
        "typeof(Plane[True..9])" ∧
      Differs (.expr (.typeName (type 2))) (.expr (.typeName (type 3))) "Plane.Point"
        "Space.Point" ∧
      Differs (newObject 2) (newObject 3) "(new Plane.Point()).ctor()"
        "(new Space.Point()).ctor()" ∧
      Differs (fieldOf 0) (fieldOf 1) "fieldof(Plane.Point.count)" "fieldof(Space.Point.count)" ∧
      Differs (size 0) (size 1) "this.get_Size()" "this.get_Length()" ∧
      Differs (setSize 0) (setSize 1) "this.set_Size(null)" "this.set_Length(null)" := by
  refine ⟨⟨?_, ?_, ?_⟩, ⟨?_, ?_, ?_⟩, ⟨?_, ?_, ?_⟩, ⟨?_, ?_, ?_⟩, ⟨?_, ?_, ?_⟩, ⟨?_, ?_, ?_⟩,
    ⟨?_, ?_, ?_⟩, ?_, ?_, ?_⟩ <;> rfl

end Context

end Scribe
