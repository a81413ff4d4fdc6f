import Scribe.Proofs.CodeRoles
import Scribe.Render

/-!
# The forms of declarations

`Script.Outline`: the scripts that declarations are put together from. A declaration writes code and
names, notes itself in the log, and may hold others, one level in. Every law of a run that holds of
all renders of declarations is one induction on `Outline`; that all declarations have this form is
shown once, here.
-/

namespace Scribe

namespace Script

/-- Scripts of declarations. -/
inductive Outline : Script → Prop
  | code {s : Script} : Inline s → Outline s
  | name {s : Script} : IsName s → Outline s
  | log (entry : LogEntry) : Outline (step (.log entry))
  | append {a b : Script} : Outline a → Outline b → Outline (a ++ b)
  | indented {s : Script} : Outline s → Outline (indented s)

namespace Outline

variable {a : Script} {l : List Script}

theorem empty : Outline ∅ := .code .empty

theorem fail (f : Fault) : Outline (fail f) := .code (.fail f)

theorem text (s : String) : Outline (text s) := .code (.text s)

theorem lineBreak : Outline lineBreak := .code .lineBreak

theorem declaration (name : Value) (target : Option Target) : Outline (declaration name target) :=
  .name (Program.isName_declaration name target)

theorem between (opening closing : String) (h : Outline a) : Outline (between opening closing a) :=
  .append (.append (.text _) h) (.text _)

theorem parenthesized (h : Outline a) : Outline (parenthesized a) := h.between _ _

theorem sequential : Sequential Outline := ⟨.empty, .append⟩

theorem concat (h : ∀ s ∈ l, Outline s) : Outline (concat l) := sequential.concat h

theorem commaSeparated (h : ∀ s ∈ l, Outline s) : Outline (commaSeparated l) :=
  sequential.commaSeparated (.text _) h

theorem given {α : Type} {r : Except Fault α} {next : α → Script} (h : ∀ x, Outline (next x)) :
    Outline (given r next) := by
  cases r with
  | ok x => exact h x
  | error f => exact .fail f

theorem ite {p : Prop} [Decidable p] {b : Script} (ha : Outline a) (hb : Outline b) :
    Outline (if p then a else b) := by
  split_ifs
  · exact ha
  · exact hb

theorem optionally (v : Value) (h : Outline a) : Outline (v.optionally a) := .ite .empty h

theorem optionElim {α : Type} (o : Option α) {f : α → Script} (h : ∀ x, Outline (f x)) :
    Outline (o.elim (Script.fail .malformed) f) := by
  cases o with
  | none => exact .fail _
  | some x => exact h x

/-- Members on lines of their own. -/
theorem lines (h : ∀ s ∈ l, Outline s) : Outline (lines l) := by
  refine .concat fun s hs => ?_
  obtain ⟨t, ht, rfl⟩ := List.mem_map.1 hs
  exact .append .lineBreak (h t ht)

theorem members {member : Value → Script} (h : ∀ v, Outline (member v)) (members : Value) :
    Outline (Script.given members.items fun members => Script.lines (members.map member)) := by
  refine .given fun members => .lines fun s hs => ?_
  obtain ⟨v, -, rfl⟩ := List.mem_map.1 hs
  exact h v

theorem group (title : String) (members : Value) {member : Value → Script}
    (h : ∀ v, Outline (member v)) : Outline (group title members member) :=
  .ite (.append (.append (.append .lineBreak .lineBreak) (.text _)) (.members h members)) .empty

theorem nestedGroup (members : Value) {member : Value → Script} (h : ∀ v, Outline (member v)) :
    Outline (nestedGroup members member) :=
  .ite (.append (.append (.append .lineBreak .lineBreak) (.text _))
    (.indented (.members h members))) .empty

theorem shownText (p : Program) (before : String) (value : Value) (after : String) :
    Outline (p.shownText before value after) :=
  .given fun _ => .text _

theorem detail (p : Program) (label : String) (value : Value) : Outline (p.detail label value) :=
  .optionally _ (.append (.shownText _ _ _ _) .lineBreak)

end Outline

end Script

open Script

namespace Program

variable (p : Program)

theorem parameterList_outline (parameters : Value) : Outline (p.parameterList parameters) := by
  refine .given fun parameters => .commaSeparated fun s hs => ?_
  obtain ⟨v, -, rfl⟩ := List.mem_map.1 hs
  exact .name (p.isName_parameterDeclaration v)

theorem ownerOf_outline (owner : Value) : Outline (p.ownerOf owner) := by
  unfold ownerOf
  split
  · exact .empty
  · exact .given fun _ => .text _
  · exact .fail _

theorem typeSlot_outline (type : Value) : Outline (p.typeSlot type) := .code (p.typeSlot_inline type)

/-- No attributes are written but those of the list. -/
theorem shownAttributes_subset {attributes shown : List Value}
    (h : p.shownAttributes attributes = .ok shown) : shown ⊆ attributes := by
  induction attributes generalizing shown with
  | nil => cases h; exact List.Subset.refl _
  | cons first rest ih =>
    rw [shownAttributes] at h
    obtain ⟨name, -, h⟩ := Except.bind_eq_ok h
    obtain ⟨others, hr, h⟩ := Except.bind_eq_ok h
    cases h
    split_ifs
    · exact List.subset_cons_of_subset _ (ih hr)
    · exact List.cons_subset_cons _ (ih hr)

end Program

namespace Context

variable (c : Context)

theorem exprSlot_outline (v : Value) : Outline (c.exprSlot v) := .code (c.exprSlot_fits v)

/-! ### Members -/

theorem attributeUse_outline (a : Value) : Outline (c.attributeUse a) := by
  refine .given fun name => ?_
  split
  · refine .given fun tooltip => .append (.code (.reference _ _ _)) (.ite ?_ .empty)
    exact .code (Fits.parenthesized (.commaSeparated (c.exprItems_fits _)))
  · exact .fail _

theorem attributeLines_outline (target : AttributeTarget) (shown : List Value) :
    Outline (c.attributeLines target shown) := by
  have lines (opening : String) : Outline (lineBreak ++
      concat (shown.map fun a => between opening "]" (c.attributeUse a) ++ lineBreak)) := by
    refine .append .lineBreak (.concat fun s hs => ?_)
    obtain ⟨a, -, rfl⟩ := List.mem_map.1 hs
    exact .append ((c.attributeUse_outline a).between _ _) .lineBreak
  have line {opening : Script} (h : Outline opening) : Outline (opening ++
      commaSeparated (shown.map c.attributeUse) ++ text "]" ++ lineBreak) := by
    refine .append (.append (.append h (.commaSeparated fun s hs => ?_)) (.text _)) .lineBreak
    obtain ⟨a, -, rfl⟩ := List.mem_map.1 hs
    exact c.attributeUse_outline a
  cases target with
  | assembly => exact lines _
  | module => exact lines _
  | entity => exact line (.text _)
  | result => exact line (.append (.text _) (.text _))

theorem attributes_outline (target : AttributeTarget) (attributes : Value) :
    Outline (c.attributes target attributes) := by
  refine .ite (.given fun shown => ?_) .empty
  split
  · exact .empty
  · exact c.attributeLines_outline target shown

theorem fieldValue_outline (initializer : Value) {ending : Script} (h : Outline ending) :
    Outline (c.fieldValue initializer ending) := by
  unfold fieldValue
  split
  · exact .text _
  · exact .append (.optionally _ (.append (.text _) (c.exprSlot_outline _))) h

theorem fieldModifiers_outline (d : FieldDetails) : Outline (fieldModifiers d) :=
  .given fun _ => .append (.text _)
    (.ite (.text _) (.append (.ite (.text _) .empty) (.ite (.text _) .empty)))

theorem fieldDeclaration_outline (field : Value) : Outline (c.fieldDeclaration field) := by
  unfold fieldDeclaration
  split
  · refine .optionElim _ fun d => .ite ?_ ?_
    · exact .append (.append (c.attributes_outline _ _) (.declaration _ _))
        (c.fieldValue_outline _ .empty)
    · exact .append (.append (.append (.append (.append (c.attributes_outline _ _)
        (fieldModifiers_outline d)) (.declaration _ _)) (.text _))
        (c.program.typeSlot_outline _)) (c.fieldValue_outline _ (.text _))
  · exact .fail _

theorem methodHead_outline (id : MethodId) (d : MethodDetails) : Outline (c.methodHead id d) := by
  refine .ite ?_ (.append (c.program.ownerOf_outline _) (.ite .empty (.text _)))
  exact .append (.append (.append (.append (c.attributes_outline _ _) (c.attributes_outline _ _))
    (.given fun _ => .text _)) (.ite (.text _) .empty)) (.ite (.text _) .empty)

theorem methodDetails_outline (id : MethodId) (d : MethodDetails) :
    Outline (c.methodDetails id d) := by
  have hbody := c.functionBody_inline d.body (.optionalBody d.body (c.stmtSlot_fits d.body))
  exact .append (.append (.append (.append (.append (.append (.append (c.methodHead_outline id d)
    (.declaration _ _)) (.text _)) (c.program.parameterList_outline _)) (.text _)) .lineBreak)
    (.code hbody)) (.text _)

theorem noted_outline (kind : String) (declared : Value) {next : Named → Script}
    (h : ∀ named, Outline (next named)) : Outline (c.noted kind declared next) := by
  unfold noted
  split
  · exact .given fun _ => .append (.log _) (h _)
  · exact .fail _

theorem methodDeclaration_outline (method : Value) : Outline (c.methodDeclaration method) := by
  refine c.noted_outline _ _ fun named => ?_
  split
  · exact .optionElim _ (c.methodDetails_outline _)
  · exact .fail _

theorem accessor_outline (word : String) (shared own : List String) (accessor : Value) :
    Outline (c.accessor word shared own accessor) :=
  .optionally _ (.append (.append (.text _) (.ite .empty (.text _)))
    (.code (c.program.accessorName_inline _)))

theorem propertyDeclaration_outline (property : Value) :
    Outline (c.propertyDeclaration property) := by
  unfold propertyDeclaration
  split
  · refine .optionElim _ fun d => .append (c.attributes_outline _ _)
      (.given fun getter => .given fun setter => ?_)
    exact .append (.append (.append (.append (.append (.append (.append (.append (.append (.text _)
      (.text _)) (.declaration _ _))
      (.ite (.parenthesized (c.program.parameterList_outline _)) .empty)) (.text _))
      (c.program.typeSlot_outline _)) (c.accessor_outline _ _ _ _)) (c.accessor_outline _ _ _ _))
      (.optionally _ ((c.exprSlot_outline _).between _ _))) (.text _)
  · exact .fail _

theorem eventModifiers_outline (owner add : Value) : Outline (c.eventModifiers owner add) := by
  unfold eventModifiers
  split
  · exact .append (.ite .empty (.given fun _ => .text _)) (.ite (.text _) .empty)
  · exact .empty

theorem eventDeclaration_outline (event : Value) : Outline (c.eventDeclaration event) := by
  unfold eventDeclaration
  split
  · exact .optionElim _ fun d => .append (.append (.append (.append (.append (.append
      (c.attributes_outline _ _) (c.eventModifiers_outline _ _)) (.text _))
      (c.program.typeSlot_outline _)) (.text _)) (.declaration _ _)) (.text _)
  · exact .fail _

/-! ### Types -/

theorem delegateSignature_outline (t : TypeId) : Outline (c.delegateSignature t) := by
  refine .given fun invoke => ?_
  split
  · exact .fail _
  · exact .append (.append (.append (.append (.text _) (.declaration _ _))
      (.parenthesized (c.program.parameterList_outline _)))
      (.ite (.append (.text _) (c.program.typeSlot_outline _)) .empty)) (.text _)
  · exact .fail _

theorem enumerationElements_outline (t : TypeId) (d : TypeDetails) :
    Outline (c.enumerationElements t d) := by
  refine .between _ _ (.given fun elements => .commaSeparated fun s hs => ?_)
  obtain ⟨field, -, rfl⟩ := List.mem_map.1 hs
  unfold enumerationElement
  split
  · exact .append (.declaration _ _) (.optionally _ (.append (.text _) (c.exprSlot_outline _)))
  · exact .fail _

theorem prototypeLine_outline (t : TypeId) (d : TypeDetails) : Outline (c.prototypeLine t d) :=
  .ite .empty (.append .lineBreak (.given fun _ =>
    .append (.append (.text _) (.code (c.program.typeName_inline _))) (.text _)))

theorem typeHeader_outline (t : TypeId) (d : TypeDetails) : Outline (c.typeHeader t d) := by
  refine .append (c.attributes_outline _ _) (.given fun _ => .append (.append ?_ (.declaration _ _)) ?_)
  · exact .ite (.ite (.given fun _ => .text _) (.text _)) .empty
  · exact .ite (c.delegateSignature_outline t) (.ite (c.enumerationElements_outline t d)
      (.append (.text _) (c.prototypeLine_outline t d)))

theorem typeBody_outline (t : TypeId) (d : TypeDetails) {nested : Value → Script}
    (h : ∀ v, Outline (nested v)) : Outline (c.typeBody t d nested) :=
  .given fun _ => .append (.append (.append (.append (.group _ _ c.eventDeclaration_outline)
    (.group _ _ c.methodDeclaration_outline)) (.group _ _ c.propertyDeclaration_outline))
    (.group _ _ c.fieldDeclaration_outline)) (.nestedGroup _ h)

theorem typeDeclarationWithin_outline (levels : Nat) (type : Value) :
    Outline (c.typeDeclarationWithin levels type) := by
  induction levels generalizing type with
  | zero => exact .fail _
  | succ levels ih =>
    refine c.noted_outline _ _ fun named => ?_
    split
    · split
      · exact .fail _
      · exact .append (c.typeHeader_outline _ _) (.ite (c.typeBody_outline _ _ ih) .empty)
    · exact .fail _

theorem typeDeclaration_outline (type : Value) : Outline (c.typeDeclaration type) :=
  c.typeDeclarationWithin_outline _ type

/-! ### Containers -/

theorem title_outline (words : String) (named : Named) : Outline (title words named) :=
  .append (.text _) (.declaration _ _)

theorem assembly_outline (assembly : Value) : Outline (c.assembly assembly) := by
  refine c.noted_outline _ _ fun named => .append (title_outline _ _) ?_
  split
  · refine .append (.append ?_ .lineBreak) ?_
    · unfold versionSuffix
      split
      · exact .ite .empty (.text _)
      · exact .ite (.fail _) .empty
    · split
      · refine .append (.append (c.attributes_outline _ _) (.detail _ _ _)) (.optionally _ ?_)
        split
        · exact .append (.text _) .lineBreak
        · exact .fail _
      · exact .fail _
  · exact .fail _

theorem assemblyReference_outline (reference : Value) : Outline (c.assemblyReference reference) := by
  unfold assemblyReference
  split
  · exact .append (.append (title_outline _ _) .lineBreak) (.given (.detail _ _))
  · exact .fail _

theorem module_outline (module : Value) : Outline (c.module module) := by
  refine c.noted_outline _ _ fun named => .append (.append (title_outline _ _) .lineBreak) ?_
  split
  · exact .append (.append (.append (c.attributes_outline _ _) (.detail _ _ _)) (.detail _ _ _))
      (.optionally _ (.append (.shownText _ _ _ _) .lineBreak))
  · exact .fail _

theorem moduleReference_outline (reference : Value) : Outline (c.moduleReference reference) := by
  unfold moduleReference
  split
  · exact .append (title_outline _ _) .lineBreak
  · exact .fail _

theorem resource_outline (resource : Value) : Outline (c.resource resource) := by
  unfold Context.resource
  split
  · exact .append (.append (.append (.append (.shownText _ _ _ _) (.declaration _ _)) .lineBreak)
      (.optionally _ (.given fun _ => .append (.text _) .lineBreak))) (.detail _ _ _)
  · exact .fail _

theorem nameSpaceTypes_outline (types : List Value) :
    Outline (concat (types.map fun t => lineBreak ++ c.typeDeclaration t ++ lineBreak)) := by
  refine .concat fun s hs => ?_
  obtain ⟨t, -, rfl⟩ := List.mem_map.1 hs
  exact .append (.append .lineBreak (c.typeDeclaration_outline t)) .lineBreak

theorem nameSpace_outline (space : Value) : Outline (c.nameSpace space) := by
  refine c.noted_outline _ _ fun named => .append (.append (title_outline _ _) .lineBreak)
    (.ite ?_ .empty)
  unfold nameSpaceBody
  split
  · exact .given c.nameSpaceTypes_outline
  · exact .fail _

end Context

end Scribe
