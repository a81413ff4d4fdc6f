import Scribe.Proofs.Members
import Scribe.Proofs.Setter

/-!
# Names of methods where they are declared and where they are used

A method is declared by the name that `Identifier.ofMethod` gives it, and used by the name that it has
in the program. `Identifier.SameName` is what a reader takes for one name: the two texts are the same
but for the marks of a reserved word.

`Context.method_names_agree`: a method that is no type initializer is declared by the name that it is
used by, unless it is an operator overload, which is declared by its readable name.
-/

namespace Scribe

open Script

namespace Identifier

/-- Whether one name is written as `declared` where it is declared and as `used` where it is used: the
two are the same, or both carry the mark of a reserved word. -/
def SameName (declared used : String) : Prop :=
  declared = used ∨ ∃ word ∈ reservedWords, declared = "@" ++ word ∧ used = "&" ++ word

instance (declared used : String) : Decidable (SameName declared used) :=
  inferInstanceAs (Decidable (_ ∨ _))

/-- Escaping keeps the name. -/
theorem sameName_escaped (name : String) : SameName (declared name) (referenced name) := by
  unfold declared referenced
  split_ifs with _ hr
  · exact .inl rfl
  · exact .inr ⟨name, List.contains_iff_mem.1 hr, rfl, rfl⟩
  · exact .inl rfl

/-- Neither the names of operator overloads nor their readable names are escaped anywhere, and no
readable name could be read as the name itself. -/
theorem operatorNames_distinct : ∀ entry ∈ operatorNames,
    isConstructor entry.1 = false ∧ declared entry.2 = entry.2 ∧ referenced entry.1 = entry.1 ∧
      ¬ SameName entry.2 entry.1 := by
  decide +kernel

/-- An operator overload is declared by its readable name and used by its own. -/
theorem declared_operator {name readable : String}
    (h : operatorNames.lookup name = some readable) :
    declared (ofMethod name true) = readable ∧ referenced name = name ∧
      ¬ SameName readable name := by
  obtain ⟨before, after, he, -⟩ := List.lookup_eq_some_iff.1 h
  have hmem : (name, readable) ∈ operatorNames := by simp [he]
  obtain ⟨hc, hd, hr, hs⟩ := operatorNames_distinct _ hmem
  have ho : ofMethod name true = readable := by simp only [ofMethod, hc, h]; rfl
  exact ⟨by rw [ho, hd], hr, hs⟩

/-- A method that is neither a type initializer nor an operator overload is declared by the name that
it is used by. A constructor goes by its alias in both places. -/
theorem sameName_of_plain {name : String} {special : Bool} (hi : name ≠ ".cctor")
    (ho : special = true → operatorNames.lookup name = none) :
    SameName (declared (ofMethod name special)) (referenced name) := by
  unfold ofMethod
  split_ifs with hc hs
  · obtain rfl : name = ".ctor" := by simpa [isConstructor, constructorNames, hi] using hc
    decide
  · rw [ho hs]
    exact sameName_escaped name
  · exact sameName_escaped name

/-- A method that is no type initializer is declared by the name that it is used by just where it is
no operator overload. -/
theorem sameName_ofMethod_iff {name : String} {special : Bool} (hi : name ≠ ".cctor") :
    SameName (declared (ofMethod name special)) (referenced name) ↔
      (special = true → operatorNames.lookup name = none) := by
  refine ⟨fun h hs => ?_, sameName_of_plain hi⟩
  cases hl : operatorNames.lookup name with
  | none => rfl
  | some readable =>
    obtain ⟨hd, hr, hn⟩ := declared_operator hl
    rw [hs, hd, hr] at h
    exact absurd h hn

end Identifier

namespace Script

/-- Scripts that write texts and nothing else. -/
def IsText (s : Script) : Prop := ∃ texts : List String, s.steps = texts.map (.token ∘ .text)

theorem IsText.append {a b : Script} (ha : IsText a) (hb : IsText b) : IsText (a ++ b) := by
  obtain ⟨as, ha⟩ := ha
  obtain ⟨bs, hb⟩ := hb
  cases hf : a.fault with
  | none => exact ⟨as ++ bs, by rw [steps_append_of_none hf, ha, hb, List.map_append]⟩
  | some f => exact ⟨as, by rw [steps_append_of_some hf, ha]⟩

theorem IsText.written {s : Script} (h : IsText s) : ∃ texts : List String,
    s.written = texts.map .text := by
  obtain ⟨texts, h⟩ := h
  refine ⟨texts, ?_⟩
  rw [Script.written, outcome_tokens, tokens, events, h]
  clear h
  induction texts with
  | nil => rfl
  | cons text texts ih =>
    rw [List.map_cons, Step.runAll]
    simpa [Step.apply, Layout.move, Event.token?] using ih

/-- What a script has written stays, whatever follows it. -/
theorem written_opens (a b : Script) : a.written <+: (a ++ b).written := by
  rw [Script.written, Script.written, outcome_tokens, outcome_tokens]
  exact tokens_stay a b {}

end Script

namespace Context

variable (c : Context) {id : MethodId} {n : String}

/-! ### Where a method is declared -/

/-- Before the name of a method with a body, only texts are written. -/
theorem methodHead_isText (id : MethodId) {d : MethodDetails} (hb : d.body.isNull = false) :
    IsText (c.methodHead id d) := by
  have howner : IsText (c.program.ownerOf (c.program.method id).owner) := by
    unfold Program.ownerOf
    split
    · exact ⟨[], rfl⟩
    · cases c.program.scopeText _ with
      | ok scope => exact ⟨[scope ++ "."], rfl⟩
      | error f => exact ⟨[], rfl⟩
    · exact ⟨[], rfl⟩
  unfold methodHead
  rw [if_neg (by simp [hb])]
  refine howner.append ?_
  split_ifs
  · exact ⟨[], rfl⟩
  · exact ⟨["prototype."], rfl⟩

theorem methodDeclaration_written {d : MethodDetails}
    (hd : (c.program.method id).declared = some d) (hn : (c.program.method id).name = .ofText n) :
    (c.methodDeclaration (.entity id.entity)).written = (c.methodDetails id d).written := by
  have hwhole : c.methodDeclaration (.entity id.entity) =
      step (.log (.declaration "method" (.text n))) ++ c.methodDetails id d := by
    unfold methodDeclaration noted
    simp only [Id.entity, Program.named?, Program.nameOf, hn, hd]
    rfl
  rw [hwhole, Script.written, Script.written, outcome_tokens, outcome_tokens, tokens_append (by rfl),
    tokens_step, after_step]
  simp [Step.apply, Event.token?]

/-- The first name that a declaration introduces is that of the method. -/
theorem methodDeclaration_opens {d : MethodDetails}
    (hd : (c.program.method id).declared = some d) (hn : (c.program.method id).name = .ofText n)
    (hb : d.body.isNull = false) (hf : (c.methodHead id d).fault = none) :
    ∃ texts : List String,
      texts.map .text ++ [.declaration
        (.text (Identifier.declared (Identifier.ofMethod n d.specialName.isSet))) (some id.target)] <+:
      (c.methodDeclaration (.entity id.entity)).written := by
  obtain ⟨texts, ht⟩ := (c.methodHead_isText id hb).written
  have hname : declaration ((c.program.method id).name.mapText
      (Identifier.ofMethod · d.specialName.isSet)) (some id.target) = token (.declaration
        (.text (Identifier.declared (Identifier.ofMethod n d.specialName.isSet)))
        (some id.target)) := by
    rw [hn]
    rfl
  have hboth := (c.methodHead_outline id d).neutral.written_append
    (.of_still (t := .declaration
      (.text (Identifier.declared (Identifier.ofMethod n d.specialName.isSet))) (some id.target))
      fun _ => rfl) hf
  rw [ht] at hboth
  refine ⟨texts, ?_⟩
  rw [c.methodDeclaration_written hd hn, methodDetails]
  -- The head and the name are the first two of the parts that the declaration is made of.
  simp only [hname]
  rw [show texts.map Token.text ++ [_] = _ from hboth.symm]
  exact (written_opens _ _).trans <| (written_opens _ _).trans <| (written_opens _ _).trans <|
    (written_opens _ _).trans <| (written_opens _ _).trans (written_opens _ _)

/-! ### Where a method is used -/

/-- Expressions that use a method by its name, with what they write before the name and the name: a
reference to the method, and an access to a property of which it is the accessor. An assignment that
counts its property up or down only reads it. -/
inductive MethodUse (id : MethodId) : Expr → Script → Script → Prop
  | reference (target : Value) :
    MethodUse id (.method (.entity id.entity) target) (target.asTarget (c.exprSlot target))
      (c.program.methodName (.entity id.entity))
  | read {property : PropertyId} (target : Value)
    (h : (c.program.property property).getter = .entity id.entity) :
    MethodUse id (.property (.entity property.entity) target)
      (target.asTarget (c.exprSlot target)) (c.program.accessorName (.entity id.entity))
  | readIndexed {property : PropertyId} (target indices : Value)
    (h : (c.program.property property).getter = .entity id.entity) :
    MethodUse id (.propertyIndexer (.expr (.property (.entity property.entity) target)) indices)
      (target.asTarget (c.exprSlot target)) (c.program.accessorName (.entity id.entity))
  | write {property : PropertyId} (target value : Value)
    (h : (c.program.property property).setter = .entity id.entity)
    (hc : ∀ amount,
      ¬ c.CountsBy (.expr (.property (.entity property.entity) target)) value amount) :
    MethodUse id (.assign (.expr (.property (.entity property.entity) target)) value)
      (target.asTarget (c.exprSlot target)) (c.program.accessorName (.entity id.entity))
  | writeIndexed {property : PropertyId} (target indices value : Value)
    (h : (c.program.property property).setter = .entity id.entity)
    (hc : ∀ amount, ¬ c.CountsBy
      (.expr (.propertyIndexer (.expr (.property (.entity property.entity) target)) indices)) value
      amount) :
    MethodUse id (.assign
        (.expr (.propertyIndexer (.expr (.property (.entity property.entity) target)) indices)) value)
      (target.asTarget (c.exprSlot target)) (c.program.accessorName (.entity id.entity))

variable {c} {e : Expr} {before name : Script}

theorem accessorCall_opens (property : PropertyId) (target : Script) (arguments : List Script) :
    (target ++ c.program.accessorName (.entity id.entity)).written <+:
      (c.program.accessorCall property (.entity id.entity) target arguments).written := by
  unfold Program.accessorCall
  rw [if_neg (by simp [Value.isNull])]
  exact (written_opens _ _).trans <| (written_opens _ _).trans (written_opens _ _)

/-- An expression that uses a method opens with what it writes before the name, and the name. -/
theorem MethodUse.opens (h : c.MethodUse id e before name) :
    (before ++ name).written <+: (c.expr e).written := by
  cases h with
  | reference target => exact List.prefix_refl _
  | @read property target h =>
    have he : c.expr (.property (.entity property.entity) target) =
        c.program.accessorCall property (c.program.property property).getter
          (target.asTarget (c.exprSlot target)) [] := rfl
    rw [he, h]
    exact accessorCall_opens _ _ _
  | @readIndexed property target indices h =>
    have he : c.expr (.propertyIndexer (.expr (.property (.entity property.entity) target)) indices) =
        c.program.accessorCall property (c.program.property property).getter
          (target.asTarget (c.exprSlot target)) (c.exprItems indices) := rfl
    rw [he, h]
    exact accessorCall_opens _ _ _
  | @write property target value h hc =>
    rw [expr, c.counter?_eq_none hc, Option.getD_none]
    show _ <+: (c.program.accessorCall property (c.program.property property).setter
      (target.asTarget (c.exprSlot target)) [c.exprSlot value]).written
    rw [h]
    exact accessorCall_opens _ _ _
  | @writeIndexed property target indices value h hc =>
    rw [expr, c.counter?_eq_none hc, Option.getD_none]
    show _ <+: (c.program.accessorCall property (c.program.property property).setter
      (target.asTarget (c.exprSlot target)) (c.exprItems indices ++ [c.exprSlot value])).written
    rw [h]
    exact accessorCall_opens _ _ _

/-- What is written for the name is one reference. -/
theorem MethodUse.name_eq (h : c.MethodUse id e before name)
    (hn : (c.program.method id).name = .ofText n) (hf : name.fault = none) :
    ∃ tooltip target,
      name = token (.reference (.text (Identifier.referenced n)) tooltip (some target)) := by
  have href (leadsTo : MethodId) (hf : (c.program.methodReference id leadsTo).fault = none) :
      ∃ tooltip target, c.program.methodReference id leadsTo =
        token (.reference (.text (Identifier.referenced n)) tooltip (some target)) := by
    unfold Program.methodReference at hf ⊢
    obtain ⟨tooltip, -, he⟩ := given_eq hf
    rw [he, hn]
    exact ⟨_, _, rfl⟩
  cases h with
  | reference target =>
    simp only [Program.methodName, Id.entity] at hf ⊢
    split at hf
    · exact href _ hf
    · exact href _ hf
    · cases hf
  | _ => exact href id hf

/-- What is written for a use of a method before its name, and the name itself. -/
theorem MethodUse.name_opens (h : c.MethodUse id e before name)
    (hn : (c.program.method id).name = .ofText n) (hf : (before ++ name).fault = none) :
    ∃ tooltip target,
      before.written ++ [.reference (.text (Identifier.referenced n)) tooltip (some target)] <+:
      (c.expr e).written := by
  obtain ⟨hfb, hfn⟩ := fault_append_eq_none.1 hf
  obtain ⟨tooltip, target, he⟩ := h.name_eq hn hfn
  have hbefore : Neutral before := by
    cases h <;> exact (Fits.asTarget _ (c.exprSlot_fits _)).law
  have hw : (before ++ name).written = before.written ++
      [.reference (.text (Identifier.referenced n)) tooltip (some target)] := by
    rw [hbefore.written_append (he ▸ Neutral.of_still fun _ => rfl) hfb, he]
    rfl
  exact ⟨tooltip, target, hw ▸ h.opens⟩

/-- A method with a body is declared by a name that only texts stand before, and used, by every
reference to it and by every access to a property through it, by a name right after the target. Unless
the method is a type initializer, the two are one name just where it is no operator overload; an
operator overload is declared by its readable name and used by its own. -/
theorem method_names_agree {d : MethodDetails} (hd : (c.program.method id).declared = some d)
    (hb : d.body.isNull = false) (hn : (c.program.method id).name = .ofText n) (hi : n ≠ ".cctor") :
    ((c.methodHead id d).fault = none → ∃ texts : List String,
      texts.map .text ++ [.declaration
        (.text (Identifier.declared (Identifier.ofMethod n d.specialName.isSet))) (some id.target)] <+:
      (c.methodDeclaration (.entity id.entity)).written) ∧
    (∀ e before name, c.MethodUse id e before name → (before ++ name).fault = none →
      ∃ tooltip target,
        before.written ++ [.reference (.text (Identifier.referenced n)) tooltip (some target)] <+:
        (c.expr e).written) ∧
    (Identifier.SameName (Identifier.declared (Identifier.ofMethod n d.specialName.isSet))
        (Identifier.referenced n) ↔
      (d.specialName.isSet = true → Identifier.operatorNames.lookup n = none)) ∧
    ∀ readable, d.specialName.isSet = true → Identifier.operatorNames.lookup n = some readable →
      Identifier.declared (Identifier.ofMethod n d.specialName.isSet) = readable ∧
        Identifier.referenced n = n := by
  refine ⟨c.methodDeclaration_opens hd hn hb, fun e before name h hf => h.name_opens hn hf,
    Identifier.sameName_ofMethod_iff hi, fun readable hs hl => ?_⟩
  rw [hs]
  obtain ⟨hdeclared, hused, -⟩ := Identifier.declared_operator hl
  exact ⟨hdeclared, hused⟩

/-- A getter whose name is a reserved word. -/
theorem method_names_agree_reserved :
    let body := .stmt (.block (.list []))
    let d : MethodDetails :=
      ⟨.ofText "public", .null, .null, .null, .null, .null, .null, .null, body, .list [], .list []⟩
    let c : Context := {
      program := {
        types := #[{ nameSpace := .ofText "", name := .ofText "Cache" }],
        methods := #[{ name := .ofText "delete", owner := .entity ⟨.type, 0⟩, parameters := .list [],
                       declared := some d }],
        properties := #[{ name := .ofText "Last", getter := .entity ⟨.method, 0⟩ }] } }
    (∃ texts : List String,
      texts.map .text ++ [.declaration (.text "@delete") (some (.entity ⟨.method, 0⟩))] <+:
        (c.methodDeclaration (.entity ⟨.method, 0⟩)).written) ∧
      (∃ tooltip target,
        [.text "this", .text "."] ++ [.reference (.text "&delete") tooltip (some target)] <+:
          (c.expr (.property (.entity ⟨.property, 0⟩) (.expr .this))).written) ∧
      Identifier.SameName "@delete" "&delete" := by
  intro body d c
  obtain ⟨hdeclared, hused, hsame, -⟩ :=
    @method_names_agree c ⟨0⟩ "delete" d rfl rfl rfl (by decide)
  exact ⟨hdeclared rfl, hused _ _ _ (@MethodUse.read c ⟨0⟩ ⟨0⟩ (.expr .this) rfl) rfl,
    hsame.2 nofun⟩

/-- An operator overload and a type initializer are declared by one name and used by another. -/
theorem method_names_differ :
    let body := .stmt (.block (.list []))
    let d (special : Bool) : MethodDetails := ⟨.ofText "public", .scalar (.bool true), .null, .null,
      .null, .null, .scalar (.bool special), .null, body, .list [], .list []⟩
    let c : Context := {
      program := {
        methods := #[
          { name := .ofText "op_Addition", parameters := .list [], declared := some (d true) },
          { name := .ofText ".cctor", parameters := .list [], declared := some (d false) }] } }
    let declaration (i : Nat) := (c.methodDeclaration (.entity ⟨.method, i⟩)).written
    let use (i : Nat) := (c.expr (.method (.entity ⟨.method, i⟩) .null)).written
    (declaration 0).head? = some (.declaration (.text "Add") (some (.entity ⟨.method, 0⟩))) ∧
      use 0 = [.reference (.text "op_Addition") (.text "void op_Addition();")
        (some (.entity ⟨.method, 0⟩))] ∧
      ¬ Identifier.SameName "Add" "op_Addition" ∧
      (declaration 1).head? = some (.declaration (.text "Create") (some (.entity ⟨.method, 1⟩))) ∧
      use 1 = [.reference (.text ".cctor") (.text "Create();") (some (.entity ⟨.method, 1⟩))] ∧
      ¬ Identifier.SameName "Create" ".cctor" := by
  intro body d c declaration use
  exact ⟨by rfl, by rfl, by decide, by rfl, by rfl, by decide⟩

end Context

end Scribe
