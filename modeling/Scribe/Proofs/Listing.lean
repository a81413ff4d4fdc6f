import Scribe.Proofs.Memberless
import Scribe.Proofs.Members

/-!
# The members of a type, in order

`Program.Listing`: what types declare, listed in pre-order, a type before its members and these before
what the types nested in it declare. `Script.Lists`: the members that a script declares. All that
stands around the name of a member is `Memberless`, so the declaration of a member lists that member
alone, and a group lists its members one after the other.

`Context.members_listed`: the members that a type declares where it is written, among all the tokens of
its attributes, initializers and bodies, are just its listing.
-/

namespace Scribe

/-! ### Listings -/

namespace Program

variable (p : Program)

/-- Whether something goes by the given name. -/
def isNamed (name : String) (v : Value) : Bool := (p.named? v).any (·.name.isText name)

/-- The members that a type lists after itself. A delegate has its `Invoke` method, and an
enumeration its elements. -/
def ownMembers (t : TypeId) (d : TypeDetails) : List Value :=
  if p.isDelegate t then (d.methods.members.find? (p.isNamed "Invoke")).toList
  else if p.isEnumeration t then p.writtenFields t d
  else d.events.members ++ d.methods.members ++ d.properties.members ++ p.writtenFields t d

/-- The types that a type lists after its members. -/
def innerTypes (t : TypeId) (d : TypeDetails) : List Value :=
  if p.isDelegate t || p.isEnumeration t then [] else d.nested.members

/-- What the types of a list declare, in pre-order. -/
inductive Listing : List Value → List Value → Prop
  | nil : Listing [] []
  | cons {i : Nat} {d : TypeDetails} {rest inner others : List Value} :
    (p.type ⟨i⟩).declared = some d → Listing (p.innerTypes ⟨i⟩ d) inner → Listing rest others →
    Listing (.entity ⟨.type, i⟩ :: rest)
      (.entity ⟨.type, i⟩ :: p.ownMembers ⟨i⟩ d ++ inner ++ others)

namespace Listing

variable {p} {types others members members' : List Value}

theorem append (h : p.Listing types members) (h' : p.Listing others members') :
    p.Listing (types ++ others) (members ++ members') := by
  induction h with
  | nil => exact h'
  | cons hd hinner _ _ ih => simpa [List.append_assoc] using Listing.cons hd hinner ih

theorem flatMap {f : Value → List Value} (h : ∀ v ∈ types, p.Listing [v] (f v)) :
    p.Listing types (types.flatMap f) := by
  induction types with
  | nil => exact .nil
  | cons v types ih =>
    obtain ⟨hv, hrest⟩ := List.forall_mem_cons.1 h
    exact hv.append (ih hrest)

/-- Types have no more than one listing. -/
theorem unique (h : p.Listing types members) (h' : p.Listing types members') :
    members = members' := by
  induction h generalizing members' with
  | nil => cases h'; rfl
  | cons hd _ _ ihinner ihrest =>
    cases h' with
    | cons hd' hinner' hrest' =>
      obtain rfl := Option.some.inj (hd.symm.trans hd')
      rw [ihinner hinner', ihrest hrest']

end Listing

theorem isScalar_text (v : Value) (word : String) : v.isScalar (.text word) = v.isText word := by
  cases v with
  | scalar s =>
    cases s with
    | text t => simp [Value.isScalar, Value.isText, Scalar.same, Scalar.magnitude?]
    | real value => cases value <;> rfl
    | decimal value => cases value <;> rfl
    | _ => rfl
  | _ => rfl

/-- The search for a method by its name finds the first that has it. -/
theorem findNamed_eq {name : String} {l : List Value} {found : Option Value}
    (h : p.findNamed (.text name) l = .ok found) : found = l.find? (p.isNamed name) := by
  induction l with
  | nil => cases h; rfl
  | cons v l ih =>
    rw [findNamed] at h
    cases hv : p.named? v with
    | none => rw [hv] at h; cases h
    | some named =>
      rw [hv] at h
      simp only [isScalar_text] at h
      have hnamed : p.isNamed name v = named.name.isText name := by simp [isNamed, hv]
      rw [List.find?_cons, hnamed]
      split_ifs at h with hname
      · cases h; rw [hname]
      · rw [Bool.eq_false_iff.2 hname]; exact ih h

end Program

/-! ### Scripts that list members -/

namespace Script

variable {a b s : Script} {vs ws : List Value}

/-- Unless it faults, the script declares the given members, in order. -/
def Lists (vs : List Value) (s : Script) : Prop := s.fault = none → s.members.map Value.entity = vs

namespace Lists

theorem fail (f : Fault) : Lists vs (fail f) := nofun

theorem of_memberless (h : s.Memberless) : Lists [] s := fun _ => by rw [h.members]; rfl

theorem append (ha : Lists vs a) (hb : Lists ws b) : Lists (vs ++ ws) (a ++ b) := by
  intro hf
  obtain ⟨hfa, hfb⟩ := fault_append_eq_none.1 hf
  rw [members_append hfa, List.map_append, ha hfa, hb hfb]

theorem after (ha : a.Memberless) (hb : Lists vs b) : Lists vs (a ++ b) :=
  (of_memberless ha).append hb

theorem before (ha : Lists vs a) (hb : b.Memberless) : Lists vs (a ++ b) := by
  simpa using ha.append (of_memberless hb)

theorem declaration (name : Value) {e : Entity} (h : e.kind.isMember = true) :
    Lists [.entity e] (declaration name (some (.entity e))) := by
  intro hf
  obtain ⟨scalar, -, he⟩ := given_eq hf
  rw [Script.declaration, he]
  simp [members, token, Step.member?, Token.member?, Target.member?, h]

theorem given {α : Type} {r : Except Fault α} {next : α → Script}
    (h : ∀ x, r = .ok x → Lists vs (next x)) : Lists vs (given r next) := by
  cases r with
  | ok x => exact h x rfl
  | error f => exact .fail f

theorem indented (h : Lists vs a) : Lists vs (indented a) :=
  (h.after (.step rfl)).before (.step rfl)

theorem between (opening closing : String) (h : Lists vs a) :
    Lists vs (between opening closing a) :=
  (h.after (memberless_text _)).before (memberless_text _)

variable {f : Value → Script} {g : Value → List Value}

theorem lines (h : ∀ v ∈ vs, Lists (g v) (f v)) : Lists (vs.flatMap g) (lines (vs.map f)) := by
  induction vs with
  | nil => exact of_memberless .empty
  | cons v vs ih =>
    obtain ⟨hv, hrest⟩ := List.forall_mem_cons.1 h
    exact (hv.after memberless_lineBreak).append (ih hrest)

theorem commaSeparated (h : ∀ v, Lists [v] (f v)) : Lists vs (commaSeparated (vs.map f)) := by
  unfold Script.commaSeparated
  induction vs with
  | nil => exact of_memberless .empty
  | cons v vs ih =>
    cases vs with
    | nil => exact h v
    | cons w ws => exact ((h v).before (memberless_text _)).append ih

variable (hstray : ∀ s, (f (.scalar s)).fault ≠ none) (listed : Value)

include hstray

theorem ofItems (h : ∀ v, Lists (g v) (f v)) : Lists (listed.members.flatMap g)
    (Script.given listed.items fun vs => Script.lines (vs.map f)) := by
  intro hf
  obtain ⟨-, he⟩ := given_members (lines_scalar hstray) hf
  rw [he] at hf ⊢
  exact lines (fun v _ => h v) hf

theorem group (title : String) (h : ∀ v, Lists [v] (f v)) :
    Lists listed.members (group title listed f) := by
  unfold Script.group
  split_ifs with hset
  · have hitems := ofItems hstray listed h
    rw [List.flatMap_singleton'] at hitems
    exact hitems.after (by simp)
  · rw [members_of_not_isSet hset]
    exact of_memberless .empty

theorem nestedGroup (h : ∀ v, Lists (g v) (f v)) :
    Lists (listed.members.flatMap g) (nestedGroup listed f) := by
  unfold Script.nestedGroup
  split_ifs with hset
  · exact (ofItems hstray listed h).indented.after (by simp)
  · rw [members_of_not_isSet hset]
    exact of_memberless .empty

end Lists

end Script

open Script

/-! ### Members -/

/-- No member stands where a variable is bound, in all code of the program. -/
def Program.BindsLocals (p : Program) : Prop :=
  ∀ e, ∀ part ∈ p.parts e, part.value.BindsLocals

theorem Program.BindsLocals.value {p : Program} (hp : p.BindsLocals) (e : Entity) {v : Value}
    (h : v ∈ (p.parts e).map (·.value)) : v.BindsLocals :=
  List.forall_mem_map.2 (hp e) v h

namespace Context

variable {c : Context}

theorem attributeUse_memberless {a : Value} (h : a.BindsLocals) :
    (c.attributeUse a).Memberless := by
  refine memberless_given fun name => ?_
  split
  · next constructor arguments hcall =>
    have harguments : arguments.BindsLocals := by
      unfold Value.attribute? at hcall
      split at hcall
      · cases hcall; exact h.slots.2
      · cases hcall; exact h.slots.2.2.1
      · cases hcall
    have hitems := memberless_commaSeparated.2 (c.code_memberless arguments harguments).exprItems
    exact memberless_given fun _ => by simp [hitems]
  · exact .fail _

theorem attributeLines_memberless (target : AttributeTarget) {shown : List Value}
    (h : ∀ a ∈ shown, a.BindsLocals) : (c.attributeLines target shown).Memberless := by
  have hlines (opening : String) : (concat (shown.map fun a =>
      between opening "]" (c.attributeUse a) ++ lineBreak)).Memberless := by
    refine memberless_concat.2 fun s hs => ?_
    obtain ⟨a, ha, rfl⟩ := List.mem_map.1 hs
    simp [attributeUse_memberless (h a ha)]
  have hline : (commaSeparated (shown.map c.attributeUse)).Memberless := by
    refine memberless_commaSeparated.2 fun s hs => ?_
    obtain ⟨a, ha, rfl⟩ := List.mem_map.1 hs
    exact attributeUse_memberless (h a ha)
  cases target <;> simp [attributeLines, hlines, hline]

theorem attributes_memberless (target : AttributeTarget) {attributes : Value}
    (h : attributes.BindsLocals) : (c.attributes target attributes).Memberless := by
  refine memberless_ite ?_ .empty
  cases hs : attributes.items.bind c.program.shownAttributes with
  | error f => exact .fail f
  | ok shown =>
    obtain ⟨items, hi, hs⟩ := Except.bind_eq_ok hs
    have hshown : ∀ a ∈ shown, a.BindsLocals :=
      fun a ha => h.items hi a (c.program.shownAttributes_subset hs ha)
    cases shown with
    | nil => exact .empty
    | cons a shown => exact attributeLines_memberless target hshown

theorem fieldValue_memberless {initializer : Value} (h : initializer.BindsLocals) {ending : Script}
    (he : ending.Memberless) : (c.fieldValue initializer ending).Memberless := by
  unfold fieldValue
  split
  · simp
  · simp [(c.code_memberless _ h).exprSlot, he]

@[simp] theorem fieldModifiers_memberless (d : FieldDetails) : (fieldModifiers d).Memberless :=
  memberless_given fun _ => by simp

@[simp] theorem eventModifiers_memberless (owner add : Value) :
    (c.eventModifiers owner add).Memberless := by
  unfold eventModifiers
  split <;> simp

@[simp] theorem accessor_memberless (word : String) (shared own : List String) (accessor : Value) :
    (c.accessor word shared own accessor).Memberless := by
  simp [Context.accessor]

theorem noted_lists {kind : String} {v : Value} {vs : List Value} {next : Named → Script}
    (h : ∀ named, c.program.named? v = some named → Lists vs (next named)) :
    Lists vs (c.noted kind v next) := by
  unfold noted
  split
  · next named hn => exact .given fun name _ => (h named hn).after (.step rfl)
  · exact .fail _

variable (hp : c.program.BindsLocals)

include hp

theorem fieldDeclaration_lists (v : Value) : Lists [v] (c.fieldDeclaration v) := by
  unfold fieldDeclaration
  split
  · next i =>
    cases hd : (c.program.field ⟨i⟩).declared with
    | none => exact .fail _
    | some d =>
      have hinit : d.initializer.BindsLocals :=
        hp.value ⟨.field, i⟩ (by simp [Program.parts, Program.fieldParts, hd])
      have hattributes : d.attributes.BindsLocals :=
        hp.value ⟨.field, i⟩ (by simp [Program.parts, Program.fieldParts, hd])
      have hlist := attributes_memberless (c := c) .entity hattributes
      have hname := Lists.declaration (c.program.field ⟨i⟩).name (e := ⟨.field, i⟩) rfl
      show Lists _ (c.fieldDetails ⟨i⟩ d)
      unfold fieldDetails
      dsimp only
      split_ifs
      · exact (hname.after hlist).before (fieldValue_memberless hinit .empty)
      · exact (((hname.after (.append hlist (fieldModifiers_memberless d))).before
          (memberless_text _)).before (c.program.typeSlot_memberless _)).before
          (fieldValue_memberless hinit (memberless_text _))
  · exact .fail _

theorem methodHead_memberless (id : MethodId) {d : MethodDetails}
    (hd : (c.program.method id).declared = some d) : (c.methodHead id d).Memberless := by
  have hattributes : d.attributes.BindsLocals :=
    hp.value id.entity (by simp [Id.entity, Program.parts, Program.methodParts, hd])
  have hresult : d.resultAttributes.BindsLocals :=
    hp.value id.entity (by simp [Id.entity, Program.parts, Program.methodParts, hd])
  refine memberless_ite ?_ (by simp)
  simp [attributes_memberless (c := c) .entity hattributes,
    attributes_memberless (c := c) .result hresult]

theorem methodDeclaration_lists (v : Value) : Lists [v] (c.methodDeclaration v) := by
  refine noted_lists fun named hn => ?_
  split
  · next i _ =>
    obtain rfl := c.program.eq_entity_of_named hn
    cases hd : (c.program.method ⟨i⟩).declared with
    | none => exact .fail _
    | some d =>
      have hbody : d.body.BindsLocals :=
        hp.value ⟨.method, i⟩ (by simp [Program.parts, Program.methodParts, hd])
      have hstatements := c.functionBody_memberless d.body
        (memberless_optionally d.body (c.code_memberless d.body hbody).stmtSlot)
      have hname := Lists.declaration ((c.program.method ⟨i⟩).name.mapText
        (Identifier.ofMethod · d.specialName.isSet)) (e := ⟨.method, i⟩) rfl
      exact ((((((hname.after (methodHead_memberless hp ⟨i⟩ hd)).before (memberless_text _)).before
        (c.program.parameterList_memberless _)).before (memberless_text _)).before
        memberless_lineBreak).before (memberless_indented.2 hstatements)).before (memberless_text _)
  · exact .fail _

theorem propertyDeclaration_lists (v : Value) : Lists [v] (c.propertyDeclaration v) := by
  unfold propertyDeclaration
  split
  · next i =>
    cases hd : (c.program.property ⟨i⟩).declared with
    | none => exact .fail _
    | some d =>
      have hinit : d.initializer.BindsLocals :=
        hp.value ⟨.property, i⟩ (by simp [Program.parts, Program.propertyParts, hd])
      have hattributes : d.attributes.BindsLocals :=
        hp.value ⟨.property, i⟩ (by simp [Program.parts, Program.propertyParts, hd])
      have hvalue := memberless_optionally d.initializer ((memberless_between " /* = " " */").2
        (c.code_memberless d.initializer hinit).exprSlot)
      have hname := Lists.declaration (c.program.property ⟨i⟩).name (e := ⟨.property, i⟩) rfl
      refine .after (attributes_memberless .entity hattributes)
        (.given fun getter _ => .given fun setter _ => ?_)
      exact (((((((hname.after (.append (memberless_text _) (memberless_text _))).before
        (by simp)).before (memberless_text _)).before (c.program.typeSlot_memberless _)).before
        (accessor_memberless ..)).before (accessor_memberless ..)).before hvalue).before
        (memberless_text _)
  · exact .fail _

theorem eventDeclaration_lists (v : Value) : Lists [v] (c.eventDeclaration v) := by
  unfold eventDeclaration
  split
  · next i =>
    cases hd : (c.program.event ⟨i⟩).declared with
    | none => exact .fail _
    | some d =>
      have hattributes : d.attributes.BindsLocals :=
        hp.value ⟨.event, i⟩ (by simp [Program.parts, Program.eventParts, hd])
      have hlist := attributes_memberless (c := c) .entity hattributes
      have hname := Lists.declaration (c.program.event ⟨i⟩).name (e := ⟨.event, i⟩) rfl
      exact (hname.after (by simp [hlist])).before (memberless_text _)
  · exact .fail _

/-! ### Types -/

omit hp in
theorem signature_lists (i : Nat) : Lists [.entity ⟨.method, i⟩] (c.signature ⟨i⟩) := by
  have hname := Lists.declaration (c.program.method ⟨i⟩).name (e := ⟨.method, i⟩) rfl
  exact (((hname.after (memberless_text _)).before (by simp)).before (by simp)).before
    (memberless_text _)

omit hp in
theorem delegateSignature_lists (t : TypeId) {d : TypeDetails}
    (hd : (c.program.type t).declared = some d) :
    Lists (d.methods.members.find? (c.program.isNamed "Invoke")).toList (c.delegateSignature t) := by
  refine .given fun invoke hinvoke => ?_
  have hfind : invoke = d.methods.members.find? (c.program.isNamed "Invoke") := by
    simp only [Program.findMethod, hd] at hinvoke
    obtain ⟨methods, hi, hinvoke⟩ := Except.bind_eq_ok hinvoke
    obtain rfl : methods = d.methods.members := by
      refine Value.items_eq_members hi ?_
      rintro s rest rfl
      cases hinvoke
    exact c.program.findNamed_eq hinvoke
  rw [← hfind]
  split
  · exact .fail _
  · exact signature_lists _
  · exact .fail _

theorem enumerationElements_lists (t : TypeId) (d : TypeDetails) :
    Lists (c.program.writtenFields t d) (c.enumerationElements t d) := by
  refine .between _ _ (.given fun fields hfields => ?_)
  obtain rfl := c.program.ownFields_eq t hfields
  refine .commaSeparated fun v => ?_
  unfold enumerationElement
  split
  · next i =>
    have hinit : ((c.program.field ⟨i⟩).declared.elim .null (·.initializer)).BindsLocals := by
      cases hd : (c.program.field ⟨i⟩).declared with
      | none => exact Value.bindsLocals_scalar _
      | some d => exact hp.value ⟨.field, i⟩ (by simp [Program.parts, Program.fieldParts, hd])
    refine (Lists.declaration _ (e := ⟨.field, i⟩) rfl).before (memberless_optionally _ ?_)
    exact .append (memberless_text _) (c.code_memberless _ hinit).exprSlot
  · exact .fail _

omit hp in
@[simp] theorem prototypeLine_memberless (t : TypeId) (d : TypeDetails) :
    (c.prototypeLine t d).Memberless :=
  memberless_ite .empty (.append memberless_lineBreak (memberless_given fun _ => by simp))

theorem typeHeader_lists {i : Nat} {d : TypeDetails} (hd : (c.program.type ⟨i⟩).declared = some d) :
    Lists (.entity ⟨.type, i⟩ :: if c.program.isDelegate ⟨i⟩ || c.program.isEnumeration ⟨i⟩
      then c.program.ownMembers ⟨i⟩ d else []) (c.typeHeader ⟨i⟩ d) := by
  have hattributes : d.attributes.BindsLocals :=
    hp.value ⟨.type, i⟩ (by simp [Program.parts, Program.typeParts, hd])
  have hname := Lists.declaration (c.program.type ⟨i⟩).name (e := ⟨.type, i⟩) rfl
  have hqualifier : (c.typeQualifier ⟨i⟩).Memberless :=
    memberless_ite (memberless_ite (memberless_given fun _ => memberless_text _)
      (memberless_text _)) .empty
  have hrest : Lists (if c.program.isDelegate ⟨i⟩ || c.program.isEnumeration ⟨i⟩
      then c.program.ownMembers ⟨i⟩ d else [])
      (if c.program.isDelegate ⟨i⟩ then c.delegateSignature ⟨i⟩
        else if c.program.isEnumeration ⟨i⟩ then c.enumerationElements ⟨i⟩ d
        else text " = function() \x7b \x7d;" ++ c.prototypeLine ⟨i⟩ d) := by
    unfold Program.ownMembers
    cases c.program.isDelegate ⟨i⟩ with
    | true => exact delegateSignature_lists ⟨i⟩ hd
    | false =>
      cases c.program.isEnumeration ⟨i⟩ with
      | true => exact enumerationElements_lists hp ⟨i⟩ d
      | false => exact .of_memberless (.append (memberless_text _) (prototypeLine_memberless _ d))
  exact .after (attributes_memberless .entity hattributes) (.given fun _ _ =>
    (hname.after hqualifier).append hrest)

theorem typeBody_lists {t : TypeId} (d : TypeDetails) {nested : Value → Script}
    {g : Value → List Value} (hstray : ∀ s, (nested (.scalar s)).fault ≠ none)
    (h : ∀ v, Lists (g v) (nested v)) :
    Lists (d.events.members ++ d.methods.members ++ d.properties.members ++
      c.program.writtenFields t d ++ d.nested.members.flatMap g) (c.typeBody t d nested) := by
  refine .given fun fields hfields => ?_
  obtain rfl := c.program.ownFields_eq t hfields
  refine .append (.append (.append (.append ?_ ?_) ?_) ?_) ?_
  · exact .group (by intro; exact nofun) _ _ (eventDeclaration_lists hp)
  · exact .group (by intro; exact nofun) _ _ (methodDeclaration_lists hp)
  · exact .group (by intro; exact nofun) _ _ (propertyDeclaration_lists hp)
  · exact .group (by intro; exact nofun) (.list _) _ (fieldDeclaration_lists hp)
  · exact .nestedGroup hstray _ h

omit hp in
/-- What is written as a type, unless it faults, is a type that is declared. -/
theorem typeDeclarationWithin_eq {levels : Nat} {v : Value}
    (hf : (c.typeDeclarationWithin (levels + 1) v).fault = none) :
    ∃ i d name, v = .entity ⟨.type, i⟩ ∧ (c.program.type ⟨i⟩).declared = some d ∧
      c.typeDeclarationWithin (levels + 1) v = step (.log (.declaration "type" name)) ++
        (c.typeHeader ⟨i⟩ d ++ if c.showsBody ⟨i⟩
          then c.typeBody ⟨i⟩ d (c.typeDeclarationWithin levels) else ∅) := by
  rw [typeDeclarationWithin, noted] at hf ⊢
  cases hn : c.program.named? v with
  | none => rw [hn] at hf; cases hf
  | some named =>
    simp only [hn] at hf ⊢
    obtain ⟨name, -, he⟩ := given_eq hf
    rw [he] at hf ⊢
    split at hf
    · next i _ =>
      cases hd : (c.program.type ⟨i⟩).declared with
      | none => simp [hd] at hf
      | some d => exact ⟨i, d, name, c.program.eq_entity_of_named hn, hd, by simp⟩
    · simp at hf

/-- What stands in the declaration of a type after its note, where its members are shown. -/
theorem typeParts_lists (hshow : c.style.showTypeBody = true) {i : Nat} {d : TypeDetails}
    (hd : (c.program.type ⟨i⟩).declared = some d) {nested : Value → Script}
    {g : Value → List Value} (hstray : ∀ s, (nested (.scalar s)).fault ≠ none)
    (h : ∀ v, Lists (g v) (nested v)) :
    Lists (.entity ⟨.type, i⟩ :: c.program.ownMembers ⟨i⟩ d ++
        (c.program.innerTypes ⟨i⟩ d).flatMap g)
      (c.typeHeader ⟨i⟩ d ++ if c.showsBody ⟨i⟩ then c.typeBody ⟨i⟩ d nested else ∅) := by
  have hheader := typeHeader_lists hp hd
  unfold Program.innerTypes showsBody
  cases hkind : c.program.isDelegate ⟨i⟩ || c.program.isEnumeration ⟨i⟩ with
  | true =>
    have hno : (c.style.showTypeBody && !c.program.isDelegate ⟨i⟩ &&
        !c.program.isEnumeration ⟨i⟩) = false := by
      rcases Bool.or_eq_true_iff.1 hkind with hkind | hkind <;> simp [hkind]
    rw [hkind] at hheader
    rw [hno]
    simpa using hheader.before .empty
  | false =>
    obtain ⟨hdelegate, henum⟩ := Bool.or_eq_false_iff.1 hkind
    have hbody := typeBody_lists hp (t := ⟨i⟩) d hstray h
    rw [hkind] at hheader
    simpa [Program.ownMembers, hshow, hdelegate, henum] using hheader.append hbody

/-- A type that is written with some levels of nesting to spend has a listing, and lists it. -/
theorem typeDeclarationWithin_listing (hshow : c.style.showTypeBody = true) (levels : Nat) (v : Value)
    (hf : (c.typeDeclarationWithin levels v).fault = none) :
    c.program.Listing [v] ((c.typeDeclarationWithin levels v).members.map .entity) := by
  induction levels generalizing v with
  | zero => cases hf
  | succ levels ih =>
    obtain ⟨i, d, name, rfl, hd, he⟩ := typeDeclarationWithin_eq hf
    rw [he] at hf ⊢
    have hnested (w : Value) : Lists ((c.typeDeclarationWithin levels w).members.map .entity)
      (c.typeDeclarationWithin levels w) := fun _ => rfl
    have hlists := (typeParts_lists hp hshow hd (c.typeDeclarationWithin_scalar levels)
      hnested).after (a := step (.log (.declaration "type" name))) (.step rfl)
    have hinner : ∀ w ∈ c.program.innerTypes ⟨i⟩ d,
        (c.typeDeclarationWithin levels w).fault = none := by
      unfold Program.innerTypes
      split_ifs with hkind
      · exact nofun
      · have hbody := (fault_append_eq_none.1 (fault_append_eq_none.1 hf).2).2
        have hyes : c.showsBody ⟨i⟩ = true := by simpa [showsBody, hshow] using hkind
        rw [hyes] at hbody
        exact (c.written_typeBody ⟨i⟩ d levels hbody).2
    rw [hlists hf]
    simpa using Program.Listing.cons hd (.flatMap fun w hw => ih w (hinner w hw)) .nil

/-- Where no member stands in place of a variable, the members that a type declares as it is written
with its body, among all that its tokens declare, are just its listing: the type, its `Invoke` method
if it is a delegate, its elements if it is an enumeration, and otherwise its events, methods,
properties and fields, each in the order of its list, and then the listings of its nested types. -/
theorem members_listed (hshow : c.style.showTypeBody = true) (v : Value)
    (hf : (c.typeDeclaration v).fault = none) (listing : List Value) :
    c.program.Listing [v] listing ↔
      ((c.typeDeclaration v).outcome.tokens.filterMap Token.member?).map .entity = listing := by
  rw [outcome_tokens, filterMap_member]
  have hlisting := typeDeclarationWithin_listing hp hshow _ v hf
  exact ⟨fun h => hlisting.unique h, fun h => h ▸ hlisting⟩

omit hp

/-- A type with a member of each kind, the method with a lambda in its body, and in it a delegate
and an enumeration with its value field. -/
theorem members_listed_nested :
    let core (name : String) : TypeSymbol := { nameSpace := .ofText "System", name := .ofText name }
    let bare : TypeDetails := ⟨.null, .null, .null, .null, .null, .list [], .list [], .list [],
      .list [], .list [], .list [], .list []⟩
    let code : MethodDetails := ⟨.ofText "public", .null, .null, .null, .null, .null, .null, .null,
      .stmt (.block (.list [.stmt (.return (.expr (.lambda (.list [.entity ⟨.variable, 0⟩])
        (.expr (.variable (.entity ⟨.variable, 0⟩))))))])), .list [], .list []⟩
    let plain : FieldDetails := ⟨.ofText "public", .null, .null, .null, .null, .null, .null, .list []⟩
    let value : FieldDetails :=
      { plain with specialName := .scalar (.bool true), runtimeSpecialName := .scalar (.bool true) }
    let c : Context := {
      program := {
        types := #[
          { name := .ofText "A", declared := some { bare with
              fields := .list [.entity ⟨.field, 0⟩], methods := .list [.entity ⟨.method, 0⟩],
              properties := .list [.entity ⟨.property, 0⟩], events := .list [.entity ⟨.event, 0⟩],
              nested := .list [.entity ⟨.type, 1⟩, .entity ⟨.type, 2⟩] } },
          { name := .ofText "D", owner := .entity ⟨.type, 0⟩, declared := some { bare with
              base := .entity ⟨.type, 3⟩, methods := .list [.entity ⟨.method, 1⟩] } },
          { name := .ofText "E", owner := .entity ⟨.type, 0⟩, declared := some { bare with
              base := .entity ⟨.type, 4⟩,
              fields := .list [.entity ⟨.field, 1⟩, .entity ⟨.field, 2⟩] } },
          core "MulticastDelegate", core "Enum", core "Int32"],
        fields := #[
          { name := .ofText "f", type := .entity ⟨.type, 5⟩, declared := some plain },
          { name := .ofText "value", type := .entity ⟨.type, 5⟩, owner := .entity ⟨.type, 2⟩,
            declared := some value },
          { name := .ofText "One", type := .entity ⟨.type, 2⟩, owner := .entity ⟨.type, 2⟩,
            declared := some plain }],
        methods := #[
          { name := .ofText "m", owner := .entity ⟨.type, 0⟩, parameters := .list [],
            declared := some code },
          { name := .ofText "Invoke", parameters := .list [],
            declared := some { code with body := .null } }],
        properties := #[
          { name := .ofText "p", type := .entity ⟨.type, 5⟩, declared := some ⟨.null, .list []⟩ }],
        events := #[
          { name := .ofText "e", type := .entity ⟨.type, 1⟩,
            declared := some ⟨.null, .null, .null, .list []⟩ }],
        locals := #[{ name := .ofText "x" }] },
      style := { showTypeBody := true } }
    let v := Value.entity ⟨.type, 0⟩
    c.program.BindsLocals ∧ (c.typeDeclaration v).fault = none ∧
      ((c.typeDeclaration v).outcome.tokens.filterMap Token.member?).map .entity =
        [v, .entity ⟨.event, 0⟩, .entity ⟨.method, 0⟩, .entity ⟨.property, 0⟩, .entity ⟨.field, 0⟩,
          .entity ⟨.type, 1⟩, .entity ⟨.method, 1⟩, .entity ⟨.type, 2⟩, .entity ⟨.field, 2⟩] := by
  intro core bare code plain value c v
  have hp : c.program.BindsLocals := by
    rintro ⟨kind, i⟩
    cases kind
    all_goals rcases i with _ | _ | _ | _ | _ | _ | i
    all_goals repeat' first
      | exact Value.bindsLocals_scalar _
      | exact List.forall_mem_nil _
      | refine List.forall_mem_cons.2 ⟨?_, ?_⟩
      | refine (Value.bindsLocals_iff _).2 ⟨?_, ?_⟩
      | rfl
  have hf : (c.typeDeclaration v).fault = none := by rfl
  have henumeration : c.program.Listing [.entity ⟨.type, 2⟩]
      [.entity ⟨.type, 2⟩, .entity ⟨.field, 2⟩] :=
    @Program.Listing.cons c.program 2 _ [] [] [] rfl .nil .nil
  have hdelegate : c.program.Listing [.entity ⟨.type, 1⟩, .entity ⟨.type, 2⟩]
      [.entity ⟨.type, 1⟩, .entity ⟨.method, 1⟩, .entity ⟨.type, 2⟩, .entity ⟨.field, 2⟩] :=
    @Program.Listing.cons c.program 1 _ _ [] _ rfl .nil henumeration
  exact ⟨hp, hf, (members_listed hp rfl v hf _).1
    (@Program.Listing.cons c.program 0 _ [] _ [] rfl hdelegate .nil)⟩

end Context

end Scribe
