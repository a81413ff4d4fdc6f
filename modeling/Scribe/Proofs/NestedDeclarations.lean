import Scribe.Proofs.DeclarationRoles
import Scribe.Proofs.NestedCode

/-!
# Brackets of rendered programs nest

Declarations close all brackets that they open, as code does. Visibility keywords may hold braces of
their own, and they are paired.

`Context.brackets_nest`: where no name, no literal, comment or snippet and no detail of a header has
brackets, the text of a render that succeeds is nested, and the text of one that fails closes no
bracket that it did not open.
-/

namespace Scribe

open Script Scribe.Bracket

/-! ### Keywords -/

/-- Texts one after another, each of which closes all that it opens. -/
theorem Bracket.scan_flatMap {texts : List String} (h : ∀ t ∈ texts, scan [] t.toList = some []) :
    scan [] (texts.flatMap String.toList) = some [] := by
  induction texts with
  | nil => rfl
  | cons t texts ih =>
    rw [List.flatMap_cons]
    exact scan_trans (h t (List.mem_cons_self ..)) (ih fun u hu => h u (List.mem_cons_of_mem _ hu))

theorem Bracket.scan_intercalate {separator : String} (hs : scan [] separator.toList = some [])
    {texts : List String} (h : ∀ t ∈ texts, scan [] t.toList = some []) :
    scan [] (separator.intercalate texts).toList = some [] :=
  forall_intercalate (P := fun cs => scan [] cs = some []) rfl (fun _ _ => scan_trans) hs h

theorem scan_visibilityKeyword {visibility : Value} {keyword : String}
    (h : visibilityKeyword visibility = .ok keyword) : scan [] keyword.toList = some [] := by
  unfold visibilityKeyword at h
  split at h
  · next found hf =>
    cases h
    exact Value.lookup?_all (P := fun t => scan [] t.toList = some []) (by decide) hf
  · cases h

theorem scan_modifierText {keywords : List String} (h : ∀ k ∈ keywords, scan [] k.toList = some []) :
    scan [] (modifierText keywords).toList = some [] := by
  rw [modifierText, String.toList_join]
  refine scan_flatMap fun t ht => ?_
  obtain ⟨k, hk, rfl⟩ := List.mem_map.1 ht
  rw [String.toList_append]
  exact scan_trans (h k hk) rfl

theorem Program.scan_methodModifiers (p : Program) {method : Value} {keywords : List String}
    (h : p.methodModifiers method = .ok keywords) : ∀ k ∈ keywords, scan [] k.toList = some [] := by
  unfold methodModifiers at h
  split at h
  · next d _ =>
    obtain ⟨keyword, hk, h⟩ := Except.bind_eq_ok h
    cases h
    have hkeyword := scan_visibilityKeyword hk
    intro k hin
    split_ifs at hin
    · rcases List.mem_pair.1 hin with rfl | rfl
      · exact hkeyword
      · rfl
    · rwa [List.mem_singleton.1 hin]
  · cases h
    exact nofun

namespace Context

variable {c : Context} (hp : c.program.Bracketless)

/-! ### Members -/

include hp

theorem free_attributeName {a : Value} {name : String}
    (h : c.program.attributeName a = .ok name) : Free name.toList := by
  have howner {v owner : Value} (ho : c.program.ownerSlot v = .ok owner) : owner.Bracketless := by
    unfold Program.ownerSlot at ho
    split at ho
    · next i =>
      cases ho
      exact hp.value ⟨.field, i⟩ (by simp [Program.parts, Program.fieldParts])
    · next i =>
      cases ho
      exact hp.value ⟨.method, i⟩ (by simp [Program.parts, Program.methodParts])
    · next i =>
      cases ho
      exact hp.value ⟨.property, i⟩ (by simp [Program.parts, Program.propertyParts])
    · next i =>
      cases ho
      exact hp.value ⟨.event, i⟩ (by simp [Program.parts, Program.eventParts])
    · cases ho
  unfold Program.attributeName at h
  split at h
  · next constructor _ _ =>
    obtain ⟨owner, ho, h⟩ := Except.bind_eq_ok h
    split_ifs at h
    split at h
    · next name' hn =>
      cases h
      obtain ⟨named, hnamed, he⟩ := Option.map_eq_some_iff.1 hn
      have hfree := hp.named (howner ho) hnamed
      rw [he] at hfree
      exact hfree
    · cases h
  · cases h

theorem attributeUse_nests {a : Value} (ha : a.Bracketless) : Nests (c.attributeUse a) := by
  refine .given fun name hname => ?_
  split
  · next constructor arguments hcall =>
    have harguments : arguments.Bracketless := by
      unfold Value.attribute? at hcall
      split at hcall
      · cases hcall; exact ha.slots.2
      · cases hcall; exact ha.slots.2.2.1
      · cases hcall
    refine .given fun tooltip _ => (reference_nests ?_ _ _).append (.ite ?_ .empty)
    · exact Program.free_shortAttributeName (free_attributeName hp hname)
    · exact .parenthesized (.commaSeparated (exprItems_nests hp arguments harguments))
  · exact .fail _

theorem attributeLines_nests (target : AttributeTarget) {shown : List Value}
    (h : ∀ a ∈ shown, a.Bracketless) : Nests (c.attributeLines target shown) := by
  have lines {opening : String} (ho : scan [] opening.toList = some [.square]) : Nests (lineBreak ++
      concat (shown.map fun a => between opening "]" (c.attributeUse a) ++ lineBreak)) := by
    refine Turns.lineBreak.append (.concat fun s hs => ?_)
    obtain ⟨a, ha, rfl⟩ := List.mem_map.1 hs
    exact (Turns.between ho (attributeUse_nests hp (h a ha)) rfl).append .lineBreak
  have line {opening : Script} (ho : Turns [] [.square] opening) : Nests (opening ++
      commaSeparated (shown.map c.attributeUse) ++ text "]" ++ lineBreak) := by
    have huses : Nests (commaSeparated (shown.map c.attributeUse)) := by
      refine .commaSeparated fun s hs => ?_
      obtain ⟨a, ha, rfl⟩ := List.mem_map.1 hs
      exact attributeUse_nests hp (h a ha)
    exact ((ho.append huses.inside).append (.text rfl)).append .lineBreak
  cases target with
  | assembly => exact lines rfl
  | module => exact lines rfl
  | entity => exact line (.text rfl)
  | result => exact line ((Turns.text rfl).append (.text rfl))

theorem attributes_nests (target : AttributeTarget) {attributes : Value}
    (h : attributes.Bracketless) : Nests (c.attributes target attributes) := by
  refine .ite (.given fun shown hs => ?_) .empty
  have hshown : ∀ a ∈ shown, a.Bracketless := by
    obtain ⟨items, hi, hs⟩ := Except.bind_eq_ok hs
    exact fun a ha => h.items hi a (c.program.shownAttributes_subset hs ha)
  split
  · exact .empty
  · exact attributeLines_nests hp target hshown

theorem fieldValue_nests {initializer : Value} (h : initializer.Bracketless) {ending : Script}
    (he : Nests ending) : Nests (c.fieldValue initializer ending) := by
  unfold fieldValue
  split
  · exact .free (.toList_append (.toList_append (by decide) (free_toString_nat _)) (by decide))
  · exact (Turns.optionally _ ((Turns.text rfl).append (exprSlot_nests hp _ h))).append he

omit hp in
theorem keyword_nests {visibility : Value} {keyword : String}
    (h : visibilityKeyword visibility = .ok keyword) : Nests (text (keyword ++ " ")) := by
  refine .text ?_
  rw [String.toList_append]
  exact scan_trans (scan_visibilityKeyword h) rfl

omit hp in
theorem fieldModifiers_nests (d : FieldDetails) : Nests (fieldModifiers d) :=
  .given fun _ hk => (keyword_nests hk).append (.ite (.text rfl)
    ((Turns.ite (.text rfl) .empty).append (.ite (.text rfl) .empty)))

omit hp in
/-- What follows the note of a declaration. -/
theorem noted_nests {kind : String} {declared : Value} {next : Named → Script}
    (h : ∀ named, c.program.named? declared = some named → Nests (next named)) :
    Nests (c.noted kind declared next) := by
  unfold noted
  split
  · next hn => exact .given fun _ _ => (Turns.silent rfl).append (h _ hn)
  · exact .fail _

theorem fieldDeclaration_nests (field : Value) : Nests (c.fieldDeclaration field) := by
  unfold fieldDeclaration
  split
  · next i =>
    cases hd : (c.program.field ⟨i⟩).declared with
    | none => exact .fail _
    | some d =>
      have htype : (c.program.field ⟨i⟩).type.Bracketless :=
        hp.value ⟨.field, i⟩ (by simp [Program.parts, Program.fieldParts])
      have hinit : d.initializer.Bracketless :=
        hp.value ⟨.field, i⟩ (by simp [Program.parts, Program.fieldParts, hd])
      have hattributes : d.attributes.Bracketless :=
        hp.value ⟨.field, i⟩ (by simp [Program.parts, Program.fieldParts, hd])
      have hlist := attributes_nests hp .entity hattributes
      have hname (target : Option Target) := declaration_nests (hp.name ⟨.field, i⟩) target
      refine .ite ((hlist.append (hname _)).append (fieldValue_nests hp hinit .empty)) ?_
      exact ((((hlist.append (fieldModifiers_nests d)).append (hname _)).append (.text rfl)).append
        (Program.typeSlot_nests hp _ htype)).append (fieldValue_nests hp hinit (.text rfl))
  · exact .fail _

theorem methodHead_nests (id : MethodId) {d : MethodDetails}
    (hd : (c.program.method id).declared = some d) : Nests (c.methodHead id d) := by
  have hattributes : d.attributes.Bracketless :=
    hp.value id.entity (by simp [Id.entity, Program.parts, Program.methodParts, hd])
  have hresult : d.resultAttributes.Bracketless :=
    hp.value id.entity (by simp [Id.entity, Program.parts, Program.methodParts, hd])
  have hmodifiers : Nests (given ((c.program.methodModifiers (.entity id.entity)).map modifierText)
      text) := by
    refine .given fun modifiers hm => .text ?_
    obtain ⟨keywords, hk, rfl⟩ := Except.map_eq_ok hm
    exact scan_modifierText (c.program.scan_methodModifiers hk)
  refine .ite ?_ ((Program.ownerOf_nests hp _).append (.ite .empty (.text rfl)))
  exact ((((attributes_nests hp _ hattributes).append (attributes_nests hp _ hresult)).append
    hmodifiers).append (.ite (.text rfl) .empty)).append (.ite (.text rfl) .empty)

theorem methodDeclaration_nests (method : Value) : Nests (c.methodDeclaration method) := by
  refine noted_nests fun named _ => ?_
  split
  · next i _ _ =>
    cases hd : (c.program.method ⟨i⟩).declared with
    | none => exact .fail _
    | some d =>
      have hbody : d.body.Bracketless :=
        hp.value ⟨.method, i⟩ (by simp [Program.parts, Program.methodParts, hd])
      have hstatements := functionBody_nests hp d.body
        (.optionally d.body (stmtSlot_nests hp d.body hbody))
      have hname : ((c.program.method ⟨i⟩).name.mapText
          (Identifier.ofMethod · d.specialName.isSet)).IsFree :=
        Value.IsFree.mapText (fun _ => Identifier.free_ofMethod _) (hp.name ⟨.method, i⟩)
      exact (((((((methodHead_nests hp ⟨i⟩ hd).append (declaration_nests hname _)).append
        (.text rfl)).append (Program.parameterList_nests hp _).inside).append (.text rfl)).append
        Turns.lineBreak.inside).append hstatements.indented.inside).append (.text rfl)
  · exact .fail _

theorem accessor_nests (word : String) (hw : Free word.toList) (shared : List String)
    {own : List String} (ho : ∀ k ∈ own, scan [] k.toList = some []) (accessor : Value) :
    Nests (c.accessor word shared own accessor) := by
  have hspace : Free " ".toList := by decide
  have hown : Nests (text ("\x7b" ++ " ".intercalate own ++ "\x7d ")) := by
    refine .text ?_
    rw [String.toList_append, String.toList_append]
    exact scan_trans (scan_trans rfl (scan_frame (scan_intercalate rfl ho) [.curly])) rfl
  exact .optionally _ ((Turns.append (.free ((hspace.toList_append hw).toList_append hspace))
    (.ite .empty hown)).append (Program.accessorName_nests hp accessor))

theorem propertyDeclaration_nests (property : Value) : Nests (c.propertyDeclaration property) := by
  unfold propertyDeclaration
  split
  · next i =>
    cases hd : (c.program.property ⟨i⟩).declared with
    | none => exact .fail _
    | some d =>
      have htype : (c.program.property ⟨i⟩).type.Bracketless :=
        hp.value ⟨.property, i⟩ (by simp [Program.parts, Program.propertyParts])
      have hinit : d.initializer.Bracketless :=
        hp.value ⟨.property, i⟩ (by simp [Program.parts, Program.propertyParts, hd])
      have hattributes : d.attributes.Bracketless :=
        hp.value ⟨.property, i⟩ (by simp [Program.parts, Program.propertyParts, hd])
      refine (attributes_nests hp .entity hattributes).append
        (.given fun getter hg => .given fun setter hs => ?_)
      have hgetter := c.program.scan_methodModifiers hg
      have hsetter := c.program.scan_methodModifiers hs
      have hshared : ∀ k ∈ (if (c.program.property ⟨i⟩).getter.isNull then setter else getter),
          scan [] k.toList = some [] := by
        split_ifs
        · exact hsetter
        · exact hgetter
      have hparameters := Program.parameterList_nests hp (c.program.property ⟨i⟩).parameters
      exact (((((((((Turns.text (scan_modifierText hshared)).append (.text rfl)).append
        (declaration_nests (hp.name ⟨.property, i⟩) _)).append
        (.ite hparameters.parenthesized .empty)).append (.text rfl)).append
        (Program.typeSlot_nests hp _ htype)).append
        (accessor_nests hp _ (by decide) _ hgetter _)).append
        (accessor_nests hp _ (by decide) _ hsetter _)).append
        (.optionally _ (.between rfl (exprSlot_nests hp _ hinit) rfl))).append (.text rfl)
  · exact .fail _

omit hp in
theorem eventModifiers_nests (owner add : Value) : Nests (c.eventModifiers owner add) := by
  unfold eventModifiers
  split
  · exact (Turns.ite .empty (.given fun _ hk => keyword_nests hk)).append (.ite (.text rfl) .empty)
  · exact .empty

theorem eventDeclaration_nests (event : Value) : Nests (c.eventDeclaration event) := by
  unfold eventDeclaration
  split
  · next i =>
    cases hd : (c.program.event ⟨i⟩).declared with
    | none => exact .fail _
    | some d =>
      have htype : (c.program.event ⟨i⟩).type.Bracketless :=
        hp.value ⟨.event, i⟩ (by simp [Program.parts, Program.eventParts])
      have hattributes : d.attributes.Bracketless :=
        hp.value ⟨.event, i⟩ (by simp [Program.parts, Program.eventParts, hd])
      exact ((((((attributes_nests hp .entity hattributes).append (eventModifiers_nests _ _)).append
        (.text rfl)).append (Program.typeSlot_nests hp _ htype)).append (.text rfl)).append
        (declaration_nests (hp.name ⟨.event, i⟩) _)).append (.text rfl)
  · exact .fail _

/-! ### Types -/

theorem delegateSignature_nests (t : TypeId) : Nests (c.delegateSignature t) := by
  refine .given fun invoke _ => ?_
  split
  · exact .fail _
  · next i _ =>
    have hresult : (c.program.method ⟨i⟩).result.Bracketless :=
      hp.value ⟨.method, i⟩ (by simp [Program.parts, Program.methodParts])
    have hopening : Nests (text (if c.program.isFunction (c.program.method ⟨i⟩)
        then " = function " else " = procedure ")) := by
      split_ifs
      · exact .text rfl
      · exact .text rfl
    exact (((hopening.append (declaration_nests (hp.name ⟨.method, i⟩) _)).append
      (.parenthesized (Program.parameterList_nests hp _))).append
      (.ite ((Turns.text rfl).append (Program.typeSlot_nests hp _ hresult)) .empty)).append
      (.text rfl)
  · exact .fail _

theorem enumerationElement_nests (field : Value) : Nests (c.enumerationElement field) := by
  unfold enumerationElement
  split
  · next i =>
    have hinit : ((c.program.field ⟨i⟩).declared.elim Value.null (·.initializer)).Bracketless := by
      cases hd : (c.program.field ⟨i⟩).declared with
      | none => exact Value.bracketless_scalar _
      | some d =>
        exact hp.value ⟨.field, i⟩ (by simp [Program.parts, Program.fieldParts, hd])
    exact (declaration_nests (hp.name ⟨.field, i⟩) _).append
      (.optionally _ ((Turns.text rfl).append (exprSlot_nests hp _ hinit)))
  · exact .fail _

theorem prototypeLine_nests (t : TypeId) (d : TypeDetails) : Nests (c.prototypeLine t d) := by
  refine .ite .empty (Turns.lineBreak.append (.given fun scope hs => ?_))
  exact (Turns.append (.free (.toList_append (hp.scopeText hs) (by decide)))
    (hp.typeName_nests _)).append (.text rfl)

theorem typeHeader_nests (t : TypeId) {d : TypeDetails}
    (hd : (c.program.type t).declared = some d) : Nests (c.typeHeader t d) := by
  have hattributes : d.attributes.Bracketless :=
    hp.value t.entity (by simp [Id.entity, Program.parts, Program.typeParts, hd])
  have hqualifier : Nests (c.typeQualifier t) :=
    .ite (.ite (.given fun _ hq => .free (hp.qualifierWithin hq)) (.text rfl)) .empty
  have helements : Nests (c.enumerationElements t d) := by
    refine .between rfl (.given fun elements _ => .commaSeparated fun s hs => ?_) rfl
    obtain ⟨field, -, rfl⟩ := List.mem_map.1 hs
    exact enumerationElement_nests hp field
  refine (attributes_nests hp _ hattributes).append (.given fun _ _ => ?_)
  exact (hqualifier.append (declaration_nests (hp.name t.entity) _)).append
    (.ite (delegateSignature_nests hp t) (.ite helements
      ((Turns.text rfl).append (prototypeLine_nests hp t d))))

omit hp in
theorem members_nests {member : Value → Script} (h : ∀ v, Nests (member v)) (members : Value) :
    Nests (given members.items fun members => lines (members.map member)) := by
  refine .given fun vs _ => .concat fun s hs => ?_
  rw [List.map_map] at hs
  obtain ⟨v, -, rfl⟩ := List.mem_map.1 hs
  exact Turns.lineBreak.append (h v)

omit hp in
theorem group_nests {title : String} (ht : Free title.toList) (members : Value)
    {member : Value → Script} (h : ∀ v, Nests (member v)) : Nests (group title members member) := by
  have htitle : Nests (text ("// " ++ title)) := .free (.toList_append (by decide) ht)
  exact .ite (((Turns.lineBreak.append .lineBreak).append htitle).append (members_nests h members))
    .empty

theorem typeBody_nests (t : TypeId) (d : TypeDetails) {nested : Value → Script}
    (h : ∀ v, Nests (nested v)) : Nests (c.typeBody t d nested) := by
  refine .given fun fields _ => ?_
  have hnested : Nests (nestedGroup d.nested nested) :=
    .ite (((Turns.lineBreak.append .lineBreak).append (.text rfl)).append
      (members_nests h d.nested).indented) .empty
  exact ((((group_nests (by decide) _ (eventDeclaration_nests hp)).append
    (group_nests (by decide) _ (methodDeclaration_nests hp))).append
    (group_nests (by decide) _ (propertyDeclaration_nests hp))).append
    (group_nests (by decide) _ (fieldDeclaration_nests hp))).append hnested

theorem typeDeclarationWithin_nests (levels : Nat) (type : Value) :
    Nests (c.typeDeclarationWithin levels type) := by
  induction levels generalizing type with
  | zero => exact .fail _
  | succ levels ih =>
    refine noted_nests fun named _ => ?_
    split
    · split
      · exact .fail _
      · next hd => exact (typeHeader_nests hp _ hd).append (.ite (typeBody_nests hp _ _ ih) .empty)
    · exact .fail _

/-! ### Containers -/

omit hp in
theorem headerLine_nests {label value : String} (hl : Free label.toList) (hv : Free value.toList) :
    Nests (headerLine label value) :=
  Turns.append (.free (.toList_append (.toList_append (.toList_append (by decide) hl) (by decide))
    hv)) .lineBreak

omit hp in
theorem shownText_nests {before after : String} (hb : Free before.toList) (ha : Free after.toList)
    {value : Value} (hv : c.program.ShowsFree value) :
    Nests (c.program.shownText before value after) :=
  .given fun t ht => .free (.toList_append (.toList_append (.toList_append (by decide) hb) (hv t ht))
    ha)

omit hp in
theorem detail_nests {label : String} (hl : Free label.toList) {value : Value}
    (hv : c.program.ShowsFree value) : Nests (c.program.detail label value) :=
  .optionally _ ((shownText_nests (.toList_append hl (by decide)) (by decide) hv).append .lineBreak)

omit hp in
theorem title_nests {words : String} (hw : Free words.toList) {named : Named}
    (hn : named.name.IsFree) : Nests (title words named) :=
  Turns.append (.free hw) (declaration_nests hn _)

theorem assembly_nests {assembly : Value} (hv : assembly.Bracketless) :
    Nests (c.assembly assembly) := by
  refine noted_nests fun named hn => Turns.append (title_nests (by decide) (hp.named hv hn)) ?_
  split
  · next i _ =>
    have hversion : Nests (versionSuffix (c.program.assembly ⟨i⟩).version) := by
      have hfree := hp.detail ⟨.assembly, i⟩ _ (List.mem_cons_self ..)
      unfold versionSuffix
      split
      · next s hs =>
        rw [hs] at hfree
        exact .ite .empty (.free (.toList_append (by decide) (hfree s rfl)))
      · exact .ite (.fail _) .empty
    refine (hversion.append .lineBreak).append ?_
    split
    · next d hd =>
      have hattributes : d.attributes.Bracketless :=
        hp.value ⟨.assembly, i⟩ (by simp [Program.parts, Program.assemblyParts, hd])
      have hlocation := hp.detail ⟨.assembly, i⟩ d.location (by simp [Program.details, hd])
      refine ((attributes_nests hp _ hattributes).append
        (detail_nests (by decide) hlocation)).append (.optionally _ ?_)
      split
      · next hk => exact headerLine_nests (by decide) (Value.free_lookup (by decide) hk)
      · exact .fail _
    · exact .fail _
  · exact .fail _

theorem assemblyReference_nests {reference : Value} (hv : reference.Bracketless) :
    Nests (c.assemblyReference reference) := by
  unfold assemblyReference
  split
  · next hn =>
    refine (Turns.append (title_nests (by decide) (hp.named hv hn)) .lineBreak).append
      (.given fun version hversion => detail_nests (by decide) ?_)
    unfold versionOf at hversion
    split at hversion
    · next i _ =>
      cases hversion
      exact hp.detail ⟨.assembly, i⟩ _ (List.mem_cons_self ..)
    · next i _ =>
      split at hversion
      · next d hd =>
        cases hversion
        exact hp.detail ⟨.module, i⟩ d.version (by simp [Program.details, hd])
      · cases hversion
    · cases hversion
  · exact .fail _

theorem module_nests {module : Value} (hv : module.Bracketless) : Nests (c.module module) := by
  refine noted_nests fun named hn =>
    (Turns.append (title_nests (by decide) (hp.named hv hn)) .lineBreak).append ?_
  split
  · next d hd =>
    obtain ⟨id, -, hd⟩ := Option.bind_eq_some_iff.1 hd
    have hattributes : d.attributes.Bracketless :=
      hp.value id.entity (by simp [Id.entity, Program.parts, Program.moduleParts, hd])
    have hdetail {v : Value} (h : v ∈ [d.version, d.location, d.size]) : c.program.ShowsFree v :=
      hp.detail id.entity v (by simpa [Id.entity, Program.details, hd] using h)
    exact (((attributes_nests hp _ hattributes).append
      (detail_nests (by decide) (hdetail (by simp)))).append
      (detail_nests (by decide) (hdetail (by simp)))).append
      (.optionally _ ((shownText_nests (by decide) (by decide) (hdetail (by simp))).append
        .lineBreak))
  · exact .fail _

theorem moduleReference_nests {reference : Value} (hv : reference.Bracketless) :
    Nests (c.moduleReference reference) := by
  unfold moduleReference
  split
  · next hn => exact Turns.append (title_nests (by decide) (hp.named hv hn)) .lineBreak
  · exact .fail _

theorem resource_nests (resource : Value) : Nests (c.resource resource) := by
  unfold Context.resource
  split
  · next i =>
    have hvisibility := hp.detail ⟨.resource, i⟩ (c.program.resource ⟨i⟩).visibility
      (by simp [Program.details])
    have hlocation := hp.detail ⟨.resource, i⟩ (c.program.resource ⟨i⟩).location
      (by simp [Program.details])
    refine ((((shownText_nests (by decide) (by decide) hvisibility).append
      (declaration_nests (hp.name ⟨.resource, i⟩) _)).append .lineBreak).append (.optionally _ (.given fun size _ => ?_))).append
      (detail_nests (by decide) hlocation)
    exact headerLine_nests (by decide) (.toList_append (free_toString_nat size) (by decide))
  · exact .fail _

theorem nameSpace_nests {space : Value} (hv : space.Bracketless) : Nests (c.nameSpace space) := by
  refine noted_nests fun named hn =>
    (Turns.append (title_nests (by decide) (hp.named hv hn)) .lineBreak).append (.ite ?_ .empty)
  unfold nameSpaceBody
  split
  · refine .given fun types _ => .concat fun s hs => ?_
    obtain ⟨t, -, rfl⟩ := List.mem_map.1 hs
    exact (Turns.lineBreak.append (typeDeclarationWithin_nests hp _ t)).append .lineBreak
  · exact .fail _

/-! ### Renders -/

theorem statement_nests {v : Value} (hv : v.Bracketless) : Nests (c.statement v) := by
  unfold Context.statement
  split
  · exact .body (stmtSlot_nests hp _ hv)
  · exact ((Turns.silent rfl).append (stmtSlot_nests hp _ hv)).append (.silent rfl)

theorem entity_nests (e : Entity) : Nests (c.entity e) := by
  have hv := Program.bracketless_entity e
  unfold entity
  split
  · exact typeDeclarationWithin_nests hp _ _
  · exact Program.typeSlot_nests hp _ hv
  · exact Program.typeSlot_nests hp _ hv
  · exact fieldDeclaration_nests hp _
  · exact methodDeclaration_nests hp _
  · exact propertyDeclaration_nests hp _
  · exact eventDeclaration_nests hp _
  · exact assembly_nests hp hv
  · exact assemblyReference_nests hp hv
  · exact module_nests hp hv
  · exact moduleReference_nests hp hv
  · exact nameSpace_nests hp hv
  · exact resource_nests hp _
  · exact .fail _

theorem render_nests {v : Value} (hv : v.Bracketless) : Nests (c.render v) := by
  unfold render
  split
  · exact entity_nests hp _
  · exact Program.typeSlot_nests hp _ hv
  · exact exprSlot_nests hp _ hv
  · exact statement_nests hp hv
  · exact .fail _

omit hp

/-- The text of a run has the brackets of the script. -/
theorem scan_plainText (s : Script) :
    scan [] (Token.plainText s.outcome.tokens).toList = scan [] (s.steps.flatMap Step.chars) := by
  rw [Token.plainText, scan_layout, outcome_tokens]
  exact scan_tokens [] {} s.steps

/-- Where neither the program nor the value has brackets in its names, its literals, comments and
snippets or the details of its headers, the text of a render without a fault is nested, and the text
that was written before a fault closes no bracket that it did not open. -/
theorem brackets_nest (p : Program) (style : Style) (v : Value) (hp : p.Bracketless)
    (hv : v.Bracketless) :
    (∀ text, Context.renderText { program := p, style := style } v = .ok text → Nested text) ∧
    (∀ fault, Context.renderText { program := p, style := style } v = .error fault →
      Opened (Token.plainText (Context.render { program := p, style := style } v).outcome.tokens)) := by
  obtain ⟨r, hr, hnone⟩ := render_nests (c := { program := p, style := style }) hp hv
  have hscan := (scan_plainText _).trans hr
  refine ⟨fun text htext => ?_, fun fault _ => ?_⟩
  · unfold renderText Script.plainText at htext
    dsimp only at htext
    split at htext
    · next hf =>
      rw [outcome_fault] at hf
      split_ifs at htext
      cases htext
      rw [Nested, hscan, hnone hf]
    · cases htext
  · rw [Opened, hscan]
    rfl

/-- A method with a loop that calls a function on an argument and a text in its place. -/
theorem brackets_nest_method :
    let call := .expr (.invoke (.expr (.snippet (.ofText "Log"))) (.list
      [.expr (.coalesce (.expr (.argument (.entity ⟨.parameter, 0⟩)))
        (.expr (.literal (.ofText "none") .null)))]))
    let body := .stmt (.block (.list [.stmt (.while .null (.stmt (.block (.list
      [.stmt (.expression call), .stmt .break]))))]))
    let details : MethodDetails :=
      ⟨.null, .null, .null, .null, .null, .null, .null, .null, body, .null, .null⟩
    let p : Program := {
      methods := #[{ name := .ofText "Main", parameters := .list [.entity ⟨.parameter, 0⟩],
                     declared := some details }],
      parameters := #[{ name := .ofText "name", type := .entity ⟨.type, 0⟩ }] }
    let v := .entity ⟨.method, 0⟩
    p.Bracketless ∧ Value.Bracketless v ∧ (Context.render { program := p } v).fault = none ∧
      ∀ text, Context.renderText { program := p } v = .ok text → Nested text := by
  intro call body details p v
  have hscalar (s : Scalar) := Value.bracketless_scalar s
  have hentity (e : Entity) := Program.bracketless_entity e
  have hbody : body.Bracketless := by
    repeat' first
      | exact hscalar _
      | exact hentity _
      | exact List.forall_mem_nil _
      | refine List.forall_mem_cons.2 ⟨?_, ?_⟩
      | refine (Value.bracketless_iff _).2 ⟨(by decide : Free _), ?_⟩
      | refine (Value.bracketless_iff _).2 ⟨trivial, ?_⟩
  have hnull : Value.IsFree .null := (by decide : Free "None".toList)
  have hshows : p.ShowsFree .null := by
    rintro _ ⟨⟩
    exact hnull
  have hp : p.Bracketless := by
    refine ⟨?_, fun _ => hnull, ?_, ?_⟩
    · rintro ⟨kind, i⟩
      cases kind
      all_goals rcases i with _ | i
      all_goals first
        | exact hnull
        | exact (by decide : Free "Main".toList)
        | exact (by decide : Free "name".toList)
    · rintro ⟨kind, i⟩
      cases kind
      all_goals repeat' first
        | exact hshows
        | exact List.forall_mem_nil _
        | refine List.forall_mem_cons.2 ⟨?_, ?_⟩
    · rintro ⟨kind, i⟩
      cases kind
      all_goals rcases i with _ | i
      all_goals repeat' first
        | exact hbody
        | exact hscalar _
        | exact hentity _
        | exact List.forall_mem_nil _
        | refine List.forall_mem_cons.2 ⟨?_, ?_⟩
        | refine (Value.bracketless_iff _).2 ⟨trivial, ?_⟩
  have hf : (Context.render { program := p } v).fault = none := by rfl
  exact ⟨hp, hentity _, hf, (brackets_nest p {} v hp (hentity _)).1⟩

end Context

end Scribe
