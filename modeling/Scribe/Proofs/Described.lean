import Mathlib.Data.List.Perm.Subperm
import Mathlib.Tactic.Common
import Scribe.Proofs.Completes

/-!
# Types and members that can be written

`Program.Known`: a type of a known kind, with its generic arguments resolved and its names in place.
`Program.DescribesMethod` and its siblings: a member whose description can be written. From these it
follows that the scripts of types, descriptions and names complete.

A named type needs a chain of enclosing types that ends (`Program.RootedIn`). No type is twice on such
a chain, so it has no more links than there are types, and the search for the dotted name of a type
never stops short of its end (`RootedIn.le_size`).
-/

namespace Scribe

open Script

namespace Value

/-- The slot holds a text. -/
def IsText (v : Value) : Prop := ∃ s, v = .ofText s

/-- The slot holds a list of such values. -/
def IsListOf (P : Value → Prop) (v : Value) : Prop := ∃ items, v = .list items ∧ ∀ w ∈ items, P w

/-- The slot holds such a value unless it is empty. -/
def IfGiven (P : Value → Prop) (v : Value) : Prop := v.isNull = false → P v

/-- The slot refers to an entity of the kind. -/
def IsEntity (kind : EntityKind) (v : Value) : Prop := ∃ i, v = .entity ⟨kind, i⟩

/-- The slot holds the bounds of a dimension. Where they are written, both can be shown: an integer of
more than `digitLimit` digits cannot. -/
def IsDimension (v : Value) : Prop :=
  ∃ lower upper, v = .bounds lower upper ∧
    (lower.same (.int 0) = true ∨ upper.same (.int (-1)) = true ∨
      lower.isShowable = true ∧ upper.isShowable = true)

@[simp] theorem asText_ofText (s : String) : (ofText s).asText = .ok s := rfl

theorem IsText.mapText {v : Value} (h : v.IsText) (f : String → String) : (v.mapText f).IsText := by
  obtain ⟨s, rfl⟩ := h
  exact ⟨f s, rfl⟩

theorem IsText.declaration {v : Value} (h : v.IsText) (target : Option Target) :
    (declaration v target).Completes := by
  obtain ⟨s, rfl⟩ := h
  exact completes_declaration_text s target

theorem IsText.reference {v : Value} (h : v.IsText) (tooltip : String) (target : Target) :
    (reference v tooltip target).Completes := by
  obtain ⟨s, rfl⟩ := h
  exact completes_reference_text s tooltip target

theorem IsDimension.text {v : Value} (h : v.IsDimension) : ∃ t, v.dimensionText = .ok t := by
  obtain ⟨lower, upper, rfl, h⟩ := h
  unfold dimensionText
  rcases h with hopen | hopen | ⟨hl, hu⟩
  · exact ⟨"", by simp [hopen]⟩
  · exact ⟨"", by simp [hopen]⟩
  · simp only [Scalar.told, hl, hu, if_true]
    split_ifs <;> exact ⟨_, rfl⟩

theorem dimensionsText_ok {dimensions : Value} (h : dimensions.IsListOf IsDimension) :
    ∃ t, dimensions.dimensionsText = .ok t := by
  obtain ⟨items, rfl, hitems⟩ := h
  have htexts : ∃ texts, items.mapM dimensionText = .ok texts := by
    induction items with
    | nil => exact ⟨[], rfl⟩
    | cons d items ih =>
      obtain ⟨hd, hrest⟩ := List.forall_mem_cons.1 hitems
      obtain ⟨text, htext⟩ := hd.text
      obtain ⟨texts, ht⟩ := ih hrest
      rw [List.mapM_cons, htext, ht]
      exact ⟨_, rfl⟩
  obtain ⟨texts, ht⟩ := htexts
  exact ⟨",".intercalate texts, by simp [dimensionsText, Value.items, ht, Except.bind, Except.map]⟩

end Value

namespace Program

variable {p : Program}

/-! ### Chains of enclosing types -/

/-- The types around a type end after so many links, and the names on the way are texts. -/
inductive RootedIn (p : Program) : Nat → TypeId → Prop
  | top {t : TypeId} (owner : (p.type t).owner = .null) (nameSpace : (p.type t).nameSpace.IsText)
      (name : (p.type t).name.IsText) : RootedIn p 0 t
  | nested {links : Nat} {t : TypeId} {i : Nat} (owner : (p.type t).owner = .entity ⟨.type, i⟩)
      (name : (p.type t).name.IsText) (outer : RootedIn p links ⟨i⟩) : RootedIn p (links + 1) t

/-- The types around a type end. -/
def Rooted (p : Program) (t : TypeId) : Prop := ∃ links, p.RootedIn links t

namespace RootedIn

variable {links : Nat} {t : TypeId}

theorem name (h : p.RootedIn links t) : (p.type t).name.IsText := by
  cases h with
  | top _ _ name => exact name
  | nested _ name _ => exact name

theorem unique {n m : Nat} (h : p.RootedIn n t) (h' : p.RootedIn m t) : n = m := by
  induction h generalizing m with
  | top owner =>
    cases h' with
    | top => rfl
    | nested owner' => rw [owner] at owner'; cases owner'
  | nested owner _ _ ih =>
    cases h' with
    | top owner' => rw [owner] at owner'; cases owner'
    | nested owner' _ outer' =>
      rw [owner] at owner'
      cases owner'
      rw [ih outer']

/-- The types that have one around them, along a chain: each is in the table, and none is met twice,
since the links that are left tell them apart. -/
theorem chain {n : Nat} (h : p.RootedIn n t) : ∃ l : List Nat, l.length = n ∧ l.Nodup ∧
    ∀ i ∈ l, i < p.types.size ∧ ∃ m ≤ n, p.RootedIn m ⟨i⟩ := by
  induction h with
  | top => exact ⟨[], rfl, List.nodup_nil, List.forall_mem_nil _⟩
  | @nested links t i owner name outer ih =>
    obtain ⟨l, hlength, hnodup, hl⟩ := ih
    have hfresh : t.index ∉ l := by
      intro hmem
      obtain ⟨-, m, hm, hrooted⟩ := hl _ hmem
      have := hrooted.unique (.nested owner name outer)
      omega
    have hsize : t.index < p.types.size := by
      by_contra hout
      have hdefault : p.type t = default := by
        rw [Program.type, Array.getD_eq_getD_getElem?, Array.getElem?_eq_none (by omega)]
        rfl
      rw [hdefault] at owner
      cases owner
    refine ⟨t.index :: l, by rw [List.length_cons, hlength], List.nodup_cons.2 ⟨hfresh, hnodup⟩, ?_⟩
    refine List.forall_mem_cons.2 ⟨⟨hsize, links + 1, Nat.le_refl _, .nested owner name outer⟩, ?_⟩
    intro j hj
    obtain ⟨hin, m, hm, hrooted⟩ := hl j hj
    exact ⟨hin, m, by omega, hrooted⟩

/-- A chain has no more links than there are types. -/
theorem le_size {n : Nat} (h : p.RootedIn n t) : n ≤ p.types.size := by
  obtain ⟨l, hlength, hnodup, hl⟩ := h.chain
  have hsub : l ⊆ List.range p.types.size := fun i hi => List.mem_range.2 (hl i hi).1
  have hle := (List.subperm_of_subset hnodup hsub).length_le
  rwa [hlength, List.length_range] at hle

theorem qualifierWithin {n : Nat} (h : p.RootedIn n t) (hn : n ≤ links) :
    ∃ q, p.qualifierWithin links t = .ok q := by
  induction h generalizing links with
  | top owner nameSpace =>
    obtain ⟨s, hs⟩ := nameSpace
    unfold Program.qualifierWithin
    rw [owner]
    by_cases hset : (Value.ofText s).isSet = true
    · exact ⟨s ++ ".", by simp [Value.null, nameSpaceQualifier, hs, hset, Except.map]⟩
    · exact ⟨"", by simp [Value.null, nameSpaceQualifier, hs, hset]⟩
  | @nested m t i owner _ outer ih =>
    obtain ⟨links, rfl⟩ : ∃ k, links = k + 1 := ⟨links - 1, by omega⟩
    have hm : m ≤ links := by omega
    obtain ⟨q, hq⟩ := ih hm
    obtain ⟨s, hs⟩ := outer.name
    unfold Program.qualifierWithin
    rw [owner]
    exact ⟨q ++ s ++ ".", by simp [hq, hs, Except.bind, Except.map]⟩

end RootedIn

variable {t : TypeId}

theorem Rooted.scope (h : p.Rooted t) : ∃ s, p.scope t = .ok (.ofText s) := by
  obtain ⟨links, h⟩ := h
  obtain ⟨q, hq⟩ := h.qualifierWithin h.le_size
  obtain ⟨s, hs⟩ := h.name
  have hq' : p.qualifier t = .ok q := hq
  exact ⟨q ++ s, by simp [Program.scope, hq', hs, Value.ofText, Except.bind]⟩

theorem Rooted.scopeText (h : p.Rooted t) : ∃ s, p.scopeText t = .ok s := by
  obtain ⟨s, hs⟩ := h.scope
  exact ⟨s, by rw [Program.scopeText, hs]; rfl⟩

/-! ### Types -/

/-- The type and the definition that it instantiates have dotted names. -/
def NamesType (p : Program) (t : TypeId) : Prop :=
  p.Rooted t ∧ ∃ definition, p.definition t = .ok definition ∧ p.Rooted definition

/-- The slot refers to a type that has a name. -/
def IsNamedType (p : Program) (v : Value) : Prop := ∃ i, v = .entity ⟨.type, i⟩ ∧ p.NamesType ⟨i⟩

/-- A type of one of the known kinds, with every generic argument in it resolved. -/
inductive Known (p : Program) : Value → Prop
  | named {v : Value} (h : p.IsNamedType v) : Known p v
  | parameter {i : Nat} (name : (p.genericParameter ⟨i⟩).name.IsText) :
      Known p (.entity ⟨.genericParameter, i⟩)
  | array {element dimensions : Value} (h : Known p element)
      (hd : dimensions.IsListOf Value.IsDimension) : Known p (.type (.array element dimensions))
  | pointer {element : Value} (h : Known p element) : Known p (.type (.pointer element))
  | reference {element : Value} (h : Known p element) : Known p (.type (.reference element))
  | required {element modifier : Value} (h : Known p element) (hm : p.IsNamedType modifier) :
      Known p (.type (.required element modifier))
  | optional {element modifier : Value} (h : Known p element) (hm : p.IsNamedType modifier) :
      Known p (.type (.optional element modifier))
  | functionPointer {result : Value} {parameters : List Value} (h : Known p result)
      (hp : ∀ v ∈ parameters, Known p v) :
      Known p (.type (.functionPointer result (.list parameters)))
  | argument {position target : Value} (h : Known p target) :
      Known p (.type (.genericArgument position target))

theorem typeSlots_eq (vs : List Value) : p.typeSlots vs = vs.map p.typeSlot := by
  induction vs with
  | nil => rfl
  | cons v vs ih => rw [typeSlots, ih, List.map_cons]

theorem isText_shownName (t : TypeId) {scope : Scalar} (h : scope.isText = true) :
    (p.shownName t scope).isText = true := by
  unfold shownName
  split
  · rfl
  · rwa [Step.isText_mapText]

theorem IsNamedType.typeName {v : Value} (h : p.IsNamedType v) : (p.typeName v).Completes := by
  obtain ⟨i, rfl, -, definition, hd, hr⟩ := h
  obtain ⟨s, hs⟩ := hr.scope
  rw [Program.typeName, hd, completes_given_ok, hs]
  exact (completes_token _).2 (isText_shownName _ rfl)

theorem IsNamedType.typeSlot {v : Value} (h : p.IsNamedType v) : (p.typeSlot v).Completes := by
  obtain ⟨i, rfl, hi⟩ := h
  exact IsNamedType.typeName ⟨i, rfl, hi⟩

theorem Known.isNull {v : Value} (h : p.Known v) : v.isNull = false := by
  cases h with
  | named h => obtain ⟨i, rfl, -⟩ := h; rfl
  | _ => rfl

theorem Known.typeSlot {v : Value} (h : p.Known v) : (p.typeSlot v).Completes := by
  induction h with
  | named h => exact h.typeSlot
  | parameter name =>
    obtain ⟨s, hs⟩ := name
    rw [Program.typeSlot, hs]
    exact completes_content_text s
  | array h hd ih =>
    obtain ⟨t, ht⟩ := Value.dimensionsText_ok hd
    simp [Program.typeSlot, typeTree, ih, ht]
  | pointer h ih | reference h ih => simp [Program.typeSlot, typeTree, ih]
  | required h hm ih | optional h hm ih => simp [Program.typeSlot, typeTree, ih, hm.typeName]
  | functionPointer h hp ih ihp =>
    simpa [Program.typeSlot, typeTree, h.isNull, ih, typeItems, typeSlots_eq] using ihp
  | argument h ih => simp [Program.typeSlot, typeTree, h.isNull, ih]

/-! ### Members -/

/-- The slot refers to a parameter that has a name. -/
def IsParameter (p : Program) (v : Value) : Prop :=
  ∃ i, v = .entity ⟨.parameter, i⟩ ∧ (p.parameter ⟨i⟩).name.IsText

theorem isText_parameterName {name : Value} (h : name.IsText) : (parameterName name).IsText := by
  unfold parameterName
  split_ifs
  · exact h
  · exact ⟨"A", rfl⟩

theorem IsParameter.declaration {v : Value} (h : p.IsParameter v) :
    (p.parameterDeclaration v).Completes := by
  obtain ⟨i, rfl, name⟩ := h
  exact (isText_parameterName name).declaration _

theorem parameterList_completes {parameters : Value} (h : parameters.IsListOf p.IsParameter) :
    (p.parameterList parameters).Completes := by
  obtain ⟨items, rfl, hitems⟩ := h
  have hsub : p.namedParameters items ⊆ items := by
    unfold namedParameters
    split
    · split_ifs
      · exact List.dropLast_subset _
      · exact List.Subset.refl _
    · exact List.nil_subset _
  rw [parameterList, Value.items, completes_given_ok, completes_commaSeparated, List.forall_mem_map]
  exact fun v hv => (hitems v (hsub hv)).declaration

theorem ownerOf_completes {owner : Value} (h : owner.IfGiven p.IsNamedType) :
    (p.ownerOf owner).Completes := by
  unfold ownerOf
  split
  · exact completes_empty
  · next i =>
    obtain ⟨_, hi, hr, -⟩ := h rfl
    cases hi
    obtain ⟨s, hs⟩ := hr.scopeText
    simp [hs]
  · next hn hi =>
    have hgiven : owner.isNull = false := Bool.eq_false_iff.2 fun h => hn (Value.isNull_iff.1 h)
    obtain ⟨i, rfl, -⟩ := h hgiven
    exact absurd rfl (hi i)

/-- The description of a field can be written. -/
structure DescribesField (p : Program) (id : FieldId) : Prop where
  name : (p.field id).name.IsText
  type : p.Known (p.field id).type
  owner : (p.field id).owner.IfGiven p.IsNamedType

/-- The description of a method can be written. That of a constructor has no result type. -/
structure DescribesMethod (p : Program) (id : MethodId) : Prop where
  name : (p.method id).name.IsText
  result : isConstructor (p.method id).name = false → (p.method id).result.IfGiven p.Known
  owner : (p.method id).owner.IfGiven p.IsNamedType
  parameters : (p.method id).parameters.IsListOf p.IsParameter

/-- The description of a property can be written. -/
structure DescribesProperty (p : Program) (id : PropertyId) : Prop where
  name : (p.property id).name.IsText
  type : p.Known (p.property id).type
  owner : (p.property id).owner.IfGiven p.IsNamedType
  parameters : (p.property id).parameters.IsListOf p.IsParameter

/-- The description of an event can be written. -/
structure DescribesEvent (p : Program) (id : EventId) : Prop where
  name : (p.event id).name.IsText
  type : p.Known (p.event id).type
  owner : (p.event id).owner.IfGiven p.IsNamedType

theorem DescribesField.description {id : FieldId} (h : p.DescribesField id) :
    ∃ t, p.fieldDescription id = .ok t := by
  unfold fieldDescription
  apply Completes.plainText
  simp [h.type.typeSlot, ownerOf_completes h.owner, h.name.declaration]

theorem DescribesMethod.description {id : MethodId} (h : p.DescribesMethod id) :
    ∃ t, p.methodDescription id = .ok t := by
  have hresult (hc : isConstructor (p.method id).name = false) :
      (p.resultType (p.method id).result).Completes := by
    unfold resultType
    split_ifs with hn
    · exact completes_text _
    · exact (h.result hc (by simpa using hn)).typeSlot
  have hvariadic : (variadicMark (p.method id)).Completes := by
    unfold variadicMark
    split_ifs <;> simp
  unfold methodDescription
  apply Completes.plainText
  simp only [completes_append, completes_text, ownerOf_completes h.owner,
    (h.name.mapText _).declaration, parameterList_completes h.parameters, hvariadic, and_true]
  split_ifs with hc
  · exact completes_empty
  · simp [hresult (by simpa using hc)]

theorem DescribesProperty.description {id : PropertyId} (h : p.DescribesProperty id) :
    ∃ t, p.propertyDescription id = .ok t := by
  unfold propertyDescription
  apply Completes.plainText
  simp only [completes_append, completes_text, h.type.typeSlot, ownerOf_completes h.owner, true_and,
    and_true]
  refine ⟨⟨⟨?_, ?_⟩, ?_⟩, ?_⟩
  · split_ifs
    · exact completes_text _
    · exact h.name.declaration _
  · split_ifs
    · simp [parameterList_completes h.parameters]
    · exact completes_empty
  · split_ifs <;> simp
  · split_ifs <;> simp

theorem DescribesEvent.description {id : EventId} (h : p.DescribesEvent id) :
    ∃ t, p.eventDescription id = .ok t := by
  unfold eventDescription
  apply Completes.plainText
  simp [h.type.typeSlot, ownerOf_completes h.owner, h.name.declaration]

/-! ### Names -/

/-- The slot refers to a field that can be described. -/
def UsesField (p : Program) (v : Value) : Prop :=
  ∃ i, v = .entity ⟨.field, i⟩ ∧ p.DescribesField ⟨i⟩

/-- The slot refers to a property that can be described. -/
def UsesProperty (p : Program) (v : Value) : Prop :=
  ∃ i, v = .entity ⟨.property, i⟩ ∧ p.DescribesProperty ⟨i⟩

/-- The slot refers to an event that can be described. -/
def UsesEvent (p : Program) (v : Value) : Prop :=
  ∃ i, v = .entity ⟨.event, i⟩ ∧ p.DescribesEvent ⟨i⟩

/-- The slot refers to a method that is called by its own name and described as it is. -/
def UsesAccessor (p : Program) (v : Value) : Prop :=
  ∃ i, v = .entity ⟨.method, i⟩ ∧ p.DescribesMethod ⟨i⟩

/-- The slot refers to a method with a name of its own, whose generic definition can be described, or
which can be described itself if it has none. -/
def UsesMethod (p : Program) (v : Value) : Prop :=
  ∃ i, v = .entity ⟨.method, i⟩ ∧ (p.method ⟨i⟩).name.IsText ∧
    (p.method ⟨i⟩).owner.IfGiven p.IsNamedType ∧
    ((p.method ⟨i⟩).generic = .null ∧ p.DescribesMethod ⟨i⟩ ∨
      p.UsesAccessor (p.method ⟨i⟩).generic)

theorem UsesField.name {v : Value} (h : p.UsesField v) : (p.fieldName v).Completes := by
  obtain ⟨i, rfl, hi⟩ := h
  obtain ⟨t, ht⟩ := hi.description
  simp [fieldName, ht, hi.name.reference]

theorem UsesProperty.name {v : Value} (h : p.UsesProperty v) : (p.memberName v).Completes := by
  obtain ⟨i, rfl, hi⟩ := h
  obtain ⟨t, ht⟩ := hi.description
  simp [memberName, propertyName, ht, hi.name.reference]

theorem UsesEvent.name {v : Value} (h : p.UsesEvent v) : (p.eventName v).Completes := by
  obtain ⟨i, rfl, hi⟩ := h
  obtain ⟨t, ht⟩ := hi.description
  simp [eventName, ht, hi.name.reference]

theorem DescribesMethod.reference {id leadsTo : MethodId} (h : p.DescribesMethod leadsTo)
    (name : (p.method id).name.IsText) : (p.methodReference id leadsTo).Completes := by
  obtain ⟨t, ht⟩ := h.description
  simp [methodReference, ht, name.reference]

theorem UsesAccessor.name {v : Value} (h : p.UsesAccessor v) : (p.accessorName v).Completes := by
  obtain ⟨i, rfl, hi⟩ := h
  exact hi.reference hi.name

theorem UsesMethod.name {v : Value} (h : p.UsesMethod v) : (p.methodName v).Completes := by
  obtain ⟨i, rfl, name, -, ⟨hg, hi⟩ | ⟨j, hg, hj⟩⟩ := h
  · rw [methodName, hg]
    exact hi.reference name
  · rw [methodName, hg]
    exact hj.reference name

/-- The owner of a member can stand before its name. -/
theorem memberOf_completes {v owner : Value} (hv : p.ownerSlot v = .ok owner)
    (h : owner.IfGiven p.IsNamedType) : (p.memberOf v).Completes := by
  rw [memberOf, hv, completes_given_ok]
  split_ifs with hn
  · exact completes_empty
  · simp [(h (by simpa using hn)).typeName]

theorem UsesField.memberOf {v : Value} (h : p.UsesField v) : (p.memberOf v).Completes := by
  obtain ⟨i, rfl, hi⟩ := h
  exact memberOf_completes rfl hi.owner

theorem UsesMethod.memberOf {v : Value} (h : p.UsesMethod v) : (p.memberOf v).Completes := by
  obtain ⟨i, rfl, -, owner, -⟩ := h
  exact memberOf_completes rfl owner

/-- A new object: where both its type and its constructor are named, the constructor is described. -/
theorem createdType_completes {type constructor : Value} (ht : p.Known type)
    (hc : type.IsEntity .type → constructor.IfGiven p.UsesAccessor) :
    (p.createdType constructor type).Completes := by
  unfold createdType
  split
  · next i =>
    split_ifs with hn
    · exact ht.typeSlot
    · obtain ⟨j, rfl, hj⟩ := hc ⟨i, rfl⟩ (by simpa using hn)
      obtain ⟨tooltip, htooltip⟩ := hj.description
      cases ht with
      | named h =>
        obtain ⟨_, hi, -, definition, hd, hr⟩ := h
        cases hi
        obtain ⟨s, hs⟩ := hr.scope
        rw [constructedType, hd, completes_given_ok, htooltip, completes_given_ok, hs]
        exact (completes_token _).2 (isText_shownName _ rfl)
  · exact ht.typeSlot

theorem accessorCall_completes (id : PropertyId) {accessor : Value} {target : Script}
    {arguments : List Script} (h : p.UsesAccessor accessor) (ht : target.Completes)
    (ha : ∀ s ∈ arguments, s.Completes) :
    (p.accessorCall id accessor target arguments).Completes := by
  have hn : accessor.isNull = false := by
    obtain ⟨i, rfl, -⟩ := h
    rfl
  simpa [accessorCall, hn, ht, h.name] using ha

end Program

end Scribe
