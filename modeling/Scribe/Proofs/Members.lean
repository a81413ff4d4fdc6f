import Scribe.Proofs.Congruence
import Scribe.Proofs.DeclarationRoles
import Scribe.Proofs.Neutral

/-!
# Members are written as if they stood alone

All declarations are neutral (`Script.Outline.neutral`), so what stands before a member changes
nothing of what it writes. A nested type is rendered with one level of nesting less to spend than a
type on its own; where it does not fault, it gives the same steps with any number of levels more
(`Context.typeDeclarationWithin_reaches`).

`Context.members_compose`: what a type writes is its header and its groups of members, and what a
namespace writes is its header and its types, each member with the tokens that it has alone.
-/

namespace Scribe

namespace Script

variable {a b s : Script}

/-- Declarations are neutral. -/
theorem Outline.neutral (h : Outline s) : Neutral s := by
  induction h with
  | code h => exact h.law
  | name h => exact h.neutral
  | log entry => exact .log entry
  | append _ _ ha hb => exact ha.append hb
  | indented _ h => exact h.indented

theorem Outline.written_append (ha : Outline a) (hb : Outline b) (hf : (a ++ b).fault = none) :
    (a ++ b).written = a.written ++ b.written :=
  Neutral.written_append ha.neutral hb.neutral (fault_append_eq_none.1 hf).1

/-- What members on lines of their own write. -/
theorem written_lines {l : List Script} (h : ∀ s ∈ l, Outline s) (hf : (lines l).fault = none) :
    (lines l).written = l.flatMap (.lineBreak :: ·.written) ∧ ∀ s ∈ l, s.fault = none := by
  induction l with
  | nil => exact ⟨rfl, nofun⟩
  | cons s l ih =>
    have hs := h s (List.mem_cons_self ..)
    have hl : ∀ t ∈ l, Outline t := fun t ht => h t (List.mem_cons_of_mem _ ht)
    have he : lines (s :: l) = lineBreak ++ s ++ lines l := rfl
    rw [he] at hf ⊢
    obtain ⟨hfs, hfl⟩ := fault_append_eq_none.1 hf
    obtain ⟨hwl, hnone⟩ := ih hl hfl
    rw [Outline.written_append (.append .lineBreak hs) (.lines hl) hf,
      Outline.written_append .lineBreak hs hfs, hwl]
    exact ⟨rfl, List.forall_mem_cons.2 ⟨(fault_append_eq_none.1 hfs).2, hnone⟩⟩

/-- Where the first script does not fault, the second takes the same steps. -/
def Reaches (a b : Script) : Prop := a.fault = none → b.steps = a.steps ∧ b.fault = none

theorem Reaches.congruence : Congruence Reaches where
  empty _ := ⟨rfl, rfl⟩
  step _ _ := ⟨rfl, rfl⟩
  fail _ := nofun
  append ha hb hf := by
    obtain ⟨hfa, hfb⟩ := fault_append_eq_none.1 hf
    obtain ⟨hsa, hfa'⟩ := ha hfa
    obtain ⟨hsb, hfb'⟩ := hb hfb
    rw [steps_append_of_none hfa, steps_append_of_none hfa', hsa, hsb]
    exact ⟨rfl, fault_append_eq_none.2 ⟨hfa', hfb'⟩⟩
  delayed h := h

theorem Reaches.written (h : Reaches a b) (hf : a.fault = none) : b.written = a.written := by
  rw [Script.written, Script.written, outcome_tokens, outcome_tokens, tokens, tokens, events, events,
    (h hf).1]

end Script

open Script

/-! ### Groups -/

/-- The members that a slot lists. -/
def Value.members : Value → List Value
  | .list items => items
  | _ => []

/-- Items that do not start with a scalar are those of a list. -/
theorem Value.items_eq_members {v : Value} {items : List Value} (h : v.items = .ok items)
    (hstray : ∀ s rest, items ≠ .scalar s :: rest) : items = v.members := by
  have stray {α : Type} (l : List α) (f : α → Scalar) (hl : l.map (Value.scalar ∘ f) = items) :
      items = [] := by
    cases l with
    | nil => exact hl.symm
    | cons x l => exact absurd hl.symm (hstray _ _)
  cases v with
  | list items => cases h; rfl
  | scalar s =>
    cases s with
    | text t => exact stray t.toList (fun ch => .text ch.toString) (Except.ok.inj h)
    | bytes b => exact stray b (fun n => .int n.toNat) (Except.ok.inj h)
    | _ => cases h
  | _ => cases h

namespace Token

/-- A group of members under its title, if there are any: each on a line of its own. -/
def titled (title : String) (members : List (List Token)) : List Token :=
  if members.isEmpty then []
  else [.lineBreak, .lineBreak, .text ("// " ++ title)] ++ members.flatMap (.lineBreak :: ·)

/-- A group of members one level in. -/
def titledInside (title : String) (members : List (List Token)) : List Token :=
  if members.isEmpty then []
  else [.lineBreak, .lineBreak, .text ("// " ++ title), .indent] ++
    members.flatMap (.lineBreak :: ·) ++ [.outdent]

end Token

namespace Script

variable {members : Value} {member : Value → Script}

/-- What can be given as members, where no scalar can be one, is listed. -/
theorem given_members {next : List Value → Script}
    (hstray : ∀ s vs, (next (.scalar s :: vs)).fault ≠ none)
    (hf : (given members.items next).fault = none) :
    members.items = .ok members.members ∧ given members.items next = next members.members := by
  obtain ⟨vs, hvs, he⟩ := given_eq hf
  have hm : vs = members.members := by
    refine Value.items_eq_members hvs fun s rest hr => hstray s rest ?_
    rw [← hr, ← he]
    exact hf
  rw [← hm]
  exact ⟨hvs, he⟩

theorem lines_scalar (hstray : ∀ s, (member (.scalar s)).fault ≠ none) (s : Scalar)
    (vs : List Value) : (lines ((.scalar s :: vs).map member)).fault ≠ none := by
  intro h
  have he : lines ((Value.scalar s :: vs).map member) =
    lineBreak ++ member (.scalar s) ++ lines (vs.map member) := rfl
  rw [he] at h
  exact hstray s (fault_append_eq_none.1 (fault_append_eq_none.1 h).1).2

theorem written_members (hstray : ∀ s, (member (.scalar s)).fault ≠ none)
    (h : ∀ v, Outline (member v))
    (hf : (given members.items fun vs => lines (vs.map member)).fault = none) :
    (given members.items fun vs => lines (vs.map member)).written =
        (members.members.map fun v => (member v).written).flatMap (.lineBreak :: ·) ∧
      ∀ v ∈ members.members, (member v).fault = none := by
  obtain ⟨-, he⟩ := given_members (lines_scalar hstray) hf
  rw [he] at hf ⊢
  have hall : ∀ s ∈ members.members.map member, Outline s := by
    intro s hs
    obtain ⟨v, -, rfl⟩ := List.mem_map.1 hs
    exact h v
  obtain ⟨hw, hnone⟩ := written_lines hall hf
  refine ⟨?_, fun v hv => hnone _ (List.mem_map_of_mem hv)⟩
  rw [hw, List.flatMap_map, List.flatMap_map]

/-- A slot that lists members counts as given just where it has some. -/
theorem isSet_of_items (h : members.items = .ok members.members) :
    members.isSet = !members.members.isEmpty := by
  cases members with
  | list items => rfl
  | scalar s =>
    cases s with
    | text t =>
      have ht : t = "" := by simpa [Value.items, Value.members] using h
      rw [ht]
      rfl
    | bytes b =>
      have hb : b = [] := by simpa [Value.items, Value.members] using h
      rw [hb]
      rfl
    | _ => cases h
  | _ => cases h

theorem members_of_not_isSet (h : ¬ members.isSet = true) : members.members = [] := by
  cases members with
  | list items => simpa [Value.isSet, Value.members] using h
  | _ => rfl

/-- A slot that is given lists members, if what it lists can be written. -/
theorem written_isEmpty (hset : members.isSet = true)
    (hstray : ∀ s, (member (.scalar s)).fault ≠ none)
    (hf : (given members.items fun vs => lines (vs.map member)).fault = none) :
    (members.members.map fun v => (member v).written).isEmpty = false := by
  simpa [hset] using (isSet_of_items (given_members (lines_scalar hstray) hf).1).symm

theorem outline_title (title : String) : Outline (lineBreak ++ lineBreak ++ text title) :=
  .append (.append .lineBreak .lineBreak) (.text title)

theorem written_group (title : String) (hstray : ∀ s, (member (.scalar s)).fault ≠ none)
    (h : ∀ v, Outline (member v)) (hf : (group title members member).fault = none) :
    (group title members member).written =
      Token.titled title (members.members.map fun v => (member v).written) := by
  unfold group at hf ⊢
  split_ifs at hf ⊢ with hset
  · have hm := (fault_append_eq_none.1 hf).2
    rw [(outline_title _).written_append (.members h members) hf, (written_members hstray h hm).1,
      Token.titled, written_isEmpty hset hstray hm]
    rfl
  · rw [members_of_not_isSet hset]
    rfl

theorem written_nestedGroup (hstray : ∀ s, (member (.scalar s)).fault ≠ none)
    (h : ∀ v, Outline (member v)) (hf : (nestedGroup members member).fault = none) :
    (nestedGroup members member).written =
        Token.titledInside "Nested Types" (members.members.map fun v => (member v).written) ∧
      ∀ v ∈ members.members, (member v).fault = none := by
  unfold nestedGroup at hf ⊢
  split_ifs at hf ⊢ with hset
  · have hm := (fault_append_eq_none.1 hf).2
    rw [fault_indented] at hm
    obtain ⟨hw, hnone⟩ := written_members hstray h hm
    rw [(outline_title _).written_append (.indented (.members h members)) hf,
      Neutral.written_indented (Outline.members h members).neutral hm, hw, Token.titledInside,
      written_isEmpty hset hstray hm]
    exact ⟨rfl, hnone⟩
  · rw [members_of_not_isSet hset]
    exact ⟨rfl, nofun⟩

end Script

/-! ### Types and namespaces -/

namespace Program

/-- Only an entity has a name that leads to it. -/
theorem eq_entity_of_named (p : Program) {v name : Value} {e : Entity}
    (h : p.named? v = some ⟨.entity e, name⟩) : v = .entity e := by
  unfold named? at h
  split at h <;> cases h
  rfl

/-- The fields of a type that are written: all but the backing field of an enumeration. -/
def writtenFields (p : Program) (t : TypeId) (d : TypeDetails) : List Value :=
  d.fields.members.filter fun field => (p.isBackingField t field).toOption == some false

theorem fieldsWithoutBacking_eq (p : Program) (t : TypeId) {fields written : List Value}
    (h : p.fieldsWithoutBacking t fields = .ok written) :
    written = fields.filter fun field => (p.isBackingField t field).toOption == some false := by
  induction fields generalizing written with
  | nil => cases h; rfl
  | cons field fields ih =>
    rw [fieldsWithoutBacking] at h
    obtain ⟨isBacking, hb, h⟩ := Except.bind_eq_ok h
    obtain ⟨rest, hr, h⟩ := Except.bind_eq_ok h
    cases isBacking <;> cases h <;> simp [hb, Except.toOption, ih hr]

theorem ownFields_eq (p : Program) (t : TypeId) {d : TypeDetails} {written : List Value}
    (h : p.ownFields t d = .ok written) : written = p.writtenFields t d := by
  obtain ⟨fields, hi, hf⟩ := Except.bind_eq_ok h
  have hm : fields = d.fields.members := by
    refine Value.items_eq_members hi ?_
    rintro s rest rfl
    cases hf
  rw [writtenFields, ← hm]
  exact p.fieldsWithoutBacking_eq t hf

end Program

namespace Context

variable (c : Context)

theorem noted_reaches (kind : String) (v : Value) {next next' : Named → Script}
    (h : ∀ named, Reaches (next named) (next' named)) :
    Reaches (c.noted kind v next) (c.noted kind v next') := by
  have hr := Reaches.congruence
  unfold noted
  split
  · exact hr.given _ fun name => hr.after _ (h _)
  · exact hr.fail _

/-- A type that is written with some levels of nesting to spend is written alike with one more. -/
theorem typeDeclarationWithin_reaches (levels : Nat) (v : Value) :
    Reaches (c.typeDeclarationWithin levels v) (c.typeDeclarationWithin (levels + 1) v) := by
  have hr := Reaches.congruence
  induction levels generalizing v with
  | zero => exact nofun
  | succ levels ih =>
    refine c.noted_reaches _ v fun named => ?_
    split
    · split
      · exact hr.fail _
      · refine hr.after _ ?_
        split_ifs
        · exact hr.given _ fun fields => hr.after _ (hr.nestedGroup fun _ _ v _ => ih v)
        · exact hr.empty
    · exact hr.fail _

/-- What stands in place of a type faults. -/
theorem typeDeclarationWithin_scalar (levels : Nat) (s : Scalar) :
    (c.typeDeclarationWithin levels (.scalar s)).fault ≠ none := by
  cases levels with
  | zero => exact nofun
  | succ levels => exact nofun

theorem written_typeBody (t : TypeId) (d : TypeDetails) (levels : Nat)
    (hf : (c.typeBody t d (c.typeDeclarationWithin levels)).fault = none) :
    (c.typeBody t d (c.typeDeclarationWithin levels)).written =
        Token.titled "Events" (d.events.members.map fun v => (c.eventDeclaration v).written) ++
        Token.titled "Methods" (d.methods.members.map fun v => (c.methodDeclaration v).written) ++
        Token.titled "Properties"
          (d.properties.members.map fun v => (c.propertyDeclaration v).written) ++
        Token.titled "Fields"
          ((c.program.writtenFields t d).map fun v => (c.fieldDeclaration v).written) ++
        Token.titledInside "Nested Types"
          (d.nested.members.map fun v => (c.typeDeclarationWithin levels v).written) ∧
      ∀ v ∈ d.nested.members, (c.typeDeclarationWithin levels v).fault = none := by
  obtain ⟨fields, hfields, he⟩ := given_eq hf
  unfold typeBody
  rw [typeBody, he] at hf
  rw [he, ← c.program.ownFields_eq t hfields]
  have hevents := Outline.group "Events" d.events c.eventDeclaration_outline
  have hmethods := Outline.group "Methods" d.methods c.methodDeclaration_outline
  have hproperties := Outline.group "Properties" d.properties c.propertyDeclaration_outline
  have hown := Outline.group "Fields" (.list fields) c.fieldDeclaration_outline
  have hnested := Outline.nestedGroup d.nested (c.typeDeclarationWithin_outline levels)
  obtain ⟨hf₄, hfn⟩ := fault_append_eq_none.1 hf
  obtain ⟨hf₃, hff⟩ := fault_append_eq_none.1 hf₄
  obtain ⟨hf₂, hfp⟩ := fault_append_eq_none.1 hf₃
  obtain ⟨hfe, hfm⟩ := fault_append_eq_none.1 hf₂
  obtain ⟨hwn, hnone⟩ := written_nestedGroup (c.typeDeclarationWithin_scalar levels)
    (c.typeDeclarationWithin_outline levels) hfn
  rw [Outline.written_append (.append (.append (.append hevents hmethods) hproperties) hown) hnested hf,
    Outline.written_append (.append (.append hevents hmethods) hproperties) hown hf₄,
    Outline.written_append (.append hevents hmethods) hproperties hf₃,
    Outline.written_append hevents hmethods hf₂,
    written_group _ (by intro; exact nofun) c.eventDeclaration_outline hfe,
    written_group _ (by intro; exact nofun) c.methodDeclaration_outline hfm,
    written_group _ (by intro; exact nofun) c.propertyDeclaration_outline hfp,
    written_group _ (by intro; exact nofun) c.fieldDeclaration_outline hff, hwn]
  exact ⟨rfl, hnone⟩

/-- What a type whose members are shown writes, and that its nested types can stand alone. -/
theorem written_typeDeclaration {i : Nat} {d : TypeDetails}
    (hd : (c.program.type ⟨i⟩).declared = some d) (hshow : c.showsBody ⟨i⟩ = true)
    (hf : (c.typeDeclaration (.entity ⟨.type, i⟩)).fault = none) :
    (c.typeDeclaration (.entity ⟨.type, i⟩)).written =
        (c.typeHeader ⟨i⟩ d).written ++
        Token.titled "Events" (d.events.members.map fun v => (c.eventDeclaration v).written) ++
        Token.titled "Methods" (d.methods.members.map fun v => (c.methodDeclaration v).written) ++
        Token.titled "Properties"
          (d.properties.members.map fun v => (c.propertyDeclaration v).written) ++
        Token.titled "Fields"
          ((c.program.writtenFields ⟨i⟩ d).map fun v => (c.fieldDeclaration v).written) ++
        Token.titledInside "Nested Types"
          (d.nested.members.map fun v => (c.typeDeclaration v).written) ∧
      ∀ v ∈ d.nested.members, (c.typeDeclaration v).fault = none := by
  obtain ⟨name, hname, he⟩ := given_eq hf
  have hwhole : c.typeDeclaration (.entity ⟨.type, i⟩) = step (.log (.declaration "type" name)) ++
      (c.typeHeader ⟨i⟩ d ++ c.typeBody ⟨i⟩ d (c.typeDeclarationWithin c.program.types.size)) := by
    refine Eq.trans he ?_
    simp only [hd, hshow, if_true]
  rw [hwhole] at hf ⊢
  have hbody := c.typeBody_outline ⟨i⟩ d (c.typeDeclarationWithin_outline c.program.types.size)
  have hheader := c.typeHeader_outline ⟨i⟩ d
  have hfin := (fault_append_eq_none.1 hf).2
  obtain ⟨hw, hnone⟩ := c.written_typeBody ⟨i⟩ d _ (fault_append_eq_none.1 hfin).2
  have hreach (v : Value) := c.typeDeclarationWithin_reaches c.program.types.size v
  have halone : (d.nested.members.map fun v => (c.typeDeclaration v).written) =
      d.nested.members.map fun v => (c.typeDeclarationWithin c.program.types.size v).written :=
    List.map_congr_left fun v hv => (hreach v).written (hnone v hv)
  refine ⟨?_, fun v hv => (hreach v (hnone v hv)).2⟩
  rw [Outline.written_append (.log _) (.append hheader hbody) hf,
    hheader.written_append hbody hfin, hw, halone]
  simp only [List.append_assoc]
  rfl

/-- What the types of a namespace write, each between line breaks. -/
theorem written_nameSpaceTypes {types : List Value}
    (hf : (concat (types.map fun t => lineBreak ++ c.typeDeclaration t ++ lineBreak)).fault = none) :
    (concat (types.map fun t => lineBreak ++ c.typeDeclaration t ++ lineBreak)).written =
      types.flatMap fun t => .lineBreak :: (c.typeDeclaration t).written ++ [.lineBreak] := by
  induction types with
  | nil => rfl
  | cons t types ih =>
    have ht := c.typeDeclaration_outline t
    obtain ⟨hft, hfr⟩ := fault_append_eq_none.1 hf
    have hfl := (fault_append_eq_none.1 hft).1
    show (lineBreak ++ c.typeDeclaration t ++ lineBreak ++ concat _).written = _
    rw [Outline.written_append (.append (.append .lineBreak ht) .lineBreak)
        (c.nameSpaceTypes_outline types) hf, ih hfr,
      Outline.written_append (.append .lineBreak ht) .lineBreak hft,
      Outline.written_append .lineBreak ht hfl, List.flatMap_cons]
    rfl

/-- What a namespace whose types are shown writes. -/
theorem written_nameSpace {i : Nat} (hshow : c.style.showNameSpaceBody = true)
    (hf : (c.nameSpace (.entity ⟨.nameSpace, i⟩)).fault = none) :
    ∃ name, (c.program.nameSpace ⟨i⟩).name = .scalar name ∧
      (c.nameSpace (.entity ⟨.nameSpace, i⟩)).written =
        [.text "// Namespace ", .declaration (name.mapText Identifier.declared)
          (some (.entity ⟨.nameSpace, i⟩)), .lineBreak] ++
        (c.program.nameSpace ⟨i⟩).types.members.flatMap fun t =>
          .lineBreak :: (c.typeDeclaration t).written ++ [.lineBreak] := by
  obtain ⟨name, hname, he⟩ := given_eq hf
  have hscalar : (c.program.nameSpace ⟨i⟩).name = .scalar name := by
    change (c.program.nameSpace ⟨i⟩).name.asName = .ok name at hname
    cases hv : (c.program.nameSpace ⟨i⟩).name with
    | scalar s => rw [hv] at hname; cases hname; rfl
    | _ => rw [hv] at hname; cases hname
  have hwhole : c.nameSpace (.entity ⟨.nameSpace, i⟩) =
      step (.log (.declaration "namespace" name)) ++
        (Context.title "// Namespace " ⟨.entity ⟨.nameSpace, i⟩, .scalar name⟩ ++ lineBreak ++
          c.nameSpaceBody (.entity ⟨.nameSpace, i⟩)) := by
    refine Eq.trans he ?_
    simp only [hshow, if_true, Program.nameOf, hscalar]
  rw [hwhole] at hf ⊢
  have hfin := (fault_append_eq_none.1 hf).2
  have hfbody := (fault_append_eq_none.1 hfin).2
  have hstray (s : Scalar) (vs : List Value) : (concat ((.scalar s :: vs).map fun t =>
      lineBreak ++ c.typeDeclaration t ++ lineBreak)).fault ≠ none := nofun
  obtain ⟨-, hbody⟩ := given_members hstray hfbody
  change c.nameSpaceBody (.entity ⟨.nameSpace, i⟩) = _ at hbody
  rw [hbody] at hf hfin hfbody ⊢
  have htitle : Outline (Context.title "// Namespace " ⟨.entity ⟨.nameSpace, i⟩, .scalar name⟩ ++
      lineBreak) := .append (title_outline _ _) .lineBreak
  have htypes := c.nameSpaceTypes_outline (c.program.nameSpace ⟨i⟩).types.members
  refine ⟨name, hscalar, ?_⟩
  rw [Outline.written_append (.log _) (.append htitle htypes) hf,
    htitle.written_append htypes hfin, c.written_nameSpaceTypes hfbody]
  rfl

/-- What a declared type writes that is no delegate and no enumeration, and whose members are shown,
is its header and, group by group, its members, each with the tokens that it writes on its own; and
the types nested in it can be written on their own, so that the same holds of them in turn. What a
namespace writes whose types are shown is its header line and its types, each between line breaks
and with the tokens that it writes on its own. -/
theorem members_compose :
    (∀ i d, (c.program.type ⟨i⟩).declared = some d → c.program.isDelegate ⟨i⟩ = false →
      c.program.isEnumeration ⟨i⟩ = false → c.style.showTypeBody = true →
      (c.typeDeclaration (.entity ⟨.type, i⟩)).fault = none →
      (c.typeDeclaration (.entity ⟨.type, i⟩)).written =
        (c.typeHeader ⟨i⟩ d).written ++
        Token.titled "Events" (d.events.members.map fun v => (c.eventDeclaration v).written) ++
        Token.titled "Methods" (d.methods.members.map fun v => (c.methodDeclaration v).written) ++
        Token.titled "Properties"
          (d.properties.members.map fun v => (c.propertyDeclaration v).written) ++
        Token.titled "Fields"
          ((c.program.writtenFields ⟨i⟩ d).map fun v => (c.fieldDeclaration v).written) ++
        Token.titledInside "Nested Types"
          (d.nested.members.map fun v => (c.typeDeclaration v).written) ∧
      ∀ v ∈ d.nested.members, (c.typeDeclaration v).fault = none) ∧
    (∀ i, c.style.showNameSpaceBody = true →
      (c.nameSpace (.entity ⟨.nameSpace, i⟩)).fault = none →
      ∃ name, (c.program.nameSpace ⟨i⟩).name = .scalar name ∧
        (c.nameSpace (.entity ⟨.nameSpace, i⟩)).written =
          [.text "// Namespace ", .declaration (name.mapText Identifier.declared)
            (some (.entity ⟨.nameSpace, i⟩)), .lineBreak] ++
          (c.program.nameSpace ⟨i⟩).types.members.flatMap fun t =>
            .lineBreak :: (c.typeDeclaration t).written ++ [.lineBreak]) := by
  refine ⟨fun i d hd hdelegate henum hshow hf => ?_, fun i hshow hf => c.written_nameSpace hshow hf⟩
  exact c.written_typeDeclaration hd (by simp [showsBody, hshow, hdelegate, henum]) hf

/-- A type with a method that ends behind a label, and a type nested in it with the same method, in
a namespace. -/
theorem members_compose_nested :
    let body := .stmt (.block (.list [.stmt (.labeled 0 (.ofText "end") (.stmt (.return .null)))]))
    let method : MethodDetails :=
      ⟨.null, .null, .null, .null, .null, .null, .null, .null, body, .null, .null⟩
    let inner : TypeDetails := ⟨.null, .null, .null, .null, .null, .null, .list [],
      .list [.entity ⟨.method, 0⟩], .list [], .list [], .list [], .null⟩
    let outer : TypeDetails := { inner with nested := .list [.entity ⟨.type, 1⟩] }
    let c : Context := {
      program := {
        types := #[{ nameSpace := .ofText "", name := .ofText "A", declared := some outer },
          { nameSpace := .ofText "", name := .ofText "B", owner := .entity ⟨.type, 0⟩,
            declared := some inner }],
        methods := #[{ name := .ofText "M", parameters := .list [], declared := some method }],
        nameSpaces := #[{ name := .ofText "N", types := .list [.entity ⟨.type, 0⟩] }] },
      style := { showNameSpaceBody := true, showTypeBody := true } }
    (c.typeDeclaration (.entity ⟨.type, 0⟩)).fault = none ∧
      (c.typeDeclaration (.entity ⟨.type, 0⟩)).written =
        (c.typeHeader ⟨0⟩ outer).written ++
          Token.titled "Methods" [(c.methodDeclaration (.entity ⟨.method, 0⟩)).written] ++
          Token.titledInside "Nested Types" [(c.typeDeclaration (.entity ⟨.type, 1⟩)).written] ∧
      (c.nameSpace (.entity ⟨.nameSpace, 0⟩)).fault = none ∧
      (c.nameSpace (.entity ⟨.nameSpace, 0⟩)).written =
        [.text "// Namespace ", .declaration (Scalar.mapText Identifier.declared (.text "N"))
          (some (.entity ⟨.nameSpace, 0⟩)), .lineBreak] ++
          (.lineBreak :: (c.typeDeclaration (.entity ⟨.type, 0⟩)).written ++ [.lineBreak]) := by
  intro body method inner outer c
  obtain ⟨htype, hspace⟩ := c.members_compose
  have hf : (c.typeDeclaration (.entity ⟨.type, 0⟩)).fault = none := by rfl
  have hn : (c.nameSpace (.entity ⟨.nameSpace, 0⟩)).fault = none := by rfl
  obtain ⟨hw, -⟩ := htype 0 outer rfl (by decide) (by decide) rfl hf
  obtain ⟨name, hname, hwn⟩ := hspace 0 rfl hn
  cases hname
  exact ⟨hf, by simpa [Token.titled, Value.members, outer, inner, Program.writtenFields] using hw, hn,
    hwn.trans (by rw [show (c.program.nameSpace ⟨0⟩).types.members = [.entity ⟨.type, 0⟩] from rfl,
      List.flatMap_singleton])⟩

end Context

end Scribe
