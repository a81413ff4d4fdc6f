import Mathlib.Data.List.Basic
import Scribe.Proofs.MemberTargets

/-!
# Parameter lists of descriptions

The description of a method tells its parameters by their names, with commas between them. A last
parameter without a type is no parameter but stands for variable arguments, and is not told; where a
method takes variable arguments, three dots are one more item of the list. The comma before the dots
is there if the method has any parameters at all, so it opens the list where the only one is not told
(`Program.methodDescription_list_iff`).
-/

namespace Scribe

open Script

namespace Script

/-- The items of a list that can be written can be written alone. -/
theorem plainText_commaSeparated {items : List Script} (hi : ∀ s ∈ items, Neutral s) {t : String}
    (h : (commaSeparated items).plainText = .ok t) : ∀ s ∈ items, ∃ u, s.plainText = .ok u := by
  induction items generalizing t with
  | nil => exact nofun
  | cons first items ih =>
    obtain ⟨hfirst, hitems⟩ := List.forall_mem_cons.1 hi
    cases items with
    | nil => exact List.forall_mem_singleton.2 ⟨t, h⟩
    | cons second items =>
      have hrest := Neutral.commaSeparated hitems
      obtain ⟨⟨u, hu⟩, ⟨w, hw⟩⟩ := plainText_parts (hfirst.append (.text ", ")) hrest h
      exact List.forall_mem_cons.2
        ⟨(plainText_parts hfirst (.text ", ") hu).1, ih hitems hw⟩

/-- A name that can be written is a text, and is written as that of a declaration. -/
theorem declaration_spells {name : Value} {target : Option Target} {t : String}
    (h : (declaration name target).plainText = .ok t) : ∃ n, name = .ofText n ∧
      Spells (declaration name target) (Identifier.declared n).toList := by
  cases name with
  | scalar s =>
    cases s with
    | text n => exact ⟨n, rfl, .token rfl fun _ => rfl⟩
    | _ => cases h
  | _ => cases h

end Script

/-- A list counts as given just where it has any items. -/
theorem Value.isSet_iff_of_items {v : Value} {items : List Value} (h : v.items = .ok items) :
    v.isSet = true ↔ items ≠ [] := by
  unfold Value.items at h
  split at h <;> cases h
  · simp [Value.isSet]
  · simp [Value.isSet, Scalar.isSet]
  · simp [Value.isSet, Scalar.isSet]

namespace Program

variable (p : Program)

/-- The parameters that a description tells: all but a last one without a type. -/
inductive Told : List Value → List Value → Prop
  | all {parameters : List Value} (h : ∀ last ∈ parameters.getLast?, p.isUntyped last = false) :
    Told parameters parameters
  | sentinel {parameters : List Value} {last : Value} (h : p.isUntyped last = true) :
    Told (parameters ++ [last]) parameters

/-- How a parameter is told: by its name, escaped as that of a declaration, and as `A` where it has
none. -/
inductive ToldAs : Value → String → Prop
  | unnamed {i : Nat} (h : (p.parameter ⟨i⟩).name.isSet = false) : ToldAs (.entity ⟨.parameter, i⟩) "A"
  | named {i : Nat} {name : String} (h : (p.parameter ⟨i⟩).name = .ofText name) (hne : name ≠ "") :
    ToldAs (.entity ⟨.parameter, i⟩) (Identifier.declared name)

variable {p}

theorem told_namedParameters (parameters : List Value) :
    p.Told parameters (p.namedParameters parameters) := by
  unfold namedParameters
  split
  · next last hlast =>
    split_ifs with h
    · have hsentinel : p.Told (parameters.dropLast ++ [last]) parameters.dropLast := .sentinel h
      rwa [List.dropLast_append_getLast? last hlast] at hsentinel
    · exact .all fun last' hl => by
        rw [hlast] at hl
        cases hl
        simpa using h
  · next hlast =>
    obtain rfl := List.getLast?_eq_none_iff.1 hlast
    exact .all fun last hl => by cases hl

theorem parameterDeclaration_spells {parameter : Value} {t : String}
    (h : (p.parameterDeclaration parameter).plainText = .ok t) :
    ∃ name, p.ToldAs parameter name ∧ Spells (p.parameterDeclaration parameter) name.toList := by
  unfold parameterDeclaration at h ⊢
  split at h
  · next i =>
    obtain ⟨n, hn, hspells⟩ := declaration_spells h
    refine ⟨_, ?_, hspells⟩
    cases hset : (p.parameter ⟨i⟩).name.isSet with
    | false =>
      obtain rfl : n = "A" := by simpa [parameterName, hset, Value.ofText, eq_comm] using hn
      exact .unnamed hset
    | true =>
      rw [parameterName, if_pos hset] at hn
      refine .named hn fun hempty => ?_
      rw [hn, hempty] at hset
      cases hset
  · cases h

theorem parameterDeclarations_spell {parameters : List Value}
    (h : ∀ v ∈ parameters, ∃ t, (p.parameterDeclaration v).plainText = .ok t) :
    ∃ names, List.Forall₂ p.ToldAs parameters names ∧
      Spells (commaSeparated (parameters.map p.parameterDeclaration))
        (", ".intercalate names).toList := by
  obtain ⟨names, htold, hspells⟩ : ∃ names, List.Forall₂ p.ToldAs parameters names ∧
      List.Forall₂ Spells (parameters.map p.parameterDeclaration) (names.map String.toList) := by
    induction parameters with
    | nil => exact ⟨[], .nil, .nil⟩
    | cons v parameters ih =>
      obtain ⟨⟨t, hv⟩, hparameters⟩ := List.forall_mem_cons.1 h
      obtain ⟨name, htold, hspells⟩ := parameterDeclaration_spells hv
      obtain ⟨names, hnames, hall⟩ := ih hparameters
      exact ⟨name :: names, .cons htold hnames, .cons hspells hall⟩
  refine ⟨names, htold, ?_⟩
  rw [String.toList_intercalate]
  exact .commaSeparated hspells

/-- What is told of a list that can be written: the names, with commas between them. -/
theorem parameterList_spells {parameters : Value} {t : String}
    (h : (p.parameterList parameters).plainText = .ok t) :
    ∃ items told names, parameters.items = .ok items ∧ p.Told items told ∧
      List.Forall₂ p.ToldAs told names ∧
      Spells (p.parameterList parameters) (", ".intercalate names).toList := by
  obtain ⟨items, hitems, hlist⟩ := given_eq (plainText_eq_ok.1 h).1
  have hlist : p.parameterList parameters =
    commaSeparated ((p.namedParameters items).map p.parameterDeclaration) := hlist
  rw [hlist] at h ⊢
  have hneutral : ∀ s ∈ (p.namedParameters items).map p.parameterDeclaration, Neutral s :=
    List.forall_mem_map.2 fun v _ => (p.isName_parameterDeclaration v).neutral
  obtain ⟨names, hnames, hspells⟩ := parameterDeclarations_spell fun v hv =>
    plainText_commaSeparated hneutral h _ (List.mem_map_of_mem hv)
  exact ⟨items, _, names, hitems, told_namedParameters items, hnames, hspells⟩

/-- What stands for variable arguments is one more item of the list, unless it is the only one and
has a comma before it. -/
theorem intercalate_variadic_iff {names : List String} {variadic given : Bool}
    (h : names ≠ [] → given = true) :
    ", ".intercalate names ++ (if variadic then if given then ", ..." else "..." else "") =
        ", ".intercalate (names ++ if variadic then ["..."] else []) ↔
      ¬ (variadic = true ∧ given = true ∧ names = []) := by
  cases variadic with
  | false => simp
  | true =>
    by_cases hnames : names = []
    · subst hnames
      cases given <;> decide
    · rw [h hnames]
      simp [String.intercalate_append_of_ne_nil hnames, hnames, String.append_assoc]

theorem Told.ne_nil {parameters told : List Value} (h : p.Told parameters told) (hne : told ≠ []) :
    parameters ≠ [] := by
  cases h with
  | all => exact hne
  | sentinel => simp

/-- The only parameter is told, unless it has no type. -/
theorem Told.eq_nil_iff {parameters told : List Value} (h : p.Told parameters told) :
    parameters ≠ [] ∧ told = [] ↔ ∃ s, parameters = [s] ∧ p.isUntyped s = true := by
  cases h with
  | all h =>
    refine ⟨fun ⟨hne, hnil⟩ => absurd hnil hne, ?_⟩
    rintro ⟨s, rfl, hs⟩
    rw [h s rfl] at hs
    cases hs
  | @sentinel _ last h =>
    constructor
    · rintro ⟨-, rfl⟩
      exact ⟨last, rfl, h⟩
    · rintro ⟨s, hs, -⟩
      obtain ⟨rfl, -⟩ := List.append_eq_singleton_iff.1 hs |>.resolve_right (by simp)
      exact ⟨by simp, rfl⟩

/-! ### Descriptions of methods -/

variable (p)

/-- What stands before the parameters in the description of a method: the type of its result, the type
that it belongs to, and its name. -/
def describedHead (id : MethodId) : Script :=
  (if isConstructor (p.method id).name then ∅ else p.resultType (p.method id).result ++ text " ") ++
    p.ownerOf (p.method id).owner ++
    declaration ((p.method id).name.mapText (Identifier.ofMethod · false)) none

theorem describedHead_neutral (id : MethodId) :
    Neutral (p.describedHead id) ∧ Level (p.describedHead id) := by
  have hresult : Inline (p.resultType (p.method id).result) := by
    unfold resultType
    split_ifs
    · exact .text _
    · exact p.typeSlot_inline _
  have howner : Inline (p.ownerOf (p.method id).owner) := by
    unfold ownerOf
    split
    · exact .empty
    · exact .given fun _ _ => .text _
    · exact .fail _
  have hbefore : Inline ((if isConstructor (p.method id).name then ∅
      else p.resultType (p.method id).result ++ text " ") ++ p.ownerOf (p.method id).owner) := by
    refine .append ?_ howner
    split_ifs
    · exact .empty
    · exact .append hresult (.text _)
  have hname := isName_declaration ((p.method id).name.mapText (Identifier.ofMethod · false)) none
  exact ⟨hbefore.law.append hname.neutral, hbefore.level.append hname.level⟩

theorem parameterList_neutral (parameters : Value) : Neutral (p.parameterList parameters) := by
  unfold parameterList given
  split
  · refine .commaSeparated (List.forall_mem_map.2 fun v _ => ?_)
    exact (p.isName_parameterDeclaration v).neutral
  · exact .fail _

theorem variadicMark_spells (m : MethodSymbol) : Spells (variadicMark m)
    (if m.variadic.isSet then if m.parameters.isSet then ", ..." else "..." else "").toList := by
  unfold variadicMark
  split_ifs
  · exact .text _
  · exact .text _
  · exact .empty

/-- The parts of a description that can be written: the head, and between the parentheses the list of
parameters with what stands for variable arguments. -/
theorem methodDescription_eq {id : MethodId} {description : String}
    (h : p.methodDescription id = .ok description) :
    ∃ items told names head, (p.method id).parameters.items = .ok items ∧ p.Told items told ∧
      List.Forall₂ p.ToldAs told names ∧ (p.describedHead id).plainText = .ok head ∧
      description = head ++ "(" ++ (", ".intercalate names ++
        if (p.method id).variadic.isSet then
          if (p.method id).parameters.isSet then ", ..." else "..."
        else "") ++ ");" := by
  obtain ⟨hhead, hlevel⟩ := p.describedHead_neutral id
  have hlist := p.parameterList_neutral (p.method id).parameters
  have hmark := variadicMark_spells (p.method id)
  have hassoc (a b c : Script) : (a ++ b ++ c).plainText = (a ++ (b ++ c)).plainText :=
    plainText_congr (steps_append_assoc a b c) (by simp [Option.or_assoc])
  have hwhole : (p.describedHead id ++ (text "(" ++ (p.parameterList (p.method id).parameters ++
      (variadicMark (p.method id) ++ text ");")))).plainText = .ok description := by
    rw [← hassoc, ← hassoc, ← hassoc]
    exact h
  have hrest := hlist.append (hmark.neutral.append (.text ");"))
  -- The list can be written, so its names are known, and all that follows the head stays on its line.
  obtain ⟨-, _, htail⟩ := plainText_parts hhead ((Neutral.text "(").append hrest) hwhole
  obtain ⟨-, _, htail⟩ := plainText_parts (.text "(") hrest htail
  obtain ⟨⟨_, hwritten⟩, -⟩ := plainText_parts hlist (hmark.neutral.append (.text ");")) htail
  obtain ⟨items, told, names, hitems, htold, hnames, hspells⟩ := parameterList_spells hwritten
  have htail := (Spells.text "(").append (hspells.append (hmark.append (.text ");")))
  obtain ⟨head, hhead, hdescription⟩ := (plainText_append_level hhead hlevel htail).1 hwhole
  refine ⟨items, told, names, head, hitems, htold, hnames, hhead, hdescription.trans ?_⟩
  simp only [String.ofList_append, String.ofList_toList, String.append_assoc]

/-- What stands between the parentheses of a method's description is the list of the parameters that
are told, with `...` for variable arguments as one more item, except where the only parameter has no
type and there are variable arguments: then the list opens with a comma. -/
theorem methodDescription_list_iff {id : MethodId} {description : String}
    (h : p.methodDescription id = .ok description) :
    ∃ (parameters told : List Value) (names : List String) (head inner : String),
      (p.method id).parameters.items = .ok parameters ∧ p.Told parameters told ∧
      List.Forall₂ p.ToldAs told names ∧ (p.describedHead id).plainText = .ok head ∧
      description = head ++ "(" ++ inner ++ ");" ∧
      (inner = ", ".intercalate (names ++ if (p.method id).variadic.isSet then ["..."] else []) ↔
        ¬ ((p.method id).variadic.isSet = true ∧
          ∃ s, parameters = [s] ∧ p.isUntyped s = true)) ∧
      ((p.method id).variadic.isSet = true → (∃ s, parameters = [s] ∧ p.isUntyped s = true) →
        inner = ", ...") := by
  obtain ⟨items, told, names, head, hitems, htold, hnames, hhead, hdescription⟩ :=
    p.methodDescription_eq h
  have hgiven := Value.isSet_iff_of_items hitems
  have hnil : names = [] ↔ told = [] := by
    cases hnames <;> simp
  refine ⟨items, told, names, head, _, hitems, htold, hnames, hhead, hdescription, ?_, ?_⟩
  · have hset : names ≠ [] → (p.method id).parameters.isSet = true := fun hne =>
      hgiven.2 (htold.ne_nil (mt hnil.2 hne))
    rw [intercalate_variadic_iff hset, ← htold.eq_nil_iff, hgiven, hnil]
  · intro hvariadic hlone
    obtain ⟨hne, rfl⟩ := htold.eq_nil_iff.2 hlone
    rw [if_pos hvariadic, if_pos (hgiven.2 hne), hnil.2 rfl]
    rfl

/-- A method with a parameter, one that only stands for variable arguments, and variable arguments. -/
theorem methodDescription_list_iff_format :
    let p : Program := {
      methods := #[{
        name := .ofText "Log"
        parameters := .list [.entity ⟨.parameter, 0⟩, .entity ⟨.parameter, 1⟩]
        variadic := .scalar (.bool true) }],
      parameters := #[{ name := .ofText "new", type := .entity ⟨.type, 0⟩ }, {}],
      types := #[{ name := .ofText "String", nameSpace := .ofText "System" }] }
    p.methodDescription ⟨0⟩ = .ok "void Log(@new, ...);" ∧
      ∃ (told : List Value) (names : List String) (head : String),
        p.Told [.entity ⟨.parameter, 0⟩, .entity ⟨.parameter, 1⟩] told ∧
        List.Forall₂ p.ToldAs told names ∧ (p.describedHead ⟨0⟩).plainText = .ok head ∧
        "void Log(@new, ...);" = head ++ "(" ++ ", ".intercalate (names ++ ["..."]) ++ ");" := by
  intro p
  have h : p.methodDescription ⟨0⟩ = .ok "void Log(@new, ...);" := by decide +kernel
  obtain ⟨parameters, told, names, head, inner, hitems, htold, hnames, hhead, heq, hinner, -⟩ :=
    p.methodDescription_list_iff h
  obtain rfl : _ = parameters := Except.ok.inj hitems
  have hlone : inner = ", ".intercalate (names ++ ["..."]) := hinner.2 (by simp)
  exact ⟨h, told, names, head, htold, hnames, hhead, hlone ▸ heq⟩

/-- Where the only parameter stands for the variable arguments, the list opens with a comma. -/
theorem methodDescription_opens_with_comma :
    let p : Program := {
      methods := #[{
        name := .ofText "Log"
        parameters := .list [.entity ⟨.parameter, 0⟩]
        variadic := .scalar (.bool true) }],
      parameters := #[{ name := .ofText "rest" }] }
    p.Told [.entity ⟨.parameter, 0⟩] [] ∧
      p.methodDescription ⟨0⟩ = .ok "void Log(, ...);" ∧
      "void Log(, ...);" ≠ "void Log" ++ "(" ++ ", ".intercalate ([] ++ ["..."]) ++ ");" :=
  ⟨(.sentinel rfl : Told _ ([] ++ [_]) []), by decide +kernel, by decide⟩

end Program

end Scribe
