import Scribe.Proofs.Spelling

/-!
# One name for a type and its prototype

A type with a base is told by two lines: one defines the function that stands for the type, and one
gives the function its prototype. The first line escapes the simple name of the type and writes what
stands before it as it is; the second line writes the dotted name of the type as it is. The two names
are the same just where escaping keeps the simple name and there is a simple name to escape, or
nothing to stand before it (`Context.prototype_names_agree_iff`).
-/

namespace Scribe

open Script

namespace Identifier

variable {name : String}

/-- A name is kept at its declaration unless it is a reserved word or gives way to the alias of
constructors. -/
theorem declared_eq_self_iff :
    declared name = name ↔ isReserved name = false ∧ name ≠ ".ctor" ∧ name ≠ "..ctor" := by
  have haliased : aliasedNames.contains name = true ↔ name = ".ctor" ∨ name = "..ctor" := by
    simp [aliasedNames]
  unfold declared
  split_ifs with ha hr
  · refine iff_of_false (fun h => ?_) fun ⟨_, h, h'⟩ => (haliased.1 ha).elim h h'
    rcases haliased.1 ha with rfl | rfl <;> exact absurd h (by decide)
  · refine iff_of_false (fun h => ?_) fun h => by simp [hr] at h
    have hlength := congrArg String.length h
    simp at hlength
  · rw [haliased, not_or] at ha
    exact iff_of_true rfl ⟨by simpa using hr, ha⟩

end Identifier

namespace Program

variable {p : Program} {t : TypeId}

/-- A dotted name that more text can follow is the qualifier and the simple name. -/
theorem scopeText_eq_ok {scope : String} (h : p.scopeText t = .ok scope) :
    ∃ qualifier name, p.qualifier t = .ok qualifier ∧ (p.type t).name = .ofText name ∧
      scope = qualifier ++ name := by
  obtain ⟨found, hfound, h⟩ := Except.bind_eq_ok h
  obtain ⟨qualifier, hq, hfound⟩ := Except.bind_eq_ok hfound
  split at hfound
  · next name hname =>
    cases hfound
    cases h
    exact ⟨qualifier, name, hq, hname, rfl⟩
  · next hname =>
    -- What is no text is the dotted name by itself, and no text either.
    split_ifs at hfound
    cases hfound
    unfold Value.asText at h
    split at h
    · next name htext => exact absurd htext (hname name)
    · cases h

/-- A qualifier is empty just where the type has neither an owner nor a namespace. -/
theorem qualifier_eq_empty_iff {qualifier : String} (h : p.qualifier t = .ok qualifier) :
    qualifier = "" ↔ p.isQualified t = false := by
  have hdot (s : String) : s ++ "." ≠ "" := by simp
  unfold Program.qualifier qualifierWithin at h
  unfold isQualified
  split at h
  · next howner =>
    rw [howner]
    unfold nameSpaceQualifier at h
    split_ifs at h with hspace
    · obtain ⟨space, -, rfl⟩ := Except.map_eq_ok h
      exact iff_of_false (hdot space) (by simp [hspace])
    · cases h
      exact iff_of_true rfl (by simp [hspace, Value.isNull])
  · next i _ howner _ =>
    rw [howner]
    obtain ⟨outer, -, h⟩ := Except.bind_eq_ok h
    obtain ⟨name, -, rfl⟩ := Except.map_eq_ok h
    exact iff_of_false (hdot _) (by simp [Value.isNull])
  · cases h
  · cases h

end Program

namespace Script

variable {a b : Script} {ts us : List Token}

/-- Whatever the layout, the script starts with the given tokens, even if a fault comes later. -/
def Opens (s : Script) (ts : List Token) : Prop := ∀ l, ts <+: s.tokens l

namespace Opens

theorem before (h : Opens a ts) (b : Script) : Opens (a ++ b) ts :=
  fun l => (h l).trans (tokens_stay a b l)

theorem after (hf : a.fault = none) (ha : ∀ l, a.tokens l = ts) (h : Opens b us) :
    Opens (a ++ b) (ts ++ us) := by
  intro l
  rw [tokens_append hf, ha]
  exact (List.prefix_append_right_inj ts).2 (h _)

theorem text (s : String) : Opens (text s) [.text s] := fun _ => List.prefix_rfl

end Opens

end Script

namespace Context

variable (c : Context)

/-- The type gets a line for its prototype: it is written as a function, and has a base other than the
root of all types. -/
structure GivesPrototype (t : TypeId) (d : TypeDetails) : Prop where
  delegate : c.program.isDelegate t = false
  enumeration : c.program.isEnumeration t = false
  base : d.base.isNull = false
  interface : d.interface.isSet = false
  valueType : c.program.isValueType t = false
  object : c.program.isCoreType "Object" d.base = false

variable {c} {i : Nat} {d : TypeDetails} {qualifier name scope : String}

/-- What stands before the simple name. An empty name has nothing before it. -/
theorem typeQualifier_runs (hq : c.program.qualifier ⟨i⟩ = .ok qualifier)
    (hn : (c.program.type ⟨i⟩).name = .ofText name) :
    ∃ ts, (∀ l, Runs (c.typeQualifier ⟨i⟩) l ts l) ∧
      Token.Spell ts (if name = "" then "" else qualifier).toList := by
  have hset : (c.program.type ⟨i⟩).name.isSet = true ↔ name ≠ "" := by
    simp [hn, Value.ofText, Value.isSet, Scalar.isSet]
  have htext (s : String) :
      ∃ ts, (∀ l, Runs (text s) l ts l) ∧ Token.Spell ts s.toList :=
    ⟨_, runs_text s, .one rfl⟩
  unfold typeQualifier
  split_ifs with hqualified hset' hempty hempty
  · exact absurd hempty (hset.1 hset')
  · rw [hq]
    exact htext qualifier
  · exact htext ""
  · exact absurd (hset.2 hempty) hset'
  · exact ⟨[], fun _ => ⟨rfl, rfl, rfl⟩, .nil⟩
  · rw [(Program.qualifier_eq_empty_iff hq).2 (by simpa using hqualified)]
    exact ⟨[], fun _ => ⟨rfl, rfl, rfl⟩, .nil⟩

/-- The two lines of a type that gets a prototype, each up to what follows the name. -/
theorem typeDeclaration_opens (hd : (c.program.type ⟨i⟩).declared = some d)
    (hhidden : c.style.showAttributes = false) (hp : c.GivesPrototype ⟨i⟩ d)
    (hn : (c.program.type ⟨i⟩).name = .ofText name)
    (hq : c.program.qualifier ⟨i⟩ = .ok qualifier)
    (hs : c.program.scopeText ⟨i⟩ = .ok scope) :
    ∃ ts, ts ≠ [] ∧
      Token.Spell ts ((if name = "" then "" else qualifier) ++ Identifier.declared name).toList ∧
      Opens (c.typeDeclaration (.entity ⟨.type, i⟩)) (ts ++
        [.text " = function() \x7b \x7d;", .lineBreak, .text (scope ++ ".prototype = new ")]) := by
  obtain ⟨ts, hruns, hspell⟩ := typeQualifier_runs hq hn
  -- Nothing up to the second name faults; the name of the base, which may, stands behind it.
  obtain ⟨dotted, hscope, -⟩ := Except.bind_eq_ok hs
  have hline : c.prototypeLine ⟨i⟩ d =
      lineBreak ++ (text (scope ++ ".prototype = new ") ++ c.program.typeName d.base ++ text "();") := by
    simp [prototypeLine, hp.base, hp.interface, hp.valueType, hp.object, hs, given]
  have hheader : c.typeHeader ⟨i⟩ d = ∅ ++ (c.typeQualifier ⟨i⟩ ++
      token (.declaration (.text (Identifier.declared name)) (some (.entity ⟨.type, i⟩))) ++
      (text " = function() \x7b \x7d;" ++ c.prototypeLine ⟨i⟩ d)) := by
    simp only [typeHeader, attributes, hhidden, hscope, hn, hp.delegate, hp.enumeration]
    rfl
  obtain ⟨body, hwhole⟩ : ∃ body, c.typeDeclaration (.entity ⟨.type, i⟩) =
      step (.log (.declaration "type" (.text name))) ++ (c.typeHeader ⟨i⟩ d ++ body) := by
    simp only [typeDeclaration, typeDeclarationWithin, noted, Program.named?, Program.nameOf, hn, hd]
    exact ⟨_, rfl⟩
  have hprototype : Opens (c.prototypeLine ⟨i⟩ d)
      ([.lineBreak] ++ [.text (scope ++ ".prototype = new ")]) :=
    hline ▸ .after rfl (fun _ => rfl) (((Opens.text _).before _).before _)
  have hname (l : Layout) := (hruns l).append (runs_token (.declaration
    (.text (Identifier.declared name)) (some (.entity ⟨.type, i⟩))) l)
  have hlines := Opens.after (hname {}).fault (fun l => (hname l).tokens)
    (.after rfl (fun l => tokens_text " = function() \x7b \x7d;" l) hprototype)
  have hlog (l : Layout) :
      (step (.log (.declaration "type" (.text name)))).tokens l = ([] : List Token) := rfl
  have hopens := Opens.after rfl hlog ((Opens.after rfl tokens_empty hlines).before body)
  refine ⟨_, by simp, ?_, hwhole ▸ hheader ▸ hopens⟩
  rw [String.toList_append]
  exact hspell.append (.one rfl)

/-- A type that gets a prototype is defined under the text before its function, and is given the
prototype under its dotted name, one line below. The two are one name just where the simple name is no
reserved word and no name of a constructor, and is not empty behind an owner or a namespace. -/
theorem prototype_names_agree_iff (c : Context) {i : Nat} {d : TypeDetails} {scope : String}
    (hd : (c.program.type ⟨i⟩).declared = some d) (hhidden : c.style.showAttributes = false)
    (hp : c.GivesPrototype ⟨i⟩ d) (hs : c.program.scopeText ⟨i⟩ = .ok scope) :
    ∃ (name before : String) (ts : List Token), (c.program.type ⟨i⟩).name = .ofText name ∧
      Token.Spell ts before.toList ∧
      Opens (c.typeDeclaration (.entity ⟨.type, i⟩)) (ts ++
        [.text " = function() \x7b \x7d;", .lineBreak, .text (scope ++ ".prototype = new ")]) ∧
      (∀ (l : Layout) (m : Margin), ∃ rest,
        (m.layout ((c.typeDeclaration (.entity ⟨.type, i⟩)).tokens l)).2.toList =
          m.due ++ before.toList ++ " = function() \x7b \x7d;\n".toList ++
            (Margin.spaces m.level).toList ++ scope.toList ++ ".prototype = new ".toList ++ rest) ∧
      (before = scope ↔ Identifier.isReserved name = false ∧ name ≠ ".ctor" ∧ name ≠ "..ctor" ∧
        (name ≠ "" ∨ ((c.program.type ⟨i⟩).owner.isNull = true ∧
          (c.program.type ⟨i⟩).nameSpace.isSet = false))) := by
  obtain ⟨qualifier, name, hq, hn, hscope⟩ := Program.scopeText_eq_ok hs
  obtain ⟨ts, hne, hspell, hopens⟩ := typeDeclaration_opens hd hhidden hp hn hq hs
  refine ⟨name, _, ts, hn, hspell, hopens, fun l m => ?_, ?_⟩
  · obtain ⟨others, hothers⟩ := hopens l
    rw [← hothers, List.append_assoc, Margin.layout_spell_of_ne_nil hspell hne]
    simp only [List.cons_append, List.nil_append, Margin.layout_text, Margin.layout_lineBreak]
    exact ⟨_, by simp [Margin.due]; rfl⟩
  · have hqualified : qualifier = "" ↔ (c.program.type ⟨i⟩).owner.isNull = true ∧
        (c.program.type ⟨i⟩).nameSpace.isSet = false := by
      rw [Program.qualifier_eq_empty_iff hq]
      simp [Program.isQualified]
    by_cases hempty : name = ""
    · subst hempty
      have hdeclared : Identifier.declared "" = "" := by decide
      have hplain : Identifier.isReserved "" = false := by decide
      rw [if_pos rfl, hdeclared, hscope, String.append_empty, String.append_empty, eq_comm, hqualified]
      simp [hplain]
    · rw [if_neg hempty, hscope, String.append_right_inj, Identifier.declared_eq_self_iff]
      simp [hempty]

/-- A type in a namespace, nested in a type with a reserved word for a name: only the simple name is
escaped. -/
theorem prototype_names_agree_iff_nested :
    let details : TypeDetails := ⟨.null, .null, .null, .null, .entity ⟨.type, 2⟩, .null, .list [],
      .list [], .list [], .list [], .list [], .null⟩
    let c : Context := { program := { types := #[
      { nameSpace := .ofText "N", name := .ofText "new" },
      { nameSpace := .ofText "N", name := .ofText "delete", owner := .entity ⟨.type, 0⟩,
        declared := some details },
      { nameSpace := .ofText "N", name := .ofText "Base" }] } }
    c.GivesPrototype ⟨1⟩ details ∧ c.program.scopeText ⟨1⟩ = .ok "N.new.delete" ∧
      ∃ (before : String) (ts : List Token), Token.Spell ts before.toList ∧
        Opens (c.typeDeclaration (.entity ⟨.type, 1⟩)) (ts ++
          [.text " = function() \x7b \x7d;", .lineBreak,
            .text ("N.new.delete" ++ ".prototype = new ")]) ∧
        before ≠ "N.new.delete" := by
  intro details c
  have hp : c.GivesPrototype ⟨1⟩ details := ⟨rfl, rfl, rfl, rfl, rfl, rfl⟩
  have hs : c.program.scopeText ⟨1⟩ = .ok "N.new.delete" := by decide +kernel
  obtain ⟨name, before, ts, hname, hspell, hopens, -, hiff⟩ :=
    c.prototype_names_agree_iff rfl rfl hp hs
  obtain rfl : "delete" = name := by simpa [c, Program.type, Value.ofText] using hname
  exact ⟨hp, hs, before, ts, hspell, hopens, fun h => absurd (hiff.1 h).1 (by decide)⟩

end Context

end Scribe
