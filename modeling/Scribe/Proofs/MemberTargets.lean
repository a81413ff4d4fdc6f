import Scribe.Proofs.Indentation
import Scribe.Proofs.Spelling

/-!
# What a member is taken of

An expression that binds less tightly than a dot stands in parentheses before one. Casts and
dereferences leave nothing in the text, but whether there are parentheses depends on the outermost
node alone. So a member binds to the whole of such an expression just where nothing is wrapped around
it (`Context.member_target_text`).
-/

namespace Scribe

open Script

namespace Script

variable {a b : Script} {cs : List Char}

theorem plainText_congr (hs : a.steps = b.steps) (hf : a.fault = b.fault) :
    a.plainText = b.plainText := by
  have : a.outcome = b.outcome := by simp only [outcome, run_eq, hs, hf]
  unfold plainText
  rw [this]

/-- The parts of a neutral whole that can be written can be written alone. -/
theorem plainText_parts {t : String} (ha : Neutral a) (hb : Neutral b)
    (h : (a ++ b).plainText = .ok t) :
    (∃ u, a.plainText = .ok u) ∧ ∃ w, b.plainText = .ok w := by
  obtain ⟨hf, hw, -⟩ := plainText_eq_ok.1 h
  obtain ⟨hfa, hfb⟩ := fault_append_eq_none.1 hf
  rw [ha.written_append hb hfa, List.all_append, Bool.and_eq_true] at hw
  exact ⟨⟨_, plainText_eq_ok.2 ⟨hfa, hw.1, rfl⟩⟩, ⟨_, plainText_eq_ok.2 ⟨hfb, hw.2, rfl⟩⟩⟩

/-- A text before neutral code. -/
theorem plainText_text_append {w t : String} (ha : Neutral a) :
    (text w ++ a).plainText = .ok t ↔ ∃ u, a.plainText = .ok u ∧ t = w ++ u := by
  have hwritten : (text w ++ a).written = .text w :: a.written :=
    (Neutral.text w).written_append ha rfl
  have htext : Token.plainText (.text w :: a.written) = w ++ Token.plainText a.written := by
    rw [Token.plainText, Margin.layout_cons]
    rfl
  simp only [plainText_eq_ok, fault_append_eq_none, hwritten, htext, List.all_cons]
  constructor
  · rintro ⟨⟨-, hf⟩, hw, rfl⟩
    exact ⟨_, ⟨hf, by simpa [Token.isWritable] using hw, rfl⟩, rfl⟩
  · rintro ⟨u, ⟨hf, hw, rfl⟩, rfl⟩
    exact ⟨⟨rfl, hf⟩, by simpa [Token.isWritable] using hw, rfl⟩

/-- What stands behind a script on its last line: the margin is back at the first column. -/
theorem plainText_append_level {t : String} (ha : Neutral a) (hl : Level a) (hb : Spells b cs) :
    (a ++ b).plainText = .ok t ↔ ∃ u, a.plainText = .ok u ∧ t = u ++ String.ofList cs := by
  have hwritten (hf : a.fault = none) : (a ++ b).written = a.written ++ b.written :=
    Neutral.written_append ha hb.neutral hf
  have htext (hf : a.fault = none) : Token.plainText (a.written ++ b.written) =
      Token.plainText a.written ++ String.ofList cs := by
    have hlevel : Token.level a.written = 0 := by
      rw [written, outcome_tokens]
      exact (hl {} (by decide)).2 hf
    have hmargin : (Margin.layout {} a.written).1.level = 0 := by
      rw [Margin.layout_level, hlevel]
      rfl
    rw [Token.plainText, Margin.layout_append, (hb.written.layout hmargin).1]
    rfl
  simp only [plainText_eq_ok, fault_append_eq_none]
  constructor
  · rintro ⟨⟨hf, -⟩, hw, rfl⟩
    rw [hwritten hf, List.all_append, Bool.and_eq_true] at hw
    exact ⟨_, ⟨hf, hw.1, rfl⟩, by rw [hwritten hf, htext hf]⟩
  · rintro ⟨u, ⟨hf, hw, rfl⟩, rfl⟩
    rw [hwritten hf, htext hf, List.all_append, hw, hb.written.isWritable]
    exact ⟨⟨hf, hb.fault⟩, rfl, rfl⟩

/-- What stands behind code on its last line. -/
theorem plainText_append_spells {t : String} (ha : Inline a) (hb : Spells b cs) :
    (a ++ b).plainText = .ok t ↔ ∃ u, a.plainText = .ok u ∧ t = u ++ String.ofList cs :=
  plainText_append_level ha.law ha.level hb

end Script

/-! ### Wrapped targets -/

/-- The nodes around an expression that leave nothing in the text. -/
inductive Wrapper
  | cast (type : Value)
  | dereference

/-- An expression inside wrappers, of which the first is the outermost. -/
def Expr.wrapped (e : Expr) : List Wrapper → Expr
  | [] => e
  | .cast type :: rest => .cast (.expr (e.wrapped rest)) type
  | .dereference :: rest => .dereference (.expr (e.wrapped rest))

/-- The references to members of a target. A property is read. -/
inductive MemberForm
  | field | method | event | property
deriving DecidableEq, Repr

def MemberForm.of (member target : Value) : MemberForm → Expr
  | .field => .field member target
  | .method => .method member target
  | .event => .event member target
  | .property => .property member target

namespace Context

variable (c : Context)

theorem pointee?_wrapped {e : Expr} (he : (Value.expr e).isLoose = true)
    (wrappers : List Wrapper) : c.pointee? (.expr (e.wrapped wrappers)) = none := by
  cases wrappers with
  | nil =>
    unfold Value.isLoose at he
    split at he <;> first | cases he; done | skip
    all_goals
      rename_i hv
      cases hv
      rfl
  | cons wrapper wrappers => cases wrapper <;> rfl

/-- Wrappers add nothing to the steps of a loose expression. -/
theorem expr_wrapped {e : Expr} (he : (Value.expr e).isLoose = true) (wrappers : List Wrapper) :
    (c.expr (e.wrapped wrappers)).steps = (c.expr e).steps ∧
      (c.expr (e.wrapped wrappers)).fault = (c.expr e).fault := by
  induction wrappers with
  | nil => exact ⟨rfl, rfl⟩
  | cons wrapper wrappers ih =>
    have hslot : c.expr (e.wrapped (wrapper :: wrappers)) =
        c.exprSlot (.expr (e.wrapped wrappers)) := by
      cases wrapper with
      | cast type => rw [Expr.wrapped, expr]
      | dereference =>
        rw [Expr.wrapped, expr, c.pointee?_wrapped he]
        rfl
    rw [hslot, exprSlot]
    exact ih

end Context

/-! ### Members -/

/-- Names that are written with their description beside them. -/
inductive Script.Described : Script → Prop
  | fail (f : Fault) : Described (fail f)
  | given (r : Except Fault String) (name : Value) (target : Target) :
    Described (given r fun tooltip => reference name tooltip target)

theorem Script.Described.neutral {s : Script} (h : Described s) : Neutral s := by
  cases h with
  | fail f => exact .fail f
  | given r name target => exact Fits.law (Fits.given fun _ _ => Fits.reference ..)

/-- Such a name stays on its line if it is a text. -/
theorem Script.Described.spells {s : Script} (h : Described s) {t : String}
    (ht : s.plainText = .ok t) : ∃ cs, Spells s cs := by
  obtain ⟨hf, hw, -⟩ := plainText_eq_ok.1 ht
  cases h with
  | fail f => cases hf
  | given r name target =>
    obtain ⟨n, tooltip, hs⟩ := described_eq hf
    rw [hs] at hw ⊢
    have htext : n.isText = true := by simpa [written, outcome_tokens, Token.isWritable] using hw
    cases n with
    | text n => exact ⟨_, .token rfl fun _ => rfl⟩
    | _ => cases htext

namespace Program

variable (p : Program)

theorem fieldName_described (field : Value) : Described (p.fieldName field) := by
  unfold fieldName
  split
  · exact .given ..
  · exact .fail _

theorem eventName_described (event : Value) : Described (p.eventName event) := by
  unfold eventName
  split
  · exact .given ..
  · exact .fail _

theorem methodName_described (method : Value) : Described (p.methodName method) := by
  unfold methodName
  split
  · split
    · exact .given ..
    · exact .given ..
    · exact .fail _
  · exact .fail _

theorem accessorName_described (accessor : Value) : Described (p.accessorName accessor) := by
  unfold accessorName
  split
  · exact .given ..
  · exact .fail _

end Program

namespace Context

variable (c : Context)

/-- A call without arguments. -/
theorem calls_spells : Spells (text "(" ++ commaSeparated [] ++ text ")") ['(', ')'] :=
  ((Spells.text "(").append .empty).append (.text ")")

/-- A property is read by a call of its getter on the target. -/
theorem read_eq {property target : Value} {t : String}
    (h : (c.expr (.property property target)).plainText = .ok t) :
    ∃ accessor, ∀ v : Value, (c.expr (.property property v)).plainText =
      (v.asTarget (c.exprSlot v) ++ (c.program.accessorName accessor ++
        (text "(" ++ commaSeparated [] ++ text ")"))).plainText := by
  obtain ⟨hf, -, -⟩ := plainText_eq_ok.1 h
  have hread (v : Value) : c.expr (.property property v) =
      c.read ⟨property, v.asTarget (c.exprSlot v), []⟩ := by rw [expr]
  simp only [hread, read] at hf ⊢
  split at hf
  case h_1 i =>
    refine ⟨(c.program.property ⟨i⟩).getter, fun v => ?_⟩
    simp only [Program.accessorCall] at hf ⊢
    split_ifs with hnull
    · rw [if_pos hnull] at hf
      cases hf
    · apply plainText_congr
      · have hnone : (commaSeparated []).fault = none := rfl
        cases hv : (v.asTarget (c.exprSlot v)).fault <;>
          cases ha : (c.program.accessorName (c.program.property ⟨i⟩).getter).fault <;>
          simp [steps_append, hv, ha, hnone]
      · simp [Option.or_assoc]
  case h_2 => cases hf

/-- What a member writes behind its target is the same for every target. -/
theorem member_spells {form : MemberForm} {member target : Value} {t : String}
    (h : (c.expr (form.of member target)).plainText = .ok t) :
    ∃ name cs, Spells name cs ∧ ∀ v : Value,
      (c.expr (form.of member v)).plainText = (v.asTarget (c.exprSlot v) ++ name).plainText := by
  have hspells {name : Script} (hn : Described name)
      (h : (target.asTarget (c.exprSlot target) ++ name).plainText = .ok t) :
      ∃ cs, Spells name cs := by
    obtain ⟨-, w, hw⟩ := plainText_parts (c.target_neutral target) hn.neutral h
    exact hn.spells hw
  cases form with
  | field =>
    obtain ⟨cs, hcs⟩ := hspells (c.program.fieldName_described member) h
    exact ⟨_, cs, hcs, fun v => rfl⟩
  | method =>
    obtain ⟨cs, hcs⟩ := hspells (c.program.methodName_described member) h
    exact ⟨_, cs, hcs, fun v => rfl⟩
  | event =>
    obtain ⟨cs, hcs⟩ := hspells (c.program.eventName_described member) h
    exact ⟨_, cs, hcs, fun v => rfl⟩
  | property =>
    obtain ⟨accessor, hread⟩ := c.read_eq h
    obtain ⟨-, w, hw⟩ := plainText_parts (c.target_neutral target)
      ((c.program.accessorName_described accessor).neutral.append (calls_spells).neutral)
      ((hread target).symm.trans h)
    obtain ⟨⟨u, hu⟩, -⟩ := plainText_parts (c.program.accessorName_described accessor).neutral
      calls_spells.neutral hw
    obtain ⟨cs, hcs⟩ := (c.program.accessorName_described accessor).spells hu
    exact ⟨_, _, hcs.append calls_spells, hread⟩

/-- The text of a target and of what stands behind its dot. -/
theorem target_text {v : Value} (hv : v.isNull = false) {name : Script} {cs : List Char}
    (hn : Spells name cs) {s : String}
    (h : (v.asTarget (c.exprSlot v) ++ name).plainText = .ok s) :
    ∃ inner, (c.exprSlot v).plainText = .ok inner ∧
      s = (if v.isLoose then "(" ++ inner ++ ")" else inner) ++ "." ++ String.ofList cs := by
  have hslot := c.exprSlot_fits v
  have hdot {a : Script} (ha : Inline a) (h : (a ++ text "." ++ name).plainText = .ok s) :
      ∃ u, a.plainText = .ok u ∧ s = u ++ "." ++ String.ofList cs := by
    obtain ⟨u, hu, rfl⟩ := (plainText_append_spells (ha.append (.text _)) hn).1 h
    obtain ⟨w, hw, rfl⟩ := (plainText_append_spells ha (.text ".")).1 hu
    exact ⟨w, hw, rfl⟩
  rw [Value.asTarget, Value.optionally, hv] at h
  cases hl : v.isLoose with
  | false =>
    rw [hl] at h
    exact hdot hslot h
  | true =>
    rw [hl] at h
    obtain ⟨u, hu, rfl⟩ := hdot hslot.parenthesized h
    obtain ⟨w, hw, rfl⟩ := (plainText_append_spells (.append (.text "(") hslot) (.text ")")).1 hu
    obtain ⟨inner, hinner, rfl⟩ := (plainText_text_append hslot.law).1 hw
    exact ⟨inner, hinner, rfl⟩

/-- A wrapper is not loose, whatever it is around. -/
theorem isLoose_wrapped {e : Expr} (he : (Value.expr e).isLoose = true) (wrappers : List Wrapper) :
    (Value.expr (e.wrapped wrappers)).isLoose = true ↔ wrappers = [] := by
  match wrappers with
  | [] => simpa [Expr.wrapped] using he
  | .cast _ :: _ | .dereference :: _ => simp [Expr.wrapped, Value.isLoose]

theorem renderText_expr (e : Expr) : c.renderText (.expr e) = (c.expr e).plainText := by
  show (c.exprSlot (.expr e)).plainText = _
  rw [exprSlot]
  exact plainText_congr rfl rfl

/-- **Member targets.** The text of a member of a loose expression: parentheses stand around the
expression if nothing is wrapped around it, and only then. -/
theorem member_target_text (form : MemberForm) (member : Value) {e : Expr}
    (he : (Value.expr e).isLoose = true) (wrappers : List Wrapper) {s : String}
    (h : c.renderText (.expr (form.of member (.expr (e.wrapped wrappers)))) = .ok s) :
    ∃ inner name, c.renderText (.expr e) = .ok inner ∧
      c.renderText (.expr (form.of member .null)) = .ok name ∧
      s = (if wrappers = [] then "(" ++ inner ++ ")" else inner) ++ "." ++ name ∧
      (s = "(" ++ inner ++ ")" ++ "." ++ name ↔ wrappers = []) := by
  rw [renderText_expr] at h
  obtain ⟨name, cs, hname, hmember⟩ := c.member_spells h
  have hnull : c.renderText (.expr (form.of member .null)) = .ok (String.ofList cs) := by
    rw [renderText_expr, hmember]
    exact (Spells.empty.append hname).plainText
  rw [hmember] at h
  obtain ⟨inner, hinner, hs⟩ := c.target_text rfl hname h
  refine ⟨inner, _, ?_, hnull, ?_⟩
  · obtain ⟨hsteps, hfault⟩ := c.expr_wrapped he wrappers
    rw [renderText_expr, ← hinner, exprSlot]
    exact plainText_congr hsteps.symm hfault.symm
  · simp only [isLoose_wrapped he] at hs
    refine ⟨hs, fun hparens => ?_, fun hw => by rw [hs, if_pos hw]⟩
    by_contra hw
    rw [hs, if_neg hw] at hparens
    have := congrArg String.length hparens
    simp only [String.length_append] at this
    have hopen : 0 < "(".length := by decide
    omega

/-- `(-a).count`, and the same field of `-a` dereferenced and cast. -/
theorem member_target_text_count :
    let c : Context := { program := {
      locals := #[{ name := .ofText "a" }],
      fields := #[{ name := .ofText "count", type := .entity ⟨.type, 0⟩ }],
      types := #[{ name := .ofText "Int32", nameSpace := .ofText "System" }] } }
    let negated : Expr := .unary (.ofText "negate") (.expr (.variable (.entity ⟨.variable, 0⟩)))
    let count : Value := .entity ⟨.field, 0⟩
    (∃ inner name, c.renderText (.expr negated) = .ok inner ∧
      c.renderText (.expr (.field count .null)) = .ok name ∧
      "(-a).count" = "(" ++ inner ++ ")" ++ "." ++ name) ∧
    ∃ inner name, c.renderText (.expr negated) = .ok inner ∧
      c.renderText (.expr (.field count .null)) = .ok name ∧ "-a.count" = inner ++ "." ++ name := by
  intro c negated count
  have hplain : c.renderText (.expr (.field count (.expr negated))) = .ok "(-a).count" := by
    decide +kernel
  have hwrapped : c.renderText (.expr (.field count
      (.expr (.cast (.expr (.dereference (.expr negated))) (.entity ⟨.type, 0⟩))))) =
      .ok "-a.count" := by
    decide +kernel
  obtain ⟨inner, name, hi, hn, hs, -⟩ := c.member_target_text .field count rfl [] hplain
  obtain ⟨inner', name', hi', hn', hs', -⟩ :=
    c.member_target_text .field count rfl [.cast (.entity ⟨.type, 0⟩), .dereference] hwrapped
  exact ⟨⟨inner, name, hi, hn, hs⟩, ⟨inner', name', hi', hn', hs'⟩⟩

/-- A cast around `-a` leaves it without parentheses, so the field binds to `a` alone. -/
theorem cast_target_unparenthesized :
    let c : Context := { program := {
      locals := #[{ name := .ofText "a" }],
      fields := #[{ name := .ofText "count", type := .entity ⟨.type, 0⟩ }],
      types := #[{ name := .ofText "Int32", nameSpace := .ofText "System" }] } }
    let negated : Expr := .unary (.ofText "negate") (.expr (.variable (.entity ⟨.variable, 0⟩)))
    let target : Value := .expr (negated.wrapped [.cast (.entity ⟨.type, 0⟩)])
    c.renderText (.expr negated) = .ok "-a" ∧
      c.renderText (.expr (.field (.entity ⟨.field, 0⟩) target)) = .ok "-a.count" ∧
      "-a.count" ≠ "(" ++ "-a" ++ ")" ++ "." ++ "count" :=
  ⟨rfl, rfl, by decide⟩

end Context

end Scribe
