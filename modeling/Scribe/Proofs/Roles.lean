import Mathlib.Tactic.Common
import Scribe.Proofs.Trace

/-!
# The forms of rendered scripts

`Script.Fits`: the scripts that rendering puts together, by the role they play. An expression writes
tokens and may hold the body of a function, one level in. What a statement writes follows a
separator and may hold bodies and the header of a loop; statements follow each other. Every law of a
run that holds of all renders is one induction on `Fits`; that all code fits is shown once, by
`Context.exprSlot_fits` and `Context.stmtSlot_fits`.
-/

namespace Scribe

/-- Tokens that neither move the margin nor introduce a name. -/
def Token.isInline : Token → Bool
  | .indent | .outdent | .declaration .. => false
  | _ => true

namespace Script

/-- The role of a script in a render. -/
inductive Role
  /-- An expression, or a part of one. -/
  | inline
  /-- What a statement writes after its separator, or a part of it. -/
  | own
  /-- A statement from its separator on. -/
  | started
  /-- Any number of statements. -/
  | statements

/-- Scripts that introduce one name. -/
inductive IsName : Script → Prop
  | fail (f : Fault) : IsName (fail f)
  | token (name : Scalar) (target : Option Target) : IsName (token (.declaration name target))

/-- Scripts of the lines that open a function body. -/
inductive Declares : Script → Prop
  | fail (f : Fault) : Declares (fail f)
  | lines (entry : LogEntry) {names : List Script} (h : ∀ n ∈ names, IsName n) :
    Declares (step (.log entry) ++
      concat (names.map fun n => text "var " ++ n ++ text ";" ++ lineBreak))

/-- Scripts as rendering puts them together. -/
inductive Fits : Role → Script → Prop
  | empty : Fits .inline ∅
  | fail (f : Fault) : Fits .inline (fail f)
  | token {t : Token} (h : t.isInline) : Fits .inline (token t)
  /-- Names stand after a text, which is not that of a declared variable. -/
  | names {s : String} (hs : s ≠ "var ") {names : List Script} (h : ∀ n ∈ names, IsName n) :
    Fits .inline (text s ++ commaSeparated names)
  | append {a b : Script} : Fits .inline a → Fits .inline b → Fits .inline (a ++ b)
  | delayed {part : Unit → Script} : Fits .inline (part ()) → Fits .inline (delayed part)
  | indented {a : Script} : Fits .inline a → Fits .inline (indented a)
  | wrapped {a b c : Script} : Fits .inline a → Fits .inline b → Fits .inline c →
    Fits .inline (a ++ token .indent ++ b ++ c ++ token .outdent)
  | function {d s : Script} : Declares d → Fits .statements s →
    Fits .inline (Script.indented (step .enter ++ d ++ body s ++ step .leave))
  | inline {a : Script} : Fits .inline a → Fits .own a
  | terminate (needed : Bool) : Fits .own (step (.terminate needed))
  | ownAppend {a b : Script} : Fits .own a → Fits .own b → Fits .own (a ++ b)
  | ownIndented {a : Script} : Fits .own a → Fits .own (Script.indented a)
  | body {s : Script} : Fits .statements s → Fits .own (Script.indented (body s))
  | first : Fits .started (step .separator)
  | next {a : Script} : Fits .statements a → Fits .started (a ++ step .separator)
  | own {a b : Script} : Fits .started a → Fits .own b → Fits .started (a ++ b)
  | header {a start condition increment : Script} : Fits .started a → Fits .statements start →
    Fits .inline condition → Fits .statements increment →
    Fits .started (a ++ step (.header true) ++ step .openBody ++ start ++ text "; " ++ condition ++
      text "; " ++ step .openBody ++ increment ++ step (.header false))
  | started {a : Script} : Fits .started a → Fits .statements a
  | label (name : Scalar) : Fits .statements (step .separator ++ step (.label name))
  | none : Fits .statements ∅
  | broken (f : Fault) : Fits .statements (Script.fail f)
  | follow {a b : Script} : Fits .statements a → Fits .statements b → Fits .statements (a ++ b)
  | later {part : Unit → Script} : Fits .statements (part ()) → Fits .statements (Script.delayed part)

/-- Scripts of expressions. -/
abbrev Inline (s : Script) : Prop := Fits .inline s

/-- Scripts of statements. -/
abbrev Statements (s : Script) : Prop := Fits .statements s

namespace Fits

variable {a b : Script} {v : Value} {l : List Script}

theorem text (s : String) : Inline (text s) := .token rfl

theorem lineBreak : Inline lineBreak := .token rfl

theorem between (opening closing : String) (h : Inline a) : Inline (between opening closing a) :=
  .append (.append (.text _) h) (.text _)

theorem parenthesized (h : Inline a) : Inline (parenthesized a) := h.between _ _

theorem bracketed (h : Inline a) : Inline (bracketed a) := h.between _ _

theorem sequential : Sequential Inline := ⟨.empty, .append⟩

theorem concat (h : ∀ s ∈ l, Inline s) : Inline (concat l) := sequential.concat h

theorem ownConcat (h : ∀ s ∈ l, Fits .own s) : Fits .own (Script.concat l) :=
  Sequential.concat ⟨.inline .empty, .ownAppend⟩ h

theorem followAll (h : ∀ s ∈ l, Statements s) : Statements (Script.concat l) :=
  Sequential.concat ⟨.none, .follow⟩ h

theorem commaSeparated (h : ∀ s ∈ l, Inline s) : Inline (commaSeparated l) :=
  sequential.commaSeparated (.text _) h

theorem given {α : Type} {r : Except Fault α} {next : α → Script}
    (h : ∀ x, r = .ok x → Inline (next x)) : Inline (given r next) := by
  cases r with
  | ok x => exact h x rfl
  | error f => exact .fail f

theorem content (v : Value) : Inline (content v) := by
  unfold Script.content
  split
  · exact .text _
  · exact .token rfl
  · exact .fail _

theorem reference (name : Value) (tooltip : String) (target : Target) :
    Inline (reference name tooltip target) :=
  .given fun _ _ => .token rfl

theorem unary (operator : Value) (h : Inline a) : Inline (unary operator a) := by
  unfold Script.unary
  split
  · exact .append (.text _) h
  · exact .append h (.text _)
  · exact .fail _

theorem binary (operator : Value) (ha : Inline a) (hb : Inline b) :
    Inline (binary operator a b) := by
  unfold Script.binary
  split
  · exact (Fits.append (.append ha (.text _)) hb).parenthesized
  · exact .fail _

theorem blockItems (index : Nat) (h : ∀ s ∈ l, Inline s) : Inline (blockItems index l) :=
  sequential.blockItems (.text _) (.append (.text _) .lineBreak) index h

theorem block (h : ∀ s ∈ l, Inline s) : Inline (block l) := by
  unfold Script.block
  split_ifs
  · exact .append (.append (.wrapped (.text _) .lineBreak (.blockItems 0 h)) .lineBreak) (.text _)
  · exact .append (.append (.text _) (.blockItems 0 h)) (.text _)

theorem optionally (v : Value) (h : Inline a) : Inline (v.optionally a) := by
  unfold Value.optionally
  split_ifs
  · exact .empty
  · exact h

theorem optionalBody (v : Value) (h : Statements a) : Statements (v.optionally a) := by
  unfold Value.optionally
  split_ifs
  · exact .none
  · exact h

theorem ownOptionally (v : Value) (h : Fits .own a) : Fits .own (v.optionally a) := by
  unfold Value.optionally
  split_ifs
  · exact .inline .empty
  · exact h

theorem unlessEmpty (v : Value) (h : Fits .own a) : Fits .own (v.unlessEmpty a) := by
  unfold Value.unlessEmpty
  split
  · split_ifs
    · exact h
    · exact .inline .empty
  · exact .inline (.fail _)

theorem asTarget (v : Value) (h : Inline a) : Inline (v.asTarget a) := by
  refine .optionally v (.append ?_ (.text _))
  split_ifs
  · exact h.parenthesized
  · exact h

theorem asCondition (v : Value) (h : Inline a) : Inline (v.asCondition a) := by
  unfold Value.asCondition
  split
  · exact .text _
  · exact h
  · exact h.parenthesized

theorem asCallee (v : Value) (h : Inline a) : Inline (v.asCallee a) := by
  unfold Value.asCallee
  split
  · exact h
  · exact h.parenthesized

theorem braced (h : Statements a) : Fits .own (braced a) :=
  .ownAppend (.ownAppend (.ownAppend (.inline (.append (.text _) .lineBreak)) (.body h))
    (.inline (.text _))) (.terminate _)

theorem simple (h : Fits .own a) : Statements (simple a) :=
  .started (.own (.own .first h) (.terminate _))

theorem name {s : String} (hs : s ≠ "var ") (h : IsName a) : Inline (Script.text s ++ a) := by
  have hn : ∀ n ∈ [a], IsName n := by simpa using h
  exact .names hs hn

end Fits

end Script

end Scribe
