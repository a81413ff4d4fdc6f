import Mathlib.Data.List.Basic
import Scribe.Proofs.Neutral
import Scribe.Proofs.Slots
import Scribe.Render

/-!
# The flat layout of statements

`Context.unit`: what a statement writes, by recursion on the tree and with no state but the depth: a
simple statement is a line with a terminator, one that ends in a brace is a line without, a block is
its statements one after the other, and a declaration is nothing. That the separators of a render
come to just that is shown by `Context.statement_flat`.
-/

namespace Scribe

open Script

/-! ### Headers of loops -/

mutual

/-- Whether a slot holds expressions as statements and nothing else, in blocks or not. -/
def Value.isPlain : Value → Bool
  | .stmt s => s.isPlain
  | _ => false
termination_by structural v => v

def Value.arePlain : Value → Bool
  | .list items => Value.allPlain items
  | _ => true
termination_by structural v => v

def Value.allPlain : List Value → Bool
  | [] => true
  | first :: rest => first.isPlain && Value.allPlain rest
termination_by structural vs => vs

def Stmt.isPlain : Stmt → Bool
  | .block statements => statements.arePlain
  | .expression _ => true
  | _ => false
termination_by structural s => s

end

namespace Value

/-- Whether the header of a loop, if this is one, is empty or plain on both sides. -/
def hasPlainHeader : Value → Bool
  | .stmt (.for start _ increment _) =>
    (start.isNull || start.isPlain) && (increment.isNull || increment.isPlain)
  | _ => true

/-- Whether all loops in a tree have plain headers, also those in functions. -/
def PlainHeaders (v : Value) : Prop := ∀ w : Value, Inside w v → w.hasPlainHeader = true

theorem PlainHeaders.slot {v w : Value} (h : w.PlainHeaders) (hv : v ∈ w.slots) : v.PlainHeaders :=
  fun u hu => h u (hu.slot hv)

theorem PlainHeaders.slots {v : Value} (h : v.PlainHeaders) : v.slots.Forall PlainHeaders :=
  List.forall_iff_forall_mem.2 fun _ hu => h.slot hu

theorem PlainHeaders.inside {v w : Value} (h : w.PlainHeaders) (hv : Inside v w) :
    v.PlainHeaders :=
  fun u hu => h u (hu.trans hv)

theorem plainHeaders_iff (v : Value) :
    v.PlainHeaders ↔ v.hasPlainHeader = true ∧ ∀ w ∈ v.slots, w.PlainHeaders :=
  forall_inside_iff

end Value

/-! ### Units -/

namespace Flat

/-- A line that ends in a terminator. -/
def line (own : List Token) : List Token := own ++ [.text ";", .lineBreak]

/-- A line that ends in a brace or a comment. -/
def closed (own : List Token) : List Token := own ++ [.lineBreak]

/-- Statements in braces. -/
def braces (inner : List Token) : List Token :=
  [.text " \x7b", .lineBreak, .indent] ++ inner ++ [.outdent, .text "\x7d"]

/-- A label on a line of its own, one level out where there is one. -/
def label (depth : Nat) (name : Value) : List Token :=
  match name.asName with
  | .ok name =>
    let line : List Token :=
      [.declaration (name.mapText Identifier.declared) none, .text ":", .lineBreak]
    if 0 < depth then .outdent :: line ++ [.indent] else line
  | .error _ => []

/-- The parts of a header with commas between them, and one before the first unless it starts. -/
def commas (starts : Bool) : List (List Token) → List Token
  | [] => []
  | part :: rest => (if starts then [] else [.text ", "]) ++ part ++ commas false rest

/-- Nothing for a block without statements. -/
def unlessEmpty (v : Value) (inner : List Token) : List Token :=
  match v with
  | .stmt (.block statements) => if statements.isSet then inner else []
  | _ => []

theorem commas_append (starts : Bool) (a b : List (List Token)) :
    commas starts (a ++ b) = commas starts a ++ commas (starts && a.isEmpty) b := by
  induction a generalizing starts with
  | nil => simp [commas]
  | cons part a ih => simp [commas, ih]

end Flat

namespace Context

open Flat

mutual

/-- The expressions of a header, each by itself. -/
def headerParts (c : Context) : Value → List (List Token)
  | .stmt s => c.headerPartsOf s
  | _ => []
termination_by structural v => v

def headerPartsIn (c : Context) : Value → List (List Token)
  | .list items => c.headerPartsAll items
  | _ => []
termination_by structural v => v

def headerPartsAll (c : Context) : List Value → List (List Token)
  | [] => []
  | first :: rest => c.headerParts first ++ c.headerPartsAll rest
termination_by structural vs => vs

def headerPartsOf (c : Context) : Stmt → List (List Token)
  | .block statements => c.headerPartsIn statements
  | .expression expression =>
    if expression.isDeclaration then [] else [(c.exprSlot expression).written]
  | _ => []
termination_by structural s => s

end

/-- One side of the header of a loop. -/
def header (c : Context) (v : Value) : List Token := commas true (c.headerParts v)

mutual

/-- What a slot for a statement writes at the given depth. -/
def unitSlot (c : Context) (depth : Nat) : Value → List Token
  | .stmt s => c.unit depth s
  | _ => []
termination_by structural v => v

/-- The statements of a list, one after the other. -/
def units (c : Context) (depth : Nat) : Value → List Token
  | .list items => c.unitAll depth items
  | _ => []
termination_by structural v => v

def unitAll (c : Context) (depth : Nat) : List Value → List Token
  | [] => []
  | first :: rest => c.unitSlot depth first ++ c.unitAll depth rest
termination_by structural vs => vs

def unit (c : Context) (depth : Nat) : Stmt → List Token
  | .bare => []
  | .block statements => c.units depth statements
  | .expression expression =>
    if expression.isDeclaration then [] else line (c.exprSlot expression).written
  | .goto _ name => line (.text "goto " :: (declaration name none).written)
  | .labeled _ name statement => label depth name ++ c.unitSlot depth statement
  | .condition condition yes no =>
    closed (.text "if " :: (condition.asCondition (c.exprSlot condition)).written ++
      braces (c.unitSlot (depth + 1) yes) ++
      unlessEmpty no ([.lineBreak, .text "else"] ++ braces (c.unitSlot (depth + 1) no)))
  | .return value =>
    line (.text "return" :: (value.optionally (text " " ++ c.exprSlot value)).written)
  | .for start condition increment body =>
    closed ([.text "for ("] ++ c.header start ++ [.text "; "] ++
      (condition.optionally (c.exprSlot condition)).written ++ [.text "; "] ++
      c.header increment ++ [.text ")"] ++ braces (c.unitSlot (depth + 1) body))
  | .forEach bound source body =>
    closed ([.text "for ("] ++ (c.program.variableUse bound).written ++ [.text " of "] ++
      (c.exprSlot source).written ++ [.text ")"] ++ braces (c.unitSlot (depth + 1) body))
  | .using resource body =>
    (if resource.assignedVariable?.isSome then line (c.exprSlot resource).written else []) ++
    closed (.text "try" :: braces (c.unitSlot (depth + 1) body) ++
      [.lineBreak, .text "finally \x7b", .lineBreak] ++
      (.indent :: (c.release resource (c.exprSlot resource)).written ++ [.outdent]) ++
      [.text "\x7d"])
  | .fixed bound source body =>
    closed ([.text "fixed ("] ++ (c.program.variableUse bound).written ++ [.text " = "] ++
      (c.exprSlot source).written ++ [.text ")"] ++ braces (c.unitSlot (depth + 1) body))
  | .while condition body =>
    closed (.text "while " :: (condition.asCondition (c.exprSlot condition)).written ++
      braces (c.unitSlot (depth + 1) body))
  | .do condition body =>
    line (.text "do" :: braces (c.unitSlot (depth + 1) body) ++ [.text " while "] ++
      (condition.asCondition (c.exprSlot condition)).written)
  | .try body catches fault last =>
    closed (.text "try" :: braces (c.unitSlot (depth + 1) body) ++ c.catchUnits depth catches ++
      unlessEmpty fault ([.lineBreak, .text "catch (e)"] ++
        braces (c.unitSlot (depth + 1) fault ++ line [.text "throw ", .text "e"])) ++
      unlessEmpty last ([.lineBreak, .text "finally"] ++ braces (c.unitSlot (depth + 1) last)))
  | .throw value =>
    line (.text "throw " ::
      (if value.isNull then text "Exception.Create()" else c.exprSlot value).written)
  | .attach event listener =>
    line ((c.exprSlot event).written ++ [.text " += "] ++ (c.exprSlot listener).written)
  | .detach event listener =>
    line ((c.exprSlot event).written ++ [.text " -= "] ++ (c.exprSlot listener).written)
  | .switch subject cases =>
    closed (.text "switch " :: (subject.asCondition (c.exprSlot subject)).written ++
      [.text " \x7b", .lineBreak] ++ c.caseUnits depth subject cases ++ [.text "\x7d"])
  | .break => line [.text "break"]
  | .continue => line [.text "continue"]
  | .memoryCopy source destination length =>
    line (between "memcpy(" ")" (commaSeparated
      [c.exprSlot source, c.exprSlot destination, c.exprSlot length])).written
  | .memoryFill offset value length =>
    line (between "meminit(" ")" (commaSeparated
      [c.exprSlot offset, c.exprSlot value, c.exprSlot length])).written
  | .debugBreak => line [.text "debugger"]
  | .lock subject body =>
    closed (.text "lock " :: (subject.asCondition (c.exprSlot subject)).written ++
      braces (c.unitSlot (depth + 1) body))
  | .comment content => closed (given (commentLines content) Script.comment).written
termination_by structural s => s

/-- A catch clause, with its guard as a condition inside. -/
def catchUnit (c : Context) (depth : Nat) : Value → List Token
  | .clause (.catch body bound condition) =>
    (c.catchHead bound).written ++
      (if condition.isNull then braces (c.unitSlot (depth + 1) body)
        else [.text " \x7b", .lineBreak] ++
          (.indent :: (.text "if " :: (condition.asCondition (c.exprSlot condition)).written ++
            braces (c.unitSlot (depth + 2) body) ++ [.lineBreak]) ++ [.outdent]) ++
          [.text "\x7d"])
  | _ => []
termination_by structural v => v

def catchUnits (c : Context) (depth : Nat) : Value → List Token
  | .list items => c.catchUnitAll depth items
  | _ => []
termination_by structural v => v

def catchUnitAll (c : Context) (depth : Nat) : List Value → List Token
  | [] => []
  | first :: rest => c.catchUnit depth first ++ c.catchUnitAll depth rest
termination_by structural vs => vs

/-- A case of a switch: its labels, and its statements one level in. -/
def caseUnit (c : Context) (depth : Nat) (subject : Value) : Value → List Token
  | .clause (.case body condition) =>
    (c.caseLabels subject (c.exprSlot condition) condition).written ++
      (.indent :: c.unitSlot (depth + 1) body ++ [.outdent])
  | .clause (.default body) =>
    [.text "default:", .lineBreak] ++ (.indent :: c.unitSlot (depth + 1) body ++ [.outdent])
  | _ => []
termination_by structural v => v

def caseUnits (c : Context) (depth : Nat) (subject : Value) : Value → List Token
  | .list items => c.caseUnitAll depth subject items
  | _ => []
termination_by structural v => v

def caseUnitAll (c : Context) (depth : Nat) (subject : Value) : List Value → List Token
  | [] => []
  | first :: rest => c.caseUnit depth subject first ++ c.caseUnitAll depth subject rest
termination_by structural vs => vs

end

end Context

end Scribe
