import Scribe.Identifier
import Scribe.Token.Margin
import Scribe.Tree.View

/-!
# Scripts

Rendering a tree gives a `Script`: a sequence of steps, and the fault that cuts it short if there
is one. Most steps write a token. The others place statements: statements never write their own
terminators, and what stands between two of them depends on the `Layout`, which only running a
script knows.

`Script.steps` and `Script.fault` say what a script comes to, and `Script.run_eq` says that a run is
just that: its steps one after the other, up to the fault. By their steps, scripts form a monoid
under `++` in which a script that faults absorbs all that follows it.
-/

namespace Scribe

/-- A note for whoever watches a render. -/
inductive LogEntry
  | declaration (kind : String) (name : Scalar)
  | hoisted (count : Nat)
  | unsupported (category : Category) (kind : String)
deriving DecidableEq, Repr

/-- One step of a script. -/
inductive Step
  | token (value : Token)
  | log (entry : LogEntry)
  /-- A body opens: the next statement needs no separator. -/
  | openBody
  /-- A body closes, with a separator after its last statement. -/
  | closeBody
  /-- A statement starts. -/
  | separator
  /-- Whether the statement just written needs a terminator. -/
  | terminate (needed : Bool)
  /-- The terminator after a statement that stands alone. -/
  | finish
  /-- A label, one level out from the statements around it. -/
  | label (name : Scalar)
  /-- The header of a counting loop opens or closes. -/
  | header (inside : Bool)
  /-- The body of a function opens inside an expression. -/
  | enter
  /-- The body of a function closes, and what it interrupted goes on. -/
  | leave
deriving DecidableEq, Repr

/-- Where a script stands among statements. `suspended` holds what function bodies interrupted. -/
structure Layout where
  depth : Int := 0
  forHeader : Bool := false
  firstStatement : Bool := true
  needsTerminator : Bool := false
  suspended : List (Bool × Bool) := []
deriving DecidableEq, Repr

namespace Layout

/-- What stands before a statement: nothing at the start of a body, a comma in a loop header, and
otherwise a line break, after the terminator that the last statement asked for. -/
def separator (l : Layout) : Layout × List Token :=
  if l.firstStatement then ({ l with firstStatement := false, needsTerminator := false }, [])
  else if l.forHeader then ({ l with needsTerminator := false }, [.text ", "])
  else ({ l with needsTerminator := false },
    if l.needsTerminator then [.text ";", .lineBreak] else [.lineBreak])

/-- The trailing separator of a body that is not empty. -/
def closeBody (l : Layout) : Layout × List Token :=
  if l.firstStatement then ({ l with firstStatement := false }, []) else l.separator

def label (l : Layout) (name : Scalar) : Layout × List Token :=
  let line : List Token :=
    [.declaration (name.mapText Identifier.declared) none, .text ":", .lineBreak]
  ({ l with firstStatement := true }, if 0 < l.depth then .outdent :: line ++ [.indent] else line)

def finish (l : Layout) : Layout × List Token :=
  ({ l with needsTerminator := false }, if l.needsTerminator then [.text ";"] else [])

def enter (l : Layout) : Layout :=
  { l with forHeader := false, suspended := (l.forHeader, l.needsTerminator) :: l.suspended }

def leave (l : Layout) : Layout :=
  match l.suspended with
  | [] => l
  | (forHeader, needsTerminator) :: rest =>
    { l with forHeader := forHeader, needsTerminator := needsTerminator, suspended := rest }

/-- The level after a token. -/
def move (l : Layout) : Token → Layout
  | .indent => { l with depth := l.depth + 1 }
  | .outdent => { l with depth := l.depth - 1 }
  | _ => l

end Layout

/-- What running a script leaves behind, in order. -/
inductive Event
  | token (value : Token)
  | log (entry : LogEntry)
deriving DecidableEq, Repr

namespace Event

def token? : Event → Option Token
  | .token t => some t
  | .log _ => none

def log? : Event → Option LogEntry
  | .token _ => none
  | .log entry => some entry

end Event

namespace Step

/-- The layout after a step, and what the step leaves behind. -/
def apply (l : Layout) : Step → Layout × List Event
  | .token t => (l.move t, [.token t])
  | .log entry => (l, [.log entry])
  | .openBody => ({ l with firstStatement := true }, [])
  | .closeBody => (l.closeBody.1, l.closeBody.2.map .token)
  | .separator => (l.separator.1, l.separator.2.map .token)
  | .terminate needed => ({ l with needsTerminator := needed }, [])
  | .finish => (l.finish.1, l.finish.2.map .token)
  | .label name => ((l.label name).1, (l.label name).2.map .token)
  | .header inside => ({ l with forHeader := inside }, [])
  | .enter => (l.enter, [])
  | .leave => (l.leave, [])

/-- The layout after a sequence of steps, and what they leave behind. -/
def runAll (l : Layout) : List Step → Layout × List Event
  | [] => (l, [])
  | step :: rest =>
    let (l, first) := step.apply l
    let (l, others) := runAll l rest
    (l, first ++ others)

theorem runAll_append (l : Layout) (a b : List Step) :
    runAll l (a ++ b) =
      ((runAll (runAll l a).1 b).1, (runAll l a).2 ++ (runAll (runAll l a).1 b).2) := by
  induction a generalizing l with
  | nil => rfl
  | cons step a ih => simp [runAll, ih]

end Step

/-- What a render does: a step, a fault that ends it, or one part after another. A `delayed` part is
worked out only when the render gets to it, so what stands behind a fault costs nothing. -/
inductive Script
  | empty
  | step (value : Step)
  /-- Nothing more is written. -/
  | fail (fault : Fault)
  | append (first second : Script)
  | delayed (part : Unit → Script)

namespace Script

instance : Append Script := ⟨append⟩
instance : EmptyCollection Script := ⟨empty⟩

/-- What cuts the script short. -/
def fault : Script → Option Fault
  | empty | step _ => none
  | fail fault => some fault
  | append first second => match first.fault with
    | none => second.fault
    | some fault => some fault
  | delayed part => (part ()).fault

/-- The steps up to the fault, or all of them. -/
def steps : Script → List Step
  | empty | fail _ => []
  | step value => [value]
  | append first second => match first.fault with
    | none => first.steps ++ second.steps
    | some _ => first.steps
  | delayed part => (part ()).steps

@[simp] theorem fault_empty : (∅ : Script).fault = none := rfl
@[simp] theorem fault_step (s : Step) : (step s).fault = none := rfl
@[simp] theorem fault_fail (f : Fault) : (fail f).fault = some f := rfl
@[simp] theorem fault_delayed (part : Unit → Script) : (delayed part).fault = (part ()).fault := rfl

@[simp] theorem fault_append (a b : Script) : (a ++ b).fault = a.fault.or b.fault := by
  show fault (.append a b) = _
  rw [fault]
  cases a.fault <;> rfl

@[simp] theorem steps_empty : (∅ : Script).steps = [] := rfl
@[simp] theorem steps_step (s : Step) : (step s).steps = [s] := rfl
@[simp] theorem steps_fail (f : Fault) : (fail f).steps = [] := rfl
@[simp] theorem steps_delayed (part : Unit → Script) : (delayed part).steps = (part ()).steps := rfl

theorem steps_append (a b : Script) :
    (a ++ b).steps = if a.fault.isSome then a.steps else a.steps ++ b.steps := by
  show steps (.append a b) = _
  rw [steps]
  cases a.fault <;> rfl

theorem steps_append_of_none {a : Script} (h : a.fault = none) (b : Script) :
    (a ++ b).steps = a.steps ++ b.steps := by simp [steps_append, h]

theorem steps_append_of_some {a : Script} {f : Fault} (h : a.fault = some f) (b : Script) :
    (a ++ b).steps = a.steps := by simp [steps_append, h]

theorem steps_append_assoc (a b c : Script) : (a ++ b ++ c).steps = (a ++ (b ++ c)).steps := by
  cases ha : a.fault <;> cases hb : b.fault <;> simp [steps_append, ha, hb]

def token (t : Token) : Script := step (.token t)

/-- Punctuation, keywords and literal text. -/
def text (s : String) : Script := token (.text s)

/-- What follows from something that may not be there. -/
def given {α : Type} (result : Except Fault α) (next : α → Script) : Script :=
  match result with
  | .ok value => next value
  | .error fault => fail fault

/-- The contents of a slot in place of a text. -/
def content (v : Value) : Script :=
  match v with
  | .scalar (.text s) => text s
  | .scalar s => token (.stray s)
  | _ => fail .illTyped

/-- A name introduced here. -/
def declaration (name : Value) (target : Option Target) : Script :=
  given name.asName fun name => token (.declaration (name.mapText Identifier.declared) target)

/-- A name used here. -/
def reference (name : Value) (tooltip : String) (target : Target) : Script :=
  given name.asName fun name =>
    token (.reference (name.mapText Identifier.referenced) (.text tooltip) (some target))

def lineBreak : Script := token .lineBreak

def indented (inner : Script) : Script := token .indent ++ inner ++ token .outdent

/-- One script after the other. -/
def concat (scripts : List Script) : Script := scripts.foldr (· ++ ·) ∅

/-- The scripts with `separator` between each two of them. -/
def joined (separator : Script) : List Script → Script
  | [] => ∅
  | [last] => last
  | first :: rest => first ++ separator ++ joined separator rest

def commaSeparated (scripts : List Script) : Script := joined (text ", ") scripts

/-- What a run leaves behind, with the fault that ended it if there was one. -/
structure Outcome where
  layout : Layout
  events : List Event
  fault : Option Fault
deriving DecidableEq, Repr

/-- The note that a fault leaves in the log. -/
def notice : Option Fault → List Event
  | some (.unsupported category found) =>
    if category.isLogged then [.log (.unsupported category found.kindName)] else []
  | _ => []

/-- Runs the script on a layout, with `past` behind it already. -/
def runFrom : Script → Layout → Array Event → Layout × Array Event × Option Fault
  | empty, l, past => (l, past, none)
  | step value, l, past => ((value.apply l).1, past ++ (value.apply l).2, none)
  | fail fault, l, past => (l, past, some fault)
  | append first second, l, past =>
    match first.runFrom l past with
    | (l, past, none) => second.runFrom l past
    | (l, past, some fault) => (l, past, some fault)
  | delayed part, l, past => (part ()).runFrom l past

/-- A run takes the steps of the script one after the other. -/
theorem runFrom_eq (s : Script) (l : Layout) (past : Array Event) :
    s.runFrom l past =
      ((Step.runAll l s.steps).1, past ++ (Step.runAll l s.steps).2, s.fault) := by
  induction s generalizing l past with
  | empty => simp [runFrom, steps, fault, Step.runAll]
  | step value => simp [runFrom, steps, fault, Step.runAll]
  | fail f => simp [runFrom, steps, fault, Step.runAll]
  | append a b iha ihb =>
    rw [runFrom, iha, steps, fault]
    cases h : a.fault with
    | none =>
      have joined (x y : List Event) : past ++ x ++ y = past ++ (x ++ y) :=
        Array.ext' (by simp)
      simp [ihb, Step.runAll_append, joined]
    | some f => rfl
  | delayed part ih => simp [runFrom, steps, fault, ih]

def run (s : Script) (l : Layout) : Outcome :=
  let (l, events, fault) := s.runFrom l #[]
  ⟨l, events.toList ++ notice fault, fault⟩

theorem run_eq (s : Script) (l : Layout) :
    s.run l =
      ⟨(Step.runAll l s.steps).1, (Step.runAll l s.steps).2 ++ notice s.fault, s.fault⟩ := by
  simp [run, runFrom_eq]

/-- What a render of its own leaves behind. -/
def outcome (s : Script) : Outcome := s.run {}

namespace Outcome

def tokens (o : Outcome) : List Token := o.events.filterMap Event.token?

def logs (o : Outcome) : List LogEntry := o.events.filterMap Event.log?

end Outcome

/-- The plain text of a script that does not fault and writes nothing but texts. -/
def plainText (s : Script) : Except Fault String :=
  let outcome := s.outcome
  match outcome.fault with
  | none =>
    if outcome.tokens.all Token.isWritable then .ok (Token.plainText outcome.tokens)
    else .error .illTyped
  | some fault => .error fault

end Script

end Scribe
