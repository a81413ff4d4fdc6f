import Scribe.Render

/-!
# Sessions

A session is a sequence of calls on one writer and one sink. A call renders on a layout of its own,
which the writer keeps while the render lasts: a call that is made meanwhile joins it. The sink
remembers only its margin.
-/

namespace Scribe

/-- What a writer, or the sink behind it, can be asked to do. -/
inductive Call
  | assembly (value : Value)
  | assemblyReference (value : Value)
  | module (value : Value)
  | moduleReference (value : Value)
  | resource (value : Value)
  | nameSpace (value : Value)
  | typeDeclaration (value : Value)
  | fieldDeclaration (value : Value)
  | methodDeclaration (value : Value)
  | propertyDeclaration (value : Value)
  | eventDeclaration (value : Value)
  | statement (value : Value)
  | expression (value : Value)
  | type (value : Value)
  | fieldDescription (value : Value)
  | methodDescription (value : Value)
  | propertyDescription (value : Value)
  | eventDescription (value : Value)
  /-- A token written by the caller. -/
  | put (token : Token)

/-- What a call leaves behind. -/
structure Reply where
  events : List Event
  result : Option String
  fault : Option Fault
deriving DecidableEq, Repr

namespace Reply

def ofScript (s : Script) : Reply :=
  let outcome := s.outcome
  ⟨outcome.events, none, outcome.fault⟩

def ofDescription : Except Fault String → Reply
  | .ok text => ⟨[], some text, none⟩
  | .error fault => ⟨Script.notice (some fault), none, some fault⟩

def tokens (r : Reply) : List Token := r.events.filterMap Event.token?

/-- Whether all that the call wrote is text. -/
def isWritable (r : Reply) : Bool := r.tokens.all Token.isWritable

def logs (r : Reply) : List LogEntry := r.events.filterMap Event.log?

end Reply

namespace Call

/-- The description of an entity of the kind that has it. -/
def describe {kind : EntityKind} (description : Id kind → Except Fault String) (value : Value) :
    Reply :=
  .ofDescription ((value.id? kind).elim (.error .malformed) description)

/-- The lowest layer that offers the call. Every sink takes tokens. -/
def layer : Call → Layer
  | .type _ | .fieldDescription _ | .methodDescription _ | .propertyDescription _
  | .eventDescription _ | .put _ => .types
  | .expression _ => .expressions
  | .statement _ => .statements
  | _ => .declarations

/-- What a call renders. Descriptions are told and not written, and a token of the caller goes to the
sink alone. -/
def script? (c : Context) : Call → Option Script
  | .assembly value => some (c.assembly value)
  | .assemblyReference value => some (c.assemblyReference value)
  | .module value => some (c.module value)
  | .moduleReference value => some (c.moduleReference value)
  | .resource value => some (c.resource value)
  | .nameSpace value => some (c.nameSpace value)
  | .typeDeclaration value => some (c.typeDeclaration value)
  | .fieldDeclaration value => some (c.fieldDeclaration value)
  | .methodDeclaration value => some (c.methodDeclaration value)
  | .propertyDeclaration value => some (c.propertyDeclaration value)
  | .eventDeclaration value => some (c.eventDeclaration value)
  | .statement value => some (c.statement value)
  | .expression value => some (c.expression value)
  | .type value => some (c.type value)
  | .fieldDescription _ | .methodDescription _ | .propertyDescription _ | .eventDescription _
  | .put _ => none

/-- The reply to a call that renders nothing. -/
def told (c : Context) : Call → Reply
  | .fieldDescription value => describe c.program.fieldDescription value
  | .methodDescription value => describe c.program.methodDescription value
  | .propertyDescription value => describe c.program.propertyDescription value
  | .eventDescription value => describe c.program.eventDescription value
  | .put token => ⟨[.token token], none, none⟩
  | _ => ⟨[], none, none⟩

/-- The reply of a writer that offers the call and is in the middle of nothing. -/
def offered (c : Context) (call : Call) : Reply := (call.script? c).elim (call.told c) .ofScript

def reply (c : Context) (call : Call) : Reply :=
  if c.layer.covers call.layer then call.offered c else .ofScript (.fail .notOffered)

end Call

/-- A writer, and the layout of the render that it is in the middle of, if there is one. -/
structure Writer where
  context : Context
  active : Option Layout := none

namespace Writer

/-- Runs a script on the given layout. A fault leaves the layout as it was at that point. -/
def proceed (w : Writer) (layout : Layout) (s : Script) : Writer × Script.Outcome :=
  let outcome := s.run layout
  ({ w with active := some outcome.layout }, outcome)

/-- Drops the layout. -/
def close (w : Writer) : Writer := { w with active := none }

/-- A render joins the one in progress. Otherwise it opens a layout of its own, and drops it at its
end, be that a fault or not. -/
def render (w : Writer) (s : Script) : Writer × Script.Outcome :=
  match w.active with
  | some layout => w.proceed layout s
  | none =>
    let (w, outcome) := w.proceed {} s
    (w.close, outcome)

/-- The writer after a call, and its reply. -/
def call (w : Writer) (call : Call) : Writer × Reply :=
  if w.context.layer.covers call.layer then
    match call.script? w.context with
    | some s =>
      let (w, outcome) := w.render s
      (w, ⟨outcome.events, none, outcome.fault⟩)
    | none => (w, call.told w.context)
  else (w, .ofScript (.fail .notOffered))

end Writer

namespace Session

/-- The replies of a writer to a sequence of calls, each with the text that a plain sink at `margin`
adds. -/
def runFrom (w : Writer) (margin : Margin) : List Call → List (Reply × String)
  | [] => []
  | call :: rest =>
    let (w, reply) := w.call call
    let (margin, text) := margin.layout reply.tokens
    (reply, text) :: runFrom w margin rest

/-- The replies of a new writer. -/
def run (c : Context) (margin : Margin) (calls : List Call) : List (Reply × String) :=
  runFrom { context := c } margin calls

end Session

end Scribe
