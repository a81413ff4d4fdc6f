import Scribe.Render.Container

/-!
# Rendering

One entry for each thing that a writer can be asked for, and `Context.render`, which picks the
entry by the kind of what it is given.
-/

namespace Scribe

open Script

namespace Context

/-- A statement on its own. A block is written as a body. -/
def statement (c : Context) (v : Value) : Script :=
  match v with
  | .stmt (.block _) => body (c.stmtSlot v)
  | _ => step .openBody ++ c.stmtSlot v ++ step .finish

def expression (c : Context) (v : Value) : Script := c.exprSlot v

def type (c : Context) (v : Value) : Script := c.program.typeSlot v

/-- An entity of a program. Members can be rendered only where they are declared. -/
def entity (c : Context) (e : Entity) : Script :=
  match e.kind, c.program.isDeclared e with
  | .type, true => c.typeDeclaration (.entity e)
  | .type, false | .genericParameter, _ => c.type (.entity e)
  | .field, true => c.fieldDeclaration (.entity e)
  | .method, true => c.methodDeclaration (.entity e)
  | .property, true => c.propertyDeclaration (.entity e)
  | .event, true => c.eventDeclaration (.entity e)
  | .assembly, true => c.assembly (.entity e)
  | .assembly, false => c.assemblyReference (.entity e)
  | .module, true => c.module (.entity e)
  | .module, false => c.moduleReference (.entity e)
  | .nameSpace, _ => c.nameSpace (.entity e)
  | .resource, _ => c.resource (.entity e)
  | _, _ => fail (.unsupported .entity (.kind (c.program.kindName e)))

/-- Anything that can be rendered on its own. -/
def render (c : Context) : Value → Script
  | .entity e => c.entity e
  | .type t => c.type (.type t)
  | .expr e => c.expression (.expr e)
  | .stmt s => c.statement (.stmt s)
  | v => fail (.unsupported .entity (v.found c.program))

/-- The plain text of anything that can be rendered on its own. -/
def renderText (c : Context) (v : Value) : Except Fault String := (c.render v).plainText

end Context

end Scribe
