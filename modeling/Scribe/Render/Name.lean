import Scribe.Render.Type

/-!
# Names of members and variables

References to members, parameters and variables, each with its description beside it. Where only a
name is written, anything with a name will do; a description needs an entity of the right kind.
-/

namespace Scribe

open Script

namespace Program

/-- The owner of a member, where the value is one. -/
def ownerSlot (p : Program) : Value → Except Fault Value
  | .entity ⟨.field, i⟩ => .ok (p.field ⟨i⟩).owner
  | .entity ⟨.method, i⟩ => .ok (p.method ⟨i⟩).owner
  | .entity ⟨.property, i⟩ => .ok (p.property ⟨i⟩).owner
  | .entity ⟨.event, i⟩ => .ok (p.event ⟨i⟩).owner
  | _ => .error .malformed

/-- The type that a member belongs to, as a reference of its own. -/
def memberOf (p : Program) (member : Value) : Script :=
  given (p.ownerSlot member) fun owner => if owner.isNull then ∅ else p.typeName owner ++ text "."

def fieldName (p : Program) (field : Value) : Script :=
  match field with
  | .entity ⟨.field, i⟩ =>
    given (p.fieldDescription ⟨i⟩) fun tooltip =>
      reference (p.field ⟨i⟩).name tooltip (.entity ⟨.field, i⟩)
  | _ => fail .malformed

/-- A method by its own name, with the description of the method that it leads to. -/
def methodReference (p : Program) (id leadsTo : MethodId) : Script :=
  given (p.methodDescription leadsTo) fun tooltip =>
    reference (p.method id).name tooltip leadsTo.target

/-- An instantiation of a generic method goes by its own name, but leads to its definition. -/
def methodName (p : Program) (method : Value) : Script :=
  match method with
  | .entity ⟨.method, i⟩ =>
    match (p.method ⟨i⟩).generic with
    | .scalar .null => p.methodReference ⟨i⟩ ⟨i⟩
    | .entity ⟨.method, j⟩ => p.methodReference ⟨i⟩ ⟨j⟩
    | _ => fail .malformed
  | _ => fail .malformed

def propertyName (p : Program) (id : PropertyId) : Script :=
  given (p.propertyDescription id) fun tooltip => reference (p.property id).name tooltip id.target

/-- A member that an initializer sets: a property or a field. -/
def memberName (p : Program) (member : Value) : Script :=
  match member with
  | .entity ⟨.property, i⟩ => p.propertyName ⟨i⟩
  | _ => p.fieldName member

def eventName (p : Program) (event : Value) : Script :=
  match event with
  | .entity ⟨.event, i⟩ =>
    given (p.eventDescription ⟨i⟩) fun tooltip =>
      reference (p.event ⟨i⟩).name tooltip (.entity ⟨.event, i⟩)
  | _ => fail .malformed

def accessorName (p : Program) (accessor : Value) : Script :=
  match accessor with
  | .entity ⟨.method, i⟩ => p.methodReference ⟨i⟩ ⟨i⟩
  | _ => fail .malformed

/-- Something with a name, used as an argument of the function around it. -/
def argumentUse (p : Program) (parameter : Value) : Script :=
  match p.named? parameter with
  | some named =>
    given (parameterDescription named.name) fun tooltip =>
      reference (parameterName named.name) tooltip named.target
  | none => fail .malformed

/-- Something with a name, used as a variable. -/
def variableUse (p : Program) (bound : Value) : Script :=
  match p.named? bound with
  | some named =>
    given (variableDescription named.name) fun tooltip => reference named.name tooltip named.target
  | none => fail .malformed

/-- Something with a name, declared as a variable. -/
def variableDeclaration (p : Program) (bound : Value) : Script :=
  match p.named? bound with
  | some named => declaration named.name (some named.target)
  | none => fail .malformed

/-- A type where it is constructed: the reference leads to the constructor. -/
def constructedType (p : Program) (t : TypeId) (constructor : Value) : Script :=
  match constructor with
  | .entity ⟨.method, i⟩ =>
    given (p.definition t) fun definition =>
      given (p.methodDescription ⟨i⟩) fun tooltip =>
        given ((p.scope definition).bind Value.asName) fun scope =>
          token (.reference (p.shownName definition scope) (.text tooltip)
            (some (.entity ⟨.method, i⟩)))
  | _ => fail .malformed

/-- The type of a new object, which leads to the constructor where both are known. -/
def createdType (p : Program) (constructor type : Value) : Script :=
  match type with
  | .entity ⟨.type, i⟩ =>
    if constructor.isNull then p.typeSlot type else p.constructedType ⟨i⟩ constructor
  | _ => p.typeSlot type

/-- A property without the accessor that is asked for, by its name. -/
def noAccessor (p : Program) (property : PropertyId) : Fault :=
  .showing (p.plain (p.property property).name) .noAccessor

/-- A call of a property's accessor on the target written before it. -/
def accessorCall (p : Program) (property : PropertyId) (accessor : Value) (target : Script)
    (arguments : List Script) : Script :=
  if accessor.isNull then fail (p.noAccessor property)
  else target ++ p.accessorName accessor ++ text "(" ++ commaSeparated arguments ++ text ")"

end Program

end Scribe
