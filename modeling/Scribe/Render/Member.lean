import Scribe.Render.Code

/-!
# Member declarations

Custom attributes, fields, methods, properties and events.
-/

namespace Scribe

open Script

/-- What the attributes of a list are attached to, where that is written with them. -/
inductive AttributeTarget
  | entity | result | assembly | module
deriving DecidableEq, Repr

/-- The keywords of the visibilities of members. -/
def visibilityKeywords : List (String × String) := [
  ("public", "public"), ("private", "strict private"), ("private_scope", "private \x7bscope\x7d"),
  ("family", "strict protected"), ("assembly", "private"), ("family_or_assembly", "protected"),
  ("family_and_assembly", "protected \x7binternal\x7d")]

/-- The keyword of a visibility. -/
def visibilityKeyword (visibility : Value) : Except Fault String :=
  match visibility.lookup? visibilityKeywords with
  | some keyword => .ok keyword
  | none => .error (visibility.unknown .visibility)

/-- Keywords before a declaration, each followed by a space. -/
def modifierText (keywords : List String) : String := String.join (keywords.map (· ++ " "))

/-- The constructor that an attribute calls and the arguments. A new object will do for one. -/
def Value.attribute? : Value → Option (Value × Value)
  | .attribute constructor arguments => some (constructor, arguments)
  | .expr (.objectCreate _ constructor arguments _) => some (constructor, arguments)
  | _ => none

namespace Program

/-- An attribute is named after the type that its constructor belongs to. -/
def attributeName (p : Program) (a : Value) : Except Fault String :=
  match a.attribute? with
  | some (constructor, _) =>
    (p.ownerSlot constructor).bind fun owner =>
      if owner.isNull then .error .noDeclaringType
      else match (p.named? owner).map Named.name with
        | some (.scalar (.text name)) => .ok name
        | _ => .error .malformed
  | none => .error .malformed

/-- The attributes that are written: the value of a parameter's default is not. Every attribute
must have a name. -/
def shownAttributes (p : Program) : List Value → Except Fault (List Value)
  | [] => .ok []
  | first :: rest => do
    let name ← p.attributeName first
    let rest ← p.shownAttributes rest
    return if name == "DefaultParameterValueAttribute" then rest else first :: rest

/-- The name without `Attribute` at its end, unless it is all of the name. -/
def shortAttributeName (name : String) : String :=
  if name.endsWith "Attribute" && name != "Attribute" then
    String.ofList (name.toList.take (name.length - "Attribute".length))
  else name

/-- The keywords before the name of a method; none before one that is not declared here. -/
def methodModifiers (p : Program) (method : Value) : Except Fault (List String) :=
  match (method.id? .method).bind fun id => (p.method id).declared with
  | some d => do
    let keyword ← visibilityKeyword d.visibility
    return if d.static.isSet then [keyword, "class"] else [keyword]
  | none => .ok []

/-- The description of what should be a method. -/
def methodSlotDescription (p : Program) (method : Value) : Except Fault String :=
  match method.id? .method with
  | some id => p.methodDescription id
  | none => .error .malformed

end Program

namespace Context

/-- An attribute by its name, with the arguments of its constructor. -/
def attributeUse (c : Context) (a : Value) : Script :=
  given (c.program.attributeName a) fun name =>
    match a.attribute? with
    | some (.entity constructor, arguments) =>
      given (c.program.methodSlotDescription (.entity constructor)) fun tooltip =>
        reference (.ofText (Program.shortAttributeName name)) tooltip (.entity constructor) ++
          (if arguments.isSet then parenthesized (commaSeparated (c.exprItems arguments)) else ∅)
    | _ => fail .malformed

/-- Attributes of a container have a line each, and all others share one. -/
def attributeLines (c : Context) (target : AttributeTarget) (shown : List Value) : Script :=
  let lines (opening : String) : Script :=
    lineBreak ++ concat (shown.map fun a => between opening "]" (c.attributeUse a) ++ lineBreak)
  let line (opening : Script) : Script :=
    opening ++ commaSeparated (shown.map c.attributeUse) ++ text "]" ++ lineBreak
  match target with
  | .assembly => lines "[assembly: "
  | .module => lines "[module: "
  | .entity => line (text "[")
  | .result => line (text "[" ++ text "return: ")

/-- The attributes of an entity, where the style shows them. -/
def attributes (c : Context) (target : AttributeTarget) (attributes : Value) : Script :=
  if c.style.showAttributes then
    given (attributes.items.bind c.program.shownAttributes) fun
      | [] => ∅
      | shown => c.attributeLines target shown
  else ∅

/-- What a field starts out with. Raw data is only measured. -/
def fieldValue (c : Context) (initializer : Value) (ending : Script) : Script :=
  match initializer with
  | .expr (.literal (.scalar (.bytes data)) _) =>
    text ("; // data size: " ++ toString data.length ++ " bytes")
  | _ => initializer.optionally (text " = " ++ c.exprSlot initializer) ++ ending

/-- Keywords of a field that is not an element of an enumeration. -/
def fieldModifiers (d : FieldDetails) : Script :=
  given (visibilityKeyword d.visibility) fun keyword => text (keyword ++ " ") ++
    (if d.static.isSet && d.literal.isSet then text "const "
      else (if d.static.isSet then text "class var " else ∅) ++
        (if d.readOnly.isSet then text "\x7breadonly\x7d " else ∅))

/-- A field of a type. An element of an enumeration shows neither keywords nor its type. -/
def fieldDetails (c : Context) (id : FieldId) (d : FieldDetails) : Script :=
  let field := c.program.field id
  if (field.owner.id? .type).any c.program.isEnumeration then
    c.attributes .entity d.attributes ++ declaration field.name (some id.target) ++
      c.fieldValue d.initializer ∅
  else
    c.attributes .entity d.attributes ++ fieldModifiers d ++
      declaration field.name (some id.target) ++ text ": " ++ c.program.typeSlot field.type ++
      c.fieldValue d.initializer (text ";")

def fieldDeclaration (c : Context) (field : Value) : Script :=
  match field with
  | .entity ⟨.field, i⟩ =>
    (c.program.field ⟨i⟩).declared.elim (fail .malformed) (c.fieldDetails ⟨i⟩)
  | _ => fail .malformed

/-- What stands before the name of a method: the type that it is a property of, or the attributes
and keywords of a method without a body. -/
def methodHead (c : Context) (id : MethodId) (d : MethodDetails) : Script :=
  if d.body.isNull then
    c.attributes .entity d.attributes ++ c.attributes .result d.resultAttributes ++
      given ((c.program.methodModifiers (.entity id.entity)).map modifierText) text ++
      (if d.abstract.isSet then text "abstract " else ∅) ++
      (if d.external.isSet then text "extern " else ∅)
  else
    c.program.ownerOf (c.program.method id).owner ++
      (if (c.program.method id).owner.isNull || d.static.isSet then ∅ else text "prototype.")

def methodDetails (c : Context) (id : MethodId) (d : MethodDetails) : Script :=
  let method := c.program.method id
  c.methodHead id d ++
    declaration (method.name.mapText (Identifier.ofMethod · d.specialName.isSet))
      (some id.target) ++
    text " = function(" ++ c.program.parameterList method.parameters ++ text ") \x7b" ++
    lineBreak ++
    indented (c.functionBody d.body (d.body.optionally (c.stmtSlot d.body))) ++ text "\x7d"

/-- The note of a declaration, and what follows it. -/
def noted (c : Context) (kind : String) (declared : Value) (next : Named → Script) : Script :=
  match c.program.named? declared with
  | some named =>
    given named.name.asName fun name => step (.log (.declaration kind name)) ++ next named
  | none => fail .malformed

def methodDeclaration (c : Context) (method : Value) : Script :=
  c.noted "method" method fun
    | ⟨.entity ⟨.method, i⟩, _⟩ =>
      (c.program.method ⟨i⟩).declared.elim (fail .malformed) (c.methodDetails ⟨i⟩)
    | _ => fail .malformed

/-- An accessor of a property, with its keywords where they are not those of the property. -/
def accessor (c : Context) (word : String) (shared own : List String) (accessor : Value) : Script :=
  accessor.optionally (
    text (" " ++ word ++ " ") ++
      (if own = shared then ∅ else text ("\x7b" ++ " ".intercalate own ++ "\x7d ")) ++
      c.program.accessorName accessor)

/-- A property whose accessors have the given keywords. The property takes those of its getter, or
of its setter if it has no getter. -/
def propertyLine (c : Context) (id : PropertyId) (d : PropertyDetails)
    (getter setter : List String) : Script :=
  let property := c.program.property id
  let shared := if property.getter.isNull then setter else getter
  text (modifierText shared) ++ text "property " ++ declaration property.name (some id.target) ++
    (if property.parameters.isSet then parenthesized (c.program.parameterList property.parameters)
      else ∅) ++
    text ": " ++ c.program.typeSlot property.type ++
    c.accessor "read" shared getter property.getter ++
    c.accessor "write" shared setter property.setter ++
    d.initializer.optionally (between " /* = " " */" (c.exprSlot d.initializer)) ++ text ";"

def propertyDetails (c : Context) (id : PropertyId) (d : PropertyDetails) : Script :=
  let property := c.program.property id
  c.attributes .entity d.attributes ++
    given (c.program.methodModifiers property.getter) fun getter =>
      given (c.program.methodModifiers property.setter) fun setter =>
        c.propertyLine id d getter setter

def propertyDeclaration (c : Context) (property : Value) : Script :=
  match property with
  | .entity ⟨.property, i⟩ =>
    (c.program.property ⟨i⟩).declared.elim (fail .malformed) (c.propertyDetails ⟨i⟩)
  | _ => fail .malformed

/-- Keywords of an event, taken from the method that adds a listener. -/
def eventModifiers (c : Context) (owner add : Value) : Script :=
  let inInterface := (owner.id? .type).any fun t =>
    (c.program.type t).declared.any (·.interface.isSet)
  match (add.id? .method).bind fun id => (c.program.method id).declared with
  | some d =>
    (if inInterface then ∅
      else given (visibilityKeyword d.visibility) fun keyword => text (keyword ++ " ")) ++
    (if d.static.isSet then text "static " else ∅)
  | none => ∅

def eventDetails (c : Context) (id : EventId) (d : EventDetails) : Script :=
  let event := c.program.event id
  c.attributes .entity d.attributes ++ c.eventModifiers event.owner d.add ++ text "event " ++
    c.program.typeSlot event.type ++ text " " ++ declaration event.name (some id.target) ++
    text ";"

def eventDeclaration (c : Context) (event : Value) : Script :=
  match event with
  | .entity ⟨.event, i⟩ =>
    (c.program.event ⟨i⟩).declared.elim (fail .malformed) (c.eventDetails ⟨i⟩)
  | _ => fail .malformed

end Context

end Scribe
