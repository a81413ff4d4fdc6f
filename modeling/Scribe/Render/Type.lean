import Scribe.Program.Scope
import Scribe.Script
import Scribe.Style
import Scribe.Tree.Display

/-!
# Types and descriptions

How types are written, and the one-line descriptions of members that are shown beside references
to them.
-/

namespace Scribe

open Script

namespace Value

/-- Nothing is written for a dimension that starts at zero or has no upper bound. -/
def dimensionText : Value → Except Fault String
  | .bounds lower upper =>
    if lower.same (.int 0) || upper.same (.int (-1)) then .ok ""
    else do
      let first ← if lower.same (.int (-1)) then .ok "." else lower.told Scalar.plain
      let last ← upper.told Scalar.plain
      return first ++ ".." ++ last
  | _ => .error .malformed

/-- The dimensions of an array, with commas between them. -/
def dimensionsText (dimensions : Value) : Except Fault String :=
  dimensions.items.bind fun items => (items.mapM dimensionText).map (",".intercalate ·)

/-- The items of something that is no list, where `item` is the script of one item. -/
def strays (v : Value) (item : Value → Script) : List Script :=
  match v.items with
  | .ok items => items.map item
  | .error fault => [fail fault]

end Value

namespace Program

/-- A type by its built-in name, or by its dotted name. -/
def shownName (p : Program) (t : TypeId) (scope : Scalar) : Scalar :=
  match p.builtinName? t with
  | some name => .text name
  | none => scope.mapText Identifier.referenced

/-- A named type. An instantiation of a generic type is written as its definition. -/
def typeName (p : Program) (type : Value) : Script :=
  match type with
  | .entity ⟨.type, i⟩ =>
    given (p.definition ⟨i⟩) fun definition =>
      given ((p.scope definition).bind Value.asName) fun scope =>
        token (.reference (p.shownName definition scope) scope (some definition.target))
  | _ => fail .malformed

mutual

/-- What a slot for a type holds. -/
def typeSlot (p : Program) : Value → Script
  | .scalar .null => fail .missingType
  | .entity ⟨.type, i⟩ => p.typeName (.entity ⟨.type, i⟩)
  | .entity ⟨.genericParameter, i⟩ => content (p.genericParameter ⟨i⟩).name
  | .type tree => p.typeTree tree
  | value => fail (.unsupported .type (value.found p))

def typeTree (p : Program) : TypeTree → Script
  | .bare => fail (.unsupported .type (.kind "Type"))
  | .array element dimensions =>
    p.typeSlot element ++ given dimensions.dimensionsText fun inner => text ("[" ++ inner ++ "]")
  | .pointer element => p.typeSlot element ++ text "*"
  | .reference element => p.typeSlot element
  | .required element modifier =>
    p.typeSlot element ++ text " modreq(" ++ p.typeName modifier ++ text ")"
  | .optional element modifier =>
    p.typeSlot element ++ text " modopt(" ++ p.typeName modifier ++ text ")"
  | .functionPointer result parameters =>
    (if result.isNull then text "void" else p.typeSlot result) ++ text " *(" ++
      commaSeparated (p.typeItems parameters) ++ text ")"
  | .genericArgument _ target =>
    if target.isNull then fail .unresolvedArgument else p.typeSlot target

/-- The types of a list. -/
def typeItems (p : Program) : Value → List Script
  | .list items => p.typeSlots items
  | v => v.strays fun item => fail (.unsupported .type (item.found p))

def typeSlots (p : Program) : List Value → List Script
  | [] => []
  | first :: rest => p.typeSlot first :: p.typeSlots rest

end

/-- The type of a result; `void` where there is none. -/
def resultType (p : Program) (type : Value) : Script :=
  if type.isNull then text "void" else p.typeSlot type

/-- The name of a parameter; one without a name is called `A`. -/
def parameterName (name : Value) : Value := if name.isSet then name else .ofText "A"

/-- A parameter where it is declared. -/
def parameterDeclaration (p : Program) (parameter : Value) : Script :=
  match parameter with
  | .entity ⟨.parameter, i⟩ =>
    declaration (parameterName (p.parameter ⟨i⟩).name) (some (.entity ⟨.parameter, i⟩))
  | _ => fail .malformed

/-- Whether a parameter has no type. -/
def isUntyped (p : Program) (parameter : Value) : Bool :=
  match parameter with
  | .entity ⟨.parameter, i⟩ => (p.parameter ⟨i⟩).type.isNull
  | _ => false

/-- The parameters that have a name in a list: all but a last one without a type. -/
def namedParameters (p : Program) (parameters : List Value) : List Value :=
  match parameters.getLast? with
  | some last => if p.isUntyped last then parameters.dropLast else parameters
  | none => []

def parameterList (p : Program) (parameters : Value) : Script :=
  given parameters.items fun parameters =>
    commaSeparated ((p.namedParameters parameters).map p.parameterDeclaration)

/-- The type that a member belongs to, before the member's name. -/
def ownerOf (p : Program) (owner : Value) : Script :=
  match owner with
  | .scalar .null => ∅
  | .entity ⟨.type, i⟩ => given (p.scopeText ⟨i⟩) fun scope => text (scope ++ ".")
  | _ => fail .malformed

/-- The plain text of a name where it is declared. -/
def declaredText (name : Value) : Except Fault String :=
  name.asName.bind fun name => (name.mapText Identifier.declared).told Scalar.plain

/-- The description of a variable with the given name. -/
def variableDescription (name : Value) : Except Fault String :=
  (declaredText name).map fun name => "var " ++ name ++ "; // Local Variable"

/-- The description of a parameter with the given name. -/
def parameterDescription (name : Value) : Except Fault String :=
  (declaredText (parameterName name)).map fun name => name ++ "; // Parameter"

def fieldDescription (p : Program) (id : FieldId) : Except Fault String :=
  let field := p.field id
  (p.typeSlot field.type ++ text " " ++ p.ownerOf field.owner ++ declaration field.name none ++
    text ";").plainText

/-- What stands for the variable arguments of a method, after its parameters. -/
def variadicMark (method : MethodSymbol) : Script :=
  if method.variadic.isSet then text (if method.parameters.isSet then ", ..." else "...") else ∅

/-- Whether a name is that of a constructor or a type initializer. -/
def isConstructor : Value → Bool
  | .scalar (.text name) => Identifier.isConstructor name
  | _ => false

def methodDescription (p : Program) (id : MethodId) : Except Fault String :=
  let method := p.method id
  ((if isConstructor method.name then ∅ else p.resultType method.result ++ text " ") ++
    p.ownerOf method.owner ++
    declaration (method.name.mapText (Identifier.ofMethod · false)) none ++ text "(" ++
    p.parameterList method.parameters ++ variadicMark method ++ text ");").plainText

/-- An indexer is called `this`. -/
def propertyDescription (p : Program) (id : PropertyId) : Except Fault String :=
  let property := p.property id
  (p.typeSlot property.type ++ text " " ++ p.ownerOf property.owner ++
    (if property.name.isText "Item" then text "this" else declaration property.name none) ++
    (if property.parameters.isSet then text "[" ++ p.parameterList property.parameters ++ text "]"
      else ∅) ++
    text " \x7b" ++
    (if property.getter.isNull then ∅ else text " get;") ++
    (if property.setter.isNull then ∅ else text " set;") ++
    text " \x7d").plainText

def eventDescription (p : Program) (id : EventId) : Except Fault String :=
  let event := p.event id
  (text "event " ++ p.typeSlot event.type ++ text " " ++ p.ownerOf event.owner ++
    declaration event.name none ++ text ";").plainText

end Program

end Scribe
