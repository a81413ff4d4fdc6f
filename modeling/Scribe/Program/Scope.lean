import Scribe.Tree.View

/-!
# Names and roles of types

A type is named through the types that enclose it, down to a namespace. A chain of enclosing types
that has more links than there are types does not end, and a chain may also lead to something that
is no type: such types have no name.
-/

namespace Scribe

/-- The namespace of the types that every program knows. -/
def coreNameSpace : String := "System"

/-- The built-in names of types of the core namespace. -/
def builtinNames : List (String × String) := [
  ("Void", "void"), ("Object", "TObject"), ("String", "string"), ("SByte", "Shortint"),
  ("Byte", "Byte"), ("Int16", "Smallint"), ("UInt16", "Word"), ("Int32", "Integer"),
  ("UInt32", "Cardinal"), ("Int64", "Int64"), ("UInt64", "UInt64"), ("Char", "Char"),
  ("Boolean", "boolean"), ("Single", "Single"), ("Double", "Double"), ("Decimal", "Decimal")]

namespace Program

/-- Whether the dotted name of a type has something before the type's own name. -/
def isQualified (p : Program) (t : TypeId) : Bool :=
  !(p.type t).owner.isNull || (p.type t).nameSpace.isSet

/-- A namespace before the name of a type. -/
def nameSpaceQualifier (nameSpace : Value) : Except Fault String :=
  if nameSpace.isSet then nameSpace.asText.map (· ++ ".") else .ok ""

/-- What stands before the name of a type in its dotted name, after at most `links` links. -/
def qualifierWithin (p : Program) : Nat → TypeId → Except Fault String
  | links, t =>
    match (p.type t).owner, links with
    | .scalar .null, _ => nameSpaceQualifier (p.type t).nameSpace
    | .entity ⟨.type, i⟩, links + 1 =>
      (p.qualifierWithin links ⟨i⟩).bind fun qualifier =>
        (p.type ⟨i⟩).name.asText.map fun name => qualifier ++ name ++ "."
    | .entity ⟨.type, _⟩, 0 => .error .endlessNesting
    | _, _ => .error .malformed

/-- The enclosing types and the namespace of a type, each followed by a dot. -/
def qualifier (p : Program) (t : TypeId) : Except Fault String := p.qualifierWithin p.types.size t

/-- The dotted name of a type. A name that is no text can only stand alone. -/
def scope (p : Program) (t : TypeId) : Except Fault Value :=
  (p.qualifier t).bind fun qualifier =>
    match (p.type t).name with
    | .scalar (.text name) => .ok (.ofText (qualifier ++ name))
    | name => if p.isQualified t then .error .illTyped else .ok name

/-- The dotted name of a type where more text follows it. -/
def scopeText (p : Program) (t : TypeId) : Except Fault String := (p.scope t).bind Value.asText

/-- The built-in name of a type, if it has one. -/
def builtinName? (p : Program) (t : TypeId) : Option String :=
  match (p.type t).name with
  | .scalar (.text name) =>
    if (p.type t).nameSpace.isText coreNameSpace && (p.type t).owner.isNull then
      builtinNames.lookup name
    else none
  | _ => none

/-- The definition that a reference to a generic type instantiates, or the type itself. -/
def definition (p : Program) (t : TypeId) : Except Fault TypeId :=
  match (p.type t).generic with
  | .scalar .null => .ok t
  | .entity ⟨.type, i⟩ => .ok ⟨i⟩
  | _ => .error .malformed

/-- Whether `value` is the named type, under any number of custom modifiers. -/
def isType (p : Program) (nameSpace name : Scalar) : Value → Bool
  | .entity ⟨.type, i⟩ =>
    (p.type ⟨i⟩).nameSpace.isScalar nameSpace && (p.type ⟨i⟩).name.isScalar name
  | .type (.required element _) => p.isType nameSpace name element
  | .type (.optional element _) => p.isType nameSpace name element
  | _ => false

/-- Whether `value` is the named type of the core namespace. -/
def isCoreType (p : Program) (name : String) (value : Value) : Bool :=
  p.isType (.text coreNameSpace) (.text name) value

/-- Whether the base of a declared type is the named core type. -/
def hasBase (p : Program) (t : TypeId) (name : String) : Bool :=
  match (p.type t).declared with
  | some d => p.isCoreType name d.base
  | none => false

def isEnumeration (p : Program) (t : TypeId) : Bool := p.hasBase t "Enum"

def isDelegate (p : Program) (t : TypeId) : Bool :=
  p.hasBase t "MulticastDelegate" &&
    !((p.type t).nameSpace.isText coreNameSpace && (p.type t).name.isText "Delegate")

def isValueType (p : Program) (t : TypeId) : Bool :=
  (p.type t).valueType.isSet || p.hasBase t "ValueType"

/-- The first of the values with the given name. All before it must have names too. -/
def findNamed (p : Program) (name : Scalar) : List Value → Except Fault (Option Value)
  | [] => .ok none
  | first :: rest =>
    match p.named? first with
    | some named => if named.name.isScalar name then .ok (some first) else p.findNamed name rest
    | none => .error .malformed

/-- The first method of a declared type with the given name. -/
def findMethod (p : Program) (t : TypeId) (name : Scalar) : Except Fault (Option Value) :=
  match (p.type t).declared with
  | some d => d.methods.items.bind (p.findNamed name)
  | none => .ok none

end Program

end Scribe
