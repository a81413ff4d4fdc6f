import Scribe.Render.Member

/-!
# Types and containers

Type declarations with their members, and the headers of namespaces, modules, assemblies and
resources.
-/

namespace Scribe

open Script

namespace Script

/-- Members on lines of their own. -/
def lines (members : List Script) : Script := concat (members.map (lineBreak ++ ·))

/-- A group of members under its title, if there are any. -/
def group (title : String) (members : Value) (member : Value → Script) : Script :=
  if members.isSet then
    lineBreak ++ lineBreak ++ text ("// " ++ title) ++
      given members.items fun members => lines (members.map member)
  else ∅

/-- Nested types stand one level deeper than the other members. -/
def nestedGroup (members : Value) (member : Value → Script) : Script :=
  if members.isSet then
    lineBreak ++ lineBreak ++ text "// Nested Types" ++
      indented (given members.items fun members => lines (members.map member))
  else ∅

/-- A line of a header. -/
def headerLine (label value : String) : Script :=
  text ("// " ++ label ++ ": " ++ value) ++ lineBreak

end Script

namespace Program

/-- A text of a header that shows a value. -/
def shownText (p : Program) (before : String) (value : Value) (after : String) : Script :=
  given (p.plain value) fun shown => text ("// " ++ before ++ shown ++ after)

/-- A line of a header, left out where there is no value. -/
def detail (p : Program) (label : String) (value : Value) : Script :=
  value.optionally (p.shownText (label ++ ": ") value "" ++ lineBreak)

/-- A delegate that cannot be called, by its name. -/
def noInvoke (p : Program) (t : TypeId) : Fault := .showing (p.plain (p.type t).name) .noInvoke

/-- Whether a field is the value field that a compiler adds to an enumeration. -/
def isBackingField (p : Program) (owner : TypeId) (field : Value) : Except Fault Bool :=
  match field with
  | .entity ⟨.field, i⟩ =>
    match (p.field ⟨i⟩).declared with
    | some d => .ok (d.specialName.isSet && d.runtimeSpecialName.isSet &&
        !p.same (p.field ⟨i⟩).type (.entity owner.entity))
    | none => .error .malformed
  | _ => .error .malformed

/-- The fields that are written. All of them must be declared. -/
def fieldsWithoutBacking (p : Program) (owner : TypeId) : List Value → Except Fault (List Value)
  | [] => .ok []
  | first :: rest => do
    let isBacking ← p.isBackingField owner first
    let rest ← p.fieldsWithoutBacking owner rest
    return if isBacking then rest else first :: rest

/-- The fields of a type that are written. -/
def ownFields (p : Program) (owner : TypeId) (d : TypeDetails) : Except Fault (List Value) :=
  d.fields.items.bind (p.fieldsWithoutBacking owner)

/-- Whether a method returns a value. -/
def isFunction (p : Program) (method : MethodSymbol) : Bool :=
  !method.result.isNull && !p.isCoreType "Void" method.result

end Program

namespace Context

/-- A method written as the signature of a delegate. -/
def signature (c : Context) (id : MethodId) : Script :=
  let invoke := c.program.method id
  let isFunction := c.program.isFunction invoke
  text (if isFunction then " = function " else " = procedure ") ++
    declaration invoke.name (some id.target) ++
    parenthesized (c.program.parameterList invoke.parameters) ++
    (if isFunction then text ": " ++ c.program.typeSlot invoke.result else ∅) ++ text ";"

/-- A delegate is written as the signature of its `Invoke` method. -/
def delegateSignature (c : Context) (t : TypeId) : Script :=
  given (c.program.findMethod t (.text "Invoke")) fun
    | none => fail (c.program.noInvoke t)
    | some (.entity ⟨.method, i⟩) => c.signature ⟨i⟩
    | some _ => fail .malformed

def enumerationElement (c : Context) (field : Value) : Script :=
  match field with
  | .entity ⟨.field, i⟩ =>
    let initializer := (c.program.field ⟨i⟩).declared.elim .null (·.initializer)
    declaration (c.program.field ⟨i⟩).name (some (.entity ⟨.field, i⟩)) ++
      initializer.optionally (text "=" ++ c.exprSlot initializer)
  | _ => fail .malformed

def enumerationElements (c : Context) (t : TypeId) (d : TypeDetails) : Script :=
  between "(" ");" (given (c.program.ownFields t d) fun elements =>
    commaSeparated (elements.map c.enumerationElement))

/-- The line that makes the base of a type its prototype, where it has one other than `Object`. -/
def prototypeLine (c : Context) (t : TypeId) (d : TypeDetails) : Script :=
  if d.base.isNull || d.interface.isSet || c.program.isValueType t ||
      c.program.isCoreType "Object" d.base then ∅
  else
    lineBreak ++ given (c.program.scopeText t) fun scope =>
      text (scope ++ ".prototype = new ") ++ c.program.typeName d.base ++ text "();"

/-- What stands before the name of a type that has an owner or a namespace. An empty name has
nothing before it. -/
def typeQualifier (c : Context) (t : TypeId) : Script :=
  if c.program.isQualified t then
    if (c.program.type t).name.isSet then given (c.program.qualifier t) text else text ""
  else ∅

/-- A type declaration up to its members. -/
def typeHeader (c : Context) (t : TypeId) (d : TypeDetails) : Script :=
  c.attributes .entity d.attributes ++ given (c.program.scope t) fun _ =>
    c.typeQualifier t ++ declaration (c.program.type t).name (some t.target) ++
    (if c.program.isDelegate t then c.delegateSignature t
      else if c.program.isEnumeration t then c.enumerationElements t d
      else text " = function() \x7b \x7d;" ++ c.prototypeLine t d)

/-- The members of a type, group by group; `nested` renders a nested type. -/
def typeBody (c : Context) (t : TypeId) (d : TypeDetails) (nested : Value → Script) : Script :=
  given (c.program.ownFields t d) fun fields =>
    group "Events" d.events c.eventDeclaration ++
    group "Methods" d.methods c.methodDeclaration ++
    group "Properties" d.properties c.propertyDeclaration ++
    group "Fields" (.list fields) c.fieldDeclaration ++
    nestedGroup d.nested nested

/-- Whether the members of a type are written. -/
def showsBody (c : Context) (t : TypeId) : Bool :=
  c.style.showTypeBody && !c.program.isDelegate t && !c.program.isEnumeration t

/-- A type declaration whose types are nested less than `levels` deep. -/
def typeDeclarationWithin (c : Context) : Nat → Value → Script
  | 0, _ => fail .endlessNesting
  | levels + 1, type =>
    c.noted "type" type fun
      | ⟨.entity ⟨.type, i⟩, _⟩ =>
        match (c.program.type ⟨i⟩).declared with
        | none => fail .malformed
        | some d =>
          c.typeHeader ⟨i⟩ d ++
            (if c.showsBody ⟨i⟩ then c.typeBody ⟨i⟩ d (c.typeDeclarationWithin levels) else ∅)
      | _ => fail .malformed

/-- A type declaration. Types cannot be nested deeper than there are types. -/
def typeDeclaration (c : Context) (type : Value) : Script :=
  c.typeDeclarationWithin (c.program.types.size + 1) type

/-- The version after the name of an assembly, unless it is missing or empty. -/
def versionSuffix (version : Value) : Script :=
  match version with
  | .scalar (.text s) => if s.isEmpty then ∅ else text (", Version " ++ s)
  | _ => if version.isSet then fail .illTyped else ∅

def assemblyKinds : List (String × String) := [
  ("application", "Windows Application"), ("console", "Console Application"),
  ("library", "Library")]

def assemblyKind (kind : Value) : Script :=
  kind.optionally (match kind.lookup? assemblyKinds with
    | some name => headerLine "Type" name
    | none => fail (kind.lookupFault .unknownAssemblyKind))

/-- A header after its note: words and a name. -/
def title (words : String) (named : Named) : Script :=
  text words ++ declaration named.name (some named.target)

def assembly (c : Context) (assembly : Value) : Script :=
  c.noted "assembly" assembly fun named =>
    title "// JS Assembly " named ++
    match named.target with
    | .entity ⟨.assembly, i⟩ =>
      versionSuffix (c.program.assembly ⟨i⟩).version ++ lineBreak ++
      match (c.program.assembly ⟨i⟩).declared with
      | some d =>
        c.attributes .assembly d.attributes ++ c.program.detail "Location" d.location ++
          assemblyKind d.kind
      | none => fail .malformed
    | _ => fail .malformed

/-- The version of what can have one: an assembly, or a module that is declared. -/
def versionOf (c : Context) : Target → Except Fault Value
  | .entity ⟨.assembly, i⟩ => .ok (c.program.assembly ⟨i⟩).version
  | .entity ⟨.module, i⟩ => match (c.program.module ⟨i⟩).declared with
    | some d => .ok d.version
    | none => .error .malformed
  | _ => .error .malformed

def assemblyReference (c : Context) (reference : Value) : Script :=
  match c.program.named? reference with
  | some named =>
    title "// Assembly Reference " named ++ lineBreak ++
      given (c.versionOf named.target) (c.program.detail "Version")
  | none => fail .malformed

def module (c : Context) (module : Value) : Script :=
  c.noted "module" module fun named =>
    title "// Module " named ++ lineBreak ++
    match (module.id? .module).bind fun id => (c.program.module id).declared with
    | some d =>
      c.attributes .module d.attributes ++ c.program.detail "Version" d.version ++
        c.program.detail "Location" d.location ++
        d.size.optionally (c.program.shownText "Size: " d.size " bytes" ++ lineBreak)
    | none => fail .malformed

def moduleReference (c : Context) (reference : Value) : Script :=
  match c.program.named? reference with
  | some named => title "// Module Reference " named ++ lineBreak
  | none => fail .malformed

/-- How many items the data of a resource has. -/
def dataSize (data : Value) : Except Fault Nat := data.items.map List.length

def resource (c : Context) (resource : Value) : Script :=
  match resource with
  | .entity ⟨.resource, i⟩ =>
    let resource := c.program.resource ⟨i⟩
    c.program.shownText "" resource.visibility " resource " ++
      declaration resource.name (some (.entity ⟨.resource, i⟩)) ++ lineBreak ++
      resource.data.optionally (given (dataSize resource.data) fun size =>
        headerLine "Size" (toString size ++ " bytes")) ++
      c.program.detail "Location" resource.location
  | _ => fail .malformed

/-- The types of a namespace, each between empty lines. -/
def nameSpaceBody (c : Context) : Target → Script
  | .entity ⟨.nameSpace, i⟩ =>
    given (c.program.nameSpace ⟨i⟩).types.items fun types =>
      concat (types.map fun t => lineBreak ++ c.typeDeclaration t ++ lineBreak)
  | _ => fail .malformed

def nameSpace (c : Context) (space : Value) : Script :=
  c.noted "namespace" space fun named =>
    title "// Namespace " named ++ lineBreak ++
      (if c.style.showNameSpaceBody then c.nameSpaceBody named.target else ∅)

end Context

end Scribe
