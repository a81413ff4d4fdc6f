import Scribe.Tree

/-!
# Programs

A `Program` holds one table for each kind of entity. An entity that is declared in the program has
details beyond those of a mere reference to it; they stand in the `declared` field. A place beyond
the end of a table holds the default entity. The fields of entities are slots like those of trees:
names and flags, links to other entities and lists of them are all `Value`s.
-/

namespace Scribe

structure TypeDetails where
  visibility : Value
  abstract : Value
  sealed : Value
  interface : Value
  base : Value
  interfaces : Value
  fields : Value
  methods : Value
  properties : Value
  events : Value
  nested : Value
  attributes : Value

/-- A named type. `generic` is the definition that an instantiation was made from. -/
structure TypeSymbol where
  nameSpace : Value := .null
  name : Value := .null
  owner : Value := .null
  generic : Value := .null
  arguments : Value := .null
  assembly : Value := .null
  valueType : Value := .null
  declared : Option TypeDetails := none
deriving Inhabited

structure GenericParameterSymbol where
  name : Value := .null
  position : Value := .null
deriving Inhabited

structure FieldDetails where
  visibility : Value
  static : Value
  literal : Value
  readOnly : Value
  specialName : Value
  runtimeSpecialName : Value
  initializer : Value
  attributes : Value

structure FieldSymbol where
  name : Value := .null
  type : Value := .null
  owner : Value := .null
  declared : Option FieldDetails := none
deriving Inhabited

structure MethodDetails where
  visibility : Value
  static : Value
  abstract : Value
  virtual : Value
  final : Value
  newSlot : Value
  specialName : Value
  external : Value
  body : Value
  attributes : Value
  resultAttributes : Value

structure MethodSymbol where
  name : Value := .null
  owner : Value := .null
  result : Value := .null
  parameters : Value := .null
  arguments : Value := .null
  generic : Value := .null
  variadic : Value := .null
  declared : Option MethodDetails := none
deriving Inhabited

structure PropertyDetails where
  initializer : Value
  attributes : Value

structure PropertySymbol where
  name : Value := .null
  type : Value := .null
  owner : Value := .null
  parameters : Value := .null
  getter : Value := .null
  setter : Value := .null
  declared : Option PropertyDetails := none
deriving Inhabited

structure EventDetails where
  add : Value
  remove : Value
  invoke : Value
  attributes : Value

structure EventSymbol where
  name : Value := .null
  type : Value := .null
  owner : Value := .null
  declared : Option EventDetails := none
deriving Inhabited

/-- A parameter. One without a type at the end of a list stands for a variable argument list. -/
structure ParameterSymbol where
  name : Value := .null
  type : Value := .null
  attributes : Value := .null
deriving Inhabited

structure VariableSymbol where
  name : Value := .null
  type : Value := .null
deriving Inhabited

structure AssemblyDetails where
  kind : Value
  location : Value
  attributes : Value
  modules : Value

structure AssemblySymbol where
  name : Value := .null
  version : Value := .null
  declared : Option AssemblyDetails := none
deriving Inhabited

structure ModuleDetails where
  version : Value
  location : Value
  size : Value
  attributes : Value

structure ModuleSymbol where
  name : Value := .null
  declared : Option ModuleDetails := none
deriving Inhabited

structure NameSpaceSymbol where
  name : Value := .null
  types : Value := .null
deriving Inhabited

structure ResourceSymbol where
  name : Value := .null
  visibility : Value := .null
  data : Value := .null
  location : Value := .null
deriving Inhabited

/-- The tables of all entities. -/
structure Program where
  types : Array TypeSymbol := #[]
  genericParameters : Array GenericParameterSymbol := #[]
  fields : Array FieldSymbol := #[]
  methods : Array MethodSymbol := #[]
  properties : Array PropertySymbol := #[]
  events : Array EventSymbol := #[]
  parameters : Array ParameterSymbol := #[]
  locals : Array VariableSymbol := #[]
  assemblies : Array AssemblySymbol := #[]
  modules : Array ModuleSymbol := #[]
  nameSpaces : Array NameSpaceSymbol := #[]
  resources : Array ResourceSymbol := #[]
deriving Inhabited

/-- Something that has a name, and what a token of that name leads to. -/
structure Named where
  target : Target
  name : Value

namespace Program

def type (p : Program) (id : TypeId) : TypeSymbol := p.types.getD id.index default
def genericParameter (p : Program) (id : GenericParameterId) : GenericParameterSymbol :=
  p.genericParameters.getD id.index default
def field (p : Program) (id : FieldId) : FieldSymbol := p.fields.getD id.index default
def method (p : Program) (id : MethodId) : MethodSymbol := p.methods.getD id.index default
def property (p : Program) (id : PropertyId) : PropertySymbol := p.properties.getD id.index default
def event (p : Program) (id : EventId) : EventSymbol := p.events.getD id.index default
def parameter (p : Program) (id : ParameterId) : ParameterSymbol :=
  p.parameters.getD id.index default
def localVariable (p : Program) (id : VariableId) : VariableSymbol := p.locals.getD id.index default
def assembly (p : Program) (id : AssemblyId) : AssemblySymbol := p.assemblies.getD id.index default
def module (p : Program) (id : ModuleId) : ModuleSymbol := p.modules.getD id.index default
def nameSpace (p : Program) (id : NameSpaceId) : NameSpaceSymbol :=
  p.nameSpaces.getD id.index default
def resource (p : Program) (id : ResourceId) : ResourceSymbol := p.resources.getD id.index default

/-- The name of an entity of any kind. -/
def nameOf (p : Program) : Entity → Value
  | ⟨.type, i⟩ => (p.type ⟨i⟩).name
  | ⟨.genericParameter, i⟩ => (p.genericParameter ⟨i⟩).name
  | ⟨.field, i⟩ => (p.field ⟨i⟩).name
  | ⟨.method, i⟩ => (p.method ⟨i⟩).name
  | ⟨.property, i⟩ => (p.property ⟨i⟩).name
  | ⟨.event, i⟩ => (p.event ⟨i⟩).name
  | ⟨.parameter, i⟩ => (p.parameter ⟨i⟩).name
  | ⟨.variable, i⟩ => (p.localVariable ⟨i⟩).name
  | ⟨.assembly, i⟩ => (p.assembly ⟨i⟩).name
  | ⟨.module, i⟩ => (p.module ⟨i⟩).name
  | ⟨.nameSpace, i⟩ => (p.nameSpace ⟨i⟩).name
  | ⟨.resource, i⟩ => (p.resource ⟨i⟩).name

/-- Entities have names, and so have jumps and labeled statements. -/
def named? (p : Program) : Value → Option Named
  | .entity e => some ⟨.entity e, p.nameOf e⟩
  | .stmt (.goto mark label) => some ⟨.statement mark, label⟩
  | .stmt (.labeled mark label _) => some ⟨.statement mark, label⟩
  | _ => none

end Program

end Scribe
