import Scribe.Program

/-!
# Parts of entities

The fields of an entity, in a fixed order and with their names. Not all of them make two entities
alike: the links of a member to its owner and to other members are left out, and so are the members of
a type. Where an entity is shown as a whole, links back and members are left out too.
-/

namespace Scribe

/-- A field of an entity. -/
structure Part where
  name : String
  value : Value
  /-- Whether entities with different values here are different. -/
  compared : Bool := true
  /-- Whether the field is seen where the entity is shown. -/
  shown : Bool := compared

namespace Program

def typeParts (type : TypeSymbol) : List Part :=
  [{ name := "namespace", value := type.nameSpace },
    { name := "name", value := type.name },
    { name := "owner", value := type.owner, compared := false },
    { name := "generic_type", value := type.generic, compared := false },
    { name := "generic_arguments", value := type.arguments },
    { name := "assembly", value := type.assembly, compared := false },
    { name := "value_type", value := type.valueType }] ++
  type.declared.elim [] fun d =>
    [{ name := "visibility", value := d.visibility },
      { name := "abstract", value := d.abstract },
      { name := "sealed", value := d.sealed },
      { name := "interface", value := d.interface },
      { name := "base_type", value := d.base },
      { name := "interfaces", value := d.interfaces, compared := false },
      { name := "fields", value := d.fields, compared := false },
      { name := "methods", value := d.methods, compared := false },
      { name := "properties", value := d.properties, compared := false },
      { name := "events", value := d.events, compared := false },
      { name := "nested_types", value := d.nested, compared := false },
      { name := "attributes", value := d.attributes, compared := false }]

def fieldParts (field : FieldSymbol) : List Part :=
  [{ name := "name", value := field.name },
    { name := "field_type", value := field.type },
    { name := "declaring_type", value := field.owner, compared := false }] ++
  field.declared.elim [] fun d =>
    [{ name := "visibility", value := d.visibility },
      { name := "static", value := d.static },
      { name := "literal", value := d.literal },
      { name := "read_only", value := d.readOnly },
      { name := "special_name", value := d.specialName },
      { name := "runtime_special_name", value := d.runtimeSpecialName },
      { name := "initializer", value := d.initializer },
      { name := "attributes", value := d.attributes }]

def methodParts (method : MethodSymbol) : List Part :=
  [{ name := "name", value := method.name },
    { name := "declaring_type", value := method.owner, compared := false },
    { name := "return_type", value := method.result },
    { name := "parameters", value := method.parameters },
    { name := "generic_arguments", value := method.arguments },
    { name := "generic_method", value := method.generic, compared := false },
    { name := "varargs", value := method.variadic }] ++
  method.declared.elim [] fun d =>
    [{ name := "visibility", value := d.visibility },
      { name := "static", value := d.static },
      { name := "abstract", value := d.abstract },
      { name := "virtual", value := d.virtual },
      { name := "final", value := d.final },
      { name := "new_slot", value := d.newSlot },
      { name := "special_name", value := d.specialName },
      { name := "external", value := d.external },
      { name := "body", value := d.body },
      { name := "attributes", value := d.attributes },
      { name := "return_attributes", value := d.resultAttributes }]

def propertyParts (property : PropertySymbol) : List Part :=
  [{ name := "name", value := property.name },
    { name := "property_type", value := property.type },
    { name := "declaring_type", value := property.owner, compared := false },
    { name := "parameters", value := property.parameters },
    { name := "get_method", value := property.getter, compared := false, shown := true },
    { name := "set_method", value := property.setter, compared := false, shown := true }] ++
  property.declared.elim [] fun d =>
    [{ name := "initializer", value := d.initializer },
      { name := "attributes", value := d.attributes }]

def eventParts (event : EventSymbol) : List Part :=
  [{ name := "name", value := event.name },
    { name := "event_type", value := event.type },
    { name := "declaring_type", value := event.owner, compared := false }] ++
  event.declared.elim [] fun d =>
    [{ name := "add_method", value := d.add, compared := false, shown := true },
      { name := "remove_method", value := d.remove, compared := false, shown := true },
      { name := "invoke_method", value := d.invoke, compared := false, shown := true },
      { name := "attributes", value := d.attributes }]

def assemblyParts (assembly : AssemblySymbol) : List Part :=
  [{ name := "name", value := assembly.name },
    { name := "version", value := assembly.version }] ++
  assembly.declared.elim [] fun d =>
    [{ name := "kind", value := d.kind },
      { name := "location", value := d.location },
      { name := "attributes", value := d.attributes },
      { name := "modules", value := d.modules, shown := false }]

def moduleParts (module : ModuleSymbol) : List Part :=
  { name := "name", value := module.name } ::
  module.declared.elim [] fun d =>
    [{ name := "version", value := d.version },
      { name := "location", value := d.location },
      { name := "size", value := d.size },
      { name := "attributes", value := d.attributes }]

def parts (p : Program) : Entity → List Part
  | ⟨.type, i⟩ => typeParts (p.type ⟨i⟩)
  | ⟨.genericParameter, i⟩ =>
    let parameter := p.genericParameter ⟨i⟩
    [{ name := "name", value := parameter.name }, { name := "position", value := parameter.position }]
  | ⟨.field, i⟩ => fieldParts (p.field ⟨i⟩)
  | ⟨.method, i⟩ => methodParts (p.method ⟨i⟩)
  | ⟨.property, i⟩ => propertyParts (p.property ⟨i⟩)
  | ⟨.event, i⟩ => eventParts (p.event ⟨i⟩)
  | ⟨.parameter, i⟩ =>
    let parameter := p.parameter ⟨i⟩
    [{ name := "name", value := parameter.name },
      { name := "parameter_type", value := parameter.type },
      { name := "attributes", value := parameter.attributes }]
  | ⟨.variable, i⟩ =>
    let bound := p.localVariable ⟨i⟩
    [{ name := "name", value := bound.name }, { name := "variable_type", value := bound.type }]
  | ⟨.assembly, i⟩ => assemblyParts (p.assembly ⟨i⟩)
  | ⟨.module, i⟩ => moduleParts (p.module ⟨i⟩)
  | ⟨.nameSpace, i⟩ =>
    let space := p.nameSpace ⟨i⟩
    [{ name := "name", value := space.name }, { name := "types", value := space.types }]
  | ⟨.resource, i⟩ =>
    let resource := p.resource ⟨i⟩
    [{ name := "name", value := resource.name },
      { name := "visibility", value := resource.visibility },
      { name := "data", value := resource.data },
      { name := "location", value := resource.location }]

/-- What makes two entities alike. -/
def compared (p : Program) (e : Entity) : List Value :=
  ((p.parts e).filter (·.compared)).map (·.value)

end Program

end Scribe
