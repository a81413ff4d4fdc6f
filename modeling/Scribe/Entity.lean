/-!
# Entities of a code model

Types, members, variables and containers have an identity of their own: two references to one
method are the same method, and two methods may agree in every detail and still be two. They live
in the tables of a `Program` and are referred to by their place there.
-/

namespace Scribe

/-- The tables of a program. -/
inductive EntityKind
  | type | genericParameter | field | method | property | event | parameter | variable
  | assembly | module | nameSpace | resource
deriving DecidableEq, Repr

/-- A place in the table of one kind. -/
structure Id (kind : EntityKind) where
  index : Nat
deriving DecidableEq, Repr

abbrev TypeId := Id .type
abbrev GenericParameterId := Id .genericParameter
abbrev FieldId := Id .field
abbrev MethodId := Id .method
abbrev PropertyId := Id .property
abbrev EventId := Id .event
abbrev ParameterId := Id .parameter
abbrev VariableId := Id .variable
abbrev AssemblyId := Id .assembly
abbrev ModuleId := Id .module
abbrev NameSpaceId := Id .nameSpace
abbrev ResourceId := Id .resource

/-- A place in any table. -/
structure Entity where
  kind : EntityKind
  index : Nat
deriving DecidableEq, Repr

namespace Id

/-- Forgets which table the place is known to belong to. -/
def entity {kind : EntityKind} (id : Id kind) : Entity := ⟨kind, id.index⟩

@[simp] theorem entity_inj {kind : EntityKind} {a b : Id kind} : a.entity = b.entity ↔ a = b := by
  cases a; cases b; simp [entity]

end Id

/-- What a token leads to: an entity, or a statement that has a name. Statements are parts of trees
and have no table; a mark tells them apart. -/
inductive Target
  | entity (value : Entity)
  | statement (mark : Nat)
deriving DecidableEq, Repr

/-- An entity of a known kind as a target. -/
def Id.target {kind : EntityKind} (id : Id kind) : Target := .entity id.entity

end Scribe
