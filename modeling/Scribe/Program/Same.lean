import Scribe.Program.Kind
import Scribe.Program.Parts
import Scribe.Tree.Same

/-!
# Equality of entities

An entity is the same as itself, and as an entity of the same kind that agrees with it in all parts
that are compared. A variable is the same as no other variable.

Comparing entities may lead back to the same pair, so the comparison goes at most as deep as there
are pairs of entities; a pair that is still open then is taken to differ.
-/

namespace Scribe

namespace Program

/-- How many entities there are that can be compared in depth. -/
def size (p : Program) : Nat :=
  p.types.size + p.genericParameters.size + p.fields.size + p.methods.size + p.properties.size +
    p.events.size + p.parameters.size + p.assemblies.size + p.modules.size + p.nameSpaces.size +
    p.resources.size

/-- Whether two entities are of one kind and alike. -/
def sameDetails (p : Program) (eq : Comparison) (a b : Entity) : Bool :=
  a.kind != .variable && p.kindName a == p.kindName b &&
    (Value.alikeAll eq (p.compared a) (p.compared b)).1

/-- Equality of entities, at most `depth` comparisons deep. -/
def sameWithin (p : Program) : Nat → (a b : Entity) → Passed (a = b)
  | 0, a, b => ⟨a == b, fun h => by simp [h]⟩
  | depth + 1, a, b =>
    ⟨a == b || p.sameDetails ⟨Scalar.alike, p.sameWithin depth⟩ a b, fun h => by simp [h]⟩

/-- Scalars are the same by value, and entities by their details. -/
def equality (p : Program) : Comparison := ⟨Scalar.alike, p.sameWithin (p.size * p.size)⟩

/-- Equality of what slots hold. -/
def same (p : Program) (a b : Value) : Bool := a.same p.equality b

end Program

end Scribe
