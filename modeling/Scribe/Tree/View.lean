import Scribe.Fault

/-!
# Readings of a slot

What the reader of a slot takes its contents for, and the fault where that cannot be.
-/

namespace Scribe

namespace Value

/-- The items of a list. A text has its characters, and bytes are a list of numbers. -/
def items : Value → Except Fault (List Value)
  | .list items => .ok items
  | .scalar (.text s) => .ok (s.toList.map fun c => .ofText c.toString)
  | .scalar (.bytes b) => .ok (b.map fun n => .scalar (.int n.toNat))
  | _ => .error .illTyped

/-- A name. It should be a text, but any scalar can be written in place of one. -/
def asName : Value → Except Fault Scalar
  | .scalar s => .ok s
  | _ => .error .illTyped

/-- A text that others are added to. -/
def asText : Value → Except Fault String
  | .scalar (.text s) => .ok s
  | _ => .error .illTyped

/-- The fault where a table lacks what a slot holds. Scalars and variables can be looked up, and
nothing else. -/
def lookupFault (unknown : Fault) : Value → Fault
  | .scalar _ | .entity ⟨.variable, _⟩ => unknown
  | _ => .illTyped

end Value

end Scribe
