import Scribe.Program.Kind

/-!
# Faults

Why a render stops. What was written before the fault stays written.
-/

namespace Scribe

/-- The closed sets that a value can fall out of. -/
inductive Category
  | type | expression | statement
  | queryClause | queryOperation | switchCase
  | unaryOperator | binaryOperator | visibility | entity
deriving DecidableEq, Repr

namespace Category

def word : Category → String
  | .type => "type"
  | .expression => "expression"
  | .statement => "statement"
  | .queryClause => "query clause"
  | .queryOperation => "query operation"
  | .switchCase => "switch case"
  | .unaryOperator => "unary operator"
  | .binaryOperator => "binary operator"
  | .visibility => "visibility"
  | .entity => "entity"

/-- Whether a value outside the category is also noted in the log. -/
def isLogged : Category → Bool
  | .type | .expression | .statement => true
  | _ => false

end Category

inductive Fault
  /-- A value outside a closed set. -/
  | unsupported (category : Category) (found : Found)
  /-- A literal whose value has no text at its kind, by the texts of both. -/
  | literal (value : String) (kind : Option String)
  | missingType
  | missingExpression
  | missingStatement
  | unresolvedArgument
  | noAccessor (property : String)
  | indexerTarget
  | noInvoke (delegate : String)
  | noDeclaringType
  /-- A number outside the range of its format. -/
  | outOfRange
  /-- An integer that is no code point. -/
  | noCodePoint
  /-- An integer of too many digits where its text is shown. -/
  | tooManyDigits
  | unknownAssemblyKind
  /-- A function body where only expressions are written. -/
  | noStatements
  /-- A call that the layer of the writer does not offer. -/
  | notOffered
  /-- A value without the parts that its place demands. -/
  | malformed
  /-- A value of a kind that its place has no use for. -/
  | illTyped
  /-- A type that is nested in itself. -/
  | endlessNesting
deriving DecidableEq, Repr

namespace Fault

def message : Fault → String
  | .unsupported category found => "unsupported " ++ category.word ++ ": " ++ found.word
  | .literal value kind =>
    "unsupported literal " ++ value ++ kind.elim "" (" as " ++ ·)
  | .missingType => "type must not be None"
  | .missingExpression => "expression must not be None"
  | .missingStatement => "statement must not be None"
  | .unresolvedArgument => "generic argument is unresolved"
  | .noAccessor property => "property " ++ property ++ " has no accessor for this access"
  | .indexerTarget => "property indexer target must be a property reference"
  | .noInvoke delegate => "delegate " ++ delegate ++ " has no Invoke method"
  | .noDeclaringType => "custom attribute constructor has no declaring type"
  | .outOfRange => "number out of range"
  | .noCodePoint => "not a code point"
  | .tooManyDigits => "too many digits"
  | .unknownAssemblyKind => "unknown kind of assembly"
  | .noStatements => "statements are not written here"
  | .notOffered => "not offered by this writer"
  | .malformed => "malformed value"
  | .illTyped => "ill-typed value"
  | .endlessNesting => "type nested in itself"

/-- A fault that shows a text, or the fault of the text if there is none. -/
def showing (text : Except Fault String) (fault : String → Fault) : Fault :=
  match text with
  | .ok text => fault text
  | .error f => f

end Fault

end Scribe

/-! ### Steps that may fail -/

namespace Except

variable {ε α β : Type} {x : Except ε α} {b : β}

theorem bind_eq_ok {f : α → Except ε β} (h : x.bind f = .ok b) : ∃ a, x = .ok a ∧ f a = .ok b := by
  cases x with
  | error e => cases h
  | ok a => exact ⟨a, rfl, h⟩

theorem map_eq_ok {f : α → β} (h : x.map f = .ok b) : ∃ a, x = .ok a ∧ f a = b := by
  cases x with
  | error e => cases h
  | ok a => exact ⟨a, rfl, Except.ok.inj h⟩

end Except
