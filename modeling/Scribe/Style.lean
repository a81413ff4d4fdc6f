import Scribe.Tree.Display

/-!
# Style of the rendered code

The choices that hold for a whole writer, and how they are read from a host's configuration.
-/

namespace Scribe

/-- The base of integer literals. A word that names none of the three behaves as `hexadecimal`. -/
inductive NumberFormat
  | auto
  | hexadecimal
  | decimal
  | other (word : String)
deriving DecidableEq, Repr

namespace NumberFormat

def ofWord : String → NumberFormat
  | "auto" => .auto
  | "hexadecimal" => .hexadecimal
  | "decimal" => .decimal
  | word => .other word

def word : NumberFormat → String
  | .auto => "auto"
  | .hexadecimal => "hexadecimal"
  | .decimal => "decimal"
  | .other word => word

/-- A format by its name, and `auto` when the name is unknown. -/
def ofName (name : String) : NumberFormat :=
  match ofWord name with
  | .other _ => .auto
  | format => format

end NumberFormat

structure Style where
  numberFormat : NumberFormat := .auto
  showAttributes : Bool := false
  showNameSpaceBody : Bool := false
  showTypeBody : Bool := false
deriving DecidableEq, Repr

/-- Settings of a host, by name. -/
abbrev Configuration := List (String × Scalar)

namespace Configuration

/-- The setting as a word without case, and `unset` where there is none. Only ASCII letters have a case
here: no other letter has one of the recognised words as its lower case. -/
def word (c : Configuration) (key unset : String) : Except Fault String :=
  match c.lookup key with
  | some value => (value.told Scalar.plain).map fun text => text.map Char.toLower
  | none => .ok unset

/-- A truth value counts as it is, and any other value when its text is `true` in any case. -/
def flag (c : Configuration) (key : String) : Except Fault Bool :=
  match c.lookup key with
  | some (.bool b) => .ok b
  | _ => (c.word key "false").map (· == "true")

end Configuration

namespace Style

/-- Unknown settings are ignored, and an unknown number format is `auto`. -/
def ofConfiguration (c : Configuration) : Except Fault Style := do
  let numberFormat ← c.word "NumberFormat" "auto"
  let showAttributes ← c.flag "ShowCustomAttributes"
  let showNameSpaceBody ← c.flag "ShowNamespaceBody"
  let showTypeBody ← c.flag "ShowTypeDeclarationBody"
  return { numberFormat := .ofName numberFormat, showAttributes, showNameSpaceBody, showTypeBody }

end Style

/-- What a host says about the style of a writer. -/
inductive Settings
  | unset
  | style (style : Style)
  | configuration (configuration : Configuration)

namespace Settings

def chosen : Settings → Except Fault Style
  | .unset => Style.ofConfiguration []
  | .style s => .ok s
  | .configuration c => Style.ofConfiguration c

end Settings

end Scribe
