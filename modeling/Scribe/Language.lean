/-!
# The language of the rendered code

What a host shows of a language when it offers it: a name, the extension of its files, and what the
host has to do to a program first.
-/

namespace Scribe

/-- How a language of rendered code presents itself to its host. -/
structure Language where
  name : String
  fileExtension : String
  /-- Whether the host has to lower programs to a plainer form before they are rendered. -/
  needsLowering : Bool
deriving DecidableEq, Repr

def Language.javaScript : Language := ⟨"JavaScript", ".js", false⟩

end Scribe
