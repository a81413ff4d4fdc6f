import Scribe.Scalar.Display
import Scribe.Token

/-!
# Plain text of tokens

A `Margin` knows the indentation of the current line. The indentation of a line is written by the
first token on it that has a text, at the level of that moment; a level below zero writes nothing.
-/

namespace Scribe

/-- Where a plain text stands: its level, and whether the current line still lacks its
indentation. -/
structure Margin where
  level : Int := 0
  pending : Bool := false
deriving DecidableEq, Repr

namespace Margin

/-- Four spaces for each level. -/
def spaces (level : Int) : String := String.ofList (List.replicate (4 * level.toNat) ' ')

/-- The text on the current line, after its indentation. -/
def write (m : Margin) (text : String) : Margin × String :=
  if m.pending then ({ m with pending := false }, spaces m.level ++ text) else (m, text)

/-- The text that a token adds. -/
def put (m : Margin) : Token → Margin × String
  | .text text => m.write text
  | .stray value => m.write value.plain
  | .declaration name _ => m.write name.plain
  | .reference name _ _ => m.write name.plain
  | .lineBreak => ({ m with pending := true }, "\n")
  | .indent => ({ m with level := m.level + 1 }, "")
  | .outdent => ({ m with level := m.level - 1 }, "")

/-- One more token after a text that ends at the margin. -/
def extend (done : Margin × String) (token : Token) : Margin × String :=
  let (m, text) := done
  let (m, piece) := m.put token
  (m, text ++ piece)

/-- The text that a sequence of tokens adds. -/
def layout (m : Margin) (tokens : List Token) : Margin × String := tokens.foldl extend (m, "")

theorem foldl_extend (m : Margin) (text : String) (tokens : List Token) :
    tokens.foldl extend (m, text) = ((m.layout tokens).1, text ++ (m.layout tokens).2) := by
  induction tokens generalizing m text with
  | nil => simp [layout]
  | cons token tokens ih =>
    rw [layout, List.foldl_cons, List.foldl_cons, extend, extend, ih, ih]
    simp [String.append_assoc]

@[simp] theorem layout_nil (m : Margin) : m.layout [] = (m, "") := rfl

theorem layout_cons (m : Margin) (token : Token) (tokens : List Token) :
    m.layout (token :: tokens) =
      (((m.put token).1.layout tokens).1,
        (m.put token).2 ++ ((m.put token).1.layout tokens).2) := by
  rw [layout, List.foldl_cons, extend, foldl_extend, String.empty_append]

theorem layout_append (m : Margin) (a b : List Token) :
    m.layout (a ++ b) =
      (((m.layout a).1.layout b).1, (m.layout a).2 ++ ((m.layout a).1.layout b).2) := by
  rw [layout, List.foldl_append, foldl_extend, foldl_extend, String.empty_append]

end Margin

/-- The plain text of a whole stream of tokens. -/
def Token.plainText (tokens : List Token) : String := (Margin.layout {} tokens).2

end Scribe
