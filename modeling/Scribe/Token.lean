import Scribe.Entity
import Scribe.Scalar

/-!
# Tokens

Rendered code is a stream of tokens. A name token knows what it declares or refers to; a reference
also carries the text to be shown beside it. A name should be a text, but a damaged model may have
any scalar in place of one: such tokens can be listed, and have no plain text.
-/

namespace Scribe

inductive Token
  | text (text : String)
  /-- Something else that was written in place of a text. -/
  | stray (value : Scalar)
  | declaration (name : Scalar) (target : Option Target)
  | reference (name tooltip : Scalar) (target : Option Target)
  | lineBreak
  | indent
  | outdent
deriving DecidableEq, Repr

namespace Token

/-- Whether what a token writes is a text. -/
def isWritable : Token → Bool
  | .stray _ => false
  | .declaration name _ => name.isText
  | .reference name _ _ => name.isText
  | _ => true

/-- One more token after those that are done and the text that is still open. -/
def joinNext : Array Token × Option String → Token → Array Token × Option String
  | (done, some before), .text s => (done, some (before ++ s))
  | (done, none), .text s => (done, some s)
  | (done, some before), token => ((done.push (.text before)).push token, none)
  | (done, none), token => (done.push token, none)

/-- The tokens with adjacent texts made one. -/
def joinTexts (tokens : List Token) : List Token :=
  match tokens.foldl joinNext (#[], none) with
  | (done, some last) => (done.push (.text last)).toList
  | (done, none) => done.toList

end Token

end Scribe
