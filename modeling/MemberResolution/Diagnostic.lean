/-
Diagnostics.

A diagnostic is a rendered message together with its code, its category and, where
it is about one symbol, the text of that symbol.
-/
import MemberResolution.Message

namespace MemberResolution

/-- A rendered message. -/
structure Diagnostic where
  code : Nat
  category : Category
  text : String
  symbol : Option String := none
  deriving DecidableEq, Repr

namespace Diagnostic

/-- The error that a message with filled placeholders makes. -/
def error (message : Message) (text : String) : Diagnostic :=
  { code := message.code, category := .error, text := text }

/-- Says which symbol a diagnostic is about. -/
def about (diagnostic : Diagnostic) (symbol : String) : Diagnostic :=
  { diagnostic with symbol := some symbol }

end Diagnostic

end MemberResolution
