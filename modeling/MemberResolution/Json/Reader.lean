/-
Reading JSON.

The reader is a machine over tokens: it knows what may come next and holds the
containers that are still open, innermost first, so reading is a fold over the
tokens of a text.  The text holds exactly one value.

Containers may be nested `maxNesting` deep; one that lies deeper is read to its
end and is unusable.
-/
import MemberResolution.Json.Token

namespace MemberResolution

namespace Json

/-- How many containers may enclose one another. -/
def maxNesting : Nat := 127

/-- A container that is still open: what it holds so far, last first.  An object
also knows the name whose value comes next, and whether all its names can be kept. -/
inductive OpenContainer where
  | array (reversed : List Json)
  | object (reversed : List (String × Json)) (sound : Bool) (name : String)

/-- What may come next, inside the containers that are open. -/
inductive Reading where
  | needValue (enclosing : List OpenContainer)
  | needFirstItem (enclosing : List OpenContainer)
  | needFirstName (enclosing : List OpenContainer)
  | needName (enclosing : List OpenContainer)
  | needColon (enclosing : List OpenContainer)
  | afterItem (enclosing : List OpenContainer)
  | finished (value : Json)

namespace Reading

/-- Puts a complete value where it belongs. -/
def place (value : Json) : List OpenContainer → Reading
  | [] => .finished value
  | .array reversed :: rest => .afterItem (.array (value :: reversed) :: rest)
  | .object reversed sound name :: rest =>
    .afterItem (.object ((name, value) :: reversed) sound "" :: rest)

/-- The value of a container that ends inside the given ones. -/
def closed (container : OpenContainer) (enclosing : List OpenContainer) : Json :=
  if maxNesting ≤ enclosing.length then .unusable
  else match container with
    | .array reversed => .array reversed.reverse
    | .object reversed sound _ => if sound then .object reversed.reverse else .unusable

/-- Takes a token where a value must start. -/
def start (enclosing : List OpenContainer) : Token → Option Reading
  | .scalar value => some (place value enclosing)
  | .text (some value) => some (place (.string value) enclosing)
  | .text none => some (place .unusable enclosing)
  | .openArray => some (.needFirstItem (.array [] :: enclosing))
  | .openObject => some (.needFirstName (.object [] true "" :: enclosing))
  | _ => none

/-- Takes a token where the name of a field must stand. -/
def takeName : List OpenContainer → Token → Option Reading
  | .object reversed sound _ :: rest, .text (some name) =>
    some (.needColon (.object reversed sound name :: rest))
  | .object reversed _ _ :: rest, .text none =>
    some (.needColon (.object reversed false "" :: rest))
  | _, _ => none

/-- Takes one token. -/
def step : Reading → Token → Option Reading
  | .needValue enclosing, token => start enclosing token
  | .needFirstItem (container :: rest), .closeArray => some (place (closed container rest) rest)
  | .needFirstItem enclosing, token => start enclosing token
  | .needFirstName (container :: rest), .closeObject => some (place (closed container rest) rest)
  | .needFirstName enclosing, token => takeName enclosing token
  | .needName enclosing, token => takeName enclosing token
  | .needColon enclosing, .colon => some (.needValue enclosing)
  | .afterItem (.array reversed :: rest), .comma => some (.needValue (.array reversed :: rest))
  | .afterItem (.array reversed :: rest), .closeArray =>
    some (place (closed (.array reversed) rest) rest)
  | .afterItem (.object reversed sound name :: rest), .comma =>
    some (.needName (.object reversed sound name :: rest))
  | .afterItem (.object reversed sound name :: rest), .closeObject =>
    some (place (closed (.object reversed sound name) rest) rest)
  | _, _ => none

end Reading

/-- The value of a text that holds exactly one. -/
def parse? (text : String) : Option Json := do
  let tokens ← tokens? text
  match ← tokens.foldlM Reading.step (.needValue []) with
  | .finished value => some value
  | _ => none

end Json

end MemberResolution
