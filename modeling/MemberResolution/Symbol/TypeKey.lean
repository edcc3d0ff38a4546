/-
Full names of types.

A type is known by one flat text: a dotted namespace, then the names of the
enclosing types and its own joined by `+`, then a sign of generic arity that
starts with a backtick.  A use of the type may add decorations on the right: `[]`
for an array, `&` for a reference, `*` for a pointer.  The functions here read the
parts back out of the text.
-/
namespace MemberResolution

/-- The full name of a type. -/
structure TypeKey where
  text : String
  deriving DecidableEq, Inhabited, Repr

namespace TypeKey

/-- The type of members that return nothing. -/
def void : TypeKey := ⟨"System.Void"⟩

/-- Whether the key is that of the empty result type. -/
def isVoid (key : TypeKey) : Bool :=
  key = void

/-- The key of a type nested in the type with this key. -/
def nested (outer : TypeKey) (name : String) : TypeKey :=
  ⟨outer.text ++ "+" ++ name⟩

/-! ### Short name

The short name stands after the last `.` or `+` of what precedes the first
backtick.
-/

/-- Whether a character ends a namespace or an enclosing type. -/
def isSeparator (c : Char) : Bool :=
  c == '.' || c == '+'

/-- What stands after the last separator, or everything where there is none. -/
def afterLastSeparator (name : List Char) : List Char :=
  (name.reverse.takeWhile fun c => !isSeparator c).reverse

/-- The name without namespace, enclosing types and generic arity. -/
def shortName (key : TypeKey) : String :=
  String.ofList (afterLastSeparator (key.text.toList.takeWhile fun c => c != '\x60'))

/-! ### Namespace -/

/-- What stands before the last dot, if there is a dot. -/
def beforeLastDot (name : List Char) : Option (List Char) :=
  match name.reverse.dropWhile fun c => c != '.' with
  | [] => none
  | _ :: rest => some rest.reverse

/-- The namespace of a type or of the outermost type around it, if it has one. -/
def space? (key : TypeKey) : Option String :=
  (beforeLastDot (key.text.toList.takeWhile fun c => c != '+')).map String.ofList

/-! ### Decorations -/

/-- Removes decorations from a name that is given last character first. -/
def stripReversed : List Char → List Char
  | ']' :: '[' :: rest => stripReversed rest
  | '&' :: rest => stripReversed rest
  | '*' :: rest => stripReversed rest
  | name => name

/-- The key without array, reference and pointer decorations. -/
def element (key : TypeKey) : TypeKey :=
  ⟨String.ofList (stripReversed key.text.toList.reverse).reverse⟩

/-! ### Order -/

/-- Keys are ordered by code point. -/
instance : Ord TypeKey := ⟨fun a b => compare a.text b.text⟩

/-- Whether a key stands before another or is the same. -/
def precedes (a b : TypeKey) : Bool :=
  decide (a.text ≤ b.text)

end TypeKey

end MemberResolution
