/-
JSON values as the documents of this library use them.

An object keeps its members in written order, repeated names included, because
the reading rules speak about repetition.  A number written as plain digits is a
natural number; every other number keeps its literal, since no document of this
library gives it a meaning.

`unusable` stands for a well-formed piece of text that denotes no value a reader
may keep: a string holding half of a surrogate pair, a number beyond the range of
binary64, or a container nested too deeply.  Such a piece may occur where a value
is skipped, and nowhere else.
-/
namespace MemberResolution

/-- A JSON value. -/
inductive Json where
  | null
  | bool (value : Bool)
  | natural (value : Nat)
  | number (literal : String)
  | string (value : String)
  | array (items : List Json)
  | object (fields : List (String × Json))
  | unusable

instance : Inhabited Json := ⟨.null⟩

namespace Json

mutual

/-- Whether a value can be kept whole: no part of it is unusable. -/
def isUsable : Json → Bool
  | .unusable => false
  | .array items => allUsable items
  | .object fields => allFieldsUsable fields
  | _ => true

/-- Whether every value of a list can be kept whole. -/
def allUsable : List Json → Bool
  | [] => true
  | item :: rest => item.isUsable && allUsable rest

/-- Whether every value of an object can be kept whole. -/
def allFieldsUsable : List (String × Json) → Bool
  | [] => true
  | (_, value) :: rest => value.isUsable && allFieldsUsable rest

end

/-- The value of an optional text, absent as `null`. -/
def ofOptional : Option String → Json
  | none => .null
  | some value => .string value

end Json

end MemberResolution
