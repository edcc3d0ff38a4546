/-
Reading the parts of a document.

A document gives the fields of a structure by name or by position.  By name, a field
that the structure does not know is skipped, even when it is repeated, and a known
one may be given once.  By position, the fields stand in the order of the structure
and there may be no more of them than it has; fields at the end may be left out
where each has a default.

A field with a default may be missing but not `null`.  An optional field may be
either, and both mean that it is absent.
-/
import MemberResolution.Json.Value

namespace MemberResolution

namespace Document

/-! ### Plain values -/

/-- A string. -/
def text? : Json → Option String
  | .string value => some value
  | _ => none

/-- A truth value; nothing else stands for one. -/
def flag? : Json → Option Bool
  | .bool value => some value
  | _ => none

/-- A number of 32 bits, written with digits only. -/
def word? : Json → Option UInt32
  | .natural value => if value < UInt32.size then some (UInt32.ofNat value) else none
  | _ => none

/-- A list whose every item can be read. -/
def listOf? {α : Type} (item? : Json → Option α) : Json → Option (List α)
  | .array items => items.mapM item?
  | _ => none

/-- A bare name: a string, or an object with this one name and nothing under it.
What `null` is under a name elsewhere may, inside the value of a member, also be an
empty object. -/
def bareName? (insideMember : Bool) : Json → Option String
  | .string name => some name
  | .object [(name, .null)] => some name
  | .object [(name, .object [])] => if insideMember then some name else none
  | _ => none

/-- The value of a closed list that has a bare name. -/
def oneOf? {α : Type} (all : List α) (documentName : α → String) (insideMember : Bool)
    (json : Json) : Option α :=
  (bareName? insideMember json).bind fun name => all.find? fun value => documentName value == name

/-! ### Structures -/

/-- The fields of a structure as a document gives them. -/
structure Fields where
  byName : Bool
  entries : List (String × Json)

namespace Fields

/-- The fields a value gives of a structure with these field names. -/
def read? (names : List String) : Json → Option Fields
  | .object entries =>
    if names.any fun name => 1 < entries.countP (·.1 == name) then none
    else some ⟨true, entries⟩
  | .array items =>
    if names.length < items.length then none else some ⟨false, names.zip items⟩
  | _ => none

/-- What is given for a field, if anything is. -/
def get? (fields : Fields) (name : String) : Option Json :=
  fields.entries.lookup name

/-- A field that must be given. -/
def required? {α : Type} (fields : Fields) (name : String) (value? : Json → Option α) :
    Option α :=
  (fields.get? name).bind value?

/-- A field that has a value where it is not given. -/
def withDefault? {α : Type} (fields : Fields) (name : String) (default : α)
    (value? : Json → Option α) : Option α :=
  match fields.get? name with
  | none => some default
  | some json => value? json

/-- A field that may be absent. -/
def optional? {α : Type} (fields : Fields) (name : String) (value? : Json → Option α) :
    Option (Option α) :=
  match fields.get? name with
  | none => some none
  | some .null => some none
  | some json => (value? json).map some

/-- A field that may be absent, but whose place must be filled where the fields are
given by position. -/
def nullable? {α : Type} (fields : Fields) (name : String) (value? : Json → Option α) :
    Option (Option α) :=
  if (fields.get? name).isNone && !fields.byName then none else fields.optional? name value?

end Fields

end Document

end MemberResolution
