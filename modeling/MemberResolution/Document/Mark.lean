/-
Marks as documents.

A mark is an object with its kind and, where the kind has one, its value, or
a list of exactly these two.  The kind decides how the value is read; a value that
stands before the kind has to be kept until then, so no part of it may be unusable.

The kind of an object is a bare name.  The kind of a list is a plain string or,
inside the value of a member, the position of the kind among all kinds.
-/
import MemberResolution.Mark
import MemberResolution.Document.Identity

namespace MemberResolution

namespace Mark

/-- A mark whose kind has no value. -/
def unvalued? (mark : Mark) : Option Json → Option Mark
  | none => some mark
  | some .null => some mark
  | some _ => none

/-- A mark whose value is a string. -/
def texted? (mark : String → Mark) (value : Option Json) : Option Mark :=
  (value.bind Document.text?).map mark

/-- A proxy mark: the value names the fields, and is inheritable unless it says
otherwise. -/
def proxy? : Option Json → Option Mark
  | some (.object entries) => do
    let fields ← Document.Fields.read? ["target", "inheritable"] (.object entries)
    return .proxy
      (← fields.required? "target" TypeKey.ofJson?)
      (← fields.withDefault? "inheritable" true Document.flag?)
  | _ => none

/-- The names of the kinds, in the order in which positions count them. -/
def kindNames : List String :=
  ["ignore", "rename", "external", "replacement", "proxy", "proxyTarget", "suppressBaseCall",
    "neverReplace", "stubAssembly"]

/-- The kind that opens a list, alone or inside the value of a member. -/
def listedKind? (insideMember : Bool) : Json → Option String
  | .string kind => some kind
  | .natural position => if insideMember then kindNames[position]? else none
  | _ => none

/-- The mark of a kind with a value. -/
def ofKind? (kind : String) (value : Option Json) : Option Mark :=
  match kind with
  | "ignore" => unvalued? .ignore value
  | "rename" => texted? .rename value
  | "external" => unvalued? .external value
  | "replacement" => texted? .replacement value
  | "proxy" => proxy? value
  | "proxyTarget" => texted? .proxyTarget value
  | "suppressBaseCall" => unvalued? .suppressBaseCall value
  | "neverReplace" => unvalued? .neverReplace value
  | "stubAssembly" => unvalued? .stubAssembly value
  | _ => none

/-- Whether the value of a mark is given before its kind. -/
def valueComesFirst (entries : List (String × Json)) : Bool :=
  match entries.find? fun entry => entry.1 == "kind" || entry.1 == "value" with
  | some (name, _) => name == "value"
  | none => false

/-- The mark a document gives, alone or inside the value of a member. -/
def ofJson? (insideMember : Bool) : Json → Option Mark
  | .array [kind, value] => do
    ofKind? (← listedKind? insideMember kind) (some value)
  | .object entries => do
    let fields ← Document.Fields.read? ["kind", "value"] (.object entries)
    let kind ← fields.required? "kind" (Document.bareName? insideMember)
    let value := fields.get? "value"
    if valueComesFirst entries && !(value.getD .null).isUsable then none
    else ofKind? kind value
  | _ => none

/-- The document of a mark.  The value is left out where the kind has none. -/
def toJson : Mark → Json
  | .ignore => .object [("kind", .string "ignore")]
  | .rename name => .object [("kind", .string "rename"), ("value", .string name)]
  | .external => .object [("kind", .string "external")]
  | .replacement expression =>
    .object [("kind", .string "replacement"), ("value", .string expression)]
  | .proxy target inheritable =>
    .object [("kind", .string "proxy"),
      ("value", .object [("target", target.toJson), ("inheritable", .bool inheritable)])]
  | .proxyTarget name => .object [("kind", .string "proxyTarget"), ("value", .string name)]
  | .suppressBaseCall => .object [("kind", .string "suppressBaseCall")]
  | .neverReplace => .object [("kind", .string "neverReplace")]
  | .stubAssembly => .object [("kind", .string "stubAssembly")]

/-- The marks a document lists. -/
def listOfJson? (insideMember : Bool) : Json → Option (List Mark) :=
  Document.listOf? (ofJson? insideMember)

/-- The document of a list of marks. -/
def listToJson (marks : List Mark) : Json :=
  .array (marks.map toJson)

end Mark

end MemberResolution
