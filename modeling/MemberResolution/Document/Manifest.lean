/-
Manifests as documents.

A member says first what it is: in the field `member` of an object, or at the head
of a list.  All the rest of it has to be kept until that is known, so no part of it
may be unusable, fields that will be skipped included.
-/
import MemberResolution.Document.Mark
import MemberResolution.Json.Reader
import MemberResolution.Program.Manifest

namespace MemberResolution

/-! ### Parts of members -/

/-- A kind of type is a bare name. -/
def TypeKind.ofJson? : Json → Option TypeKind :=
  Document.oneOf? TypeKind.all TypeKind.documentName false

/-- The state of a body, inside the value of a member. -/
def BodyState.ofJson? : Json → Option BodyState :=
  Document.oneOf? BodyState.all BodyState.documentName true

def BodyState.toJson (body : BodyState) : Json :=
  .string body.documentName

/-- A parameter has a name and a type, both of them required. -/
def Param.ofJson? (json : Json) : Option Param := do
  let fields ← Document.Fields.read? ["name", "ty"] json
  return ⟨← fields.required? "name" Document.text?, ← fields.required? "ty" TypeKey.ofJson?⟩

def Param.toJson (param : Param) : Json :=
  .object [("name", .string param.name), ("ty", param.type.toJson)]

/-- An accessor has a body that is present and no marks, unless it says otherwise. -/
def AccessorDecl.ofJson? (json : Json) : Option AccessorDecl := do
  let fields ← Document.Fields.read? ["body", "annotations"] json
  return ⟨← fields.withDefault? "body" .present BodyState.ofJson?,
    ← fields.withDefault? "annotations" [] (Mark.listOfJson? true)⟩

def AccessorDecl.toJson (accessor : AccessorDecl) : Json :=
  .object [("body", accessor.body.toJson),
    ("annotations", Mark.listToJson accessor.marks)]

/-! ### Members -/

namespace ManifestMember

/-- The marks of a member. -/
def marks? (fields : Document.Fields) : Option (List Mark) :=
  fields.withDefault? "annotations" [] (Mark.listOfJson? true)

/-- A switch of a member that is off unless it is given. -/
def switch? (fields : Document.Fields) (name : String) : Option Bool :=
  fields.withDefault? name false Document.flag?

/-- A method returns nothing unless it says otherwise. -/
def method? (json : Json) : Option ManifestMember := do
  let fields ← Document.Fields.read?
    ["name", "params", "returns", "body", "isStatic", "isVirtual", "annotations"] json
  return .method
    (← fields.required? "name" Document.text?)
    (← fields.withDefault? "params" [] (Document.listOf? Param.ofJson?))
    (← fields.optional? "returns" TypeKey.ofJson?)
    (← fields.withDefault? "body" .present BodyState.ofJson?)
    (← switch? fields "isStatic")
    (← switch? fields "isVirtual")
    (← marks? fields)

/-- A constructor is one of instances unless it is static. -/
def constructor? (json : Json) : Option ManifestMember := do
  let fields ← Document.Fields.read? ["params", "body", "isStatic", "annotations"] json
  return .constructor
    (← fields.withDefault? "params" [] (Document.listOf? Param.ofJson?))
    (← fields.withDefault? "body" .present BodyState.ofJson?)
    (← switch? fields "isStatic")
    (← marks? fields)

/-- An operator gives its parameters and its result type; no default stands in for them. -/
def operator? (json : Json) : Option ManifestMember := do
  let fields ← Document.Fields.read?
    ["operator", "params", "returns", "body", "annotations"] json
  return .operator
    (← fields.required? "operator" (Operator.ofJson? true))
    (← fields.required? "params" (Document.listOf? Param.ofJson?))
    (← fields.required? "returns" TypeKey.ofJson?)
    (← fields.withDefault? "body" .present BodyState.ofJson?)
    (← marks? fields)

/-- A field has a name and a type. -/
def field? (json : Json) : Option ManifestMember := do
  let fields ← Document.Fields.read? ["name", "ty", "isStatic", "annotations"] json
  return .field
    (← fields.required? "name" Document.text?)
    (← fields.required? "ty" TypeKey.ofJson?)
    (← switch? fields "isStatic")
    (← marks? fields)

/-- A property has those accessors that it gives. -/
def property? (json : Json) : Option ManifestMember := do
  let fields ← Document.Fields.read?
    ["name", "ty", "getter", "setter", "auto", "isStatic", "annotations"] json
  return .property
    (← fields.required? "name" Document.text?)
    (← fields.required? "ty" TypeKey.ofJson?)
    (← fields.optional? "getter" AccessorDecl.ofJson?)
    (← fields.optional? "setter" AccessorDecl.ofJson?)
    (← switch? fields "auto")
    (← switch? fields "isStatic")
    (← marks? fields)

/-- An event always has both accessors. -/
def event? (json : Json) : Option ManifestMember := do
  let fields ← Document.Fields.read?
    ["name", "ty", "add", "remove", "auto", "isStatic", "annotations"] json
  return .event
    (← fields.required? "name" Document.text?)
    (← fields.required? "ty" TypeKey.ofJson?)
    (← fields.withDefault? "add" {} AccessorDecl.ofJson?)
    (← fields.withDefault? "remove" {} AccessorDecl.ofJson?)
    (← switch? fields "auto")
    (← switch? fields "isStatic")
    (← marks? fields)

/-- The member of a sort whose other fields a value gives. -/
def ofSort? (sort : String) (json : Json) : Option ManifestMember :=
  match sort with
  | "method" => method? json
  | "constructor" => constructor? json
  | "operator" => operator? json
  | "field" => field? json
  | "property" => property? json
  | "event" => event? json
  | _ => none

/-- The member a document gives. -/
def ofJson? : Json → Option ManifestMember
  | .array (.string sort :: items) =>
    if Json.allUsable items then ofSort? sort (.array items) else none
  | .object entries => do
    let fields ← Document.Fields.read? ["member"] (.object entries)
    let sort ← fields.required? "member" Document.text?
    let others := entries.filter fun entry => entry.1 != "member"
    if Json.allFieldsUsable others then ofSort? sort (.object others) else none
  | _ => none

/-- The document of a member.  Every field is given. -/
def toJson : ManifestMember → Json
  | .method name params returns body isStatic isVirtual marks =>
    .object [("member", .string "method"), ("name", .string name),
      ("params", .array (params.map Param.toJson)),
      ("returns", .ofOptional (returns.map (·.text))), ("body", body.toJson),
      ("isStatic", .bool isStatic), ("isVirtual", .bool isVirtual),
      ("annotations", Mark.listToJson marks)]
  | .constructor params body isStatic marks =>
    .object [("member", .string "constructor"), ("params", .array (params.map Param.toJson)),
      ("body", body.toJson), ("isStatic", .bool isStatic),
      ("annotations", Mark.listToJson marks)]
  | .operator op params returns body marks =>
    .object [("member", .string "operator"), ("operator", op.toJson),
      ("params", .array (params.map Param.toJson)), ("returns", returns.toJson),
      ("body", body.toJson), ("annotations", Mark.listToJson marks)]
  | .field name type isStatic marks =>
    .object [("member", .string "field"), ("name", .string name), ("ty", type.toJson),
      ("isStatic", .bool isStatic), ("annotations", Mark.listToJson marks)]
  | .property name type getter setter automatic isStatic marks =>
    .object [("member", .string "property"), ("name", .string name), ("ty", type.toJson),
      ("getter", (getter.map AccessorDecl.toJson).getD .null),
      ("setter", (setter.map AccessorDecl.toJson).getD .null), ("auto", .bool automatic),
      ("isStatic", .bool isStatic), ("annotations", Mark.listToJson marks)]
  | .event name type add remove automatic isStatic marks =>
    .object [("member", .string "event"), ("name", .string name), ("ty", type.toJson),
      ("add", add.toJson), ("remove", remove.toJson), ("auto", .bool automatic),
      ("isStatic", .bool isStatic), ("annotations", Mark.listToJson marks)]

end ManifestMember

/-! ### Types

A type holds types, so reading one goes down into a part of its document.  The
lemmas say that what a field gives is smaller than the document.
-/

namespace Document

/-- What a field gives is a part of the document. -/
theorem Fields.sizeOf_read {names : List String} {json : Json} {fields : Fields}
    (h : Fields.read? names json = some fields) {name : String} {value : Json}
    (mem : (name, value) ∈ fields.entries) : sizeOf value < sizeOf json := by
  unfold Fields.read? at h
  split at h
  · rename_i entries
    split at h
    · simp at h
    · simp only [Option.some.injEq] at h
      subst h
      have := List.sizeOf_lt_of_mem mem
      simp only [Prod.mk.sizeOf_spec, Json.object.sizeOf_spec] at *
      omega
  · rename_i items
    split at h
    · simp at h
    · simp only [Option.some.injEq] at h
      subst h
      have := List.sizeOf_lt_of_mem (List.of_mem_zip mem).2
      simp only [Json.array.sizeOf_spec] at *
      omega
  · simp at h

/-- What is found under a name was given under it. -/
theorem Fields.mem_of_get {fields : Fields} {name : String} {value : Json}
    (h : fields.get? name = some value) : (name, value) ∈ fields.entries := by
  obtain ⟨before, after, split, _⟩ := List.lookup_eq_some_iff.1 h
  rw [split]
  simp

end Document

namespace ManifestType

/-- The fields of a type, in order. -/
def fieldNames : List String :=
  ["name", "kind", "base", "isStatic", "annotations", "members", "nested"]

/-- The type a document gives. -/
def ofJson? (json : Json) : Option ManifestType :=
  match _read : Document.Fields.read? fieldNames json with
  | none => none
  | some fields => do
    let name ← fields.required? "name" Document.text?
    let kind ← fields.withDefault? "kind" .classType TypeKind.ofJson?
    let base ← fields.optional? "base" TypeKey.ofJson?
    let isStatic ← fields.withDefault? "isStatic" false Document.flag?
    let marks ← fields.withDefault? "annotations" [] (Mark.listOfJson? false)
    let members ← fields.withDefault? "members" [] (Document.listOf? ManifestMember.ofJson?)
    let nested ← match _get : fields.get? "nested" with
      | none => some []
      | some (.array items) => items.attach.mapM fun item => ofJson? item.1
      | some _ => none
    return ⟨name, kind, base, isStatic, marks, members, nested⟩
termination_by sizeOf json
decreasing_by
  have inner := List.sizeOf_lt_of_mem item.2
  have outer := Document.Fields.sizeOf_read _read (Document.Fields.mem_of_get _get)
  simp only [Json.array.sizeOf_spec] at outer
  omega

mutual

/-- The document of a type.  Every field is given. -/
def toJson : ManifestType → Json
  | ⟨name, kind, base, isStatic, marks, members, nested⟩ =>
    .object [("name", .string name), ("kind", .string kind.documentName),
      ("base", .ofOptional (base.map (·.text))), ("isStatic", .bool isStatic),
      ("annotations", Mark.listToJson marks),
      ("members", .array (members.map ManifestMember.toJson)),
      ("nested", .array (allToJson nested))]

/-- The documents of a list of types. -/
def allToJson : List ManifestType → List Json
  | [] => []
  | type :: rest => type.toJson :: allToJson rest

end

end ManifestType

/-! ### Assemblies and manifests -/

namespace ManifestAssembly

/-- The assembly a document gives. -/
def ofJson? (json : Json) : Option ManifestAssembly := do
  let fields ← Document.Fields.read? ["name", "annotations", "types"] json
  return {
    name := ← fields.required? "name" Document.text?
    marks := ← fields.withDefault? "annotations" [] (Mark.listOfJson? false)
    types := ← fields.withDefault? "types" [] (Document.listOf? ManifestType.ofJson?) }

/-- The document of an assembly.  Every field is given. -/
def toJson (assembly : ManifestAssembly) : Json :=
  .object [("name", .string assembly.name),
    ("annotations", Mark.listToJson assembly.marks),
    ("types", .array (ManifestType.allToJson assembly.types))]

end ManifestAssembly

namespace Manifest

/-- The manifest a document gives. -/
def ofJson? (json : Json) : Option Manifest := do
  let fields ← Document.Fields.read? ["assemblies"] json
  return ⟨← fields.required? "assemblies" (Document.listOf? ManifestAssembly.ofJson?)⟩

/-- The document of a manifest. -/
def toJson (manifest : Manifest) : Json :=
  .object [("assemblies", .array (manifest.assemblies.map ManifestAssembly.toJson))]

/-- The manifest the text of a document gives. -/
def parse? (text : String) : Option Manifest :=
  (Json.parse? text).bind ofJson?

end Manifest

end MemberResolution
