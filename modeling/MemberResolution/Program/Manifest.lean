/-
Manifests.

A manifest describes a program as one tree: assemblies hold types, types hold
members and nested types.  Lowering a manifest goes through the same additions that
build a program by hand, in document order: a type, its members, then its nested
types.
-/
import MemberResolution.Program.Build

namespace MemberResolution

/-- A member as a manifest describes it. -/
inductive ManifestMember where
  | method (name : String) (params : List Param) (returns : Option TypeKey) (body : BodyState)
      (isStatic isVirtual : Bool) (marks : List Mark)
  | constructor (params : List Param) (body : BodyState) (isStatic : Bool)
      (marks : List Mark)
  | operator (op : Operator) (params : List Param) (returns : TypeKey) (body : BodyState)
      (marks : List Mark)
  | field (name : String) (type : TypeKey) (isStatic : Bool) (marks : List Mark)
  | property (name : String) (type : TypeKey) (getter setter : Option AccessorDecl)
      (automatic isStatic : Bool) (marks : List Mark)
  | event (name : String) (type : TypeKey) (add remove : AccessorDecl)
      (automatic isStatic : Bool) (marks : List Mark)
  deriving DecidableEq, Repr

/-- A type as a manifest describes it, with the types nested in it. -/
structure ManifestType where
  name : String
  kind : TypeKind
  base : Option TypeKey
  isStatic : Bool
  marks : List Mark
  members : List ManifestMember
  nested : List ManifestType

/-- An assembly as a manifest describes it. -/
structure ManifestAssembly where
  name : String
  marks : List Mark
  types : List ManifestType

/-- A description of a whole program. -/
structure Manifest where
  assemblies : List ManifestAssembly

namespace ManifestMember

/-- Adds the member to a type. -/
def lower (type : TypeId) : ManifestMember → Build Unit
  | .method name params returns body isStatic isVirtual marks =>
    discard <| Build.addMember type
      { kind := .method, name := .named name, params := params, type := returns.getD .void,
        flags := { isStatic := isStatic, isVirtual := isVirtual }, body := body,
        marks := marks }
  | .constructor params body isStatic marks =>
    discard <| Build.addMember type
      { (if isStatic then MemberDecl.staticConstructor else .instanceConstructor) with
        params := params, body := body, marks := marks }
  | .operator op params returns body marks =>
    discard <| Build.addMember type
      { MemberDecl.operator op returns with
        params := params, body := body, marks := marks }
  | .field name fieldType isStatic marks =>
    discard <| Build.addMember type
      { MemberDecl.field name fieldType with
        flags := { isStatic := isStatic }, marks := marks }
  | .property name propertyType getter setter automatic isStatic marks =>
    let decl : PropertyDecl :=
      { name := name, type := propertyType, flags := { isStatic := isStatic }, getter := getter,
        setter := setter, marks := marks }
    discard <| Build.addProperty type (if automatic then decl.auto else decl)
  | .event name eventType add remove automatic isStatic marks =>
    discard <| Build.addEvent type
      { name := name, type := eventType, flags := { isStatic := isStatic }, add := add,
        remove := remove, automatic := automatic, marks := marks }

end ManifestMember

namespace ManifestType

/-- The type itself, without what it holds. -/
def head (type : ManifestType) : TypeDecl :=
  { name := type.name, kind := type.kind, flags := { isStatic := type.isStatic },
    base := type.base, marks := type.marks }

mutual

/-- Adds to a loaded type the members and nested types it is described with. -/
def lowerInto (id : TypeId) : ManifestType → Build Unit
  | ⟨_, _, _, _, _, members, nested⟩ => do
    members.forM (ManifestMember.lower id)
    lowerNested id nested

/-- Adds each type of a list inside a loaded type, with all it holds. -/
def lowerNested (enclosing : TypeId) : List ManifestType → Build Unit
  | [] => pure ()
  | type :: rest => do
    let id ← Build.addNestedType enclosing type.head
    lowerInto id type
    lowerNested enclosing rest

end

/-- Adds a type at the top level of an assembly, with all it holds. -/
def lower (assembly : AssemblyId) (type : ManifestType) : Build Unit := do
  let id ← Build.addType assembly type.head
  lowerInto id type

end ManifestType

/-- Adds an assembly with all it holds. -/
def ManifestAssembly.lower (assembly : ManifestAssembly) : Build Unit := do
  let id ← Build.addAssembly assembly.name
  assembly.marks.forM (Build.markAssembly id)
  assembly.types.forM (ManifestType.lower id)

namespace Manifest

/-- Adds everything a manifest describes. -/
def lower (manifest : Manifest) : Build Unit :=
  manifest.assemblies.forM ManifestAssembly.lower

/-- The program a manifest describes. -/
def toProgram (manifest : Manifest) : Except ModelError Program :=
  match manifest.lower.on {} with
  | (.ok _, program) => .ok program
  | (.error error, _) => .error error

end Manifest

end MemberResolution
