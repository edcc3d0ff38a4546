/-
Building programs.

A program grows by single additions.  The only thing that can go wrong is a name
that is taken: a type whose key, or a member whose identity, is there already.  An
addition that fails leaves behind what it added before it failed, so a property
whose second accessor is a duplicate keeps its first; it is not linked to it.

`Edit` names the additions as data, so that a whole history of them, failures
included, can be spoken about.
-/
import MemberResolution.Program.Declaration

namespace MemberResolution

/-- A name that is taken. -/
inductive ModelError where
  | duplicateType (key : TypeKey)
  | duplicateMember (identity : Identity)
  deriving DecidableEq, Repr

/-- The text of the error. -/
def ModelError.render : ModelError → String
  | .duplicateType key => "type '" ++ key.text ++ "' is declared more than once"
  | .duplicateMember identity =>
    "member '" ++ identity.display ++ "' is declared more than once"

/-- A change to a program that may fail.  The program survives the failure. -/
abbrev Build := ExceptT ModelError (StateM Program)

namespace Build

/-! ### Assemblies and types -/

/-- Adds an assembly.  Its name need not be free. -/
def addAssembly (name : String) : Build AssemblyId := do
  let program ← get
  let id : AssemblyId := ⟨program.assemblies.size⟩
  set { program with assemblies := program.assemblies.push { id := id, name := name } }
  return id

/-- Adds a mark to an assembly, after those it has. -/
def markAssembly (id : AssemblyId) (mark : Mark) : Build Unit :=
  modify fun program =>
    { program with
      assemblies := program.assemblies.modify id.index fun assembly =>
        { assembly with marks := assembly.marks ++ [mark] } }

/-- Adds a type under a key that must be free. -/
def insertType (assembly : AssemblyId) (key : TypeKey) (enclosing : Option TypeId)
    (decl : TypeDecl) : Build TypeId := do
  let program ← get
  if (program.findType? key).isSome then throw (.duplicateType key)
  let id : TypeId := ⟨program.types.size⟩
  set { program with
    typeByKey := program.typeByKey.insert key id
    types := program.types.push
      { id := id, key := key, kind := decl.kind, flags := decl.flags, assembly := assembly,
        base := decl.base, enclosing := enclosing, marks := decl.marks } }
  return id

/-- Adds a type at the top level of an assembly. -/
def addType (assembly : AssemblyId) (decl : TypeDecl) : Build TypeId := do
  let id ← insertType assembly ⟨decl.name⟩ none decl
  modify fun program =>
    { program with
      assemblies := program.assemblies.modify assembly.index fun assembly =>
        { assembly with types := assembly.types ++ [id] } }
  return id

/-- Adds a type inside another. -/
def addNestedType (enclosing : TypeId) (decl : TypeDecl) : Build TypeId := do
  let outer := (← get).type enclosing
  let id ← insertType outer.assembly (outer.key.nested decl.name) (some enclosing) decl
  modify fun program =>
    { program with
      types := program.types.modify enclosing.index fun outer =>
        { outer with nested := outer.nested ++ [id] } }
  return id

/-- Adds a mark to a type, after those it has. -/
def markType (id : TypeId) (mark : Mark) : Build Unit :=
  modify fun program =>
    { program with
      types := program.types.modify id.index fun type =>
        { type with marks := type.marks ++ [mark] } }

/-! ### Members -/

/-- Adds one member under an identity that must be free. -/
def insertMember (type : TypeId) (decl : MemberDecl) (origin : Origin) : Build MemberId := do
  let program ← get
  let identity :=
    Program.identityIn (program.type type).key decl.kind decl.name decl.params decl.type
  if (program.findMember? identity).isSome then throw (.duplicateMember identity)
  let id : MemberId := ⟨program.members.size⟩
  set { program with
    memberByIdentity := program.memberByIdentity.insert identity id
    members := program.members.push
      { id := id, declaringType := type, kind := decl.kind, name := decl.name,
        params := decl.params, type := decl.type, flags := decl.flags, body := decl.body,
        origin := origin, marks := decl.marks }
    types := program.types.modify type.index fun type =>
      { type with members := type.members ++ [id] } }
  return id

/-- Lists the accessors of a property or event. -/
def linkAccessors (owner : MemberId) (accessors : List MemberId) : Build Unit :=
  modify fun program =>
    { program with
      members := program.members.modify owner.index fun member =>
        { member with accessors := member.accessors ++ accessors } }

/-- Adds a method, constructor, operator or field. -/
def addMember (type : TypeId) (decl : MemberDecl) : Build MemberId :=
  insertMember type decl .declared

/-- The members a property expands into. -/
structure PropertyIds where
  property : MemberId
  getter : Option MemberId
  setter : Option MemberId
  backingField : Option MemberId
  deriving DecidableEq, Repr

/-- Adds a property, then its getter, its setter and its field, as it has them. -/
def addProperty (type : TypeId) (decl : PropertyDecl) : Build PropertyIds := do
  let property ← insertMember type decl.head .declared
  let getter ← decl.getter.mapM fun accessor =>
    insertMember type (decl.getMethod accessor) (.accessor .get property decl.automatic)
  let setter ← decl.setter.mapM fun accessor =>
    insertMember type (decl.setMethod accessor) (.accessor .set property decl.automatic)
  let backingField ←
    if decl.automatic then some <$> insertMember type decl.backingField (.backingField property)
    else pure none
  linkAccessors property (getter.toList ++ setter.toList)
  return ⟨property, getter, setter, backingField⟩

/-- The members an event expands into. -/
structure EventIds where
  event : MemberId
  add : MemberId
  remove : MemberId
  deriving DecidableEq, Repr

/-- Adds an event and its two accessors. -/
def addEvent (type : TypeId) (decl : EventDecl) : Build EventIds := do
  let event ← insertMember type decl.head .declared
  let add ← insertMember type (decl.accessMethod .add decl.add)
    (.accessor .add event decl.automatic)
  let remove ← insertMember type (decl.accessMethod .remove decl.remove)
    (.accessor .remove event decl.automatic)
  linkAccessors event [add, remove]
  return ⟨event, add, remove⟩

/-- Adds a mark to a member, after those it has. -/
def markMember (id : MemberId) (mark : Mark) : Build Unit :=
  modify fun program =>
    { program with
      members := program.members.modify id.index fun member =>
        { member with marks := member.marks ++ [mark] } }

/-- Runs a change on a program. -/
def on {α : Type} (change : Build α) (program : Program) : Except ModelError α × Program :=
  change.run.run program

end Build

/-! ### Histories -/

/-- A single addition to a program. -/
inductive Edit where
  | addAssembly (name : String)
  | markAssembly (id : AssemblyId) (mark : Mark)
  | addType (assembly : AssemblyId) (decl : TypeDecl)
  | addNestedType (enclosing : TypeId) (decl : TypeDecl)
  | markType (id : TypeId) (mark : Mark)
  | addMember (type : TypeId) (decl : MemberDecl)
  | addProperty (type : TypeId) (decl : PropertyDecl)
  | addEvent (type : TypeId) (decl : EventDecl)
  | markMember (id : MemberId) (mark : Mark)
  deriving DecidableEq, Repr

/-- What an addition hands back. -/
inductive Receipt where
  | done
  | assembly (id : AssemblyId)
  | type (id : TypeId)
  | member (id : MemberId)
  | property (ids : Build.PropertyIds)
  | event (ids : Build.EventIds)
  deriving DecidableEq, Repr

namespace Edit

/-- The change an addition stands for. -/
def perform : Edit → Build Receipt
  | .addAssembly name => .assembly <$> Build.addAssembly name
  | .markAssembly id mark => do
    Build.markAssembly id mark
    return .done
  | .addType assembly decl => .type <$> Build.addType assembly decl
  | .addNestedType enclosing decl => .type <$> Build.addNestedType enclosing decl
  | .markType id mark => do
    Build.markType id mark
    return .done
  | .addMember type decl => .member <$> Build.addMember type decl
  | .addProperty type decl => .property <$> Build.addProperty type decl
  | .addEvent type decl => .event <$> Build.addEvent type decl
  | .markMember id mark => do
    Build.markMember id mark
    return .done

/-- Whether the positions an addition speaks of belong to the program. -/
def Fits (program : Program) : Edit → Prop
  | .addAssembly _ => True
  | .markAssembly id _ => id.index < program.assemblies.size
  | .addType assembly _ => assembly.index < program.assemblies.size
  | .addNestedType enclosing _ => enclosing.index < program.types.size
  | .markType id _ => id.index < program.types.size
  | .addMember type _ => type.index < program.types.size
  | .addProperty type _ => type.index < program.types.size
  | .addEvent type _ => type.index < program.types.size
  | .markMember id _ => id.index < program.members.size

end Edit

/-- The programs that can be built: the empty one, and what an addition that speaks of
what is there makes of one that can be built. -/
inductive Program.Buildable : Program → Prop
  | empty : Buildable {}
  | edit {program : Program} (edit : Edit) (buildable : Buildable program)
      (fits : edit.Fits program) : Buildable (edit.perform.on program).2

/-- What a program becomes by a history of additions, those that fail included. -/
def Program.afterEdits (program : Program) (edits : List Edit) : Program :=
  edits.foldl (fun program edit => (edit.perform.on program).2) program

end MemberResolution
