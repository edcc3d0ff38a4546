/-
Loaded programs.

A program is a snapshot of what was loaded: assemblies, the types they declare and
the members of those types, each kept in an array and known by its position.  A
position is meaningful for the program it came from; reading one that is out of
range gives an empty entry, so every look-up is total.

Types and members are also found by name: a type by its key, a member by its
identity.  A program keeps what is found by name in two memos beside the arrays, and
whatever adds an entry to an array adds its name to a memo.  A base may be added after
the type that derives from it, so a third memo, of the bases that are loaded, is filled
from the finished program.
-/
import MemberResolution.Collection
import MemberResolution.Mark
import MemberResolution.Options
import MemberResolution.Symbol.Identity

namespace MemberResolution

/-! ### Positions -/

/-- The position of an assembly. -/
structure AssemblyId where
  index : Nat
  deriving DecidableEq, Inhabited, Repr

/-- The position of a type. -/
structure TypeId where
  index : Nat
  deriving DecidableEq, Inhabited, Repr

/-- The position of a member. -/
structure MemberId where
  index : Nat
  deriving DecidableEq, Inhabited, Repr

/-- The position of a type or member. -/
inductive SymbolId where
  | type (id : TypeId)
  | member (id : MemberId)
  deriving DecidableEq, Repr

/-! ### Types -/

/-- What a type is declared as. -/
inductive TypeKind where
  | classType
  | structType
  | interfaceType
  | enumType
  | delegateType
  deriving DecidableEq, Inhabited, Repr

/-- Every kind of type. -/
def TypeKind.all : List TypeKind :=
  [.classType, .structType, .interfaceType, .enumType, .delegateType]

/-- The name of the kind in documents. -/
def TypeKind.documentName : TypeKind → String
  | .classType => "class"
  | .structType => "struct"
  | .interfaceType => "interface"
  | .enumType => "enum"
  | .delegateType => "delegate"

/-- The modifiers of a type. -/
structure TypeFlags where
  isStatic : Bool := false
  isAbstract : Bool := false
  isSealed : Bool := false
  deriving DecidableEq, Inhabited, Repr

/-- The modifiers of either of two sets. -/
def TypeFlags.union (a b : TypeFlags) : TypeFlags :=
  ⟨a.isStatic || b.isStatic, a.isAbstract || b.isAbstract, a.isSealed || b.isSealed⟩

/-! ### Members -/

/-- What a member is declared as. -/
inductive MemberKind where
  | method
  | field
  | property
  | event
  | constructor
  | operator
  deriving DecidableEq, Inhabited, Repr

namespace MemberKind

/-- Every kind of member. -/
def all : List MemberKind :=
  [.method, .field, .property, .event, .constructor, .operator]

/-- The kind in the identity of a member. -/
def symbolKind : MemberKind → SymbolKind
  | .method => .method
  | .field => .field
  | .property => .property
  | .event => .event
  | .constructor => .constructor
  | .operator => .operator

/-- Whether a member of the kind is called, and so has a body of its own. -/
def isCallable : MemberKind → Bool
  | .method | .constructor | .operator => true
  | .field | .property | .event => false

end MemberKind

/-- The modifiers of a member. -/
structure MemberFlags where
  isStatic : Bool := false
  isVirtual : Bool := false
  isAbstract : Bool := false
  isOverride : Bool := false
  deriving DecidableEq, Inhabited, Repr

/-- The modifiers of either of two sets. -/
def MemberFlags.union (a b : MemberFlags) : MemberFlags :=
  ⟨a.isStatic || b.isStatic, a.isVirtual || b.isVirtual, a.isAbstract || b.isAbstract,
   a.isOverride || b.isOverride⟩

/-- What is known of a member's own body. -/
inductive BodyState where
  /-- It was loaded. -/
  | present
  /-- This declaration has none. -/
  | absent
  /-- The member is abstract and has none by nature. -/
  | abstract
  /-- There is one, and it cannot be lowered. -/
  | untranslatable
  deriving DecidableEq, Inhabited, Repr

/-- Every state of a body. -/
def BodyState.all : List BodyState :=
  [.present, .absent, .abstract, .untranslatable]

/-- The name of the state in documents. -/
def BodyState.documentName : BodyState → String
  | .present => "present"
  | .absent => "absent"
  | .abstract => "abstract"
  | .untranslatable => "untranslatable"

/-- What an accessor does for its property or event. -/
inductive AccessorKind where
  | get
  | set
  | add
  | remove
  deriving DecidableEq, Repr

/-- What the name of an accessor starts with. -/
def AccessorKind.lead : AccessorKind → String
  | .get => "get_"
  | .set => "set_"
  | .add => "add_"
  | .remove => "remove_"

/-- How a member came to be: declared as such, as an accessor of a property or
event, whose body may be generated, or as the generated field of a property. -/
inductive Origin where
  | declared
  | accessor (kind : AccessorKind) (owner : MemberId) (generated : Bool)
  | backingField (property : MemberId)
  deriving DecidableEq, Inhabited, Repr

/-- A parameter.  Its name does not count for identities. -/
structure Param where
  name : String
  type : TypeKey
  deriving DecidableEq, Inhabited, Repr

/-! ### What is loaded -/

/-- A loaded assembly and the types at its top level. -/
structure Assembly where
  id : AssemblyId
  name : String
  marks : List Mark := []
  types : List TypeId := []
  deriving Inhabited, DecidableEq, Repr

/-- A loaded type.  Its base is kept as written and need not be loaded. -/
structure LoadedType where
  id : TypeId
  key : TypeKey
  kind : TypeKind
  flags : TypeFlags
  assembly : AssemblyId
  base : Option TypeKey
  enclosing : Option TypeId
  members : List MemberId := []
  nested : List TypeId := []
  marks : List Mark
  deriving Inhabited, DecidableEq, Repr

/-- A loaded member.  `type` is the result type of what is called and the value type
of all else; `accessors` lists the accessors of a property or event. -/
structure LoadedMember where
  id : MemberId
  declaringType : TypeId
  kind : MemberKind
  name : SymbolName
  params : List Param
  type : TypeKey
  flags : MemberFlags
  body : BodyState
  origin : Origin
  accessors : List MemberId := []
  marks : List Mark
  deriving Inhabited, DecidableEq, Repr

namespace LoadedMember

/-- The types of the parameters, in order. -/
def paramTypes (member : LoadedMember) : List TypeKey :=
  member.params.map (·.type)

/-- The property or event a member is an accessor of. -/
def owner? (member : LoadedMember) : Option MemberId :=
  match member.origin with
  | .accessor _ owner _ => some owner
  | _ => none

/-- Whether a member is the generated field of a property. -/
def isBackingField (member : LoadedMember) : Bool :=
  match member.origin with
  | .backingField _ => true
  | _ => false

/-- Whether the body is made by the compiler and can be made again. -/
def isGenerated (member : LoadedMember) : Bool :=
  match member.origin with
  | .accessor _ _ generated => generated
  | _ => false

end LoadedMember

/-- Whether a type is declared as a proxy. -/
def LoadedType.isProxy (type : LoadedType) : Bool :=
  (Mark.proxyOf? type.marks).isSome

/-- A loaded program, with the type of each key and the member of each identity. -/
structure Program where
  assemblies : Array Assembly := #[]
  types : Array LoadedType := #[]
  members : Array LoadedMember := #[]
  typeByKey : Memo TypeKey TypeId := {}
  memberByIdentity : Memo Identity MemberId := {}
  deriving Inhabited, DecidableEq, Repr

namespace Program

/-! ### Reading by position -/

/-- The assembly at a position. -/
def assembly (program : Program) (id : AssemblyId) : Assembly :=
  program.assemblies.getD id.index default

/-- The type at a position. -/
def type (program : Program) (id : TypeId) : LoadedType :=
  program.types.getD id.index default

/-- The member at a position. -/
def member (program : Program) (id : MemberId) : LoadedMember :=
  program.members.getD id.index default

/-! ### Identities -/

/-- The identity of the type at a position. -/
def identityOfType (program : Program) (id : TypeId) : Identity :=
  .ofType (program.type id).key

/-- The identity of a declaration with these parts in the type with a key. -/
def identityIn (key : TypeKey) (kind : MemberKind) (name : SymbolName) (params : List Param)
    (type : TypeKey) : Identity :=
  (Identity.ofMember kind.symbolKind key name (params.map (·.type))).returning type

/-- The identity of a loaded member. -/
def identityOf (program : Program) (member : LoadedMember) : Identity :=
  identityIn (program.type member.declaringType).key member.kind member.name member.params
    member.type

/-- The identity of the member at a position. -/
def identityOfMember (program : Program) (id : MemberId) : Identity :=
  program.identityOf (program.member id)

/-! ### Finding by name -/

/-- The type with a key. -/
def findType? (program : Program) (key : TypeKey) : Option TypeId :=
  program.typeByKey.find? key

/-- The member with an identity. -/
def findMember? (program : Program) (identity : Identity) : Option MemberId :=
  program.memberByIdentity.find? identity

/-- The type or member an identity names.  Of the identity of a type only the name
counts. -/
def find? (program : Program) (identity : Identity) : Option SymbolId :=
  if identity.isType then (program.findType? ⟨identity.name.text⟩).map .type
  else (program.findMember? identity).map .member

/-- Enters the base of a type, if it has one and it is loaded. -/
def enterBase (program : Program) (ids : Memo TypeId TypeId) (type : LoadedType) :
    Memo TypeId TypeId :=
  match type.base.bind program.findType? with
  | some base => ids.insert type.id base
  | none => ids

/-- The bases that are loaded, each under the type that derives from it. -/
def baseIds (program : Program) : Memo TypeId TypeId :=
  program.types.toList.foldl program.enterBase {}

/-- The base of a type, if it has one and it is loaded. -/
def baseOf? (program : Program) (id : TypeId) : Option TypeId :=
  program.baseIds.find? id

/-- The members a type itself declares, by their name in metadata. -/
def membersNamed (program : Program) (id : TypeId) (name : String) : List LoadedMember :=
  ((program.type id).members.map program.member).filter fun member => member.name.text = name

/-! ### Enclosing types and assemblies -/

/-- A type and the types around it, innermost first, at most so many. -/
def enclosingUpTo (program : Program) : Nat → TypeId → List TypeId
  | 0, _ => []
  | count + 1, id =>
    id :: match (program.type id).enclosing with
      | some outer => program.enclosingUpTo count outer
      | none => []

/-- A type and the types around it, innermost first, within the nesting limit. -/
def enclosingChain (program : Program) (id : TypeId) : List TypeId :=
  program.enclosingUpTo maxNestingDepth id

/-- Whether the bodies of a type are not available, its assembly being a stub. -/
def inStubAssembly (program : Program) (id : TypeId) : Bool :=
  Mark.isStub (program.assembly (program.type id).assembly).marks

/-- The types that are declared as proxies, in loading order. -/
def proxyTypes (program : Program) : List LoadedType :=
  program.types.toList.filter (·.isProxy)

/-- The types that are not declared as proxies, in loading order. -/
def plainTypes (program : Program) : List LoadedType :=
  program.types.toList.filter fun type => !type.isProxy

end Program

end MemberResolution
