/-
The names symbols are emitted under.

Only a renaming of the symbol itself changes its name.  Accessors and generated
fields follow the property or event they belong to, and a qualified name follows
the types around, each under the name it is emitted with.
-/
import MemberResolution.Resolver

namespace MemberResolution

namespace Resolver

/-! ### Types -/

/-- The name of a type alone. -/
def typeName (resolver : Resolver) (id : TypeId) : String :=
  (Directive.rename? (resolver.typeDirectives id)).getD (resolver.program.type id).key.shortName

/-- The namespace of the outermost type that is visited, and a dot. -/
def spaceText (resolver : Resolver) (id : TypeId) : String :=
  let outermost := (resolver.program.enclosingChain id).getLastD id
  match (resolver.program.type outermost).key.space? with
  | some space => space ++ "."
  | none => ""

/-- The namespace, then the names of the types around and of the type, joined by
`+`. -/
def qualifiedName (resolver : Resolver) (id : TypeId) : String :=
  resolver.spaceText id
    ++ "+".intercalate ((resolver.program.enclosingChain id).reverse.map resolver.typeName)

/-- What a reference to a type emits: its replacement if it has one. -/
def typeReference (resolver : Resolver) (id : TypeId) : String :=
  (Directive.replacement? (resolver.typeDirectives id)).getD (resolver.qualifiedName id)

/-! ### Members -/

/-- The name of a member that no other member lends its name to. -/
def ownName (resolver : Resolver) (id : MemberId) : String :=
  (Directive.rename? (resolver.memberDirectives id)).getD (resolver.program.member id).name.text

/-- The name of a member.  An accessor of a renamed property or event is named after
it, and so is the field that holds the value of a property. -/
def memberName (resolver : Resolver) (id : MemberId) : String :=
  let member := resolver.program.member id
  match Directive.rename? (resolver.memberDirectives id), member.origin with
  | some name, _ => name
  | none, .accessor kind owner _ =>
    match Directive.rename? (resolver.memberDirectives owner) with
    | some name => kind.lead ++ name
    | none => member.name.text
  | none, .backingField property =>
    resolver.typeName member.declaringType ++ "$" ++ resolver.ownName property ++ "$value"
  | none, .declared => member.name.text

/-! ### Any identity -/

/-- The name of what an identity names, or would name. -/
def emittedName (resolver : Resolver) (identity : Identity) : String :=
  match resolver.program.find? identity with
  | some (.type id) => resolver.typeName id
  | some (.member id) => resolver.memberName id
  | none =>
    match Directive.rename? (resolver.store.directivesFor identity) with
    | some name => name
    | none =>
      if identity.isType then TypeKey.shortName ⟨identity.name.text⟩ else identity.name.text

end Resolver

end MemberResolution
