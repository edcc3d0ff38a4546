/-
Looking for proxies and declarations.

A resolver is a program with its store and the limit on chains of base types.  Both
searches here walk the chain of a type, most derived first, and stop at the first
type for which a fault is recorded under the name that is looked for.

The search for a proxy asks each type of the chain for the candidates of the
signature as declared there.  Above the type the search starts from only the
candidates of inheritable proxies count, and a candidate without a body never does.
The first that counts wins.
-/
import MemberResolution.Ancestry
import MemberResolution.Store

namespace MemberResolution

/-- A program, its store and the limit on chains of base types. -/
structure Resolver where
  program : Program
  maxDepth : Nat
  store : Store := Store.ofProgram program
  store_eq : store = Store.ofProgram program := by rfl

/-- A proxy member that was chosen to supply a body, and the member it is for. -/
structure ProxyBody where
  member : MemberId
  proxyType : TypeId
  target : MemberId
  mode : ProxyMode
  deriving DecidableEq, Repr

/-- The body a candidate supplies. -/
def ProxyCandidate.proxyBody (candidate : ProxyCandidate) : ProxyBody :=
  ⟨candidate.member, candidate.proxyType, candidate.target, candidate.mode⟩

namespace Resolver

/-! ### Directives -/

/-- The directives of a type. -/
def typeDirectives (resolver : Resolver) (id : TypeId) : List Directive :=
  resolver.store.directivesFor (resolver.program.identityOfType id)

/-- The directives of a member. -/
def memberDirectives (resolver : Resolver) (id : MemberId) : List Directive :=
  resolver.store.directivesFor (resolver.program.identityOfMember id)

/-! ### Chains -/

/-- The chain of a type within the limit of the resolver. -/
def chain (resolver : Resolver) (id : TypeId) : Except ConfigurationError (List TypeId) :=
  resolver.program.chain resolver.maxDepth id

/-! ### Proxies -/

/-- The first candidate that counts for a signature as one type declares it. -/
def supplierAt? (resolver : Resolver) (atStart : Bool) (signature : Identity) (type : TypeId) :
    Option ProxyCandidate :=
  (resolver.store.candidatesFor (signature.declaredBy (resolver.program.type type).key)).find?
    fun candidate => (atStart || candidate.inheritable) && candidate.hasBody

/-- The search along the rest of a chain. -/
def findProxyAlong (resolver : Resolver) (signature : Identity) :
    Bool → List TypeId → Except ConfigurationError (Option ProxyBody)
  | _, [] => .ok none
  | atStart, type :: rest =>
    match resolver.store.errorFor? type signature.name.text with
    | some error => .error error
    | none =>
      match resolver.supplierAt? atStart signature type with
      | some candidate => .ok (some candidate.proxyBody)
      | none => resolver.findProxyAlong signature false rest

/-- The proxy body for a signature, looked for from a type upward.  The declaring type
of the signature does not count. -/
def findProxy (resolver : Resolver) (start : TypeId) (signature : Identity) :
    Except ConfigurationError (Option ProxyBody) := do
  resolver.findProxyAlong signature true (← resolver.chain start)

/-! ### Declarations -/

/-- The search along the rest of a chain. -/
def findDeclarationAlong (resolver : Resolver) (signature : Identity) :
    List TypeId → Except ConfigurationError (Option MemberId)
  | [] => .ok none
  | type :: rest =>
    match resolver.store.errorFor? type signature.name.text with
    | some error => .error error
    | none =>
      match resolver.program.findMember?
          (signature.declaredBy (resolver.program.type type).key) with
      | some member => .ok (some member)
      | none => resolver.findDeclarationAlong signature rest

/-- The most derived declaration of a signature, looked for from a receiver upward. -/
def findDeclaration (resolver : Resolver) (receiver : TypeId) (signature : Identity) :
    Except ConfigurationError (Option MemberId) := do
  resolver.findDeclarationAlong signature (← resolver.chain receiver)

end Resolver

end MemberResolution
