/-
What emitted code may do with a symbol.

The verdicts are made from what a member or type was resolved to.  A member that
nothing implements may still be named, as long as its type is there; it may not be
called.  A test against an ignored interface is never true, since nothing emitted
implements it.
-/
import MemberResolution.Classification
import MemberResolution.Naming

namespace MemberResolution

/-- Whether code may use a symbol at a place. -/
inductive Access where
  /-- It may, by this identifier. -/
  | allowed (identifier : String)
  /-- The place raises the diagnostic. -/
  | rejected (diagnostic : Diagnostic)
  deriving DecidableEq, Repr

/-- What a test of a value against a type becomes. -/
inductive TypeCheck where
  /-- A test against this expression. -/
  | evaluate (reference : String)
  | alwaysFalse
  | rejected (diagnostic : Diagnostic)
  deriving DecidableEq, Repr

/-- How a field is declared. -/
inductive FieldEmission where
  /-- With its default value. -/
  | initialized
  /-- Without a value, which comes from outside. -/
  | declaredOnly
  /-- Not at all. -/
  | omitted
  deriving DecidableEq, Repr

namespace ResolvedMember

/-- A place that names the member without calling it. -/
def reference (resolved : ResolvedMember) (complete : Bool) : Access :=
  match resolved.outcome with
  | .refused diagnostic => .rejected (diagnostic.toDiagnostic complete)
  | .unimplemented (.externalType typeName) =>
    .rejected ((ReferenceDiagnostic.externalType typeName).toDiagnostic complete)
  | _ => .allowed resolved.identifier

/-- A place that calls the member. -/
def invocation (resolved : ResolvedMember) (complete : Bool) : Access :=
  match resolved.outcome with
  | .refused diagnostic => .rejected (diagnostic.toDiagnostic complete)
  | .unimplemented diagnostic => .rejected (diagnostic.toDiagnostic complete)
  | .own | .proxy _ | .replaced _ => .allowed resolved.identifier

end ResolvedMember

namespace ResolvedType

/-- A place that names the type. -/
def access (resolved : ResolvedType) (complete : Bool) : Access :=
  match resolved.outcome with
  | .refused diagnostic => .rejected (diagnostic.toDiagnostic complete)
  | _ => .allowed resolved.reference

/-- A place that tests a value against the type, which is declared as the kind. -/
def check (resolved : ResolvedType) (kind : TypeKind) (complete : Bool) : TypeCheck :=
  match resolved.outcome with
  | .refused diagnostic =>
    if kind = .interfaceType then .alwaysFalse
    else .rejected (diagnostic.toDiagnostic complete)
  | _ => .evaluate resolved.reference

end ResolvedType

namespace Resolver

/-! ### Resolving afresh -/

/-- Resolves a member, its outcome found anew. -/
def resolveMember (resolver : Resolver) (id : MemberId) :
    Except ConfigurationError ResolvedMember := do
  return {
    member := id
    identity := resolver.program.identityOfMember id
    identifier := resolver.memberName id
    outcome := ← resolver.classifyMember id }

/-- Resolves a type, its outcome found anew. -/
def resolveType (resolver : Resolver) (id : TypeId) : ResolvedType :=
  { type := id
    identifier := resolver.typeName id
    qualifiedName := resolver.qualifiedName id
    reference := resolver.typeReference id
    outcome := resolver.classifyType id }

/-! ### Fields and locals -/

/-- Whether something of a type may be declared in emitted code.  Arrays and
references count as what they are made of, and a type that is not loaded may always
be. -/
def shouldDeclareLocal (resolver : Resolver) (key : TypeKey) : Bool :=
  match resolver.program.findType? key.element with
  | some id => !resolver.isTypeIgnored id
  | none => true

/-- How a field with an outcome is declared. -/
def fieldEmission (resolver : Resolver) (id : MemberId) (outcome : Outcome) : FieldEmission :=
  match outcome with
  | .refused _ | .replaced _ => .omitted
  | _ =>
    if !resolver.shouldDeclareLocal (resolver.program.member id).type then .omitted
    else if resolver.isMemberExternal id then .declaredOnly
    else .initialized

/-! ### Validity -/

/-- Fails with the first configuration error of the store. -/
def validate (resolver : Resolver) : Except ConfigurationError Unit :=
  match resolver.store.configurationErrors with
  | [] => .ok ()
  | error :: _ => .error error

end Resolver

end MemberResolution
