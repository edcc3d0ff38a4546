/-
Deciding outcomes.

For a member the first of these rules that applies decides:

1. the member, the property or event it belongs to, its type or a type around it is
   ignored: it is refused;
2. it has a replacement: it is replaced;
3. a proxy supplies a body: that body is emitted;
4. its own body can be used: it is its own;
5. it is unimplemented.

Rules 3 to 5 are for what is called.  A field is its own; so is a property or event,
unless it is external and one of its accessors is unimplemented.
-/
import MemberResolution.Outcome
import MemberResolution.Signature

namespace MemberResolution

namespace Resolver

/-! ### Ignored and external symbols -/

/-- Whether a type or a type around it is ignored. -/
def isTypeIgnored (resolver : Resolver) (id : TypeId) : Bool :=
  (resolver.program.enclosingChain id).any fun outer =>
    Directive.isIgnored (resolver.typeDirectives outer)

/-- Whether a type itself is external; the types around it do not count. -/
def isTypeExternal (resolver : Resolver) (id : TypeId) : Bool :=
  Directive.isExternal (resolver.typeDirectives id)

/-- Whether the property or event a member belongs to has directives of a sort. -/
def ownerHas (resolver : Resolver) (test : List Directive → Bool) (id : MemberId) : Bool :=
  match (resolver.program.member id).owner? with
  | some owner => test (resolver.memberDirectives owner)
  | none => false

/-- Whether a member is ignored: itself, with its property or event, or with its
type. -/
def isMemberIgnored (resolver : Resolver) (id : MemberId) : Bool :=
  Directive.isIgnored (resolver.memberDirectives id)
    || resolver.ownerHas Directive.isIgnored id
    || resolver.isTypeIgnored (resolver.program.member id).declaringType

/-- Whether a member is external: itself, with its property or event, or with its
type. -/
def isMemberExternal (resolver : Resolver) (id : MemberId) : Bool :=
  Directive.isExternal (resolver.memberDirectives id)
    || resolver.ownerHas Directive.isExternal id
    || resolver.isTypeExternal (resolver.program.member id).declaringType

/-! ### Own bodies -/

/-- Whether the own body of a member that is not external can be used.  In a stub
assembly only what can be made without the loaded body can. -/
def hasUsableBody (resolver : Resolver) (member : LoadedMember) : Bool :=
  match member.body with
  | .abstract => true
  | body =>
    if Directive.isStub (resolver.typeDirectives member.declaringType) then
      member.isGenerated || member.kind = .constructor
    else body = .present

/-- The diagnostic of a member that nothing implements.  An external type that has
neither a replacement nor a proxy is named as a whole. -/
def missingDiagnostic (resolver : Resolver) (id : MemberId) : ReferenceDiagnostic :=
  let member := resolver.program.member id
  let type := member.declaringType
  let directives := resolver.typeDirectives type
  if Directive.isExternal directives && (Directive.replacement? directives).isNone
      && (resolver.store.proxiesOf type).isEmpty then
    resolver.program.externalType type
  else if !resolver.isMemberExternal id && !Directive.isStub directives
      && member.body = .untranslatable then
    resolver.program.untranslatableMember id
  else resolver.program.externalMethod id

/-- The outcome of what is called, where no proxy supplies it. -/
def ownOutcome (resolver : Resolver) (id : MemberId) : Outcome :=
  if !resolver.isMemberExternal id && resolver.hasUsableBody (resolver.program.member id) then .own
  else .unimplemented (resolver.missingDiagnostic id)

/-! ### Members -/

/-- The outcome of what is called, if it is neither ignored nor replaced. -/
def implementation (resolver : Resolver) (id : MemberId) : Except ConfigurationError Outcome := do
  let declaringType := (resolver.program.member id).declaringType
  match ← resolver.findProxy declaringType (resolver.program.identityOfMember id) with
  | some body => return .proxy body
  | none => return resolver.ownOutcome id

/-- The outcome by the first two rules, or else as given. -/
def unlessOverridden (resolver : Resolver) (id : MemberId)
    (otherwise : Except ConfigurationError Outcome) : Except ConfigurationError Outcome :=
  if resolver.isMemberIgnored id then .ok (.refused (resolver.program.refusedMember id))
  else match Directive.replacement? (resolver.memberDirectives id) with
    | some expression => .ok (.replaced expression)
    | none => otherwise

/-- The outcome of what is called. -/
def classifyCallable (resolver : Resolver) (id : MemberId) : Except ConfigurationError Outcome :=
  resolver.unlessOverridden id (resolver.implementation id)

/-- Unimplemented with the first accessor that is, and else its own. -/
def firstUnimplemented (resolver : Resolver) :
    List MemberId → Except ConfigurationError Outcome
  | [] => .ok .own
  | accessor :: rest =>
    match resolver.classifyCallable accessor with
    | .error error => .error error
    | .ok (.unimplemented diagnostic) => .ok (.unimplemented diagnostic)
    | .ok _ => resolver.firstUnimplemented rest

/-- The outcome of a property or event, if it is neither ignored nor replaced. -/
def ownerOutcome (resolver : Resolver) (id : MemberId) : Except ConfigurationError Outcome :=
  if resolver.isMemberExternal id then
    resolver.firstUnimplemented (resolver.program.member id).accessors
  else .ok .own

/-- The outcome of a member. -/
def classifyMember (resolver : Resolver) (id : MemberId) : Except ConfigurationError Outcome :=
  resolver.unlessOverridden id <|
    match (resolver.program.member id).kind with
    | .field => .ok .own
    | .property | .event => resolver.ownerOutcome id
    | .method | .constructor | .operator => resolver.implementation id

/-! ### Types -/

/-- The outcome of a type. -/
def classifyType (resolver : Resolver) (id : TypeId) : TypeOutcome :=
  if resolver.isTypeIgnored id then .refused (resolver.program.refusedType id)
  else match Directive.replacement? (resolver.typeDirectives id) with
    | some expression => .replaced expression
    | none => if resolver.isTypeExternal id then .external else .own

end Resolver

end MemberResolution
