/-
Resolvers that agree on a type.

What a resolver decides about a type and its members it reads off a few things: whether the
types around are ignored, the directives of the type and of its members, the bodies of the
members, whether the type has a proxy, and what the search for a proxy finds for each member.
Two resolvers that tell the same of these for one type, the program of one extending that of
the other, come to the same decisions about it, whatever they tell of other types.

Of the directives the renames do not count here, so the names that symbols are emitted
under may differ where the decisions agree.  The names of parameters show in one place only,
in what is said of a refused member.
-/
import MemberResolution.Access
import MemberResolution.Proofs.Extension
import MemberResolution.Proofs.Lineage

namespace MemberResolution

/-- Two lists of directives that come to the same decisions. -/
structure Directive.Alike (a b : List Directive) : Prop where
  isIgnored : Directive.isIgnored a = Directive.isIgnored b
  isExternal : Directive.isExternal a = Directive.isExternal b
  isStub : Directive.isStub a = Directive.isStub b
  replacement? : Directive.replacement? a = Directive.replacement? b

theorem Directive.Alike.of_eq {a b : List Directive} (same : a = b) : Directive.Alike a b := by
  subst same
  exact ⟨rfl, rfl, rfl, rfl⟩

theorem Program.Extends.refusedMember {p q : Program} (h : p.Extends q) {id : MemberId}
    (has : p.HasMember id) (params : (q.member id).params = (p.member id).params) :
    q.refusedMember id = p.refusedMember id := by
  unfold Program.refusedMember Program.referenceSignature
  simp only
  rw [h.kind has, h.name has, params]

namespace Resolver

/-- Two resolvers tell the same of a type and of the types around it, but for renames. -/
structure AgreesAround (r s : Resolver) (type : TypeId) : Prop where
  extend : r.program.Extends s.program
  known : r.program.HasType type
  around : ∀ outer ∈ r.program.enclosingChain type,
    Directive.isIgnored (s.typeDirectives outer) = Directive.isIgnored (r.typeDirectives outer)
  directives : Directive.Alike (s.typeDirectives type) (r.typeDirectives type)

/-- They tell the same of its members as well, bodies included. -/
structure AgreesInside (r s : Resolver) (type : TypeId) : Prop extends r.AgreesAround s type where
  members : ∀ id ∈ (r.program.type type).members,
    Directive.Alike (s.memberDirectives id) (r.memberDirectives id)
  bodies : ∀ id ∈ (r.program.type type).members,
    (s.program.member id).body = (r.program.member id).body

/-- They tell the same of its proxies and of what these supply. -/
structure AgreesOn (r s : Resolver) (type : TypeId) : Prop extends r.AgreesInside s type where
  proxied : (s.store.proxiesOf type).isEmpty = (r.store.proxiesOf type).isEmpty
  supplied : ∀ id ∈ (r.program.type type).members,
    s.findProxy type (r.program.identityOfMember id)
      = r.findProxy type (r.program.identityOfMember id)

/-- A search along a chain depends on what is told of the types in it. -/
theorem findProxyAlong_eq_of_agree {r s : Resolver} {signature : Identity} {chain : List TypeId}
    (errors : ∀ type ∈ chain, s.store.errorFor? type signature.name.text
      = r.store.errorFor? type signature.name.text)
    (candidates : ∀ type ∈ chain,
      s.store.candidatesFor (signature.declaredBy (s.program.type type).key)
        = r.store.candidatesFor (signature.declaredBy (r.program.type type).key)) :
    ∀ atStart, s.findProxyAlong signature atStart chain
      = r.findProxyAlong signature atStart chain := by
  induction chain with
  | nil => exact fun _ => rfl
  | cons type rest ih =>
      intro atStart
      have first := List.mem_cons_self (a := type) (l := rest)
      have further := ih (fun other hmem => errors other (List.mem_cons_of_mem _ hmem))
        (fun other hmem => candidates other (List.mem_cons_of_mem _ hmem)) false
      unfold findProxyAlong supplierAt?
      rw [errors type first, candidates type first, further]

theorem findProxy_eq_of_agree {r s : Resolver} (extend : r.program.Extends s.program)
    (maxDepth : s.maxDepth = r.maxDepth) {type : TypeId} (has : r.program.HasType type)
    {signature : Identity}
    (errors : ∀ ancestor ∈ r.program.keptChain r.maxDepth type, r.program.HasType ancestor →
      s.store.errorFor? ancestor signature.name.text
        = r.store.errorFor? ancestor signature.name.text)
    (candidates : ∀ ancestor ∈ r.program.keptChain r.maxDepth type, r.program.HasType ancestor →
      s.store.candidatesFor (signature.declaredBy (r.program.type ancestor).key)
        = r.store.candidatesFor (signature.declaredBy (r.program.type ancestor).key)) :
    s.findProxy type signature = r.findProxy type signature := by
  have chained : s.chain type = r.chain type := by
    unfold chain
    rw [maxDepth, extend.chain r.maxDepth has]
  unfold findProxy
  rw [chained]
  cases hchain : r.chain type with
  | error error => rfl
  | ok chain =>
      obtain ⟨lineage, short⟩ := Program.chain_eq_ok_iff.mp hchain
      have known := lineage.hasType extend.before has
      have kept : r.program.keptChain r.maxDepth type = chain := lineage.ancestorsUpTo_eq short
      rw [kept] at errors candidates
      refine findProxyAlong_eq_of_agree (fun ancestor hmem => ?_) (fun ancestor hmem => ?_) true
      · exact errors ancestor hmem (known ancestor hmem)
      · rw [extend.key (known ancestor hmem)]
        exact candidates ancestor hmem (known ancestor hmem)

variable {r s : Resolver} {type : TypeId}

namespace AgreesAround

theorem isTypeIgnored (h : r.AgreesAround s type) :
    s.isTypeIgnored type = r.isTypeIgnored type := by
  unfold Resolver.isTypeIgnored
  rw [h.extend.enclosingChain h.known, Bool.eq_iff_iff, List.any_eq_true, List.any_eq_true]
  refine exists_congr fun outer => and_congr_right fun hmem => ?_
  rw [h.around outer hmem]

/-- **Where two resolvers agree on a type and around it, the type has one outcome.** -/
theorem classifyType (h : r.AgreesAround s type) :
    s.classifyType type = r.classifyType type := by
  have refused : s.program.refusedType type = r.program.refusedType type := by
    unfold Program.refusedType
    rw [h.extend.key h.known]
  unfold Resolver.classifyType Resolver.isTypeExternal
  rw [h.isTypeIgnored, refused, h.directives.replacement?, h.directives.isExternal]

end AgreesAround

namespace AgreesInside

variable {id : MemberId}

theorem hasMember (h : r.AgreesInside s type) (hmem : id ∈ (r.program.type type).members) :
    r.program.HasMember id :=
  (h.extend.before.declares type h.known id hmem).1

theorem declaringType (h : r.AgreesInside s type) (hmem : id ∈ (r.program.type type).members) :
    (r.program.member id).declaringType = type :=
  (h.extend.before.declares type h.known id hmem).2

/-- The property or event a member belongs to is declared by the type as well. -/
theorem owner_mem (h : r.AgreesInside s type) (hmem : id ∈ (r.program.type type).members)
    {owner : MemberId} (howner : (r.program.member id).owner? = some owner) :
    owner ∈ (r.program.type type).members := by
  obtain ⟨has, hdeclaring⟩ := h.extend.before.of_owner? (h.hasMember hmem) howner
  rw [← h.declaringType hmem, ← hdeclaring]
  exact h.extend.before.listed owner has

theorem accessor_mem (h : r.AgreesInside s type) (hmem : id ∈ (r.program.type type).members) :
    ∀ accessor ∈ (r.program.member id).accessors, accessor ∈ (r.program.type type).members := by
  intro accessor haccessor
  have linked := h.extend.before.accessors id (h.hasMember hmem) accessor haccessor
  rw [← h.declaringType hmem, ← linked.declaringType]
  exact h.extend.before.listed accessor linked.known

/-! ### Ignored and external members -/

theorem ownerHas (h : r.AgreesInside s type) (hmem : id ∈ (r.program.type type).members)
    {test : List Directive → Bool}
    (same : ∀ owner ∈ (r.program.type type).members,
      test (s.memberDirectives owner) = test (r.memberDirectives owner)) :
    s.ownerHas test id = r.ownerHas test id := by
  unfold Resolver.ownerHas
  rw [h.extend.owner? (h.hasMember hmem)]
  cases howner : (r.program.member id).owner? with
  | none => rfl
  | some owner => exact same owner (h.owner_mem hmem howner)

theorem isMemberIgnored (h : r.AgreesInside s type) (hmem : id ∈ (r.program.type type).members) :
    s.isMemberIgnored id = r.isMemberIgnored id := by
  unfold Resolver.isMemberIgnored
  rw [(h.members id hmem).isIgnored, h.ownerHas hmem fun owner howner =>
    (h.members owner howner).isIgnored, h.extend.declaringType (h.hasMember hmem),
    h.declaringType hmem, h.isTypeIgnored]

theorem isMemberExternal (h : r.AgreesInside s type) (hmem : id ∈ (r.program.type type).members) :
    s.isMemberExternal id = r.isMemberExternal id := by
  unfold Resolver.isMemberExternal Resolver.isTypeExternal
  rw [(h.members id hmem).isExternal, h.ownerHas hmem fun owner howner =>
    (h.members owner howner).isExternal, h.extend.declaringType (h.hasMember hmem),
    h.declaringType hmem, h.directives.isExternal]

theorem hasUsableBody (h : r.AgreesInside s type) (hmem : id ∈ (r.program.type type).members) :
    s.hasUsableBody (s.program.member id) = r.hasUsableBody (r.program.member id) := by
  have generated : (s.program.member id).isGenerated = (r.program.member id).isGenerated :=
    h.extend.read_member (h.hasMember hmem) (·.isGenerated) fun _ => rfl
  unfold Resolver.hasUsableBody
  rw [h.bodies id hmem, generated, h.extend.kind (h.hasMember hmem),
    h.extend.declaringType (h.hasMember hmem), h.declaringType hmem, h.directives.isStub]

/-- The first two rules say the same of a member, if its refusals read the same. -/
theorem unlessOverridden (h : r.AgreesInside s type) (hmem : id ∈ (r.program.type type).members)
    (refusal : r.isMemberIgnored id = true →
      s.program.refusedMember id = r.program.refusedMember id)
    (otherwise : Except ConfigurationError Outcome) :
    s.unlessOverridden id otherwise = r.unlessOverridden id otherwise := by
  unfold Resolver.unlessOverridden
  rw [h.isMemberIgnored hmem, (h.members id hmem).replacement?]
  split
  · rw [refusal ‹_›]
  · rfl

end AgreesInside

namespace AgreesOn

variable {id : MemberId}

/-! ### Diagnostics -/

theorem externalMethod (h : r.AgreesOn s type) (hmem : id ∈ (r.program.type type).members) :
    s.program.externalMethod id = r.program.externalMethod id := by
  have has := h.hasMember hmem
  have result : (s.program.member id).type = (r.program.member id).type :=
    h.extend.read_member has (·.type) fun _ => rfl
  unfold Program.externalMethod Program.externalSignature Program.paramTypesText
  simp only
  rw [result, h.extend.name has, h.extend.paramTypes has, h.extend.declaringType has,
    h.declaringType hmem, h.extend.key h.known]

theorem untranslatableMember (h : r.AgreesOn s type)
    (hmem : id ∈ (r.program.type type).members) :
    s.program.untranslatableMember id = r.program.untranslatableMember id := by
  have has := h.hasMember hmem
  have result : (s.program.member id).type = (r.program.member id).type :=
    h.extend.read_member has (·.type) fun _ => rfl
  unfold Program.untranslatableMember Program.untranslatableSignature Program.paramTypesText
  simp only
  rw [result, h.extend.name has, h.extend.paramTypes has, h.extend.declaringType has,
    h.declaringType hmem, h.extend.key h.known]

theorem externalType (h : r.AgreesOn s type) :
    s.program.externalType type = r.program.externalType type := by
  unfold Program.externalType
  rw [h.extend.key h.known]

theorem missingDiagnostic (h : r.AgreesOn s type) (hmem : id ∈ (r.program.type type).members) :
    s.missingDiagnostic id = r.missingDiagnostic id := by
  unfold Resolver.missingDiagnostic
  simp only
  rw [h.extend.declaringType (h.hasMember hmem), h.declaringType hmem, h.directives.isExternal,
    h.directives.isStub, h.directives.replacement?, h.proxied, h.isMemberExternal hmem,
    h.bodies id hmem, h.externalType, h.untranslatableMember hmem, h.externalMethod hmem]

/-! ### Outcomes -/

theorem implementation (h : r.AgreesOn s type) (hmem : id ∈ (r.program.type type).members) :
    s.implementation id = r.implementation id := by
  have own : s.ownOutcome id = r.ownOutcome id := by
    unfold Resolver.ownOutcome
    rw [h.isMemberExternal hmem, h.hasUsableBody hmem, h.missingDiagnostic hmem]
  unfold Resolver.implementation
  simp only
  rw [h.extend.declaringType (h.hasMember hmem), h.declaringType hmem,
    h.extend.identityOfMember (h.hasMember hmem), h.supplied id hmem, own]

/-- Refused accessors are passed over, so it does not matter how their refusals read. -/
theorem firstUnimplemented (h : r.AgreesOn s type) {accessors : List MemberId}
    (declared : ∀ id ∈ accessors, id ∈ (r.program.type type).members) :
    s.firstUnimplemented accessors = r.firstUnimplemented accessors := by
  induction accessors with
  | nil => rfl
  | cons accessor rest ih =>
      have hmem := declared accessor List.mem_cons_self
      have further := ih fun other hother => declared other (List.mem_cons_of_mem _ hother)
      unfold Resolver.firstUnimplemented Resolver.classifyCallable
      by_cases ignored : r.isMemberIgnored accessor = true
      · have ignored' : s.isMemberIgnored accessor = true :=
          (h.isMemberIgnored hmem).trans ignored
        simp only [Resolver.unlessOverridden, ignored, ignored', if_true]
        exact further
      · rw [h.implementation hmem, h.unlessOverridden hmem (fun hc => absurd hc ignored), further]

theorem ownerOutcome (h : r.AgreesOn s type) (hmem : id ∈ (r.program.type type).members) :
    s.ownerOutcome id = r.ownerOutcome id := by
  unfold Resolver.ownerOutcome
  rw [h.isMemberExternal hmem, h.extend.accessors (h.hasMember hmem),
    h.firstUnimplemented (h.accessor_mem hmem)]

/-- **Where they agree on its members as well, each of them has one outcome**, if the refusal
of the member reads the same, or it is not refused. -/
theorem classifyMember (h : r.AgreesOn s type) (hmem : id ∈ (r.program.type type).members)
    (refusal : r.isMemberIgnored id = true →
      s.program.refusedMember id = r.program.refusedMember id) :
    s.classifyMember id = r.classifyMember id := by
  unfold Resolver.classifyMember
  rw [h.unlessOverridden hmem refusal, h.extend.kind (h.hasMember hmem), h.ownerOutcome hmem,
    h.implementation hmem]

end AgreesOn

end Resolver

end MemberResolution
