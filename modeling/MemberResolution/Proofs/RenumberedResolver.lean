/-
A resolver of a new order.

The directives of a symbol are those of the old order, so whether it is ignored, external
or replaced is too, and every name and diagnostic made from them.  A search along a chain
goes through the old chain, renumbered, and asks at each type what was asked before; so
what it finds is what was found, renumbered, and it fails where and as it failed before.
-/
import MemberResolution.Access
import MemberResolution.Proofs.RenumberedStore

namespace MemberResolution

namespace Renumbering

variable (ρ : Renumbering)

/-- A proxy body with all positions in it renumbered. -/
def onBody (body : ProxyBody) : ProxyBody :=
  { body with
    member := ρ.member body.member
    proxyType := ρ.type body.proxyType
    target := ρ.member body.target }

/-- An outcome with the positions of its proxy renumbered. -/
def onOutcome : Outcome → Outcome
  | .proxy body => .proxy (ρ.onBody body)
  | .own => .own
  | .replaced expression => .replaced expression
  | .unimplemented diagnostic => .unimplemented diagnostic
  | .refused diagnostic => .refused diagnostic

/-- A resolved member with all positions in it renumbered. -/
def onResolvedMember (resolved : ResolvedMember) : ResolvedMember :=
  { resolved with
    member := ρ.member resolved.member
    outcome := ρ.onOutcome resolved.outcome }

/-- A resolved type with its position renumbered. -/
def onResolvedType (resolved : ResolvedType) : ResolvedType :=
  { resolved with type := ρ.type resolved.type }

/-- One resolver is about the program of another in a new order, with the same limit. -/
structure Matches (r s : Resolver) : Prop extends ρ.Carries r.program s.program where
  maxDepth : s.maxDepth = r.maxDepth

variable {ρ} {p q : Program} {r s : Resolver}

/-! ### Signatures in diagnostics -/

namespace Carries

theorem refusedMember (h : ρ.Carries p q) {id : MemberId} (has : p.HasMember id) :
    q.refusedMember (ρ.member id) = p.refusedMember id := by
  unfold Program.refusedMember Program.referenceSignature
  rw [h.member id has]
  rfl

theorem refusedType (h : ρ.Carries p q) {id : TypeId} (has : p.HasType id) :
    q.refusedType (ρ.type id) = p.refusedType id := by
  unfold Program.refusedType
  rw [h.key has]

theorem externalMethod (h : ρ.Carries p q) {id : MemberId} (has : p.HasMember id) :
    q.externalMethod (ρ.member id) = p.externalMethod id := by
  unfold Program.externalMethod Program.externalSignature
  rw [h.declaringType has, h.key (h.before.declaringType id has), h.member id has]
  rfl

theorem externalType (h : ρ.Carries p q) {id : TypeId} (has : p.HasType id) :
    q.externalType (ρ.type id) = p.externalType id := by
  unfold Program.externalType
  rw [h.key has]

theorem untranslatableMember (h : ρ.Carries p q) {id : MemberId} (has : p.HasMember id) :
    q.untranslatableMember (ρ.member id) = p.untranslatableMember id := by
  unfold Program.untranslatableMember Program.untranslatableSignature
  simp only
  rw [h.declaringType has, h.key (h.before.declaringType id has), h.member id has]
  rfl

end Carries

namespace Matches

/-! ### The store -/

theorem directivesFor (h : ρ.Matches r s) (symbol : Identity) :
    s.store.directivesFor symbol = r.store.directivesFor symbol := by
  rw [s.store_eq, r.store_eq]
  exact h.toCarries.directivesFor symbol

theorem candidatesFor (h : ρ.Matches r s) (target : Identity) :
    s.store.candidatesFor target = (r.store.candidatesFor target).map ρ.onCandidate := by
  rw [s.store_eq, r.store_eq]
  exact h.toCarries.candidatesFor target

theorem proxiesOf (h : ρ.Matches r s) (type : TypeId) :
    s.store.proxiesOf (ρ.type type) = (r.store.proxiesOf type).map ρ.type := by
  rw [s.store_eq, r.store_eq]
  exact h.toCarries.proxiesOf type

theorem errorFor? (h : ρ.Matches r s) (type : TypeId) (name : String) :
    s.store.errorFor? (ρ.type type) name = r.store.errorFor? type name := by
  rw [s.store_eq, r.store_eq]
  exact h.toCarries.errorFor? type name

theorem configurationErrors (h : ρ.Matches r s) :
    s.store.configurationErrors = r.store.configurationErrors := by
  rw [s.store_eq, r.store_eq]
  exact h.toCarries.configurationErrors

/-- The first configuration error is the same. -/
theorem validate (h : ρ.Matches r s) : s.validate = r.validate := by
  unfold Resolver.validate
  rw [h.configurationErrors]

/-! ### Ignored and external symbols -/

theorem typeDirectives (h : ρ.Matches r s) {id : TypeId} (has : r.program.HasType id) :
    s.typeDirectives (ρ.type id) = r.typeDirectives id := by
  unfold Resolver.typeDirectives
  rw [h.identityOfType has, h.directivesFor]

theorem memberDirectives (h : ρ.Matches r s) {id : MemberId} (has : r.program.HasMember id) :
    s.memberDirectives (ρ.member id) = r.memberDirectives id := by
  unfold Resolver.memberDirectives
  rw [h.identityOfMember has, h.directivesFor]

theorem isTypeIgnored (h : ρ.Matches r s) {id : TypeId} (has : r.program.HasType id) :
    s.isTypeIgnored (ρ.type id) = r.isTypeIgnored id := by
  have ignored : (s.program.enclosingChain (ρ.type id)).map
        (fun outer => Directive.isIgnored (s.typeDirectives outer))
      = (r.program.enclosingChain id).map
        fun outer => Directive.isIgnored (r.typeDirectives outer) := by
    refine h.map_enclosingChain has fun outer hasOuter => ?_
    rw [h.typeDirectives hasOuter]
  have around := congrArg (fun given => given.any fun holds => holds) ignored
  simp only [List.any_map] at around
  exact around

theorem isTypeExternal (h : ρ.Matches r s) {id : TypeId} (has : r.program.HasType id) :
    s.isTypeExternal (ρ.type id) = r.isTypeExternal id := by
  unfold Resolver.isTypeExternal
  rw [h.typeDirectives has]

theorem ownerHas (h : ρ.Matches r s) (test : List Directive → Bool) {id : MemberId}
    (has : r.program.HasMember id) : s.ownerHas test (ρ.member id) = r.ownerHas test id := by
  unfold Resolver.ownerHas
  rw [h.owner? has]
  cases howner : (r.program.member id).owner? with
  | none => rfl
  | some owner => exact congrArg test (h.memberDirectives (h.before.of_owner? has howner).1)

theorem isMemberIgnored (h : ρ.Matches r s) {id : MemberId} (has : r.program.HasMember id) :
    s.isMemberIgnored (ρ.member id) = r.isMemberIgnored id := by
  unfold Resolver.isMemberIgnored
  rw [h.memberDirectives has, h.ownerHas _ has, h.declaringType has,
    h.isTypeIgnored (h.before.declaringType id has)]

theorem isMemberExternal (h : ρ.Matches r s) {id : MemberId} (has : r.program.HasMember id) :
    s.isMemberExternal (ρ.member id) = r.isMemberExternal id := by
  unfold Resolver.isMemberExternal
  rw [h.memberDirectives has, h.ownerHas _ has, h.declaringType has,
    h.isTypeExternal (h.before.declaringType id has)]

/-! ### Searches along a chain -/

theorem chain (h : ρ.Matches r s) {id : TypeId} (has : r.program.HasType id) :
    s.chain (ρ.type id) = (r.chain id).map (List.map ρ.type) := by
  unfold Resolver.chain
  rw [h.maxDepth, h.toCarries.chain r.maxDepth has]

theorem hasType_of_mem_chain (h : ρ.Matches r s) {id : TypeId} (has : r.program.HasType id)
    {chain : List TypeId} (hchain : r.chain id = .ok chain) :
    ∀ type ∈ chain, r.program.HasType type :=
  (Program.chain_eq_ok_iff.mp hchain).1.hasType h.before has

theorem supplierAt? (h : ρ.Matches r s) (atStart : Bool) (signature : Identity) {type : TypeId}
    (has : r.program.HasType type) :
    s.supplierAt? atStart signature (ρ.type type)
      = (r.supplierAt? atStart signature type).map ρ.onCandidate := by
  have compose : (fun candidate : ProxyCandidate =>
        (atStart || candidate.inheritable) && candidate.hasBody) ∘ ρ.onCandidate
      = fun candidate => (atStart || candidate.inheritable) && candidate.hasBody := rfl
  unfold Resolver.supplierAt?
  rw [h.key has, h.candidatesFor, List.find?_map, compose]

theorem findProxyAlong (h : ρ.Matches r s) (signature : Identity) {chain : List TypeId} :
    ∀ {atStart : Bool}, (∀ type ∈ chain, r.program.HasType type) →
      s.findProxyAlong signature atStart (chain.map ρ.type)
        = (r.findProxyAlong signature atStart chain).map (Option.map ρ.onBody) := by
  induction chain with
  | nil => intro atStart _; rfl
  | cons type rest ih =>
      intro atStart has
      rw [List.map_cons, Resolver.findProxyAlong, Resolver.findProxyAlong, h.errorFor?,
        h.supplierAt? atStart signature (has type (by simp))]
      cases r.store.errorFor? type signature.name.text with
      | some error => rfl
      | none =>
          cases r.supplierAt? atStart signature type with
          | some candidate => rfl
          | none => exact ih fun other hother => has other (List.mem_cons_of_mem _ hother)

/-- **The search for a proxy finds the same one.** -/
theorem findProxy (h : ρ.Matches r s) {start : TypeId} (has : r.program.HasType start)
    (signature : Identity) :
    s.findProxy (ρ.type start) signature
      = (r.findProxy start signature).map (Option.map ρ.onBody) := by
  unfold Resolver.findProxy
  rw [h.chain has]
  cases hchain : r.chain start with
  | error error => rfl
  | ok chain => exact h.findProxyAlong signature (h.hasType_of_mem_chain has hchain)

theorem findDeclarationAlong (h : ρ.Matches r s) (signature : Identity) {chain : List TypeId} :
    (∀ type ∈ chain, r.program.HasType type) →
      s.findDeclarationAlong signature (chain.map ρ.type)
        = (r.findDeclarationAlong signature chain).map (Option.map ρ.member) := by
  induction chain with
  | nil => intro _; rfl
  | cons type rest ih =>
      intro has
      rw [List.map_cons, Resolver.findDeclarationAlong, Resolver.findDeclarationAlong, h.errorFor?,
        h.key (has type (by simp)), h.findMember?]
      cases r.store.errorFor? type signature.name.text with
      | some error => rfl
      | none =>
          cases r.program.findMember? (signature.declaredBy (r.program.type type).key) with
          | some member => rfl
          | none => exact ih fun other hother => has other (List.mem_cons_of_mem _ hother)

/-- So does the search for a declaration. -/
theorem findDeclaration (h : ρ.Matches r s) {receiver : TypeId} (has : r.program.HasType receiver)
    (signature : Identity) :
    s.findDeclaration (ρ.type receiver) signature
      = (r.findDeclaration receiver signature).map (Option.map ρ.member) := by
  unfold Resolver.findDeclaration
  rw [h.chain has]
  cases hchain : r.chain receiver with
  | error error => rfl
  | ok chain => exact h.findDeclarationAlong signature (h.hasType_of_mem_chain has hchain)

/-! ### Outcomes -/

theorem hasUsableBody (h : ρ.Matches r s) {id : MemberId} (has : r.program.HasMember id) :
    s.hasUsableBody (s.program.member (ρ.member id)) = r.hasUsableBody (r.program.member id) := by
  have hgenerated : (s.program.member (ρ.member id)).isGenerated
      = (r.program.member id).isGenerated := by
    refine h.read_member has (·.isGenerated) fun member => ?_
    unfold LoadedMember.isGenerated onMember
    cases member.origin <;> rfl
  unfold Resolver.hasUsableBody
  rw [h.body has, h.declaringType has, h.typeDirectives (h.before.declaringType id has), hgenerated,
    h.kind has]

theorem missingDiagnostic (h : ρ.Matches r s) {id : MemberId} (has : r.program.HasMember id) :
    s.missingDiagnostic (ρ.member id) = r.missingDiagnostic id := by
  have hasType := h.before.declaringType id has
  unfold Resolver.missingDiagnostic
  simp only
  rw [h.declaringType has, h.typeDirectives hasType, h.proxiesOf, List.isEmpty_map,
    h.externalType hasType, h.isMemberExternal has, h.body has, h.untranslatableMember has,
    h.externalMethod has]

theorem ownOutcome (h : ρ.Matches r s) {id : MemberId} (has : r.program.HasMember id) :
    s.ownOutcome (ρ.member id) = ρ.onOutcome (r.ownOutcome id) := by
  unfold Resolver.ownOutcome
  rw [h.isMemberExternal has, h.hasUsableBody has, h.missingDiagnostic has]
  split <;> rfl

theorem implementation (h : ρ.Matches r s) {id : MemberId} (has : r.program.HasMember id) :
    s.implementation (ρ.member id) = (r.implementation id).map ρ.onOutcome := by
  unfold Resolver.implementation
  simp only
  rw [h.declaringType has, h.identityOfMember has,
    h.findProxy (h.before.declaringType id has), h.ownOutcome has]
  cases r.findProxy (r.program.member id).declaringType (r.program.identityOfMember id) with
  | error error => rfl
  | ok found => cases found <;> rfl

theorem unlessOverridden (h : ρ.Matches r s) {id : MemberId} (has : r.program.HasMember id)
    {otherwise new : Except ConfigurationError Outcome}
    (renumbered : new = otherwise.map ρ.onOutcome) :
    s.unlessOverridden (ρ.member id) new = (r.unlessOverridden id otherwise).map ρ.onOutcome := by
  unfold Resolver.unlessOverridden
  rw [h.isMemberIgnored has, h.refusedMember has, h.memberDirectives has, renumbered]
  split
  · rfl
  · split <;> rfl

theorem classifyCallable (h : ρ.Matches r s) {id : MemberId} (has : r.program.HasMember id) :
    s.classifyCallable (ρ.member id) = (r.classifyCallable id).map ρ.onOutcome :=
  h.unlessOverridden has (h.implementation has)

theorem firstUnimplemented (h : ρ.Matches r s) {accessors : List MemberId} :
    (∀ id ∈ accessors, r.program.HasMember id) →
      s.firstUnimplemented (accessors.map ρ.member)
        = (r.firstUnimplemented accessors).map ρ.onOutcome := by
  induction accessors with
  | nil => intro _; rfl
  | cons accessor rest ih =>
      intro has
      rw [List.map_cons, Resolver.firstUnimplemented, Resolver.firstUnimplemented,
        h.classifyCallable (has accessor (by simp)),
        ih fun id hid => has id (List.mem_cons_of_mem _ hid)]
      cases r.classifyCallable accessor with
      | error error => rfl
      | ok outcome => cases outcome <;> rfl

theorem ownerOutcome (h : ρ.Matches r s) {id : MemberId} (has : r.program.HasMember id) :
    s.ownerOutcome (ρ.member id) = (r.ownerOutcome id).map ρ.onOutcome := by
  have haccessors : (s.program.member (ρ.member id)).accessors
      = (r.program.member id).accessors.map ρ.member := by
    rw [h.member id has]
    rfl
  unfold Resolver.ownerOutcome
  rw [h.isMemberExternal has, haccessors,
    h.firstUnimplemented fun accessor hmem => (h.before.accessors id has accessor hmem).known]
  split <;> rfl

/-- **A member has the same outcome.** -/
theorem classifyMember (h : ρ.Matches r s) {id : MemberId} (has : r.program.HasMember id) :
    s.classifyMember (ρ.member id) = (r.classifyMember id).map ρ.onOutcome := by
  refine h.unlessOverridden has ?_
  rw [h.kind has]
  cases (r.program.member id).kind with
  | field => rfl
  | property | event => exact h.ownerOutcome has
  | method | constructor | operator => exact h.implementation has

/-- A type has the same outcome. -/
theorem classifyType (h : ρ.Matches r s) {id : TypeId} (has : r.program.HasType id) :
    s.classifyType (ρ.type id) = r.classifyType id := by
  unfold Resolver.classifyType
  rw [h.isTypeIgnored has, h.refusedType has, h.typeDirectives has, h.isTypeExternal has]

/-! ### Names -/

theorem typeName (h : ρ.Matches r s) {id : TypeId} (has : r.program.HasType id) :
    s.typeName (ρ.type id) = r.typeName id := by
  unfold Resolver.typeName
  rw [h.typeDirectives has, h.key has]

theorem spaceText (h : ρ.Matches r s) {id : TypeId} (has : r.program.HasType id) :
    s.spaceText (ρ.type id) = r.spaceText id := by
  have hasOutermost : r.program.HasType ((r.program.enclosingChain id).getLastD id) := by
    rcases List.mem_cons.mp (List.getLastD_mem_cons : (r.program.enclosingChain id).getLastD id ∈ _)
      with heq | hmem
    · rw [heq]
      exact has
    · exact h.before.hasType_of_mem_enclosingUpTo has _ hmem
  have houtermost : (s.program.enclosingChain (ρ.type id)).getLastD (ρ.type id)
      = ρ.type ((r.program.enclosingChain id).getLastD id) := by
    unfold Program.enclosingChain
    rw [h.enclosingUpTo _ has, List.getLastD_map]
  unfold Resolver.spaceText
  simp only
  rw [houtermost, h.key hasOutermost]

theorem qualifiedName (h : ρ.Matches r s) {id : TypeId} (has : r.program.HasType id) :
    s.qualifiedName (ρ.type id) = r.qualifiedName id := by
  have names : (s.program.enclosingChain (ρ.type id)).map s.typeName
      = (r.program.enclosingChain id).map r.typeName :=
    h.map_enclosingChain has fun outer hasOuter => h.typeName hasOuter
  unfold Resolver.qualifiedName
  rw [h.spaceText has, List.map_reverse, List.map_reverse, names]

theorem typeReference (h : ρ.Matches r s) {id : TypeId} (has : r.program.HasType id) :
    s.typeReference (ρ.type id) = r.typeReference id := by
  unfold Resolver.typeReference
  rw [h.typeDirectives has, h.qualifiedName has]

theorem memberName (h : ρ.Matches r s) {id : MemberId} (has : r.program.HasMember id) :
    s.memberName (ρ.member id) = r.memberName id := by
  have horigin : (s.program.member (ρ.member id)).origin
      = ρ.onOrigin (r.program.member id).origin := by
    rw [h.member id has]
    rfl
  have origins := h.before.origins id has
  unfold Resolver.memberName Resolver.ownName
  simp only
  rw [h.memberDirectives has, horigin, h.name has, h.declaringType has,
    h.typeName (h.before.declaringType id has)]
  cases hold : (r.program.member id).origin with
  | declared => cases Directive.rename? (r.memberDirectives id) <;> rfl
  | accessor kind owner generated =>
      rw [hold] at origins
      cases Directive.rename? (r.memberDirectives id) with
      | some name => rfl
      | none =>
          simp only [onOrigin]
          rw [h.memberDirectives origins.1]
  | backingField property =>
      rw [hold] at origins
      cases Directive.rename? (r.memberDirectives id) with
      | some name => rfl
      | none =>
          simp only [onOrigin]
          rw [h.memberDirectives origins.1, h.name origins.1]

/-! ### Resolving -/

/-- **A member resolves to the same.** -/
theorem resolveMember (h : ρ.Matches r s) {id : MemberId} (has : r.program.HasMember id) :
    s.resolveMember (ρ.member id) = (r.resolveMember id).map ρ.onResolvedMember := by
  unfold Resolver.resolveMember
  rw [h.identityOfMember has, h.memberName has, h.classifyMember has]
  cases r.classifyMember id <;> rfl

/-- **A type resolves to the same.** -/
theorem resolveType (h : ρ.Matches r s) {id : TypeId} (has : r.program.HasType id) :
    s.resolveType (ρ.type id) = ρ.onResolvedType (r.resolveType id) := by
  unfold Resolver.resolveType
  rw [h.typeName has, h.qualifiedName has, h.typeReference has, h.classifyType has]
  rfl

theorem shouldDeclareLocal (h : ρ.Matches r s) (key : TypeKey) :
    s.shouldDeclareLocal key = r.shouldDeclareLocal key := by
  unfold Resolver.shouldDeclareLocal
  rw [h.findType?]
  cases hfind : r.program.findType? key.element with
  | none => rfl
  | some id =>
      have has := (h.before.findType?_eq_some_iff.mp hfind).1
      exact congrArg not (h.isTypeIgnored has)

theorem fieldEmission (h : ρ.Matches r s) {id : MemberId} (has : r.program.HasMember id)
    (outcome : Outcome) :
    s.fieldEmission (ρ.member id) (ρ.onOutcome outcome) = r.fieldEmission id outcome := by
  have htype : (s.program.member (ρ.member id)).type = (r.program.member id).type :=
    h.read_member has (·.type) fun _ => rfl
  unfold Resolver.fieldEmission
  rw [htype, h.shouldDeclareLocal, h.isMemberExternal has]
  cases outcome <;> rfl

end Matches

end Renumbering

end MemberResolution
