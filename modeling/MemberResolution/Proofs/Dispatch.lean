/-
Dispatch and the search for a proxy.

A call through a receiver is bound first and supplied afterwards: the walk up the chain of
the receiver stops at the nearest type that declares the signature, and only the member
found there is resolved, with a search of its own that starts at its type.  A search for a
proxy that starts at the receiver itself comes to the same.  Below the nearest declaration
it finds nothing, since a candidate stands only where its target is declared; it meets the
same errors on the way; and from the nearest declaration on the two walks are one, since
a chain goes on from each of its types as the chain of that type does.

The walks differ in one thing only.  A search from the type of the declaration may use
proxies that do not reach derived types, and a search from the receiver may not.  So what
is said here of proxies is said of programs in which every proxy is inheritable.
-/
import Mathlib.Data.List.Find
import MemberResolution.Proofs.Conversation
import MemberResolution.Proofs.Effective
import MemberResolution.Proofs.Failure
import MemberResolution.Proofs.FrozenTable
import MemberResolution.Proofs.Lineage

namespace MemberResolution

/-! ### Signatures -/

namespace Identity

theorem sameSignature_iff {a b : Identity} :
    a.sameSignature b = true
      ↔ a.kind = b.kind ∧ a.name = b.name ∧ a.params = b.params ∧ a.returns = b.returns := by
  simp only [sameSignature, Bool.and_eq_true, decide_eq_true_eq, and_assoc]

/-- Of a signature only the declaring type is replaced, so nothing else tells two of them
apart. -/
theorem declaredBy_congr {a b : Identity} (same : a.sameSignature b = true) (key : TypeKey) :
    a.declaredBy key = b.declaredBy key := by
  obtain ⟨kind, name, params, returns⟩ := sameSignature_iff.mp same
  unfold declaredBy
  rw [kind, name, params, returns]

theorem name_congr {a b : Identity} (same : a.sameSignature b = true) : a.name = b.name :=
  (sameSignature_iff.mp same).2.1

end Identity

/-! ### Declarations on a chain -/

namespace Program

variable {program : Program}

/-- A member is what a type itself declares of a signature. -/
def Declares (program : Program) (type : TypeId) (signature : Identity) (id : MemberId) : Prop :=
  id ∈ (program.type type).members
    ∧ (program.identityOfMember id).sameSignature signature = true

/-- A member is the declaration of a signature on the nearest type of a chain that declares
it. -/
def NearestDeclaration (program : Program) (chain : List TypeId) (signature : Identity)
    (id : MemberId) : Prop :=
  ∃ nearer type further, chain = nearer ++ type :: further
    ∧ (∀ closer ∈ nearer, ∀ other, ¬ program.Declares closer signature other)
    ∧ program.Declares type signature id

theorem WellFormed.findMember?_declaredBy_eq_some_iff (h : program.WellFormed) {type : TypeId}
    (has : program.HasType type) {signature : Identity} {id : MemberId} :
    program.findMember? (signature.declaredBy (program.type type).key) = some id
      ↔ program.Declares type signature id :=
  h.findMember?_eq_some_iff.trans (h.eq_declaredBy_iff has)

theorem WellFormed.findMember?_declaredBy_eq_none_iff (h : program.WellFormed) {type : TypeId}
    (has : program.HasType type) {signature : Identity} :
    program.findMember? (signature.declaredBy (program.type type).key) = none
      ↔ ∀ id, ¬ program.Declares type signature id := by
  rw [Option.eq_none_iff_forall_ne_some]
  exact forall_congr' fun id => not_congr (h.findMember?_declaredBy_eq_some_iff has)

end Program

namespace Resolver

variable {resolver : Resolver} {signature : Identity} {chain : List TypeId}

/-! ### Only the signature counts -/

theorem findDeclarationAlong_congr {other : Identity} (same : other.sameSignature signature = true) :
    resolver.findDeclarationAlong other chain = resolver.findDeclarationAlong signature chain := by
  induction chain with
  | nil => rfl
  | cons type rest ih =>
      rw [findDeclarationAlong, findDeclarationAlong, Identity.name_congr same,
        Identity.declaredBy_congr same, ih]

theorem findProxyAlong_congr {other : Identity} (same : other.sameSignature signature = true) :
    ∀ {atStart : Bool}, resolver.findProxyAlong other atStart chain
      = resolver.findProxyAlong signature atStart chain := by
  induction chain with
  | nil => intro atStart; rfl
  | cons type rest ih =>
      intro atStart
      rw [findProxyAlong, findProxyAlong, supplierAt?, supplierAt?, Identity.name_congr same,
        Identity.declaredBy_congr same, ih]

/-! ### The walk to the nearest declaration -/

/-- The walk finds nothing exactly where no type declares the signature and none stops it. -/
theorem findDeclarationAlong_eq_none_iff (h : resolver.program.WellFormed)
    (has : ∀ type ∈ chain, resolver.program.HasType type) :
    resolver.findDeclarationAlong signature chain = .ok none
      ↔ (∀ type ∈ chain, ∀ id, ¬ resolver.program.Declares type signature id)
        ∧ ∀ type ∈ chain, resolver.store.errorFor? type signature.name.text = none := by
  induction chain with
  | nil => simp [findDeclarationAlong]
  | cons type rest ih =>
      have hasType := has type List.mem_cons_self
      have undeclared : resolver.program.findMember?
            (signature.declaredBy (resolver.program.type type).key) = none
          ↔ ∀ id, ¬ resolver.program.Declares type signature id :=
        h.findMember?_declaredBy_eq_none_iff hasType
      rw [findDeclarationAlong, List.forall_mem_cons, List.forall_mem_cons, ← undeclared]
      cases herror : resolver.store.errorFor? type signature.name.text with
      | some error => simp
      | none =>
          cases hfind : resolver.program.findMember?
              (signature.declaredBy (resolver.program.type type).key) with
          | some id => simp
          | none =>
              simp only [true_and]
              exact ih fun other hmem => has other (List.mem_cons_of_mem _ hmem)

/-! ### The two walks -/

theorem supplierAt?_of_undeclared (h : resolver.program.WellFormed) {type : TypeId}
    (undeclared : resolver.program.findMember?
      (signature.declaredBy (resolver.program.type type).key) = none) (atStart : Bool) :
    resolver.supplierAt? atStart signature type = none := by
  have nothing : resolver.store.candidatesFor
      (signature.declaredBy (resolver.program.type type).key) = [] := by
    refine List.eq_nil_iff_forall_not_mem.mpr fun candidate hmem => ?_
    rw [resolver.store_eq] at hmem
    obtain ⟨hidentity, target, candidacy⟩ := h.mem_candidatesFor_iff.mp hmem
    have hasTarget :=
      ((h.mem_members_iff candidacy.targetKnown).mp candidacy.supplies.mem).1
    exact h.findMember?_eq_none_iff.mp undeclared _ hasTarget hidentity
  unfold supplierAt?
  rw [nothing]
  rfl

/-- Where every proxy is inheritable it does not matter where a search started. -/
theorem supplierAt?_of_inheritable (h : resolver.program.WellFormed)
    (inheritable : ∀ proxy ∈ resolver.program.proxyTypes, Program.isInheritable proxy = true)
    (atStart : Bool) (type : TypeId) :
    resolver.supplierAt? atStart signature type = resolver.supplierAt? true signature type := by
  unfold supplierAt?
  refine List.find?_congr fun candidate hmem => ?_
  rw [resolver.store_eq] at hmem
  obtain ⟨-, target, candidacy⟩ := h.mem_candidatesFor_iff.mp hmem
  have hproxy : resolver.program.type candidate.proxyType ∈ resolver.program.proxyTypes := by
    refine List.mem_filter.mpr ⟨h.mem_types_iff.mpr ?_, ?_⟩
    · rw [h.typeId _ candidacy.known]
      exact ⟨candidacy.known, rfl⟩
    · unfold LoadedType.isProxy
      rw [candidacy.pointsAt]
      rfl
  have reaches := inheritable _ hproxy
  unfold Program.isInheritable at reaches
  rw [candidacy.pointsAt] at reaches
  have hcandidate : candidate.inheritable = true := reaches
  rw [hcandidate, Bool.or_true, Bool.true_or]

theorem findProxyAlong_of_inheritable (h : resolver.program.WellFormed)
    (inheritable : ∀ proxy ∈ resolver.program.proxyTypes, Program.isInheritable proxy = true)
    (atStart : Bool) : resolver.findProxyAlong signature atStart chain
      = resolver.findProxyAlong signature true chain := by
  cases chain with
  | nil => rfl
  | cons type rest =>
      rw [findProxyAlong, findProxyAlong, supplierAt?_of_inheritable h inheritable]

/-- **Up to the nearest declaration the two walks go together.**  Either an error stops both,
or the one ends there and the other goes on as a search that starts there. -/
theorem walks_to_nearest (h : resolver.program.WellFormed)
    (inheritable : ∀ proxy ∈ resolver.program.proxyTypes, Program.isInheritable proxy = true)
    {nearer further : List TypeId} {type : TypeId} {id : MemberId}
    (has : ∀ other ∈ nearer ++ type :: further, resolver.program.HasType other)
    (undeclared : ∀ closer ∈ nearer, ∀ other, ¬ resolver.program.Declares closer signature other)
    (declares : resolver.program.Declares type signature id) :
    (∃ error, resolver.findDeclarationAlong signature (nearer ++ type :: further) = .error error
        ∧ resolver.findProxyAlong signature true (nearer ++ type :: further) = .error error)
      ∨ resolver.findDeclarationAlong signature (nearer ++ type :: further) = .ok (some id)
        ∧ resolver.findProxyAlong signature true (nearer ++ type :: further)
          = resolver.findProxyAlong signature true (type :: further) := by
  induction nearer with
  | nil =>
      have hfind := (h.findMember?_declaredBy_eq_some_iff (has type (by simp))).mpr declares
      simp only [List.nil_append, findDeclarationAlong, findProxyAlong, hfind]
      cases resolver.store.errorFor? type signature.name.text with
      | some error => exact .inl ⟨error, rfl, rfl⟩
      | none => exact .inr ⟨rfl, trivial⟩
  | cons closer nearer ih =>
      obtain ⟨here, onward⟩ := List.forall_mem_cons.mp undeclared
      have hfind := (h.findMember?_declaredBy_eq_none_iff (has closer (by simp))).mpr here
      rw [List.cons_append, findDeclarationAlong, findProxyAlong, hfind,
        supplierAt?_of_undeclared h hfind, findProxyAlong_of_inheritable h inheritable]
      cases resolver.store.errorFor? closer signature.name.text with
      | some error => exact .inl ⟨error, rfl, rfl⟩
      | none => exact ih (fun other hmem => has other (List.mem_cons_of_mem _ hmem)) onward

theorem nearest_of_findDeclarationAlong (h : resolver.program.WellFormed)
    (has : ∀ type ∈ chain, resolver.program.HasType type) {id : MemberId}
    (found : resolver.findDeclarationAlong signature chain = .ok (some id)) :
    resolver.program.NearestDeclaration chain signature id := by
  induction chain with
  | nil => cases found
  | cons type rest ih =>
      have hasType := has type List.mem_cons_self
      rw [findDeclarationAlong] at found
      split at found
      · cases found
      · split at found
        · rename_i member hfind
          cases found
          exact ⟨[], type, rest, rfl, List.forall_mem_nil _,
            (h.findMember?_declaredBy_eq_some_iff hasType).mp hfind⟩
        · rename_i hfind
          obtain ⟨nearer, nearest, further, rfl, undeclared, declares⟩ :=
            ih (fun other hmem => has other (List.mem_cons_of_mem _ hmem)) found
          refine ⟨type :: nearer, nearest, further, rfl, ?_, declares⟩
          exact List.forall_mem_cons.mpr
            ⟨(h.findMember?_declaredBy_eq_none_iff hasType).mp hfind, undeclared⟩

/-! ### Resolving what was found -/

theorem findDeclaration_of_chain {receiver : TypeId} (chained : resolver.chain receiver = .ok chain)
    (signature : Identity) : resolver.findDeclaration receiver signature
      = resolver.findDeclarationAlong signature chain := by
  unfold findDeclaration
  rw [chained]
  rfl

theorem findProxy_of_chain {start : TypeId} (chained : resolver.chain start = .ok chain)
    (signature : Identity) :
    resolver.findProxy start signature = resolver.findProxyAlong signature true chain := by
  unfold findProxy
  rw [chained]
  rfl

/-- What is declared on a chain is implemented by a search along the rest of the chain. -/
theorem implementation_of_declares (h : resolver.program.WellFormed) {receiver type : TypeId}
    {nearer further : List TypeId} (has : resolver.program.HasType type)
    (chained : resolver.chain receiver = .ok (nearer ++ type :: further)) {id : MemberId}
    (declares : resolver.program.Declares type signature id) :
    resolver.implementation id
      = (fun found => match found with
          | some body => .proxy body
          | none => resolver.ownOutcome id)
        <$> resolver.findProxyAlong signature true (type :: further) := by
  obtain ⟨hmem, same⟩ := declares
  have hdeclaring := ((h.mem_members_iff has).mp hmem).2
  obtain ⟨lineage, short⟩ := Program.chain_eq_ok_iff.mp chained
  have onward : resolver.chain type = .ok (type :: further) := by
    refine Program.chain_eq_ok_iff.mpr ⟨lineage.of_append, ?_⟩
    exact Nat.le_trans (by simp) short
  unfold implementation
  simp only
  rw [hdeclaring, findProxy_of_chain onward, findProxyAlong_congr same]
  cases resolver.findProxyAlong signature true (type :: further) with
  | error error => rfl
  | ok found => cases found <;> rfl

/-- What is declared of a signature that is called, and neither ignored nor replaced, is
resolved by its implementation. -/
theorem resolveMember_of_kept (callable : signature.kind.hasSignature = true) {id : MemberId}
    (same : (resolver.program.identityOfMember id).sameSignature signature = true)
    (kept : resolver.isMemberIgnored id = false)
    (unreplaced : Directive.replacement? (resolver.memberDirectives id) = none) :
    resolver.resolveMember id
      = (ResolvedMember.mk id (resolver.program.identityOfMember id) (resolver.memberName id))
        <$> resolver.implementation id := by
  have hcallable : (resolver.program.member id).kind.isCallable = true := by
    have hkind := (Identity.sameSignature_iff.mp same).1
    rw [Program.identityOfMember, Program.kind_identityOf] at hkind
    rw [← MemberKind.hasSignature_symbolKind, hkind]
    exact callable
  unfold resolveMember
  rw [classifyMember_of_isCallable hcallable]
  unfold classifyCallable unlessOverridden
  rw [kept, unreplaced]
  cases resolver.implementation id <;> rfl

theorem bind_resolveFound_eq_none_iff {found : Except ConfigurationError (Option MemberId)} :
    (found >>= resolver.resolveFound) = .ok none ↔ found = .ok none := by
  rw [bind_eq_ok_iff]
  refine ⟨?_, fun hnone => ⟨none, hnone, rfl⟩⟩
  rintro ⟨id?, hfound, hresolved⟩
  cases id? with
  | none => exact hfound
  | some id =>
      change some <$> resolver.resolveMember id = .ok none at hresolved
      cases hmember : resolver.resolveMember id <;> rw [hmember] at hresolved <;> cases hresolved

theorem found_of_bind_resolveFound {found : Except ConfigurationError (Option MemberId)}
    {resolved : ResolvedMember}
    (hresolved : (found >>= resolver.resolveFound) = .ok (some resolved)) :
    found = .ok (some resolved.member) := by
  obtain ⟨id?, hfound, hresolved⟩ := bind_eq_ok_iff.mp hresolved
  cases id? with
  | none => cases hresolved
  | some id =>
      change some <$> resolver.resolveMember id = .ok (some resolved) at hresolved
      cases hmember : resolver.resolveMember id with
      | error error => rw [hmember] at hresolved; cases hresolved
      | ok found =>
          rw [hmember] at hresolved
          cases hresolved
          rw [member_of_resolveMember hmember]
          exact hfound

/-- **A call through a receiver is supplied as a search from the receiver finds.** -/
theorem dispatch_of_nearest (h : resolver.program.WellFormed)
    (inheritable : ∀ proxy ∈ resolver.program.proxyTypes, Program.isInheritable proxy = true)
    {receiver : TypeId} (has : resolver.program.HasType receiver)
    (chained : resolver.chain receiver = .ok chain)
    (callable : signature.kind.hasSignature = true) {id : MemberId}
    (nearest : resolver.program.NearestDeclaration chain signature id)
    (kept : resolver.isMemberIgnored id = false)
    (unreplaced : Directive.replacement? (resolver.memberDirectives id) = none)
    {dispatched : Except ConfigurationError (Option ResolvedMember)}
    (hdispatched : dispatched
      = resolver.findDeclaration receiver signature >>= resolver.resolveFound) :
    (∀ error, dispatched = .error error ↔ resolver.findProxy receiver signature = .error error)
      ∧ ∀ body, (∃ resolved, dispatched = .ok (some resolved) ∧ resolved.outcome = .proxy body)
        ↔ resolver.findProxy receiver signature = .ok (some body) := by
  have hasAll := (Program.chain_eq_ok_iff.mp chained).1.hasType h has
  obtain ⟨nearer, type, further, rfl, undeclared, declares⟩ := nearest
  rw [findDeclaration_of_chain chained] at hdispatched
  rw [findProxy_of_chain chained]
  rcases walks_to_nearest h inheritable hasAll undeclared declares with
    ⟨error, bound, searched⟩ | ⟨bound, searched⟩
  · rw [bound] at hdispatched
    have fails : dispatched = .error error := hdispatched
    rw [fails, searched]
    simp
  · rw [bound] at hdispatched
    have resolves : dispatched = some <$> resolver.resolveMember id := hdispatched
    rw [resolver.resolveMember_of_kept callable declares.2 kept unreplaced,
      implementation_of_declares h (hasAll type (by simp)) chained declares] at resolves
    rw [searched]
    cases hfound : resolver.findProxyAlong signature true (type :: further) with
    | error error =>
        rw [hfound] at resolves
        have fails : dispatched = .error error := resolves
        rw [fails]
        simp
    | ok found =>
        rw [hfound] at resolves
        cases found with
        | some supplied =>
            have hok : dispatched = .ok (some ⟨id, resolver.program.identityOfMember id,
                resolver.memberName id, .proxy supplied⟩) := resolves
            rw [hok]
            simp
        | none =>
            have hok : dispatched = .ok (some ⟨id, resolver.program.identityOfMember id,
                resolver.memberName id, resolver.ownOutcome id⟩) := resolves
            have own : ∀ body, resolver.ownOutcome id ≠ .proxy body := by
              intro body
              unfold ownOutcome
              split <;> nofun
            rw [hok]
            simp [own]

end Resolver

/-! ### Dispatch in a session -/

namespace Session

open Program (isInheritable)

/-- What a session says of calls of a signature through a receiver. -/
structure RefinesSearch (session : Session) (program : Program) (receiver : TypeId)
    (chain : List TypeId) (signature : Identity) : Prop where
  /-- It depends on the signature alone. -/
  alike : ∀ other : Identity, other.sameSignature signature = true →
    (session.answer (Ask.resolveDispatch receiver other)).1
      = (session.answer (Ask.resolveDispatch receiver signature)).1
  /-- Nothing is bound where nothing is declared and nothing is misdeclared. -/
  unbound : (session.answer (Ask.resolveDispatch receiver signature)).1 = .ok none
    ↔ (∀ type ∈ chain, ∀ id, ¬ program.Declares type signature id)
      ∧ ∀ type ∈ chain, session.resolver.store.errorFor? type signature.name.text = none
  /-- What is bound is the nearest declaration. -/
  nearest : ∀ resolved,
    (session.answer (Ask.resolveDispatch receiver signature)).1 = .ok (some resolved) →
      program.NearestDeclaration chain signature resolved.member
  /-- The call fails with what the search fails with, and has the body that it finds. -/
  supplied : ∀ id, program.NearestDeclaration chain signature id →
    session.resolver.isMemberIgnored id = false →
    Directive.replacement? (session.resolver.memberDirectives id) = none →
      (∀ error, (session.answer (Ask.resolveDispatch receiver signature)).1 = .error error
          ↔ session.resolver.findProxy receiver signature = .error error)
        ∧ ∀ body, (∃ resolved,
            (session.answer (Ask.resolveDispatch receiver signature)).1 = .ok (some resolved)
              ∧ resolved.outcome = .proxy body)
          ↔ session.resolver.findProxy receiver signature = .ok (some body)

theorem Sound.refinesSearch {session : Session} (sound : session.Sound)
    (inheritable : ∀ proxy ∈ session.resolver.program.proxyTypes, isInheritable proxy = true)
    {receiver : TypeId} (has : session.resolver.program.HasType receiver) {chain : List TypeId}
    (hchain : session.resolver.chain receiver = .ok chain) {signature : Identity}
    (callable : signature.kind.hasSignature = true) :
    session.RefinesSearch session.resolver.program receiver chain signature := by
  have h := sound.wellFormed
  have hasAll := (Program.chain_eq_ok_iff.mp hchain).1.hasType h has
  have value : ∀ given, (session.answer (Ask.resolveDispatch receiver given)).1
      = session.resolver.findDeclaration receiver given >>= session.resolver.resolveFound :=
    fun given => (answers_resolveDispatch sound receiver given).value
  have along := fun given => (value given).trans
    (by rw [Resolver.findDeclaration_of_chain hchain])
  refine ⟨fun other same => ?_, ?_, fun resolved hresolved => ?_,
    fun id nearest kept unreplaced => ?_⟩
  · rw [along, along, Resolver.findDeclarationAlong_congr same]
  · rw [along, Resolver.bind_resolveFound_eq_none_iff]
    exact Resolver.findDeclarationAlong_eq_none_iff h hasAll
  · rw [along] at hresolved
    exact Resolver.nearest_of_findDeclarationAlong h hasAll
      (Resolver.found_of_bind_resolveFound hresolved)
  · exact Resolver.dispatch_of_nearest h inheritable has hchain callable nearest kept unreplaced
      (value signature)

/--
**Dispatch refines the search for a proxy from the receiver.**  In a program in which every
proxy is inheritable, a call of a signature through a receiver with a chain of bases that
ends in time depends on the signature alone, whatever the session was asked before.  Nothing
is bound exactly if no type of the chain declares the signature and no error is recorded for
its name there, and what is bound is the nearest declaration.  Where this is neither ignored
nor replaced, the call fails exactly as the search for a proxy from the receiver does, and it
is supplied by exactly the body that search finds.
-/
theorem resolveDispatch_refines_findProxy {program : Program} (built : program.Buildable)
    (inheritable : ∀ proxy ∈ program.proxyTypes, isInheritable proxy = true) (options : Options)
    {asked : List Query} (fits : ∀ query ∈ asked, query.Fits program) {receiver : TypeId}
    (has : program.HasType receiver) {chain : List TypeId}
    (chained : program.chain options.maxInheritanceDepth.toNat receiver = .ok chain)
    {signature : Identity} (callable : signature.kind.hasSignature = true) :
    ((start program options).after asked).RefinesSearch program receiver chain signature := by
  have sound : (start program options).Sound := sound_start built.wellFormed options
  have advances := advances_after sound fits
  have refines : ((start program options).after asked).RefinesSearch
      ((start program options).after asked).resolver.program receiver chain signature :=
    (advances.sound sound).refinesSearch (by rw [advances.resolver]; exact inheritable)
      (by rw [advances.resolver]; exact has) (by rw [advances.resolver]; exact chained) callable
  rw [advances.resolver] at refines
  exact refines

/-- A base with a method, a proxy of it, a type that declares the method again, and one
derived from that which does not. -/
def redeclaredMethod : List Edit :=
  [.addAssembly "Lib",
   .addType ⟨0⟩ { name := "Base", kind := .classType },
   .addMember ⟨0⟩ (.method "M"),
   .addType ⟨0⟩ { name := "Middle", kind := .classType, base := some ⟨"Base"⟩ },
   .addMember ⟨1⟩ (.method "M"),
   .addType ⟨0⟩ { name := "Leaf", kind := .classType, base := some ⟨"Middle"⟩ },
   .addType ⟨0⟩ { name := "P", kind := .classType, marks := [.proxy ⟨"Base"⟩ true] },
   .addMember ⟨3⟩ (.method "M")]

/-- Through the most derived type the call is bound in the middle and supplied by the proxy
of the base. -/
theorem resolveDispatch_refines_findProxy_redeclaredMethod :
    let program := Program.afterEdits {} redeclaredMethod
    let options : Options := {}
    let receiver : TypeId := ⟨2⟩
    let chain : List TypeId := [⟨2⟩, ⟨1⟩, ⟨0⟩]
    let signature := Identity.ofMember .method ⟨"Leaf"⟩ (.named "M") []
    let asked : List Query := [.dispatch receiver signature, .type ⟨0⟩]
    let session := (start program options).after asked
    (program.Buildable ∧ (∀ proxy ∈ program.proxyTypes, isInheritable proxy = true)
        ∧ (∀ query ∈ asked, query.Fits program) ∧ program.HasType receiver
        ∧ program.chain options.maxInheritanceDepth.toNat receiver = .ok chain
        ∧ signature.kind.hasSignature = true)
      ∧ session.RefinesSearch program receiver chain signature
      ∧ (session.answer (Ask.resolveDispatch receiver signature)).1
        = .ok (some ⟨⟨1⟩, signature.declaredBy ⟨"Middle"⟩, "M",
            .proxy ⟨⟨2⟩, ⟨3⟩, ⟨0⟩, .replaceBody⟩⟩) := by
  have built : (Program.afterEdits {} redeclaredMethod).Buildable :=
    Program.Buildable.empty.afterEdits (by decide)
  have inheritable : ∀ proxy ∈ (Program.afterEdits {} redeclaredMethod).proxyTypes,
      isInheritable proxy = true := by
    decide +kernel
  have fits : ∀ query ∈ [Query.dispatch ⟨2⟩ (.ofMember .method ⟨"Leaf"⟩ (.named "M") []),
      .type ⟨0⟩], query.Fits (Program.afterEdits {} redeclaredMethod) := by
    decide +kernel
  have has : (Program.afterEdits {} redeclaredMethod).HasType ⟨2⟩ := by decide +kernel
  have chained : (Program.afterEdits {} redeclaredMethod).chain
      ({} : Options).maxInheritanceDepth.toNat ⟨2⟩ = .ok [⟨2⟩, ⟨1⟩, ⟨0⟩] := by
    decide +kernel
  refine ⟨⟨built, inheritable, fits, has, chained, rfl⟩,
    resolveDispatch_refines_findProxy built inheritable {} fits has chained rfl, ?_⟩
  decide +kernel

end Session

end MemberResolution
