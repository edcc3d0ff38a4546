/-
Proxy members that take no part.

A proxy member that is never to replace anything, or whose property or event is not to, is
skipped when its proxy is entered.  None of the members of a proxy that is itself ignored is
looked at, and a proxy inside an ignored type is not looked at as a whole.  So the bodies and
marks of such members do not show in the log: two programs that differ in them alone have one
log, and everything that is no proxy is resolved alike.

A mark on a property counts for its accessors as well, which need not be among what differs.
It is the same for them in both programs because what an accessor belongs to is no accessor
itself: if it takes no part on its own account, it is marked so in both.
-/
import MemberResolution.Proofs.Conversation
import MemberResolution.Proofs.Owners
import MemberResolution.Proofs.SameEntries
import MemberResolution.Proofs.SameNames

namespace MemberResolution

/-- A member without its body and its marks. -/
def LoadedMember.declaration (member : LoadedMember) : LoadedMember :=
  { member with body := .absent, marks := [] }

@[simp] theorem LoadedMember.skeleton_declaration (member : LoadedMember) :
    member.declaration.skeleton = member.skeleton :=
  rfl

namespace Program

/-- A member of a proxy type takes no part: it or what it belongs to is not to replace
anything, or it is the field of a property, or its proxy is ignored, or a type around its
proxy is. -/
def TakesNoPart (program : Program) (id : MemberId) : Prop :=
  let proxy := (program.member id).declaringType
  (program.type proxy).isProxy = true
    ∧ (program.isInert (program.member id) = true
      ∨ Mark.isIgnored (program.type proxy).marks = true
      ∨ program.isInsideIgnored proxy = true)

instance (program : Program) (id : MemberId) : Decidable (program.TakesNoPart id) :=
  inferInstanceAs (Decidable (_ ∧ _))

/-- Two programs differ in nothing but the bodies and marks of members that take no part in
either. -/
structure SameButInert (p q : Program) : Prop where
  assemblies : q.assemblies = p.assemblies
  types : q.types = p.types
  memberCount : q.members.size = p.members.size
  members : ∀ id, p.HasMember id → q.member id = p.member id
    ∨ p.TakesNoPart id ∧ q.TakesNoPart id
      ∧ (q.member id).declaration = (p.member id).declaration

/-- If the proxy takes part and a member of it does not, it is on the member's account. -/
theorem TakesNoPart.isInert {program : Program} {id : MemberId} (h : program.TakesNoPart id)
    (live : program.isInsideIgnored (program.member id).declaringType = false)
    (kept : Mark.isIgnored (program.type (program.member id).declaringType).marks = false) :
    program.isInert (program.member id) = true := by
  rcases h.2 with inert | ignored | inside
  · exact inert
  · rw [kept] at ignored
    cases ignored
  · rw [live] at inside
    cases inside

theorem isInert_of_declared {program : Program} {member : LoadedMember}
    (declared : member.origin = .declared) :
    program.isInert member = Mark.isNeverReplaced member.marks := by
  unfold isInert LoadedMember.isBackingField LoadedMember.owner?
  simp only [declared, Bool.false_or, Bool.or_false]

namespace SameButInert

variable {p q : Program}

theorem type (h : p.SameButInert q) (id : TypeId) : q.type id = p.type id := by
  unfold Program.type
  rw [h.types]

theorem skeleton (h : p.SameButInert q) {id : MemberId} (has : p.HasMember id) :
    (q.member id).skeleton = (p.member id).skeleton := by
  rcases h.members id has with same | ⟨-, -, declaration⟩
  · rw [same]
  · rw [← LoadedMember.skeleton_declaration, declaration, LoadedMember.skeleton_declaration]

theorem sameSkeleton (h : p.SameButInert q) (before : p.WellFormed) (after : q.WellFormed) :
    p.SameSkeleton q where
  before := before
  after := after
  assemblies id _ := by
    unfold assembly
    rw [h.assemblies]
  typeCount := congrArg Array.size h.types
  memberCount := h.memberCount
  types id _ := congrArg LoadedType.shape (h.type id)
  members _ has := h.skeleton has
  proxies id _ := congrArg LoadedType.isProxy (h.type id)

theorem member_of_plain (h : p.SameButInert q) (wellFormed : p.WellFormed) {type : TypeId}
    (has : p.HasType type) (plain : (p.type type).isProxy = false) {id : MemberId}
    (hmem : id ∈ (p.type type).members) : q.member id = p.member id := by
  obtain ⟨hasMember, hdeclaring⟩ := wellFormed.declares type has id hmem
  refine (h.members id hasMember).resolve_right fun differs => ?_
  have isProxy := differs.1.1
  rw [hdeclaring, plain] at isProxy
  cases isProxy

/-- Where a proxy takes part, a property or event of it is marked alike in both programs. -/
theorem isNeverReplaced_declared (h : p.SameButInert q) (before : p.WellFormed)
    (after : q.WellFormed) {id : MemberId} (declared : p.IsDeclared id)
    (live : p.isInsideIgnored (p.member id).declaringType = false)
    (kept : Mark.isIgnored (p.type (p.member id).declaringType).marks = false) :
    Mark.isNeverReplaced (q.member id).marks = Mark.isNeverReplaced (p.member id).marks := by
  have extend := (h.sameSkeleton before after).extend
  have hdeclaring := extend.declaringType declared.1
  have origin : (q.member id).origin = .declared :=
    (extend.read_member declared.1 (·.origin) fun _ => rfl).trans declared.2
  rcases h.members id declared.1 with same | ⟨ofOld, ofNew, -⟩
  · rw [same]
  · have inside : q.isInsideIgnored (p.member id).declaringType
        = p.isInsideIgnored (p.member id).declaringType :=
      extend.isInsideIgnored (before.declaringType id declared.1) fun outer _ => by
        rw [h.type outer]
    have old := ofOld.isInert live kept
    have new := ofNew.isInert (by rw [hdeclaring, inside, live])
      (by rw [hdeclaring, h.type, kept])
    rw [isInert_of_declared declared.2] at old
    rw [isInert_of_declared origin] at new
    rw [old, new]

theorem memberEntries (h : p.SameButInert q) (before : p.WellFormed) (after : q.WellFormed)
    (owners : p.OwnersDeclared) {proxy : TypeId} (has : p.HasType proxy)
    (live : p.isInsideIgnored proxy = false) (kept : Mark.isIgnored (p.type proxy).marks = false)
    {inheritable : Bool} {target : TypeId} (hasTarget : p.HasType target) {id : MemberId}
    (hmem : id ∈ (p.type proxy).members) :
    q.memberEntries (q.type proxy) inheritable target id
      = p.memberEntries (p.type proxy) inheritable target id := by
  have extend := (h.sameSkeleton before after).extend
  obtain ⟨hasMember, hdeclaring⟩ := before.declares proxy has id hmem
  have inside : q.isInsideIgnored proxy = p.isInsideIgnored proxy :=
    extend.isInsideIgnored has fun outer _ => by rw [h.type outer]
  rcases h.members id hasMember with same | ⟨ofOld, ofNew, -⟩
  · have inert : q.isInert (q.member id) = p.isInert (p.member id) := by
      refine extend.isInert hasMember (by rw [same]) fun owner howner => ?_
      have hown := (before.of_owner? hasMember howner).2.trans hdeclaring
      exact h.isNeverReplaced_declared before after (owners id hasMember owner howner)
        (by rw [hown, live]) (by rw [hown, kept])
    exact extend.memberEntries (by rw [h.type]) hasTarget hasMember inert (by rw [same])
      (by rw [same])
  · have hdeclaringNew := (extend.declaringType hasMember).trans hdeclaring
    have old := ofOld.isInert (by rw [hdeclaring, live]) (by rw [hdeclaring, kept])
    have new := ofNew.isInert (by rw [hdeclaringNew, inside, live])
      (by rw [hdeclaringNew, h.type, kept])
    unfold Program.memberEntries
    simp only
    rw [if_pos old, if_pos new]

/-- **The programs have one log.** -/
theorem store_eq (h : p.SameButInert q) (before : p.WellFormed) (after : q.WellFormed)
    (owners : p.OwnersDeclared) : Store.ofProgram q = Store.ofProgram p := by
  have same := h.sameSkeleton before after
  refine same.store_eq (fun id has plain => ?_) fun id has _ => ?_
  · rw [same.extend.ownEntries has fun member hmem => by
      rw [h.member_of_plain before has plain hmem], h.type id]
  · refine same.extend.proxyEntries has (by rw [h.type])
      (same.extend.isInsideIgnored has fun outer _ => by rw [h.type outer])
      (fun key _ => same.findType? key) fun live kept member hmem inheritable target hasTarget => ?_
    exact h.memberEntries before after owners has live kept hasTarget hmem

end SameButInert

end Program

namespace Session

/-- **What takes no part has no influence.**  If two programs differ in nothing but the
bodies and marks of proxy members that take no part in either, they have the same
configuration errors, and sessions of the two, whatever they were asked before, resolve every
type that is no proxy alike, and each of its members to the same result or the same error. -/
theorem resolution_independent_of_inert {p q : Program} (built : p.Buildable)
    (rebuilt : q.Buildable) (same : p.SameButInert q) (options : Options)
    {asked askedOther : List Query} (fits : ∀ query ∈ asked, query.Fits p)
    (fitsOther : ∀ query ∈ askedOther, query.Fits q) :
    let one := (start p options).after asked
    let other := (start q options).after askedOther
    (Store.ofProgram q).configurationErrors = (Store.ofProgram p).configurationErrors
      ∧ ∀ type, p.HasType type → (p.type type).isProxy = false →
          (other.answer (Ask.resolveType type)).1 = (one.answer (Ask.resolveType type)).1
            ∧ ∀ id ∈ (p.type type).members,
              (other.answer (Ask.resolveMember id)).1 = (one.answer (Ask.resolveMember id)).1 := by
  intro one other
  have skeletons := same.sameSkeleton built.wellFormed rebuilt.wellFormed
  have store := same.store_eq built.wellFormed rebuilt.wellFormed built.ownersDeclared
  have log : (start p options).resolver.SameLog (start q options).resolver :=
    ⟨skeletons.extend, rfl, store⟩
  refine ⟨by rw [store], fun type has plain => ?_⟩
  have members : ∀ id ∈ (p.type type).members, q.member id = p.member id :=
    fun id hmem => same.member_of_plain built.wellFormed has plain hmem
  have names := log.namesOn has
  have agrees := log.agreesOn has fun id hmem => congrArg LoadedMember.body (members id hmem)
  refine ⟨?_, fun id hmem => ?_⟩
  · rw [answer_resolveType_after built.wellFormed options fits has,
      answer_resolveType_after rebuilt.wellFormed options fitsOther (skeletons.hasType.mpr has),
      names.resolveType agrees.toAgreesAround]
  · have hasMember := (built.wellFormed.declares type has id hmem).1
    rw [answer_resolveMember_after built.wellFormed options fits hasMember,
      answer_resolveMember_after rebuilt.wellFormed options fitsOther
        (skeletons.hasMember.mpr hasMember)]
    exact names.resolveMember agrees hmem (congrArg LoadedMember.params (members id hmem))

/-- A door with two proxies, of which one stands inside an ignored type, and a lamp with an
ignored proxy.  What takes no part has the bodies and marks as given: a property that is not
to replace anything with its getter, the method of the ignored proxy and that of the proxy
inside the ignored type. -/
def idleProxyMembers (body : BodyState) (marks : List Mark) : List Edit :=
  [.addAssembly "Lib",
   .addType ⟨0⟩ { name := "Lib.Door", kind := .classType },
   .addMember ⟨0⟩ ((MemberDecl.method "Open").withBody .absent),
   .addMember ⟨0⟩ (.method "Close"),
   .addType ⟨0⟩ { name := "Ext.Door", kind := .classType, marks := [.proxy ⟨"Lib.Door"⟩ true] },
   .addMember ⟨1⟩ (.method "Open"),
   .addProperty ⟨1⟩
     { name := "Level", type := ⟨"System.Int32"⟩, getter := some ⟨body, marks⟩,
       marks := .neverReplace :: marks },
   .addType ⟨0⟩ { name := "Lib.Lamp", kind := .classType },
   .addMember ⟨2⟩ (.method "Shine"),
   .addType ⟨0⟩
     { name := "Ext.Lamp", kind := .classType, marks := [.proxy ⟨"Lib.Lamp"⟩ true, .ignore] },
   .addMember ⟨3⟩ { (MemberDecl.method "Shine").withBody body with marks := marks },
   .addType ⟨0⟩ { name := "Ext.Hidden", kind := .classType, marks := [.ignore] },
   .addNestedType ⟨4⟩ { name := "Door", kind := .classType, marks := [.proxy ⟨"Lib.Door"⟩ true] },
   .addMember ⟨5⟩ { (MemberDecl.method "Close").withBody body with marks := marks }]

/-- The door is opened by its one live proxy and closed by itself, and the lamp is refused,
whatever is written on the rest. -/
theorem resolution_independent_of_inert_idleProxyMembers :
    let p := Program.afterEdits {} (idleProxyMembers .present [])
    let q := Program.afterEdits {} (idleProxyMembers .untranslatable [.ignore, .rename "Other"])
    let options : Options := {}
    let one := (start p options).after [.type ⟨0⟩]
    let other := (start q options).after [.member ⟨2⟩, .member ⟨0⟩]
    (p.Buildable ∧ q.Buildable ∧ p.SameButInert q ∧ p ≠ q)
      ∧ ((Store.ofProgram q).configurationErrors = (Store.ofProgram p).configurationErrors
        ∧ (other.answer (Ask.resolveType ⟨2⟩)).1 = (one.answer (Ask.resolveType ⟨2⟩)).1
        ∧ (other.answer (Ask.resolveMember ⟨0⟩)).1 = (one.answer (Ask.resolveMember ⟨0⟩)).1)
      ∧ (other.answer (Ask.resolveMember ⟨0⟩)).1.toOption.map (·.outcome)
          = some (.proxy ⟨⟨2⟩, ⟨1⟩, ⟨0⟩, .replaceBody⟩)
      ∧ (other.answer (Ask.resolveMember ⟨1⟩)).1.toOption.map (·.outcome) = some .own
      ∧ (other.answer (Ask.resolveType ⟨2⟩)).1.toOption.map (·.outcome.label)
          = some .refused := by
  intro p q options one other
  have built : p.Buildable := Program.Buildable.empty.afterEdits (by decide)
  have rebuilt : q.Buildable := Program.Buildable.empty.afterEdits (by decide)
  have members : ∀ i, i < p.members.size → (q.member ⟨i⟩ = p.member ⟨i⟩
      ∨ p.TakesNoPart ⟨i⟩ ∧ q.TakesNoPart ⟨i⟩
        ∧ (q.member ⟨i⟩).declaration = (p.member ⟨i⟩).declaration) := by
    decide +kernel
  have same : p.SameButInert q :=
    ⟨by decide +kernel, by decide +kernel, by decide +kernel, fun id => members id.index⟩
  have fits : ∀ query ∈ [Query.type ⟨0⟩], query.Fits p := by decide +kernel
  have fitsOther : ∀ query ∈ [Query.member ⟨2⟩, .member ⟨0⟩], query.Fits q := by decide +kernel
  have independent := resolution_independent_of_inert built rebuilt same options fits fitsOther
  refine ⟨⟨built, rebuilt, same, by decide +kernel⟩, ⟨independent.1, ?_, ?_⟩, ?_, ?_, ?_⟩
  · exact (independent.2 ⟨2⟩ (by decide +kernel) (by decide +kernel)).1
  · exact (independent.2 ⟨0⟩ (by decide +kernel) (by decide +kernel)).2 ⟨0⟩ (by decide +kernel)
  all_goals decide +kernel

end Session

end MemberResolution
