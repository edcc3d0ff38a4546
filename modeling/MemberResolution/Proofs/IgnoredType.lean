/-
Ignoring a type is confined to it.

A mark to be ignored on a type that is no proxy enters one directive, for this type.  It also
counts where a proxy stands inside the type, since that proxy is then not looked at; if the
type encloses no proxy, the one directive is all that the log gains.  So every question to
the log that passes over it has the answer it had.

What is left are the decisions that ask whether a type is ignored.  They ask for a type and
the types around it, so they are decided anew inside the type, where every member is refused,
and for the fields whose element type stands there, which are left out.
-/
import MemberResolution.Proofs.Conversation
import MemberResolution.Proofs.DecisionTable
import MemberResolution.Proofs.SameEntries
import MemberResolution.Proofs.SameNames

namespace MemberResolution

/-- A question that passes over a mark does not find where it was put. -/
theorem Mark.findSome?_insert {β : Type} {read : Mark → Option β} {mark : Mark}
    (passes : read mark = none) (front back : List Mark) :
    (front ++ mark :: back).findSome? read = (front ++ back).findSome? read := by
  rw [List.findSome?_append, List.findSome?_append, List.findSome?_cons, passes]

namespace Program

/-- One program is another with a mark to be ignored put among those of a type. -/
structure GainsIgnore (p q : Program) (type : TypeId) : Prop where
  assemblies : q.assemblies = p.assemblies
  members : q.members = p.members
  typeCount : q.types.size = p.types.size
  others : ∀ id, id ≠ type → q.type id = p.type id
  marked : ∃ front back, (p.type type).marks = front ++ back
    ∧ q.type type = { p.type type with marks := front ++ .ignore :: back }

theorem gainsIgnore_markType {p : Program} {type : TypeId} (has : p.HasType type) :
    p.GainsIgnore ((Edit.markType type .ignore).perform.on p).2 type where
  assemblies := rfl
  members := rfl
  typeCount := Array.size_modify
  others id other := by
    have distinct : type.index ≠ id.index :=
      fun same => other (by cases type; cases id; simpa using same.symm)
    show (p.types.modify type.index _).getD id.index default = _
    rw [getD_modify, if_neg fun hc => distinct hc.1]
    rfl
  marked := by
    refine ⟨(p.type type).marks, [], (List.append_nil _).symm, ?_⟩
    show (p.types.modify type.index _).getD type.index default = _
    rw [getD_modify, if_pos ⟨rfl, has⟩]
    rfl

/-- The type is loaded and no proxy, and none stands inside it as far as is looked. -/
structure GainsQuietIgnore (p q : Program) (type : TypeId) : Prop
    extends p.GainsIgnore q type where
  before : p.WellFormed
  after : q.WellFormed
  known : p.HasType type
  plain : (p.type type).isProxy = false
  outside : ∀ proxy, p.HasType proxy → (p.type proxy).isProxy = true →
    type ∉ p.enclosingChain proxy

namespace GainsQuietIgnore

variable {p q : Program} {type : TypeId}

/-- What is asked of a type passing over the mark has one answer. -/
theorem read_type {β : Type} (h : p.GainsQuietIgnore q type) (id : TypeId)
    {read : LoadedType → β}
    (reads : read (q.type type) = read (p.type type)) : read (q.type id) = read (p.type id) := by
  by_cases same : id = type
  · rw [same]
    exact reads
  · rw [h.others id same]

theorem isProxy (h : p.GainsQuietIgnore q type) (id : TypeId) :
    (q.type id).isProxy = (p.type id).isProxy := by
  refine h.read_type id ?_
  obtain ⟨front, back, old, new⟩ := h.marked
  unfold LoadedType.isProxy
  rw [new, old]
  exact congrArg Option.isSome (Mark.findSome?_insert rfl front back)

theorem member (h : p.GainsQuietIgnore q type) (id : MemberId) : q.member id = p.member id := by
  unfold Program.member
  rw [h.members]

theorem sameSkeleton (h : p.GainsQuietIgnore q type) : p.SameSkeleton q where
  before := h.before
  after := h.after
  assemblies id _ := by
    unfold assembly
    rw [h.assemblies]
  typeCount := h.typeCount
  memberCount := congrArg Array.size h.members
  types id _ := h.read_type id (by
    obtain ⟨front, back, -, new⟩ := h.marked
    rw [new]
    rfl)
  members id _ := by rw [h.member]
  proxies id _ := h.isProxy id

theorem extend (h : p.GainsQuietIgnore q type) : p.Extends q :=
  h.sameSkeleton.extend

theorem identityOfMember (h : p.GainsQuietIgnore q type) {id : MemberId} (has : p.HasMember id) :
    q.identityOfMember id = p.identityOfMember id :=
  h.extend.identityOfMember has

/-! ### The log -/

/-- Proxies do not stand inside the type and enter what they entered. -/
theorem proxyEntries (h : p.GainsQuietIgnore q type) {proxy : TypeId} (has : p.HasType proxy)
    (isProxy : (p.type proxy).isProxy = true) :
    q.proxyEntries (q.type proxy) = p.proxyEntries (p.type proxy) := by
  have apart := h.outside proxy has isProxy
  have other : proxy ≠ type := fun same => apart (same ▸ List.mem_cons_self)
  have inside : q.isInsideIgnored proxy = p.isInsideIgnored proxy := by
    refine h.extend.isInsideIgnored has fun outer hmem => ?_
    have outerOther : outer ≠ type := fun same => apart (same ▸ List.mem_of_mem_tail hmem)
    rw [h.others outer outerOther]
  refine h.extend.proxyEntries has (by rw [h.others proxy other]) inside
    (fun key _ => h.sameSkeleton.findType? key) ?_
  intro _ _ id hmem inheritable target hasTarget
  have hasMember := (h.before.declares proxy has id hmem).1
  have inert : q.isInert (q.member id) = p.isInert (p.member id) :=
    h.extend.isInert hasMember (by rw [h.member]) fun owner _ => by rw [h.member]
  exact h.extend.memberEntries (by rw [h.others proxy other]) hasTarget hasMember inert
    (by rw [h.member]) (by rw [h.member])

/-- **What is selected from the log passing over the one new directive is the same.** -/
theorem select (h : p.GainsQuietIgnore q type) {β : Type} {select : StoreEntry → Option β}
    (passes : select (.directive (p.identityOfType type) .ignore) = none) :
    (Store.ofProgram q).entries.filterMap select
      = (Store.ofProgram p).entries.filterMap select := by
  refine h.sameSkeleton.select (fun id has _ => ?_) fun id has isProxy => ?_
  · rw [h.extend.ownEntries has fun member _ => by rw [h.member]]
    by_cases same : id = type
    · obtain ⟨front, back, old, new⟩ := h.marked
      have gained : Directive.ofMarks (.ignore :: back) = .ignore :: Directive.ofMarks back := rfl
      rw [same, new]
      unfold ownEntries StoreEntry.ofMarks
      simp only [h.before.typeId type h.known, old, ofMarks_append, gained]
      simp [passes]
    · rw [h.others id same]
  · rw [h.proxyEntries has isProxy]

theorem candidatesFor (h : p.GainsQuietIgnore q type) (target : Identity) :
    (Store.ofProgram q).candidatesFor target = (Store.ofProgram p).candidatesFor target := by
  rw [Store.candidatesFor_eq, Store.candidatesFor_eq]
  exact h.select rfl

theorem proxiesOf (h : p.GainsQuietIgnore q type) (id : TypeId) :
    (Store.ofProgram q).proxiesOf id = (Store.ofProgram p).proxiesOf id := by
  rw [Store.proxiesOf_eq, Store.proxiesOf_eq]
  exact h.select rfl

theorem faults (h : p.GainsQuietIgnore q type) :
    (Store.ofProgram q).faults = (Store.ofProgram p).faults := by
  rw [Store.faults_eq, Store.faults_eq]
  exact h.select rfl

theorem directivesFor (h : p.GainsQuietIgnore q type) {symbol : Identity}
    (other : p.identityOfType type ≠ symbol) :
    (Store.ofProgram q).directivesFor symbol = (Store.ofProgram p).directivesFor symbol := by
  rw [Store.directivesFor_eq, Store.directivesFor_eq]
  exact h.select (if_neg other)

/-- Of any symbol the first directive of another sort is the one it was. -/
theorem findSome?_directivesFor (h : p.GainsQuietIgnore q type) {β : Type}
    {read : Directive → Option β} (passes : read .ignore = none) (symbol : Identity) :
    ((Store.ofProgram q).directivesFor symbol).findSome? read
      = ((Store.ofProgram p).directivesFor symbol).findSome? read := by
  rw [← List.head?_filterMap, ← List.head?_filterMap, Store.directivesFor_eq,
    Store.directivesFor_eq, List.filterMap_filterMap, List.filterMap_filterMap, h.select]
  show (if p.identityOfType type = symbol then some Directive.ignore else none).bind read = none
  split
  · exact passes
  · rfl

theorem isIgnored (h : p.GainsQuietIgnore q type) :
    Mark.isIgnored (q.effectiveOnType levelsVisited type) = true := by
  obtain ⟨front, back, -, new⟩ := h.marked
  have plain : (q.type type).isProxy = false := (h.isProxy type).trans h.plain
  unfold effectiveOnType
  rw [plain, new]
  simp [Mark.isIgnored]

end GainsQuietIgnore

end Program

namespace Resolver

/-- The program of a resolver gains the mark, and the limit on chains stays. -/
structure GainsQuietIgnore (r s : Resolver) (type : TypeId) : Prop
    extends r.program.GainsQuietIgnore s.program type where
  maxDepth : s.maxDepth = r.maxDepth

namespace GainsQuietIgnore

variable {r s : Resolver} {type other : TypeId}

theorem typeDirectives (h : r.GainsQuietIgnore s type) (has : r.program.HasType other)
    (apart : other ≠ type) : s.typeDirectives other = r.typeDirectives other := by
  unfold Resolver.typeDirectives
  rw [s.store_eq, r.store_eq, h.extend.identityOfType has]
  refine h.directivesFor fun same => apart ?_
  exact (h.before.identityOfType_injective h.known has same).symm

theorem memberDirectives (h : r.GainsQuietIgnore s type) {id : MemberId}
    (has : r.program.HasMember id) : s.memberDirectives id = r.memberDirectives id := by
  unfold Resolver.memberDirectives
  rw [s.store_eq, r.store_eq, h.identityOfMember has]
  exact h.directivesFor (r.program.identityOfMember_ne_identityOfType id type).symm

theorem rename?_typeDirectives (h : r.GainsQuietIgnore s type) (has : r.program.HasType other) :
    Directive.rename? (s.typeDirectives other) = Directive.rename? (r.typeDirectives other) := by
  unfold Resolver.typeDirectives
  rw [s.store_eq, r.store_eq, h.extend.identityOfType has]
  exact h.findSome?_directivesFor rfl _

theorem replacement?_typeDirectives (h : r.GainsQuietIgnore s type)
    (has : r.program.HasType other) :
    Directive.replacement? (s.typeDirectives other)
      = Directive.replacement? (r.typeDirectives other) := by
  unfold Resolver.typeDirectives
  rw [s.store_eq, r.store_eq, h.extend.identityOfType has]
  exact h.findSome?_directivesFor rfl _

/-! ### Names -/

theorem namesOn (h : r.GainsQuietIgnore s type) (has : r.program.HasType other) :
    r.NamesOn s other where
  extend := h.extend
  known := has
  around outer hmem :=
    h.rename?_typeDirectives (h.before.hasType_of_mem_enclosingUpTo has outer hmem)
  members id hmem := by rw [h.memberDirectives (h.before.declares other has id hmem).1]

theorem typeReference (h : r.GainsQuietIgnore s type) (has : r.program.HasType other) :
    s.typeReference other = r.typeReference other := by
  unfold Resolver.typeReference
  rw [h.replacement?_typeDirectives has, (h.namesOn has).qualifiedName]

theorem memberName (h : r.GainsQuietIgnore s type) {id : MemberId}
    (has : r.program.HasMember id) : s.memberName id = r.memberName id :=
  (h.namesOn (h.before.declaringType id has)).memberName (h.before.listed id has)

theorem emittedName (h : r.GainsQuietIgnore s type) (identity : Identity) :
    s.emittedName identity = r.emittedName identity := by
  have rename : Directive.rename? (s.store.directivesFor identity)
      = Directive.rename? (r.store.directivesFor identity) := by
    rw [s.store_eq, r.store_eq]
    exact h.findSome?_directivesFor rfl identity
  unfold Resolver.emittedName Program.find?
  rw [h.sameSkeleton.findType?, h.sameSkeleton.findMember?, rename]
  by_cases ofType : identity.isType = true
  · rw [if_pos ofType]
    cases hfind : r.program.findType? ⟨identity.name.text⟩ with
    | none => rfl
    | some id => exact (h.namesOn (h.before.findType?_eq_some_iff.mp hfind).1).typeName
  · rw [if_neg ofType]
    cases hfind : r.program.findMember? identity with
    | none => rfl
    | some id => exact h.memberName (h.before.findMember?_eq_some_iff.mp hfind).1

/-! ### Decisions -/

/-- **Outside the type the resolvers agree.** -/
theorem agreesOn (h : r.GainsQuietIgnore s type) (has : r.program.HasType other)
    (outside : type ∉ r.program.enclosingChain other) : r.AgreesOn s other where
  extend := h.extend
  known := has
  around outer hmem := by
    have hasOuter := h.before.hasType_of_mem_enclosingUpTo has outer hmem
    rw [h.typeDirectives hasOuter fun same => outside (same ▸ hmem)]
  directives := .of_eq (h.typeDirectives has fun same => outside (same ▸ List.mem_cons_self))
  members id hmem := .of_eq (h.memberDirectives (h.before.declares other has id hmem).1)
  bodies id _ := by rw [h.member]
  proxied := by rw [s.store_eq, r.store_eq, h.proxiesOf]
  supplied id _ := by
    refine findProxy_eq_of_agree h.extend h.maxDepth has (fun ancestor _ _ => ?_)
      fun ancestor _ _ => ?_
    · unfold Store.errorFor?
      rw [s.store_eq, r.store_eq, h.faults]
    · rw [s.store_eq, r.store_eq, h.candidatesFor]

/-- Inside the type every type is ignored. -/
theorem isTypeIgnored (h : r.GainsQuietIgnore s type) (has : r.program.HasType other)
    (inside : type ∈ r.program.enclosingChain other) : s.isTypeIgnored other = true := by
  unfold Resolver.isTypeIgnored
  rw [h.extend.enclosingChain has, List.any_eq_true]
  refine ⟨type, inside, ?_⟩
  rw [isIgnored_typeDirectives h.after (h.extend.hasType type h.known)]
  exact h.isIgnored

theorem classifyMember_of_inside (h : r.GainsQuietIgnore s type) {id : MemberId}
    (has : r.program.HasMember id)
    (inside : type ∈ r.program.enclosingChain (r.program.member id).declaringType) :
    s.classifyMember id = .ok (.refused (r.program.refusedMember id)) := by
  have ignored : s.isMemberIgnored id = true := by
    unfold Resolver.isMemberIgnored
    rw [h.extend.declaringType has, h.isTypeIgnored (h.before.declaringType id has) inside,
      Bool.or_true]
  unfold Resolver.classifyMember Resolver.unlessOverridden
  rw [if_pos ignored, h.extend.refusedMember has (by rw [h.member])]

theorem resolveMember (h : r.GainsQuietIgnore s type) {id : MemberId}
    (has : r.program.HasMember id)
    (outside : type ∉ r.program.enclosingChain (r.program.member id).declaringType) :
    s.resolveMember id = r.resolveMember id := by
  have hasType := h.before.declaringType id has
  exact (h.namesOn hasType).resolveMember (h.agreesOn hasType outside) (h.before.listed id has)
    (by rw [h.member])

/-- A field outside the type is declared as before, or left out because its element type
stands inside. -/
theorem fieldEmission (h : r.GainsQuietIgnore s type) {id : MemberId}
    (has : r.program.HasMember id)
    (outside : type ∉ r.program.enclosingChain (r.program.member id).declaringType)
    (outcome : Outcome) :
    s.fieldEmission id outcome = r.fieldEmission id outcome
      ∨ s.fieldEmission id outcome = .omitted
        ∧ ∃ element, r.program.findType? (r.program.member id).type.element = some element
          ∧ type ∈ r.program.enclosingChain element := by
  have hasType := h.before.declaringType id has
  have external : s.isMemberExternal id = r.isMemberExternal id :=
    (h.agreesOn hasType outside).isMemberExternal (h.before.listed id has)
  unfold Resolver.fieldEmission Resolver.shouldDeclareLocal
  rw [external, h.member, h.sameSkeleton.findType?]
  cases hfind : r.program.findType? (r.program.member id).type.element with
  | none => exact .inl rfl
  | some element =>
      have hasElement := (h.before.findType?_eq_some_iff.mp hfind).1
      by_cases inside : type ∈ r.program.enclosingChain element
      · refine .inr ⟨?_, element, rfl, inside⟩
        simp only [h.isTypeIgnored hasElement inside]
        cases outcome <;> rfl
      · refine .inl ?_
        simp only [(h.agreesOn hasElement inside).isTypeIgnored]

end GainsQuietIgnore

end Resolver

namespace Session

/-- **Ignoring a type is confined to it.**  If a type that is no proxy and encloses none gets
a mark to be ignored, then in sessions of the two programs, whatever they were asked before,
every member of the type and of the types inside it is refused, and every other member is
resolved to the same result or the same error; a field among these is declared as it was,
unless its element type is the type or stands inside it, where it is left out.  All names that
are emitted stay, and so do the configuration errors. -/
theorem ignoring_type_confined {p q : Program} (built : p.Buildable) (rebuilt : q.Buildable)
    {type : TypeId} (known : p.HasType type) (gains : p.GainsIgnore q type)
    (plain : (p.type type).isProxy = false)
    (outside : ∀ proxy, p.HasType proxy → (p.type proxy).isProxy = true →
      type ∉ p.enclosingChain proxy) (options : Options)
    {asked askedNew : List Query} (fits : ∀ query ∈ asked, query.Fits p)
    (fitsNew : ∀ query ∈ askedNew, query.Fits q) :
    let old := (start p options).after asked
    let new := (start q options).after askedNew
    (∀ id, p.HasMember id → type ∈ p.enclosingChain (p.member id).declaringType →
        ∃ resolved, (new.answer (Ask.resolveMember id)).1 = .ok resolved
          ∧ resolved.outcome = .refused (p.refusedMember id))
      ∧ (∀ id, p.HasMember id → type ∉ p.enclosingChain (p.member id).declaringType →
        (new.answer (Ask.resolveMember id)).1 = (old.answer (Ask.resolveMember id)).1
          ∧ ((new.answer (Ask.fieldEmission id)).1 = (old.answer (Ask.fieldEmission id)).1
            ∨ (new.answer (Ask.fieldEmission id)).1 = .ok .omitted
              ∧ ∃ element, p.findType? (p.member id).type.element = some element
                ∧ type ∈ p.enclosingChain element))
      ∧ (∀ id, p.HasType id →
        new.resolver.typeName id = old.resolver.typeName id
          ∧ new.resolver.qualifiedName id = old.resolver.qualifiedName id
          ∧ new.resolver.typeReference id = old.resolver.typeReference id)
      ∧ (∀ id, p.HasMember id → new.resolver.memberName id = old.resolver.memberName id)
      ∧ (∀ identity, new.resolver.emittedName identity = old.resolver.emittedName identity)
      ∧ new.resolver.store.configurationErrors = old.resolver.store.configurationErrors := by
  intro old new
  have h : (start p options).resolver.GainsQuietIgnore (start q options).resolver type :=
    ⟨⟨gains, built.wellFormed, rebuilt.wellFormed, known, plain, outside⟩, rfl⟩
  -- A conversation leaves the resolver as it is.
  have oldResolver : old.resolver = (start p options).resolver :=
    (advances_after (sound_start built.wellFormed options) fits).resolver
  have newResolver : new.resolver = (start q options).resolver :=
    (advances_after (sound_start rebuilt.wellFormed options) fitsNew).resolver
  rw [oldResolver, newResolver]
  refine ⟨fun id has inside => ?_, fun id has apart => ⟨?_, ?_⟩, fun id has => ?_,
    fun id has => h.memberName has, h.emittedName, ?_⟩
  · rw [answer_resolveMember_after rebuilt.wellFormed options fitsNew (h.extend.hasMember id has)]
    unfold Resolver.resolveMember
    rw [h.classifyMember_of_inside has inside]
    exact ⟨_, rfl, rfl⟩
  · rw [answer_resolveMember_after built.wellFormed options fits has,
      answer_resolveMember_after rebuilt.wellFormed options fitsNew (h.extend.hasMember id has)]
    exact h.resolveMember has apart
  · rw [answer_fieldEmission_after built.wellFormed options fits has,
      answer_fieldEmission_after rebuilt.wellFormed options fitsNew (h.extend.hasMember id has),
      h.resolveMember has apart]
    cases (start p options).resolver.resolveMember id with
    | error error =>
        refine .inl ?_
        rw [map_eq_error_iff.mpr rfl, map_eq_error_iff.mpr rfl]
    | ok resolved =>
        simp only [Except.map_ok, Except.ok.injEq]
        exact h.fieldEmission has apart resolved.outcome
  · exact ⟨(h.namesOn has).typeName, (h.namesOn has).qualifiedName, h.typeReference has⟩
  · unfold Store.configurationErrors
    rw [Resolver.store_eq, Resolver.store_eq, h.faults]

/-- A door with a bell inside and a proxy, a gate that derives from the door, and a house
with doors. -/
def doorsOfHouse : List Edit :=
  [.addAssembly "Lib",
   .addType ⟨0⟩ { name := "Lib.Door", kind := .classType },
   .addMember ⟨0⟩ ((MemberDecl.method "Open").withBody .absent),
   .addNestedType ⟨0⟩ { name := "Bell", kind := .classType },
   .addMember ⟨1⟩ (.method "Ring"),
   .addType ⟨0⟩ { name := "Lib.Gate", kind := .classType, base := some ⟨"Lib.Door"⟩ },
   .addMember ⟨2⟩ ((MemberDecl.method "Open").withBody .absent),
   .addType ⟨0⟩ { name := "Ext.Door", kind := .classType, marks := [.proxy ⟨"Lib.Door"⟩ true] },
   .addMember ⟨3⟩ (.method "Open"),
   .addType ⟨0⟩ { name := "Lib.House", kind := .classType },
   .addMember ⟨4⟩ (.field "doors" ⟨"Lib.Door[]"⟩),
   .addMember ⟨4⟩ (.field "rooms" ⟨"System.Int32"⟩)]

/-- With the door ignored its bell is refused, the gate is still opened by the proxy of the
door, and the house has rooms, but no doors. -/
theorem ignoring_type_confined_doorsOfHouse :
    let p := Program.afterEdits {} doorsOfHouse
    let q := Program.afterEdits p [.markType ⟨0⟩ .ignore]
    let options : Options := {}
    let old := (start p options).after [.member ⟨1⟩]
    let new := (start q options).after [.fieldEmission ⟨4⟩, .type ⟨0⟩]
    (p.Buildable ∧ q.Buildable ∧ p.HasType ⟨0⟩ ∧ p.GainsIgnore q ⟨0⟩
        ∧ (p.type ⟨0⟩).isProxy = false
        ∧ ∀ proxy, p.HasType proxy → (p.type proxy).isProxy = true →
          ⟨0⟩ ∉ p.enclosingChain proxy)
      ∧ ((∃ resolved, (new.answer (Ask.resolveMember ⟨1⟩)).1 = .ok resolved
            ∧ resolved.outcome = .refused (p.refusedMember ⟨1⟩))
        ∧ (new.answer (Ask.resolveMember ⟨2⟩)).1 = (old.answer (Ask.resolveMember ⟨2⟩)).1
        ∧ new.resolver.qualifiedName ⟨1⟩ = old.resolver.qualifiedName ⟨1⟩
        ∧ new.resolver.store.configurationErrors = old.resolver.store.configurationErrors)
      ∧ (new.answer (Ask.resolveMember ⟨2⟩)).1.toOption.map (·.outcome)
          = some (.proxy ⟨⟨3⟩, ⟨3⟩, ⟨0⟩, .replaceBody⟩)
      ∧ (old.answer (Ask.fieldEmission ⟨4⟩)).1 = .ok .initialized
      ∧ (new.answer (Ask.fieldEmission ⟨4⟩)).1 = .ok .omitted
      ∧ (new.answer (Ask.fieldEmission ⟨5⟩)).1 = .ok .initialized := by
  intro p q options old new
  have built : p.Buildable := Program.Buildable.empty.afterEdits (by decide)
  have rebuilt : q.Buildable := built.afterEdits (by decide +kernel)
  have known : p.HasType ⟨0⟩ := by decide +kernel
  have gains : p.GainsIgnore q ⟨0⟩ := Program.gainsIgnore_markType known
  have plain : (p.type ⟨0⟩).isProxy = false := by decide +kernel
  have outside : ∀ proxy, p.HasType proxy → (p.type proxy).isProxy = true →
      ⟨0⟩ ∉ p.enclosingChain proxy := by
    have each : ∀ i, i < p.types.size → (p.type ⟨i⟩).isProxy = true →
        ⟨0⟩ ∉ p.enclosingChain ⟨i⟩ := by decide +kernel
    exact fun proxy => each proxy.index
  have fits : ∀ query ∈ [Query.member ⟨1⟩], query.Fits p := by decide +kernel
  have fitsNew : ∀ query ∈ [Query.fieldEmission ⟨4⟩, .type ⟨0⟩], query.Fits q := by decide +kernel
  obtain ⟨inside, elsewhere, types, -, -, errors⟩ :=
    ignoring_type_confined built rebuilt known gains plain outside options fits fitsNew
  refine ⟨⟨built, rebuilt, known, gains, plain, outside⟩, ⟨?_, ?_, ?_, ?_⟩, ?_, ?_, ?_, ?_⟩
  · exact inside ⟨1⟩ (by decide +kernel) (by decide +kernel)
  · exact (elsewhere ⟨2⟩ (by decide +kernel) (by decide +kernel)).1
  · exact (types ⟨1⟩ (by decide +kernel)).2.1
  · simpa only [new, old] using errors
  all_goals decide +kernel

end Session

end MemberResolution
