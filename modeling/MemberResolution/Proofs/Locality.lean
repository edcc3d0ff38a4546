/-
What a new proxy leaves alone.

A proxy type may bring marks and bodies to its target and to the members of its target.
What is ignored there is ignored inside the target as well, names there show in the names of
what stands inside, and bodies and faults there are met by searches from what derives from
it.  That is as far as it reaches.  In the log everything a proxy enters is about its target,
the members of its target or its own members, and a proxy that comes on top is put among the
others without changing their order.  So whoever asks about another type gets the answer it
got before, and so do all decisions that ask about other types only.
-/
import MemberResolution.Proofs.Appending
import MemberResolution.Proofs.Conversation
import MemberResolution.Proofs.Effective
import MemberResolution.Proofs.Lineage
import MemberResolution.Proofs.Misdeclaration
import MemberResolution.Proofs.SameEntries
import MemberResolution.Proofs.SameNames

namespace MemberResolution

namespace Program

variable {program : Program}

/-! ### What a proxy enters something for -/

/-- The entry is about the type with one key, or about members that this type or the type
with another key declares. -/
def Concerns (program : Program) (target proxy : TypeKey) : StoreEntry → Prop
  | .directive symbol _ =>
    symbol = .ofType target ∨ symbol.declaringType = some target
      ∨ symbol.declaringType = some proxy
  | .candidate identity _ => identity.declaringType = some target
  | .proxy type _ => (program.type type).key = target
  | .fault fault => ∀ type name, fault.place = some (type, name) →
    (program.type type).key = target

theorem concerns_ofMarks {target proxy : TypeKey} {symbol : Identity} {marks : List Mark}
    (about : ∀ given, program.Concerns target proxy (.directive symbol given)) :
    ∀ entry ∈ StoreEntry.ofMarks symbol marks, program.Concerns target proxy entry := by
  intro entry hmem
  obtain ⟨given, -, rfl⟩ := List.mem_map.mp hmem
  exact about given

theorem WellFormed.concerns_memberEntries (h : program.WellFormed) {proxy : LoadedType}
    {inheritable : Bool} {target : TypeId} (has : program.HasType target) {id : MemberId} :
    ∀ entry ∈ program.memberEntries proxy inheritable target id,
      program.Concerns (program.type target).key
        (program.type (program.member id).declaringType).key entry := by
  intro entry hmem
  unfold memberEntries at hmem
  simp only at hmem
  split at hmem
  · cases hmem
  · split at hmem
    · rename_i fault wrong
      rw [List.mem_singleton.mp hmem, fault_of_suppliedMember wrong]
      rintro type name ⟨rfl, rfl⟩
      rfl
    · rename_i supplied how found
      -- What is supplied is declared by the target.
      have listed := ((h.suppliedMember_eq_ok_iff has).mp ⟨how, found⟩).mem
      have declared : (program.identityOfMember supplied).declaringType
          = some (program.type target).key := by
        rw [identityOfMember, declaringType_identityOf,
          (h.declares target has supplied listed).2]
      rcases List.mem_append.mp hmem with fromMarks | offered
      · exact concerns_ofMarks (fun _ => .inr (.inl declared)) entry fromMarks
      · split at offered
        · cases offered
        · rcases List.mem_cons.mp offered with rfl | rest
          · exact .inr (.inr (declaringType_identityOf program _))
          · rw [List.mem_singleton.mp rest]
            exact declared

/-- **What a proxy enters is about its target, the members of its target and its own.** -/
theorem WellFormed.concerns_proxyEntries (h : program.WellFormed) {proxy : TypeId}
    (has : program.HasType proxy) {target : TypeKey} {inheritable : Bool}
    (points : Mark.proxyOf? (program.type proxy).marks = some (target, inheritable)) :
    ∀ entry ∈ program.proxyEntries (program.type proxy),
      program.Concerns target (program.type proxy).key entry := by
  intro entry hmem
  unfold proxyEntries at hmem
  rw [points] at hmem
  simp only at hmem
  split at hmem
  · cases hmem
  · split at hmem
    · rw [List.mem_singleton.mp hmem]
      intro _ _ nowhere
      cases nowhere
    · rename_i found hfind
      obtain ⟨hasTarget, rfl⟩ := h.findType?_eq_some_iff.mp hfind
      rcases List.mem_append.mp hmem with itself | fromMembers
      · rcases List.mem_cons.mp itself with rfl | fromMarks
        · rfl
        · exact concerns_ofMarks (fun _ => .inl rfl) entry fromMarks
      · split at fromMembers
        · cases fromMembers
        · obtain ⟨id, listed, hentry⟩ := List.mem_flatMap.mp fromMembers
          have concerns := h.concerns_memberEntries hasTarget entry hentry
          rw [(h.declares proxy has id listed).2] at concerns
          exact concerns

/-! ### A proxy at the end of a program -/

/-- A type of the program has the key for its base or, being a proxy, for its target. -/
def RefersTo (program : Program) (key : TypeKey) : Prop :=
  ∃ type ∈ program.types.toList,
    type.base = some key ∨ (Mark.proxyOf? type.marks).map (·.1) = some key

instance (program : Program) (key : TypeKey) : Decidable (program.RefersTo key) :=
  inferInstanceAs (Decidable (∃ type ∈ program.types.toList, _))

theorem WellFormed.refersTo (h : program.WellFormed) {id : TypeId} (has : program.HasType id)
    {key : TypeKey} (refers : (program.type id).base = some key
      ∨ (Mark.proxyOf? (program.type id).marks).map (·.1) = some key) : program.RefersTo key := by
  refine ⟨program.type id, h.mem_types_iff.mpr ?_, refers⟩
  rw [h.typeId id has]
  exact ⟨has, rfl⟩

/-- A well-formed program gains a proxy that nothing in it refers to. -/
structure GainsProxy (p q : Program) (proxy : TypeId) (target : TypeKey) : Prop
    extends p.AppendsType q proxy where
  before : p.WellFormed
  after : q.WellFormed
  points : ∃ inheritable, Mark.proxyOf? (q.type proxy).marks = some (target, inheritable)
  unknown : ¬p.RefersTo (q.type proxy).key

namespace GainsProxy

variable {p q : Program} {proxy : TypeId} {target : TypeKey}

theorem hasType_iff (h : p.GainsProxy q proxy target) {id : TypeId} :
    q.HasType id ↔ p.HasType id ∨ id = proxy := by
  rw [h.position]
  obtain ⟨i⟩ := id
  unfold HasType
  rw [h.typeCount, TypeId.mk.injEq]
  show i < p.types.size + 1 ↔ i < p.types.size ∨ i = p.types.size
  omega

theorem hasProxy (h : p.GainsProxy q proxy target) : q.HasType proxy :=
  h.hasType_iff.mpr (.inr rfl)

/-- The new type is none of the old ones. -/
theorem ne_proxy (h : p.GainsProxy q proxy target) {id : TypeId} (has : p.HasType id) :
    id ≠ proxy := by
  rintro rfl
  rw [h.position] at has
  exact Nat.lt_irrefl _ has

theorem key_ne (h : p.GainsProxy q proxy target) {id : TypeId} (has : p.HasType id) :
    (p.type id).key ≠ (q.type proxy).key := by
  intro hkey
  rw [← h.types id has] at hkey
  exact h.ne_proxy has (h.after.keys id proxy (h.hasType_iff.mpr (.inl has)) h.hasProxy hkey)

theorem findType?_of_ne (h : p.GainsProxy q proxy target) {key : TypeKey}
    (other : key ≠ (q.type proxy).key) : q.findType? key = p.findType? key := by
  refine Option.ext fun id => ?_
  rw [h.after.findType?_eq_some_iff, h.before.findType?_eq_some_iff, h.hasType_iff]
  refine ⟨?_, ?_⟩
  · rintro ⟨has | rfl, hkey⟩
    · rw [h.types id has] at hkey
      exact ⟨has, hkey⟩
    · exact absurd hkey.symm other
  · rintro ⟨has, hkey⟩
    refine ⟨.inl has, ?_⟩
    rw [h.types id has]
    exact hkey

theorem extend (h : p.GainsProxy q proxy target) : p.Extends q where
  before := h.before
  after := h.after
  hasType _ has := h.hasType_iff.mpr (.inl has)
  hasMember _ has := Nat.lt_of_lt_of_le has h.memberCount
  assemblies id has := by rw [h.assemblies id has]
  types id has := by rw [h.types id has]
  members id has := by rw [h.members id has]
  bases id key has hbase := h.findType?_of_ne fun hkey =>
    h.unknown (h.before.refersTo has (.inl (hkey ▸ hbase)))

/-! ### What the old types enter -/

theorem isInsideIgnored (h : p.GainsProxy q proxy target) {id : TypeId} (has : p.HasType id) :
    q.isInsideIgnored id = p.isInsideIgnored id := by
  refine h.extend.isInsideIgnored has fun outer hmem => ?_
  rw [h.types outer (h.before.hasType_of_mem_enclosingUpTo has outer (List.mem_of_mem_tail hmem))]

theorem ownEntries (h : p.GainsProxy q proxy target) {id : TypeId} (has : p.HasType id) :
    q.ownEntries (p.type id) = p.ownEntries (p.type id) := by
  have same := h.extend.ownEntries has fun member hmem => by
    rw [h.members member (h.before.declares id has member hmem).1]
  rwa [h.types id has] at same

theorem memberEntries (h : p.GainsProxy q proxy target) {other : LoadedType} {inheritable : Bool}
    {type : TypeId} (hasTarget : p.HasType type) {id : MemberId} (has : p.HasMember id) :
    q.memberEntries other inheritable type id = p.memberEntries other inheritable type id := by
  have inert : q.isInert (q.member id) = p.isInert (p.member id) := by
    refine h.extend.isInert has (by rw [h.members id has]) fun owner howner => ?_
    rw [h.members owner (h.before.of_owner? has howner).1]
  exact h.extend.memberEntries rfl hasTarget has inert (by rw [h.members id has])
    (by rw [h.members id has])

theorem proxyEntries (h : p.GainsProxy q proxy target) {id : TypeId} (has : p.HasType id) :
    q.proxyEntries (p.type id) = p.proxyEntries (p.type id) := by
  have same := h.extend.proxyEntries has (by rw [h.types id has]) (h.isInsideIgnored has)
    (fun key points => h.findType?_of_ne fun hkey =>
      h.unknown (h.before.refersTo has (.inr (hkey ▸ points))))
    fun _ _ member hmem _ _ hasTarget => by
      rw [h.types id has]
      exact h.memberEntries hasTarget (h.before.declares id has member hmem).1
  rwa [h.types id has] at same

/-! ### The new log -/

theorem types_toList (h : p.GainsProxy q proxy target) :
    q.types.toList = p.types.toList ++ [q.type proxy] := by
  rw [Program.types_toList, Program.types_toList, h.typeCount, List.range_succ, List.map_append,
    h.position]
  congr 1
  exact List.map_congr_left fun i hmem => h.types ⟨i⟩ (List.mem_range.mp hmem)

theorem isProxy (h : p.GainsProxy q proxy target) : (q.type proxy).isProxy = true := by
  obtain ⟨inheritable, points⟩ := h.points
  unfold LoadedType.isProxy
  rw [points]
  rfl

theorem plainTypes (h : p.GainsProxy q proxy target) : q.plainTypes = p.plainTypes := by
  unfold Program.plainTypes
  rw [h.types_toList, List.filter_append]
  simp [h.isProxy]

/-- The old proxies stand in the old order. -/
theorem orderedProxies (h : p.GainsProxy q proxy target) :
    p.orderedProxies = q.orderedProxies.filter fun other => other.id ≠ proxy := by
  have old : ∀ other ∈ p.proxyTypes, other.id ≠ proxy := fun other hmem =>
    h.ne_proxy (h.before.mem_types_iff.mp (List.mem_filter.mp hmem).1).1
  have proxies : q.proxyTypes.filter (fun other => other.id ≠ proxy) = p.proxyTypes := by
    have hid : (q.type proxy).id = proxy := h.after.typeId proxy h.hasProxy
    have grown : q.proxyTypes = p.proxyTypes ++ [q.type proxy] := by
      unfold Program.proxyTypes
      rw [h.types_toList, List.filter_append]
      simp [h.isProxy]
    rw [grown, List.filter_append,
      List.filter_eq_self.mpr fun other hmem => by simp [old other hmem]]
    simp [hid]
  refine h.before.orderedProxies_eq_of_perm ?_ ?_
  · refine p.orderedProxies_perm.trans ?_
    rw [← proxies]
    exact (q.orderedProxies_perm.filter _).symm
  · exact h.after.orderedProxies_strict.sublist List.filter_sublist

/-- **What is selected from the log passing over the entries of the new proxy is selected
from the old log.** -/
theorem select {β : Type} (h : p.GainsProxy q proxy target) {select : StoreEntry → Option β}
    (passes : ∀ entry ∈ q.proxyEntries (q.type proxy), select entry = none) :
    (Store.ofProgram q).entries.filterMap select
      = (Store.ofProgram p).entries.filterMap select := by
  have own : ∀ type ∈ p.plainTypes, (q.ownEntries type).filterMap select
      = (p.ownEntries type).filterMap select := by
    intro type hmem
    obtain ⟨has, hread, -⟩ := (mem_plainTypes h.before).mp hmem
    rw [← hread, h.ownEntries has]
  have brought : ∀ other ∈ p.orderedProxies, (q.proxyEntries other).filterMap select
      = (p.proxyEntries other).filterMap select := by
    intro other hmem
    obtain ⟨has, hread, -⟩ := (mem_orderedProxies h.before).mp hmem
    rw [← hread, h.proxyEntries has]
  have nothing : ∀ other ∈ q.orderedProxies, decide (other.id ≠ proxy) = false →
      (q.proxyEntries other).filterMap select = [] := by
    intro other hmem hid
    obtain ⟨-, hread, -⟩ := (mem_orderedProxies h.after).mp hmem
    have hproxy : other.id = proxy := by simpa using hid
    rw [hproxy] at hread
    subst hread
    exact List.filterMap_eq_nil_iff.mpr passes
  rw [Store.filterMap_ofProgram, Store.filterMap_ofProgram, h.plainTypes,
    List.flatMap_congr own, flatMap_eq_filter _ nothing, ← h.orderedProxies,
    List.flatMap_congr brought]

theorem mem_entries (h : p.GainsProxy q proxy target) {entry : StoreEntry}
    (hmem : entry ∈ (Store.ofProgram p).entries) : entry ∈ (Store.ofProgram q).entries := by
  rcases List.mem_append.mp hmem with byItself | brought
  · obtain ⟨type, htype, hentry⟩ := List.mem_flatMap.mp byItself
    obtain ⟨has, hread, -⟩ := (mem_plainTypes h.before).mp htype
    rw [← hread, ← h.ownEntries has, hread] at hentry
    rw [← h.plainTypes] at htype
    exact List.mem_append_left _ (List.mem_flatMap.mpr ⟨type, htype, hentry⟩)
  · obtain ⟨other, hother, hentry⟩ := List.mem_flatMap.mp brought
    obtain ⟨has, hread, -⟩ := (mem_orderedProxies h.before).mp hother
    rw [← hread, ← h.proxyEntries has, hread] at hentry
    rw [h.orderedProxies] at hother
    exact List.mem_append_right _
      (List.mem_flatMap.mpr ⟨other, (List.mem_filter.mp hother).1, hentry⟩)

/-- The new proxy enters nothing about other types. -/
theorem concerns (h : p.GainsProxy q proxy target) :
    ∀ entry ∈ q.proxyEntries (q.type proxy),
      q.Concerns target (q.type proxy).key entry := by
  obtain ⟨inheritable, points⟩ := h.points
  exact h.after.concerns_proxyEntries h.hasProxy points

end GainsProxy

/-- The type or one of the types around it has the key. -/
def StandsInside (program : Program) (key : TypeKey) (type : TypeId) : Prop :=
  ∃ outer ∈ program.enclosingChain type, (program.type outer).key = key

/-- The type or one of its bases has the key, as far as chains are followed. -/
def DerivesFrom (program : Program) (maxDepth : Nat) (key : TypeKey) (type : TypeId) : Prop :=
  ∃ ancestor ∈ program.keptChain maxDepth type, (program.type ancestor).key = key

instance (program : Program) (key : TypeKey) (type : TypeId) :
    Decidable (program.StandsInside key type) :=
  inferInstanceAs (Decidable (∃ outer ∈ program.enclosingChain type, _))

instance (program : Program) (maxDepth : Nat) (key : TypeKey) (type : TypeId) :
    Decidable (program.DerivesFrom maxDepth key type) :=
  inferInstanceAs (Decidable (∃ ancestor ∈ program.keptChain maxDepth type, _))

theorem mem_enclosingChain (program : Program) (type : TypeId) :
    type ∈ program.enclosingChain type :=
  List.mem_cons_self

/-- What does not stand inside a type is another type. -/
theorem key_ne_of_outside {program : Program} {key : TypeKey} {type : TypeId}
    (outside : ¬program.StandsInside key type) : (program.type type).key ≠ key :=
  fun hkey => outside ⟨type, program.mem_enclosingChain type, hkey⟩

end Program

namespace Resolver

/-- The program of a resolver gains a proxy, and the limit on chains stays. -/
structure GainsProxy (r s : Resolver) (proxy : TypeId) (target : TypeKey) : Prop
    extends r.program.GainsProxy s.program proxy target where
  maxDepth : s.maxDepth = r.maxDepth

namespace GainsProxy

variable {r s : Resolver} {proxy : TypeId} {target : TypeKey} {type : TypeId}

/-! ### Questions about other types -/

theorem select (h : r.GainsProxy s proxy target) {β : Type} {select : StoreEntry → Option β}
    (passes : ∀ entry, s.program.Concerns target (s.program.type proxy).key entry →
      select entry = none) :
    s.store.entries.filterMap select = r.store.entries.filterMap select := by
  rw [s.store_eq, r.store_eq]
  exact h.toGainsProxy.select fun entry hmem => passes entry (h.concerns entry hmem)

theorem directivesFor (h : r.GainsProxy s proxy target) {symbol : Identity}
    (other : ∀ given,
      ¬s.program.Concerns target (s.program.type proxy).key (.directive symbol given)) :
    s.store.directivesFor symbol = r.store.directivesFor symbol := by
  rw [Store.directivesFor_eq, Store.directivesFor_eq]
  refine h.select fun entry concerns => ?_
  cases entry with
  | directive identity given =>
      refine if_neg fun same => ?_
      subst same
      exact other given concerns
  | candidate _ _ | proxy _ _ | fault _ => rfl

theorem typeDirectives (h : r.GainsProxy s proxy target) (has : r.program.HasType type)
    (apart : (r.program.type type).key ≠ target) :
    s.typeDirectives type = r.typeDirectives type := by
  unfold Resolver.typeDirectives
  rw [h.extend.identityOfType has]
  refine h.directivesFor fun _ concerns => ?_
  rcases concerns with itself | declared | declared
  · exact apart (Identity.ofType_injective itself)
  · cases declared
  · cases declared

theorem memberDirectives (h : r.GainsProxy s proxy target) (has : r.program.HasType type)
    (apart : (r.program.type type).key ≠ target) {id : MemberId}
    (hmem : id ∈ (r.program.type type).members) :
    s.memberDirectives id = r.memberDirectives id := by
  obtain ⟨hasMember, hdeclaring⟩ := h.before.declares type has id hmem
  have declaring : (r.program.identityOfMember id).declaringType
      = some (r.program.type type).key := by
    rw [Program.identityOfMember, Program.declaringType_identityOf, hdeclaring]
  unfold Resolver.memberDirectives
  rw [h.extend.identityOfMember hasMember]
  refine h.directivesFor fun _ concerns => ?_
  rcases concerns with itself | declared | declared
  · rw [itself] at declaring
    cases declaring
  · exact apart (Option.some.inj (declaring.symm.trans declared))
  · exact h.key_ne has (Option.some.inj (declaring.symm.trans declared))

theorem candidatesFor (h : r.GainsProxy s proxy target)
    (apart : (r.program.type type).key ≠ target) (signature : Identity) :
    s.store.candidatesFor (signature.declaredBy (r.program.type type).key)
      = r.store.candidatesFor (signature.declaredBy (r.program.type type).key) := by
  rw [Store.candidatesFor_eq, Store.candidatesFor_eq]
  refine h.select fun entry concerns => ?_
  cases entry with
  | candidate identity given =>
      refine if_neg fun same => ?_
      subst same
      exact apart (Option.some.inj concerns)
  | directive _ _ | proxy _ _ | fault _ => rfl

theorem proxiesOf (h : r.GainsProxy s proxy target) (has : r.program.HasType type)
    (apart : (r.program.type type).key ≠ target) :
    s.store.proxiesOf type = r.store.proxiesOf type := by
  rw [Store.proxiesOf_eq, Store.proxiesOf_eq]
  refine h.select fun entry concerns => ?_
  cases entry with
  | proxy other given =>
      refine if_neg fun same => ?_
      subst same
      exact apart ((h.extend.key has).symm.trans concerns)
  | directive _ _ | candidate _ _ | fault _ => rfl

theorem errorFor? (h : r.GainsProxy s proxy target) (has : r.program.HasType type)
    (apart : (r.program.type type).key ≠ target) (name : String) :
    s.store.errorFor? type name = r.store.errorFor? type name := by
  rw [Store.errorFor?_eq, Store.errorFor?_eq, h.select fun entry concerns => ?_]
  cases entry with
  | fault fault =>
      refine if_neg fun same => ?_
      exact apart ((h.extend.key has).symm.trans (concerns type name same))
  | directive _ _ | candidate _ _ | proxy _ _ => rfl

/-! ### Decisions about other types -/

/-- What stands around a type is apart from a target the type does not stand inside. -/
theorem apart_of_mem (h : r.GainsProxy s proxy target) (has : r.program.HasType type)
    (outside : ¬r.program.StandsInside target type) :
    ∀ outer ∈ r.program.enclosingChain type,
      r.program.HasType outer ∧ (r.program.type outer).key ≠ target :=
  fun outer hmem => ⟨h.before.hasType_of_mem_enclosingUpTo has outer hmem,
    fun hkey => outside ⟨outer, hmem, hkey⟩⟩

/-- **On a type that does not stand inside the target the resolvers agree.** -/
theorem agreesAround (h : r.GainsProxy s proxy target) (has : r.program.HasType type)
    (outside : ¬r.program.StandsInside target type) : r.AgreesAround s type where
  extend := h.extend
  known := has
  around outer hmem := by
    obtain ⟨hasOuter, apart⟩ := h.apart_of_mem has outside outer hmem
    rw [h.typeDirectives hasOuter apart]
  directives := .of_eq (h.typeDirectives has (Program.key_ne_of_outside outside))

theorem findProxy (h : r.GainsProxy s proxy target) (has : r.program.HasType type)
    (foreign : ¬r.program.DerivesFrom r.maxDepth target type) (signature : Identity) :
    s.findProxy type signature = r.findProxy type signature := by
  have apart : ∀ ancestor ∈ r.program.keptChain r.maxDepth type,
      (r.program.type ancestor).key ≠ target :=
    fun ancestor hmem hkey => foreign ⟨ancestor, hmem, hkey⟩
  refine findProxy_eq_of_agree h.extend h.maxDepth has (fun ancestor hmem known => ?_)
    fun ancestor hmem _ => ?_
  · exact h.errorFor? known (apart ancestor hmem) _
  · exact h.candidatesFor (apart ancestor hmem) signature

/-- **If the target is no base of the type either, they agree on its members.** -/
theorem agreesOn (h : r.GainsProxy s proxy target) (has : r.program.HasType type)
    (outside : ¬r.program.StandsInside target type)
    (foreign : ¬r.program.DerivesFrom r.maxDepth target type) : r.AgreesOn s type where
  toAgreesAround := h.agreesAround has outside
  members id hmem := .of_eq (h.memberDirectives has (Program.key_ne_of_outside outside) hmem)
  bodies id hmem := by rw [h.members id (h.before.declares type has id hmem).1]
  proxied := by rw [h.proxiesOf has (Program.key_ne_of_outside outside)]
  supplied id _ := h.findProxy has foreign _

/-! ### Resolving -/

theorem namesOn (h : r.GainsProxy s proxy target) (has : r.program.HasType type)
    (outside : ¬r.program.StandsInside target type) : r.NamesOn s type where
  extend := h.extend
  known := has
  around outer hmem := by
    obtain ⟨hasOuter, apart⟩ := h.apart_of_mem has outside outer hmem
    rw [h.typeDirectives hasOuter apart]
  members id hmem := by rw [h.memberDirectives has (Program.key_ne_of_outside outside) hmem]

theorem resolveType (h : r.GainsProxy s proxy target) (has : r.program.HasType type)
    (outside : ¬r.program.StandsInside target type) :
    s.resolveType type = r.resolveType type :=
  (h.namesOn has outside).resolveType (h.agreesAround has outside)

theorem resolveMember (h : r.GainsProxy s proxy target) {id : MemberId}
    (has : r.program.HasMember id)
    (outside : ¬r.program.StandsInside target (r.program.member id).declaringType)
    (foreign : ¬r.program.DerivesFrom r.maxDepth target (r.program.member id).declaringType) :
    s.resolveMember id = r.resolveMember id := by
  have hasType := h.before.declaringType id has
  have params : (s.program.member id).params = (r.program.member id).params := by
    rw [h.members id has]
  exact (h.namesOn hasType outside).resolveMember (h.agreesOn hasType outside foreign)
    (h.before.listed id has) params

end GainsProxy

end Resolver

namespace Session

/-- **A new proxy is felt at its target alone.**  If a program gets a top-level proxy type
whose name no type of it has for its base or target, then sessions of the two programs,
whatever they were asked before, resolve every old type that does not stand inside the target
of the proxy alike, and every member of such a type that does not derive from the target, to
the same result or the same error. -/
theorem resolution_unchanged_off_target {p q : Program} (built : p.Buildable)
    (rebuilt : q.Buildable) {proxy : TypeId} {target : TypeKey} {inheritable : Bool}
    (appends : p.AppendsType q proxy)
    (points : Mark.proxyOf? (q.type proxy).marks = some (target, inheritable))
    (unknown : ¬p.RefersTo (q.type proxy).key) (options : Options)
    {asked askedNew : List Query} (fits : ∀ query ∈ asked, query.Fits p)
    (fitsNew : ∀ query ∈ askedNew, query.Fits q) :
    let old := (start p options).after asked
    let new := (start q options).after askedNew
    (∀ id, p.HasMember id →
        ¬p.StandsInside target (p.member id).declaringType →
        ¬p.DerivesFrom options.maxInheritanceDepth.toNat target (p.member id).declaringType →
        (new.answer (Ask.resolveMember id)).1 = (old.answer (Ask.resolveMember id)).1)
      ∧ ∀ id, p.HasType id → ¬p.StandsInside target id →
        (new.answer (Ask.resolveType id)).1 = (old.answer (Ask.resolveType id)).1 := by
  intro old new
  have gains : (start p options).resolver.GainsProxy (start q options).resolver proxy target :=
    ⟨⟨appends, built.wellFormed, rebuilt.wellFormed, ⟨inheritable, points⟩, unknown⟩, rfl⟩
  refine ⟨fun id has outside foreign => ?_, fun id has outside => ?_⟩
  · rw [answer_resolveMember_after built.wellFormed options fits has,
      answer_resolveMember_after rebuilt.wellFormed options fitsNew (gains.extend.hasMember id has)]
    exact gains.resolveMember has outside foreign
  · rw [answer_resolveType_after built.wellFormed options fits has,
      answer_resolveType_after rebuilt.wellFormed options fitsNew (gains.extend.hasType id has),
      gains.resolveType has outside]

/-- A door with a bell inside, and a lamp with a proxy that has one method right and takes a
level for the other. -/
def doorAndLamp : List Edit :=
  [.addAssembly "Lib",
   .addType ⟨0⟩ { name := "Lib.Door", kind := .classType },
   .addNestedType ⟨0⟩ { name := "Bell", kind := .classType },
   .addType ⟨0⟩ { name := "Lib.Lamp", kind := .classType },
   .addType ⟨0⟩ { name := "Ext.Lamp", kind := .classType, marks := [.proxy ⟨"Lib.Lamp"⟩ true] },
   .addMember ⟨0⟩ (.method "Open"),
   .addMember ⟨2⟩ ((MemberDecl.method "Shine").withBody .absent),
   .addMember ⟨2⟩ ((MemberDecl.method "Dim").withBody .absent),
   .addMember ⟨3⟩ (.method "Shine"),
   .addMember ⟨3⟩ ((MemberDecl.method "Dim").taking ⟨"level", ⟨"System.Int32"⟩⟩)]

/-- A proxy for the door, registered before that for the lamp, with a method the door has
not. -/
def doorProxy : List Edit :=
  [.addType ⟨0⟩ { name := "Ext.Door", kind := .classType, marks := [.proxy ⟨"Lib.Door"⟩ true] },
   .addMember ⟨4⟩ (.method "Open"),
   .addMember ⟨4⟩ (.method "Knock"),
   .markType ⟨4⟩ (.rename "Gate")]

/-- The door gets another body and the bell in it another name; of the methods of the lamp
one is supplied as before, and the other meets the error of its proxy as before. -/
theorem resolution_unchanged_off_target_doorAndLamp :
    let p := Program.afterEdits {} doorAndLamp
    let q := Program.afterEdits p doorProxy
    let options : Options := {}
    let old := (start p options).after [.type ⟨2⟩, .member ⟨1⟩]
    let new := (start q options).after [.member ⟨0⟩, .type ⟨2⟩]
    (p.Buildable ∧ q.Buildable ∧ p.AppendsType q ⟨4⟩
        ∧ Mark.proxyOf? (q.type ⟨4⟩).marks = some (⟨"Lib.Door"⟩, true)
        ∧ ¬p.RefersTo (q.type ⟨4⟩).key
        ∧ (∀ query ∈ [Query.type ⟨2⟩, .member ⟨1⟩], query.Fits p)
        ∧ ∀ query ∈ [Query.member ⟨0⟩, .type ⟨2⟩], query.Fits q)
      ∧ ((new.answer (Ask.resolveMember ⟨1⟩)).1 = (old.answer (Ask.resolveMember ⟨1⟩)).1
        ∧ (new.answer (Ask.resolveMember ⟨2⟩)).1 = (old.answer (Ask.resolveMember ⟨2⟩)).1
        ∧ (new.answer (Ask.resolveType ⟨2⟩)).1 = (old.answer (Ask.resolveType ⟨2⟩)).1)
      ∧ (new.answer (Ask.resolveMember ⟨1⟩)).1.toOption.map (·.outcome)
          = some (.proxy ⟨⟨3⟩, ⟨3⟩, ⟨1⟩, .replaceBody⟩)
      ∧ (new.answer (Ask.resolveMember ⟨2⟩)).1.isOk = false
      ∧ (new.answer (Ask.resolveMember ⟨0⟩)).1 ≠ (old.answer (Ask.resolveMember ⟨0⟩)).1
      ∧ (new.answer (Ask.resolveType ⟨1⟩)).1 ≠ (old.answer (Ask.resolveType ⟨1⟩)).1 := by
  intro p q options old new
  have built : p.Buildable := Program.Buildable.empty.afterEdits (by decide)
  have rebuilt : q.Buildable := built.afterEdits (by decide +kernel)
  have count : p.types.size = 4 := by decide +kernel
  have appends : p.AppendsType q ⟨4⟩ := by
    rw [← count]
    exact p.appendsType_afterEdits (by decide +kernel) (by decide +kernel)
  have points : Mark.proxyOf? (q.type ⟨4⟩).marks = some (⟨"Lib.Door"⟩, true) := by decide +kernel
  have unknown : ¬p.RefersTo (q.type ⟨4⟩).key := by decide +kernel
  have fits : ∀ query ∈ [Query.type ⟨2⟩, .member ⟨1⟩], query.Fits p := by decide +kernel
  have fitsNew : ∀ query ∈ [Query.member ⟨0⟩, .type ⟨2⟩], query.Fits q := by decide +kernel
  have unchanged := resolution_unchanged_off_target built rebuilt appends points unknown options
    fits fitsNew
  refine ⟨⟨built, rebuilt, appends, points, unknown, fits, fitsNew⟩,
    ⟨unchanged.1 ⟨1⟩ ?_ ?_ ?_, unchanged.1 ⟨2⟩ ?_ ?_ ?_, unchanged.2 ⟨2⟩ ?_ ?_⟩, ?_, ?_, ?_, ?_⟩
  all_goals decide +kernel

end Session

end MemberResolution
