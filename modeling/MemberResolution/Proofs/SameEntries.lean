/-
Programs that enter the same.

What a type enters into the log is read off its marks, the marks and bodies of its members,
and, for a proxy, off what its members supply and whether a type around it is ignored.  In a
program that extends another a type enters the same as before, as far as these are the same.

Two programs with the same skeletons, position by position, have the same proxies in the
same order.  Their logs are compared type by type: if nothing that one type enters shows in a
selection, the selection is the same from both.
-/
import MemberResolution.Proofs.Extension

namespace MemberResolution

namespace Program

variable {p q : Program}

/-! ### What one type enters -/

namespace Extends

theorem isInsideIgnored (h : p.Extends q) {id : TypeId} (has : p.HasType id)
    (around : ∀ outer ∈ (p.enclosingChain id).tail,
      Mark.isIgnored (q.type outer).marks = Mark.isIgnored (p.type outer).marks) :
    q.isInsideIgnored id = p.isInsideIgnored id := by
  unfold Program.isInsideIgnored
  rw [h.enclosingChain has, Bool.eq_iff_iff, List.any_eq_true, List.any_eq_true]
  refine exists_congr fun outer => and_congr_right fun hmem => ?_
  rw [around outer hmem]

theorem isInert (h : p.Extends q) {id : MemberId} (has : p.HasMember id)
    (own : Mark.isNeverReplaced (q.member id).marks = Mark.isNeverReplaced (p.member id).marks)
    (ofOwner : ∀ owner, (p.member id).owner? = some owner →
      Mark.isNeverReplaced (q.member owner).marks = Mark.isNeverReplaced (p.member owner).marks) :
    q.isInert (q.member id) = p.isInert (p.member id) := by
  have backing : (q.member id).isBackingField = (p.member id).isBackingField :=
    h.read_member has (·.isBackingField) fun _ => rfl
  unfold Program.isInert
  rw [backing, h.owner? has, own]
  cases howner : (p.member id).owner? with
  | none => rfl
  | some owner =>
      simp only
      rw [ofOwner owner howner]

/-- By itself a type enters what its marks give, and the rest as before. -/
theorem ownEntries (h : p.Extends q) {id : TypeId} (has : p.HasType id)
    (members : ∀ member ∈ (p.type id).members, (q.member member).marks = (p.member member).marks) :
    q.ownEntries (q.type id) = p.ownEntries { p.type id with marks := (q.type id).marks } := by
  unfold Program.ownEntries
  rw [h.after.typeId id (h.hasType id has), h.before.typeId id has, h.inStubAssembly has,
    h.identityOfType has, h.listed has]
  congr 1
  refine List.flatMap_congr fun member hmem => ?_
  rw [h.identityOfMember (h.before.declares id has member hmem).1, members member hmem]

theorem memberEntries (h : p.Extends q) {older newer : LoadedType} (sameId : newer.id = older.id)
    {inheritable : Bool} {target : TypeId} (hasTarget : p.HasType target) {id : MemberId}
    (has : p.HasMember id) (inert : q.isInert (q.member id) = p.isInert (p.member id))
    (marks : (q.member id).marks = (p.member id).marks)
    (body : (q.member id).body = (p.member id).body) :
    q.memberEntries newer inheritable target id = p.memberEntries older inheritable target id := by
  have supplies := h.suppliedMember has (by rw [marks]) hasTarget
  unfold Program.memberEntries
  simp only
  rw [inert, supplies, marks, body, h.kind has, h.identityOfMember has, sameId]
  cases hfound : p.suppliedMember (p.member id) target with
  | error fault => rfl
  | ok found =>
      obtain ⟨supplied, how⟩ := found
      have mem := (h.before.suppliedMember_eq_ok_iff hasTarget).mp ⟨how, hfound⟩ |>.mem
      simp only
      rw [h.identityOfMember (h.before.declares target hasTarget supplied mem).1]

/-- A proxy enters the same if its members do, as far as they are looked at. -/
theorem proxyEntries (h : p.Extends q) {proxy : TypeId} (has : p.HasType proxy)
    (marks : (q.type proxy).marks = (p.type proxy).marks)
    (inside : q.isInsideIgnored proxy = p.isInsideIgnored proxy)
    (finds : ∀ key, (Mark.proxyOf? (p.type proxy).marks).map (·.1) = some key →
      q.findType? key = p.findType? key)
    (members : p.isInsideIgnored proxy = false → Mark.isIgnored (p.type proxy).marks = false →
      ∀ id ∈ (p.type proxy).members, ∀ inheritable target, p.HasType target →
        q.memberEntries (q.type proxy) inheritable target id
          = p.memberEntries (p.type proxy) inheritable target id) :
    q.proxyEntries (q.type proxy) = p.proxyEntries (p.type proxy) := by
  unfold Program.proxyEntries
  rw [marks, h.after.typeId proxy (h.hasType proxy has), h.before.typeId proxy has, inside,
    h.key has, h.listed has]
  cases hpoints : Mark.proxyOf? (p.type proxy).marks with
  | none => rfl
  | some pointer =>
      obtain ⟨key, inheritable⟩ := pointer
      simp only
      rw [finds key (by rw [hpoints]; rfl)]
      cases hinside : p.isInsideIgnored proxy with
      | true => rfl
      | false =>
          cases hfind : p.findType? key with
          | none => rfl
          | some target =>
              have hasTarget := (h.before.findType?_eq_some_iff.mp hfind).1
              simp only
              rw [h.identityOfType hasTarget]
              cases hignored : Mark.isIgnored (p.type proxy).marks with
              | true => rfl
              | false =>
                  rw [List.flatMap_congr fun id hmem =>
                    members hinside hignored id hmem inheritable target hasTarget]

end Extends

/-! ### Programs with the same skeletons -/

/-- Two well-formed programs have the same types and members at the same positions, up to
marks, bodies and names of parameters, and the same of their types are proxies. -/
structure SameSkeleton (p q : Program) : Prop where
  before : p.WellFormed
  after : q.WellFormed
  assemblies : ∀ id, p.HasAssembly id → (q.assembly id).marks = (p.assembly id).marks
  typeCount : q.types.size = p.types.size
  memberCount : q.members.size = p.members.size
  types : ∀ id, p.HasType id → (q.type id).shape = (p.type id).shape
  members : ∀ id, p.HasMember id → (q.member id).skeleton = (p.member id).skeleton
  proxies : ∀ id, p.HasType id → (q.type id).isProxy = (p.type id).isProxy

namespace SameSkeleton

theorem hasType (h : p.SameSkeleton q) {id : TypeId} : q.HasType id ↔ p.HasType id := by
  unfold HasType
  rw [h.typeCount]

theorem hasMember (h : p.SameSkeleton q) {id : MemberId} : q.HasMember id ↔ p.HasMember id := by
  unfold HasMember
  rw [h.memberCount]

theorem findType? (h : p.SameSkeleton q) (key : TypeKey) : q.findType? key = p.findType? key := by
  refine Option.ext fun id => ?_
  rw [h.after.findType?_eq_some_iff, h.before.findType?_eq_some_iff, h.hasType]
  refine and_congr_right fun has => ?_
  rw [LoadedType.read_eq (h.types id has) (·.key) fun _ => rfl]

theorem extend (h : p.SameSkeleton q) : p.Extends q where
  before := h.before
  after := h.after
  hasType _ has := h.hasType.mpr has
  hasMember _ has := h.hasMember.mpr has
  assemblies := h.assemblies
  types := h.types
  members := h.members
  bases _ key _ _ := h.findType? key

theorem findMember? (h : p.SameSkeleton q) (identity : Identity) :
    q.findMember? identity = p.findMember? identity := by
  refine Option.ext fun id => ?_
  rw [h.after.findMember?_eq_some_iff, h.before.findMember?_eq_some_iff, h.hasMember]
  refine and_congr_right fun has => ?_
  rw [h.extend.identityOfMember has]

/-! ### The log -/

theorem filter_types (h : p.SameSkeleton q) {sort : LoadedType → Bool}
    (same : ∀ id, p.HasType id → sort (q.type id) = sort (p.type id)) :
    q.types.toList.filter sort
      = (p.types.toList.filter sort).map fun type => q.type type.id := by
  rw [types_toList, types_toList, h.typeCount, List.filter_map, List.filter_map, List.map_map]
  have sorts : (List.range p.types.size).filter (sort ∘ fun i : Nat => q.type ⟨i⟩)
      = (List.range p.types.size).filter (sort ∘ fun i : Nat => p.type ⟨i⟩) :=
    List.filter_congr fun i hmem => same ⟨i⟩ (List.mem_range.mp hmem)
  rw [sorts]
  refine List.map_congr_left fun i hmem => ?_
  have has : p.HasType ⟨i⟩ := List.mem_range.mp (List.mem_filter.mp hmem).1
  rw [Function.comp_apply, h.before.typeId ⟨i⟩ has]

theorem plainTypes (h : p.SameSkeleton q) :
    q.plainTypes = p.plainTypes.map fun type => q.type type.id :=
  h.filter_types fun id has => congrArg not (h.proxies id has)

theorem orderedProxies (h : p.SameSkeleton q) :
    q.orderedProxies = p.orderedProxies.map fun proxy => q.type proxy.id := by
  refine h.after.orderedProxies_eq_of_perm ?_ ?_
  · have proxies : q.proxyTypes = p.proxyTypes.map fun proxy => q.type proxy.id :=
      h.filter_types h.proxies
    refine q.orderedProxies_perm.trans ?_
    rw [proxies]
    exact (p.orderedProxies_perm.map _).symm
  · refine List.pairwise_map.mpr (h.before.orderedProxies_strict.imp_of_mem ?_)
    intro a b ha hb hlt
    obtain ⟨hasA, readA, -⟩ := (mem_orderedProxies h.before).mp ha
    obtain ⟨hasB, readB, -⟩ := (mem_orderedProxies h.before).mp hb
    rw [h.extend.key hasA, h.extend.key hasB, readA, readB]
    exact hlt

/-- **A selection is the same from both logs, if it is the same from what each type
enters.** -/
theorem select (h : p.SameSkeleton q) {β : Type} {select : StoreEntry → Option β}
    (own : ∀ id, p.HasType id → (p.type id).isProxy = false →
      (q.ownEntries (q.type id)).filterMap select = (p.ownEntries (p.type id)).filterMap select)
    (brought : ∀ id, p.HasType id → (p.type id).isProxy = true →
      (q.proxyEntries (q.type id)).filterMap select
        = (p.proxyEntries (p.type id)).filterMap select) :
    (Store.ofProgram q).entries.filterMap select
      = (Store.ofProgram p).entries.filterMap select := by
  rw [Store.filterMap_ofProgram, Store.filterMap_ofProgram, h.plainTypes, h.orderedProxies,
    List.flatMap_map, List.flatMap_map]
  congr 1
  · refine List.flatMap_congr fun type hmem => ?_
    obtain ⟨has, hread, plain⟩ := (mem_plainTypes h.before).mp hmem
    rw [own type.id has (by rw [hread]; exact plain), hread]
  · refine List.flatMap_congr fun proxy hmem => ?_
    obtain ⟨has, hread, isProxy⟩ := (mem_orderedProxies h.before).mp hmem
    rw [brought proxy.id has (by rw [hread]; exact isProxy), hread]

/-- **The logs are one if each type enters the same.** -/
theorem store_eq (h : p.SameSkeleton q)
    (own : ∀ id, p.HasType id → (p.type id).isProxy = false →
      q.ownEntries (q.type id) = p.ownEntries (p.type id))
    (brought : ∀ id, p.HasType id → (p.type id).isProxy = true →
      q.proxyEntries (q.type id) = p.proxyEntries (p.type id)) :
    Store.ofProgram q = Store.ofProgram p := by
  have whole : (Store.ofProgram q).entries.filterMap some
      = (Store.ofProgram p).entries.filterMap some :=
    h.select (fun id has plain => by rw [own id has plain])
      fun id has isProxy => by rw [brought id has isProxy]
  rw [List.filterMap_some, List.filterMap_some] at whole
  exact congrArg Store.mk whole

end SameSkeleton

end Program

end MemberResolution
