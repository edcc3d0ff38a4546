/-
Programs that differ in order alone.

When the same assemblies and types are loaded in another order, everything gets another
position and nothing else changes.  A renumbering says where each position went, and
`Renumbering.Reorders` what it means that one program is another one in a new order:
every entry is the old one with its positions renumbered.  Members keep their order
within their type; the types of an assembly and those nested in a type need not.

What a program tells by name does not change with the order, and what it tells by
position changes with the positions.  The lemmas say so of every function that reads a
program: first of entries, then of the searches by name, of the walks along bases and
outward, and last of the search for what a proxy member supplies.
-/
import Mathlib.Logic.Equiv.Defs
import MemberResolution.Proofs.Effective
import MemberResolution.Proofs.Lineage

namespace MemberResolution

/-! ### Renumbering -/

/-- Where each position goes. -/
structure Renumbering where
  assembly : AssemblyId ≃ AssemblyId
  type : TypeId ≃ TypeId
  member : MemberId ≃ MemberId

namespace Renumbering

variable (ρ : Renumbering)

/-- An assembly with all positions in it renumbered. -/
def onAssembly (assembly : Assembly) : Assembly :=
  { assembly with id := ρ.assembly assembly.id, types := assembly.types.map ρ.type }

/-- A type with all positions in it renumbered. -/
def onType (type : LoadedType) : LoadedType :=
  { type with
    id := ρ.type type.id
    assembly := ρ.assembly type.assembly
    enclosing := type.enclosing.map ρ.type
    members := type.members.map ρ.member
    nested := type.nested.map ρ.type }

/-- An origin with its position renumbered. -/
def onOrigin : Origin → Origin
  | .declared => .declared
  | .accessor kind owner generated => .accessor kind (ρ.member owner) generated
  | .backingField property => .backingField (ρ.member property)

/-- A member with all positions in it renumbered. -/
def onMember (member : LoadedMember) : LoadedMember :=
  { member with
    id := ρ.member member.id
    declaringType := ρ.type member.declaringType
    origin := ρ.onOrigin member.origin
    accessors := member.accessors.map ρ.member }

/-- A fault with the place it is kept under renumbered. -/
def onFault (fault : Fault) : Fault :=
  { fault with place := fault.place.map fun (type, name) => (ρ.type type, name) }

/-- The result of looking for what a proxy member supplies, renumbered. -/
def onSupplied : Except Fault (MemberId × ProxyTarget) → Except Fault (MemberId × ProxyTarget)
  | .error fault => .error (ρ.onFault fault)
  | .ok (supplied, how) => .ok (ρ.member supplied, how)

/-- One program is another in a new order: the same positions are taken, and what stands
at each is what stood there, renumbered.  Only the order in which an assembly and a type
list the types in them is free. -/
structure Reorders (p q : Program) : Prop where
  hasAssembly : ∀ id, q.HasAssembly (ρ.assembly id) ↔ p.HasAssembly id
  hasType : ∀ id, q.HasType (ρ.type id) ↔ p.HasType id
  hasMember : ∀ id, q.HasMember (ρ.member id) ↔ p.HasMember id
  assembly : ∀ id, p.HasAssembly id →
    q.assembly (ρ.assembly id)
      = { ρ.onAssembly (p.assembly id) with types := (q.assembly (ρ.assembly id)).types }
  topLevel : ∀ id, p.HasAssembly id →
    (q.assembly (ρ.assembly id)).types.Perm (ρ.onAssembly (p.assembly id)).types
  type : ∀ id, p.HasType id →
    q.type (ρ.type id) = { ρ.onType (p.type id) with nested := (q.type (ρ.type id)).nested }
  nested : ∀ id, p.HasType id →
    (q.type (ρ.type id)).nested.Perm (ρ.onType (p.type id)).nested
  member : ∀ id, p.HasMember id → q.member (ρ.member id) = ρ.onMember (p.member id)

/-- One program is another in a new order, and both are well formed. -/
structure Carries (p q : Program) : Prop extends ρ.Reorders p q where
  before : p.WellFormed
  after : q.WellFormed

variable {ρ} {p q : Program}

namespace Carries

/-! ### Reading entries -/

theorem read_type (h : ρ.Carries p q) {id : TypeId} (has : p.HasType id) {β : Type}
    (read : LoadedType → β)
    (reads : ∀ type nested, read { type with nested := nested } = read type) :
    read (q.type (ρ.type id)) = read (ρ.onType (p.type id)) := by
  rw [h.type id has, reads]

theorem key (h : ρ.Carries p q) {id : TypeId} (has : p.HasType id) :
    (q.type (ρ.type id)).key = (p.type id).key :=
  h.read_type has (·.key) fun _ _ => rfl

theorem typeMarks (h : ρ.Carries p q) {id : TypeId} (has : p.HasType id) :
    (q.type (ρ.type id)).marks = (p.type id).marks :=
  h.read_type has (·.marks) fun _ _ => rfl

theorem listed (h : ρ.Carries p q) {id : TypeId} (has : p.HasType id) :
    (q.type (ρ.type id)).members = (p.type id).members.map ρ.member :=
  h.read_type has (·.members) fun _ _ => rfl

theorem enclosing (h : ρ.Carries p q) {id : TypeId} (has : p.HasType id) :
    (q.type (ρ.type id)).enclosing = (p.type id).enclosing.map ρ.type :=
  h.read_type has (·.enclosing) fun _ _ => rfl

theorem base (h : ρ.Carries p q) {id : TypeId} (has : p.HasType id) :
    (q.type (ρ.type id)).base = (p.type id).base :=
  h.read_type has (·.base) fun _ _ => rfl

theorem isProxy (h : ρ.Carries p q) {id : TypeId} (has : p.HasType id) :
    (q.type (ρ.type id)).isProxy = (p.type id).isProxy :=
  h.read_type has (·.isProxy) fun _ _ => rfl

theorem typeId (h : ρ.Carries p q) {id : TypeId} (has : p.HasType id) :
    (q.type (ρ.type id)).id = ρ.type id :=
  h.after.typeId _ ((h.hasType id).mpr has)

theorem inStubAssembly (h : ρ.Carries p q) {id : TypeId} (has : p.HasType id) :
    q.inStubAssembly (ρ.type id) = p.inStubAssembly id := by
  have hassembly : (q.type (ρ.type id)).assembly = ρ.assembly (p.type id).assembly :=
    h.read_type has (·.assembly) fun _ _ => rfl
  unfold Program.inStubAssembly
  rw [hassembly, h.assembly _ (h.before.assembly id has)]
  rfl

theorem read_member (h : ρ.Carries p q) {id : MemberId} (has : p.HasMember id) {β : Type}
    (read : LoadedMember → β) (reads : ∀ member, read (ρ.onMember member) = read member) :
    read (q.member (ρ.member id)) = read (p.member id) := by
  rw [h.member id has, reads]

theorem kind (h : ρ.Carries p q) {id : MemberId} (has : p.HasMember id) :
    (q.member (ρ.member id)).kind = (p.member id).kind :=
  h.read_member has (·.kind) fun _ => rfl

theorem name (h : ρ.Carries p q) {id : MemberId} (has : p.HasMember id) :
    (q.member (ρ.member id)).name = (p.member id).name :=
  h.read_member has (·.name) fun _ => rfl

theorem body (h : ρ.Carries p q) {id : MemberId} (has : p.HasMember id) :
    (q.member (ρ.member id)).body = (p.member id).body :=
  h.read_member has (·.body) fun _ => rfl

theorem memberMarks (h : ρ.Carries p q) {id : MemberId} (has : p.HasMember id) :
    (q.member (ρ.member id)).marks = (p.member id).marks :=
  h.read_member has (·.marks) fun _ => rfl

theorem declaringType (h : ρ.Carries p q) {id : MemberId} (has : p.HasMember id) :
    (q.member (ρ.member id)).declaringType = ρ.type (p.member id).declaringType := by
  rw [h.member id has]
  rfl

theorem owner? (h : ρ.Carries p q) {id : MemberId} (has : p.HasMember id) :
    (q.member (ρ.member id)).owner? = (p.member id).owner?.map ρ.member := by
  rw [h.member id has]
  unfold LoadedMember.owner? onMember
  cases (p.member id).origin <;> rfl

/-! ### Names -/

theorem identityOfType (h : ρ.Carries p q) {id : TypeId} (has : p.HasType id) :
    q.identityOfType (ρ.type id) = p.identityOfType id := by
  unfold Program.identityOfType
  rw [h.key has]

theorem identityOfMember (h : ρ.Carries p q) {id : MemberId} (has : p.HasMember id) :
    q.identityOfMember (ρ.member id) = p.identityOfMember id := by
  unfold Program.identityOfMember Program.identityOf
  rw [h.declaringType has, h.key (h.before.declaringType id has), h.member id has]
  rfl

/-- What a key names keeps its name. -/
theorem findType? (h : ρ.Carries p q) (key : TypeKey) :
    q.findType? key = (p.findType? key).map ρ.type := by
  refine Option.ext fun found => ?_
  obtain ⟨id, rfl⟩ := ρ.type.surjective found
  rw [h.after.findType?_eq_some_iff, h.hasType, Option.map_eq_some_iff]
  refine ⟨?_, ?_⟩
  · intro given
    obtain ⟨has, hkey⟩ := given
    rw [h.key has] at hkey
    exact ⟨id, h.before.findType?_eq_some_iff.mpr ⟨has, hkey⟩, rfl⟩
  · intro given
    obtain ⟨other, hfind, heq⟩ := given
    obtain rfl := ρ.type.injective heq
    obtain ⟨has, hkey⟩ := h.before.findType?_eq_some_iff.mp hfind
    exact ⟨has, by rw [h.key has]; exact hkey⟩

/-- What an identity names keeps its identity. -/
theorem findMember? (h : ρ.Carries p q) (identity : Identity) :
    q.findMember? identity = (p.findMember? identity).map ρ.member := by
  refine Option.ext fun found => ?_
  obtain ⟨id, rfl⟩ := ρ.member.surjective found
  rw [h.after.findMember?_eq_some_iff, h.hasMember, Option.map_eq_some_iff]
  refine ⟨?_, ?_⟩
  · intro given
    obtain ⟨has, hidentity⟩ := given
    rw [h.identityOfMember has] at hidentity
    exact ⟨id, h.before.findMember?_eq_some_iff.mpr ⟨has, hidentity⟩, rfl⟩
  · intro given
    obtain ⟨other, hfind, heq⟩ := given
    obtain rfl := ρ.member.injective heq
    obtain ⟨has, hidentity⟩ := h.before.findMember?_eq_some_iff.mp hfind
    exact ⟨has, by rw [h.identityOfMember has]; exact hidentity⟩

/-! ### Walks -/

theorem baseOf? (h : ρ.Carries p q) {id : TypeId} (has : p.HasType id) :
    q.baseOf? (ρ.type id) = (p.baseOf? id).map ρ.type := by
  rw [h.after.baseOf?_eq, h.before.baseOf?_eq, h.base has]
  cases (p.type id).base with
  | none => rfl
  | some key => exact h.findType? key

theorem ancestorsUpTo (h : ρ.Carries p q) (count : Nat) :
    ∀ {id : TypeId}, p.HasType id →
      q.ancestorsUpTo count (ρ.type id) = (p.ancestorsUpTo count id).map ρ.type := by
  induction count with
  | zero => intro id _; rfl
  | succ count ih =>
      intro id has
      rw [Program.ancestorsUpTo, Program.ancestorsUpTo, h.baseOf? has, List.map_cons]
      cases hbase : p.baseOf? id with
      | none => rfl
      | some base =>
          exact congrArg _ (ih (h.before.baseOf?_eq_some_iff.mp hbase).1)

theorem chain (h : ρ.Carries p q) (maxDepth : Nat) {id : TypeId} (has : p.HasType id) :
    q.chain maxDepth (ρ.type id) = (p.chain maxDepth id).map (List.map ρ.type) := by
  unfold Program.chain Program.isTooDeep Program.keptChain
  rw [h.ancestorsUpTo _ has, h.ancestorsUpTo _ has, List.length_map, h.key has]
  split <;> rfl

theorem enclosingUpTo (h : ρ.Carries p q) (count : Nat) :
    ∀ {id : TypeId}, p.HasType id →
      q.enclosingUpTo count (ρ.type id) = (p.enclosingUpTo count id).map ρ.type := by
  induction count with
  | zero => intro id _; rfl
  | succ count ih =>
      intro id has
      rw [Program.enclosingUpTo, Program.enclosingUpTo, h.enclosing has, List.map_cons]
      cases houter : (p.type id).enclosing with
      | none => rfl
      | some outer =>
          exact congrArg _ (ih (Nat.lt_trans (h.before.enclosing id outer has houter) has))

/-- What is read of each type on the way outward is the same. -/
theorem map_enclosingChain (h : ρ.Carries p q) {id : TypeId} (has : p.HasType id) {β : Type}
    {old new : TypeId → β} (same : ∀ outer, p.HasType outer → new (ρ.type outer) = old outer) :
    (q.enclosingChain (ρ.type id)).map new = (p.enclosingChain id).map old := by
  unfold Program.enclosingChain
  rw [h.enclosingUpTo _ has, List.map_map]
  refine List.map_congr_left fun outer hmem => ?_
  exact same outer (h.before.hasType_of_mem_enclosingUpTo has outer hmem)

theorem isInsideIgnored (h : ρ.Carries p q) {id : TypeId} (has : p.HasType id) :
    q.isInsideIgnored (ρ.type id) = p.isInsideIgnored id := by
  have ignored : (q.enclosingChain (ρ.type id)).map
        (fun outer => Mark.isIgnored (q.type outer).marks)
      = (p.enclosingChain id).map fun outer => Mark.isIgnored (p.type outer).marks := by
    refine h.map_enclosingChain has fun outer hasOuter => ?_
    rw [h.typeMarks hasOuter]
  have outside := congrArg (fun given => given.tail.any fun holds => holds) ignored
  simp only [← List.map_tail, List.any_map] at outside
  exact outside

/-! ### What proxy members supply -/

theorem isInert (h : ρ.Carries p q) {id : MemberId} (has : p.HasMember id) :
    q.isInert (q.member (ρ.member id)) = p.isInert (p.member id) := by
  have hbacking : (q.member (ρ.member id)).isBackingField = (p.member id).isBackingField := by
    refine h.read_member has (·.isBackingField) fun member => ?_
    unfold LoadedMember.isBackingField onMember
    cases member.origin <;> rfl
  unfold Program.isInert
  rw [h.owner? has, hbacking, h.memberMarks has]
  cases hold : (p.member id).owner? with
  | none => rfl
  | some owner =>
      have hasOwner := (h.before.of_owner? has hold).1
      show (_ || _ || Mark.isNeverReplaced (q.member (ρ.member owner)).marks) = _
      rw [h.memberMarks hasOwner]

theorem namedTargets (h : ρ.Carries p q) {id : MemberId} (has : p.HasMember id) {target : TypeId}
    (hasTarget : p.HasType target) (name : String) :
    q.namedTargets (q.member (ρ.member id)) (ρ.type target) name
      = (p.namedTargets (p.member id) target name).map ρ.onMember := by
  have members : (q.type (ρ.type target)).members.map q.member
      = ((p.type target).members.map p.member).map ρ.onMember := by
    rw [h.listed hasTarget, List.map_map, List.map_map]
    refine List.map_congr_left fun member listed => ?_
    exact h.member member (h.before.declares target hasTarget member listed).1
  unfold Program.namedTargets Program.membersNamed
  rw [members, List.filter_map, List.filter_map, h.member id has]
  rfl

theorem suppliedMember (h : ρ.Carries p q) {id : MemberId} (has : p.HasMember id)
    {target : TypeId} (hasTarget : p.HasType target) :
    q.suppliedMember (q.member (ρ.member id)) (ρ.type target)
      = ρ.onSupplied (p.suppliedMember (p.member id) target) := by
  have hown : q.identityOf (q.member (ρ.member id)) = p.identityOf (p.member id) :=
    h.identityOfMember has
  have hparams : (q.member (ρ.member id)).paramTypes = (p.member id).paramTypes :=
    h.read_member has (·.paramTypes) fun _ => rfl
  unfold Program.suppliedMember
  simp only
  rw [hown, h.memberMarks has, h.name has, hparams, h.key hasTarget]
  cases Mark.proxyTarget? (p.member id).marks with
  | none =>
      simp only
      rw [h.findMember?]
      cases p.findMember? ((p.identityOf (p.member id)).declaredBy (p.type target).key) <;> rfl
  | some name =>
      simp only
      have sameParams : (fun candidate : LoadedMember =>
            decide (candidate.paramTypes = (p.member id).paramTypes)) ∘ ρ.onMember
          = fun candidate => decide (candidate.paramTypes = (p.member id).paramTypes) := rfl
      rw [h.namedTargets has hasTarget, List.find?_map, sameParams]
      generalize p.namedTargets (p.member id) target name = targets
      cases targets.find? fun candidate => candidate.paramTypes = (p.member id).paramTypes with
      | some found => rfl
      | none =>
          match targets with
          | [] => rfl
          | [_] => rfl
          | _ :: _ :: _ => rfl

end Carries

end Renumbering

end MemberResolution
