/-
Well-formed programs.

A type or member knows its own position, and the memos find it under its name, so no key
and no identity occurs twice.  A type lists its members in the order of their positions
and a member is listed by the type that declares it, an enclosing type came before what
it encloses, and an accessor and its property or event know each other.
`Proofs/Buildable.lean` shows that every program that can be built is well formed.

The memo of bases is filled from the finished program and needs no part in this: one pass
over types that know their positions puts under each the base it gives.

Most of a program never changes once it is there.  The shape of an entry is that part
of it, and the invariant reads almost nothing else: marks, nested types and lists of
accessors may grow under it.
-/
import MemberResolution.Program.Build

namespace MemberResolution

theorem Identity.ofType_injective : Function.Injective Identity.ofType := by
  rintro ⟨a⟩ ⟨b⟩ same
  cases same
  rfl

/-! ### Indexes -/

namespace Memo

variable {κ ν : Type} [DecidableEq κ]

/-- A memo keeps, under the name of each thing that is there, this thing. -/
def Indexes (memo : Memo κ ν) (has : ν → Prop) (name : ν → κ) : Prop :=
  ∀ key value, memo.find? key = some value ↔ has value ∧ name value = key

variable {memo : Memo κ ν} {has has' : ν → Prop} {name name' : ν → κ}

theorem Indexes.congr (indexes : memo.Indexes has name) (lists : ∀ value, has' value ↔ has value)
    (same : ∀ value, has value → name' value = name value) : memo.Indexes has' name' := by
  intro key value
  rw [indexes key value, lists]
  exact and_congr_right fun present => by rw [same value present]

/-- Of two things with one name there is only one. -/
theorem Indexes.eq_of_name (indexes : memo.Indexes has name) {a b : ν} (ha : has a) (hb : has b)
    (same : name a = name b) : a = b := by
  have found := (indexes _ _).mpr ⟨ha, same⟩
  rw [(indexes _ _).mpr ⟨hb, rfl⟩] at found
  exact (Option.some.inj found).symm

/-- **Under a name that is free one more thing may be kept.** -/
theorem Indexes.insert (indexes : memo.Indexes has name) {key : κ} {fresh : ν}
    (free : ∀ value, has value → name value ≠ key)
    (lists : ∀ value, has' value ↔ has value ∨ value = fresh)
    (old : ∀ value, has value → name' value = name value) (new : name' fresh = key) :
    (memo.insert key fresh).Indexes has' name' := by
  intro sought value
  rw [find?_insert]
  by_cases same : key = sought
  · subst same
    rw [if_pos rfl, Option.some.injEq]
    refine ⟨?_, ?_⟩
    · rintro rfl
      exact ⟨(lists _).mpr (.inr rfl), new⟩
    · rintro ⟨has, named⟩
      rcases (lists value).mp has with before | rfl
      · exact absurd ((old value before).symm.trans named) (free value before)
      · rfl
  · rw [if_neg same, indexes]
    refine ⟨fun ⟨has, named⟩ => ⟨(lists value).mpr (.inl has), (old value has).trans named⟩, ?_⟩
    rintro ⟨has, named⟩
    rcases (lists value).mp has with before | rfl
    · exact ⟨before, (old value before).symm.trans named⟩
    · exact absurd (new.symm.trans named) same

end Memo

namespace Program

/-! ### Positions that belong to a program -/

/-- The position is that of a loaded assembly. -/
def HasAssembly (program : Program) (id : AssemblyId) : Prop :=
  id.index < program.assemblies.size

/-- The position is that of a loaded type. -/
def HasType (program : Program) (id : TypeId) : Prop :=
  id.index < program.types.size

/-- The position is that of a loaded member. -/
def HasMember (program : Program) (id : MemberId) : Prop :=
  id.index < program.members.size

instance (program : Program) (id : AssemblyId) : Decidable (program.HasAssembly id) :=
  inferInstanceAs (Decidable (id.index < program.assemblies.size))

instance (program : Program) (id : TypeId) : Decidable (program.HasType id) :=
  inferInstanceAs (Decidable (id.index < program.types.size))

instance (program : Program) (id : MemberId) : Decidable (program.HasMember id) :=
  inferInstanceAs (Decidable (id.index < program.members.size))

theorem types_getElem? {program : Program} {id : TypeId} (h : program.HasType id) :
    program.types[id.index]? = some (program.type id) := by
  unfold type
  rw [Array.getD_eq_getD_getElem?, Array.getElem?_eq_getElem h]
  rfl

theorem members_getElem? {program : Program} {id : MemberId} (h : program.HasMember id) :
    program.members[id.index]? = some (program.member id) := by
  unfold member
  rw [Array.getD_eq_getD_getElem?, Array.getElem?_eq_getElem h]
  rfl

theorem exists_of_mem_types {program : Program} {type : LoadedType} (h : type ∈ program.types) :
    ∃ id, program.HasType id ∧ program.type id = type := by
  obtain ⟨i, hi, hival⟩ := Array.getElem_of_mem h
  refine ⟨⟨i⟩, hi, ?_⟩
  have hget : program.types[i]? = some (program.type ⟨i⟩) := types_getElem? hi
  rw [Array.getElem?_eq_getElem hi, hival] at hget
  exact (Option.some.inj hget).symm

theorem exists_of_mem_members {program : Program} {member : LoadedMember}
    (h : member ∈ program.members) : ∃ id, program.HasMember id ∧ program.member id = member := by
  obtain ⟨i, hi, hival⟩ := Array.getElem_of_mem h
  refine ⟨⟨i⟩, hi, ?_⟩
  have hget : program.members[i]? = some (program.member ⟨i⟩) := members_getElem? hi
  rw [Array.getElem?_eq_getElem hi, hival] at hget
  exact (Option.some.inj hget).symm

/-- A member is an accessor of a property or event. -/
structure IsAccessor (program : Program) (owner id : MemberId) : Prop where
  known : program.HasMember id
  kind : (program.member id).kind = .method
  declaringType : (program.member id).declaringType = (program.member owner).declaringType
  origin : (program.member id).owner? = some owner

/-- What a member in a type may name as the member it came from.  An accessor is named
after its property or event. -/
def OriginFits (program : Program) (type : TypeId) (kind : MemberKind) (name : SymbolName) :
    Origin → Prop
  | .declared => True
  | .accessor role owner _ =>
    program.HasMember owner ∧ (program.member owner).declaringType = type ∧ kind = .method
      ∧ name = .named (role.lead ++ (program.member owner).name.text)
  | .backingField property =>
    program.HasMember property ∧ (program.member property).declaringType = type ∧ kind = .field

/-- What every built program satisfies. -/
structure WellFormed (program : Program) : Prop where
  /-- A type knows its position. -/
  typeId : ∀ id, program.HasType id → (program.type id).id = id
  /-- A member knows its position. -/
  memberId : ∀ id, program.HasMember id → (program.member id).id = id
  /-- By a key exactly the loaded type with the key is found. -/
  typeByKey : program.typeByKey.Indexes program.HasType fun id => (program.type id).key
  /-- By an identity exactly the loaded member with the identity is found. -/
  memberByIdentity : program.memberByIdentity.Indexes program.HasMember program.identityOfMember
  /-- The type that declares a member is loaded. -/
  declaringType : ∀ id, program.HasMember id → program.HasType (program.member id).declaringType
  /-- The type that declares a member lists it. -/
  listed : ∀ id, program.HasMember id →
    id ∈ (program.type (program.member id).declaringType).members
  /-- A type lists what it declares. -/
  declares : ∀ type, program.HasType type → ∀ id ∈ (program.type type).members,
    program.HasMember id ∧ (program.member id).declaringType = type
  /-- It lists them in the order they were added. -/
  ordered : ∀ type, program.HasType type →
    (program.type type).members.Pairwise fun a b => a.index < b.index
  /-- The assembly of a type is loaded. -/
  assembly : ∀ type, program.HasType type → program.HasAssembly (program.type type).assembly
  /-- A type around another came before it. -/
  enclosing : ∀ type outer, program.HasType type → (program.type type).enclosing = some outer →
    outer.index < type.index
  /-- A member came from a member of the same type. -/
  origins : ∀ id, program.HasMember id →
    program.OriginFits (program.member id).declaringType (program.member id).kind
      (program.member id).name (program.member id).origin
  /-- What a property or event lists are its accessors. -/
  accessors : ∀ owner, program.HasMember owner → ∀ id ∈ (program.member owner).accessors,
    program.IsAccessor owner id

theorem key_eq_of_identityOfType {program : Program} {a b : TypeId}
    (h : program.identityOfType a = program.identityOfType b) :
    (program.type a).key = (program.type b).key :=
  Identity.ofType_injective h

/-! ### Finding by name

What is found by name is what the memos of a program keep, and they keep under each name the
one entry that has it.  So no name occurs twice.
-/

theorem WellFormed.findType?_eq_some_iff {program : Program} (h : program.WellFormed)
    {key : TypeKey} {id : TypeId} :
    program.findType? key = some id ↔ program.HasType id ∧ (program.type id).key = key :=
  h.typeByKey key id

theorem WellFormed.findMember?_eq_some_iff {program : Program} (h : program.WellFormed)
    {identity : Identity} {id : MemberId} :
    program.findMember? identity = some id
      ↔ program.HasMember id ∧ program.identityOfMember id = identity :=
  h.memberByIdentity identity id

theorem WellFormed.findType?_eq_none_iff {program : Program} (h : program.WellFormed)
    {key : TypeKey} :
    program.findType? key = none ↔ ∀ id, program.HasType id → (program.type id).key ≠ key := by
  simp only [Option.eq_none_iff_forall_ne_some, ne_eq, h.findType?_eq_some_iff, not_and]

theorem WellFormed.findMember?_eq_none_iff {program : Program} (h : program.WellFormed)
    {identity : Identity} :
    program.findMember? identity = none
      ↔ ∀ id, program.HasMember id → program.identityOfMember id ≠ identity := by
  simp only [Option.eq_none_iff_forall_ne_some, ne_eq, h.findMember?_eq_some_iff, not_and]

theorem WellFormed.keys {program : Program} (h : program.WellFormed) (a b : TypeId)
    (ha : program.HasType a) (hb : program.HasType b)
    (same : (program.type a).key = (program.type b).key) : a = b :=
  h.typeByKey.eq_of_name ha hb same

theorem WellFormed.identities {program : Program} (h : program.WellFormed) (a b : MemberId)
    (ha : program.HasMember a) (hb : program.HasMember b)
    (same : program.identityOfMember a = program.identityOfMember b) : a = b :=
  h.memberByIdentity.eq_of_name ha hb same

/-! ### Bases -/

theorem find?_enterBase (program : Program) (ids : Memo TypeId TypeId) (type : LoadedType)
    (id : TypeId) :
    (program.enterBase ids type).find? id
      = if type.id = id then (type.base.bind program.findType?).or (ids.find? id)
        else ids.find? id := by
  unfold enterBase
  cases type.base.bind program.findType? with
  | none => exact (ite_self _).symm
  | some base => exact Memo.find?_insert ids type.id id base

/-- A pass over types that give a type one base leaves this base under it, and what was there
where they give none. -/
theorem find?_enterBases {program : Program} {id : TypeId} {base : Option TypeId}
    {types : List LoadedType}
    (agree : ∀ type ∈ types, type.id = id → type.base.bind program.findType? = base) :
    ∀ ids : Memo TypeId TypeId,
      (types.foldl program.enterBase ids).find? id
        = if id ∈ types.map (·.id) then base.or (ids.find? id) else ids.find? id := by
  induction types with
  | nil => intro ids; rfl
  | cons type rest ih =>
      intro ids
      rw [List.foldl_cons, ih fun other hmem => agree other (List.mem_cons_of_mem _ hmem),
        find?_enterBase, List.map_cons]
      by_cases here : type.id = id
      · rw [if_pos here, agree type List.mem_cons_self here,
          if_pos (List.mem_cons.mpr (.inl here.symm))]
        cases base <;> simp
      · simp only [if_neg here, List.mem_cons, or_iff_right (Ne.symm here)]

/-- **The base of a type is the loaded type with the key it gives.** -/
theorem WellFormed.baseOf?_eq {program : Program} (h : program.WellFormed) (id : TypeId) :
    program.baseOf? id = (program.type id).base.bind program.findType? := by
  have agree : ∀ type ∈ program.types.toList, type.id = id →
      type.base.bind program.findType? = (program.type id).base.bind program.findType? := by
    intro type hmem heq
    obtain ⟨position, has, rfl⟩ := exists_of_mem_types (Array.mem_def.mpr hmem)
    rw [← heq, h.typeId position has]
  unfold baseOf? baseIds
  rw [find?_enterBases agree, Memo.find?_empty, Option.or_none]
  by_cases has : program.HasType id
  · have loaded : program.type id ∈ program.types.toList :=
      Array.mem_def.mp (Array.mem_of_getElem? (types_getElem? has))
    rw [if_pos (List.mem_map.mpr ⟨_, loaded, h.typeId id has⟩)]
  · have empty : program.type id = default := by
      unfold type
      rw [Array.getD_eq_getD_getElem?, Array.getElem?_eq_none (Nat.le_of_not_lt has)]
      rfl
    rw [empty]
    exact ite_self none

theorem WellFormed.baseOf?_eq_some_iff {program : Program} (h : program.WellFormed)
    {id base : TypeId} :
    program.baseOf? id = some base
      ↔ program.HasType base ∧ (program.type id).base = some (program.type base).key := by
  rw [h.baseOf?_eq, Option.bind_eq_some_iff]
  refine ⟨?_, ?_⟩
  · rintro ⟨key, hkey, hfind⟩
    obtain ⟨has, rfl⟩ := h.findType?_eq_some_iff.mp hfind
    exact ⟨has, hkey⟩
  · rintro ⟨has, hkey⟩
    exact ⟨_, hkey, h.findType?_eq_some_iff.mpr ⟨has, rfl⟩⟩

/-! ### What is around a type, what a member belongs to -/

/-- Every type around a loaded type is loaded. -/
theorem WellFormed.hasType_of_mem_enclosingUpTo {program : Program} (h : program.WellFormed)
    {n : Nat} :
    ∀ {id : TypeId}, program.HasType id → ∀ outer ∈ program.enclosingUpTo n id,
      program.HasType outer := by
  induction n with
  | zero => intro id _ outer hmem; cases hmem
  | succ n ih =>
      intro id has outer hmem
      rw [enclosingUpTo] at hmem
      rcases List.mem_cons.mp hmem with rfl | hrest
      · exact has
      · cases henclosing : (program.type id).enclosing with
        | none => rw [henclosing] at hrest; cases hrest
        | some next =>
            rw [henclosing] at hrest
            exact ih (Nat.lt_trans (h.enclosing id next has henclosing) has) outer hrest

/-- The property or event a member belongs to is loaded and of the same type. -/
theorem WellFormed.of_owner? {program : Program} (h : program.WellFormed) {id owner : MemberId}
    (has : program.HasMember id) (howner : (program.member id).owner? = some owner) :
    program.HasMember owner
      ∧ (program.member owner).declaringType = (program.member id).declaringType := by
  have fits := h.origins id has
  unfold LoadedMember.owner? at howner
  cases horigin : (program.member id).origin with
  | declared => rw [horigin] at howner; cases howner
  | backingField _ => rw [horigin] at howner; cases howner
  | accessor _ _ _ =>
      rw [horigin] at fits howner
      cases howner
      exact ⟨fits.1, fits.2.1⟩

/-! ### What never changes -/

end Program

/-- A type without what may be added to it later. -/
def LoadedType.shape (type : LoadedType) : LoadedType :=
  { type with marks := [], nested := [] }

/-- A member without what may be added to it later. -/
def LoadedMember.shape (member : LoadedMember) : LoadedMember :=
  { member with marks := [], accessors := [] }

/-- What the shape of a type tells is told by every type of the same shape. -/
theorem LoadedType.read_eq {β : Type} {a b : LoadedType} (same : a.shape = b.shape)
    (read : LoadedType → β) (reads : ∀ type, read type.shape = read type) : read a = read b := by
  rw [← reads a, same, reads]

theorem LoadedMember.read_eq {β : Type} {a b : LoadedMember} (same : a.shape = b.shape)
    (read : LoadedMember → β) (reads : ∀ member, read member.shape = read member) :
    read a = read b := by
  rw [← reads a, same, reads]

namespace Program

/-- Two programs have the same entries, up to what may be added to an entry. -/
structure SameShape (before after : Program) : Prop where
  assemblyCount : before.assemblies.size ≤ after.assemblies.size
  typeCount : after.types.size = before.types.size
  memberCount : after.members.size = before.members.size
  types : ∀ id, (after.type id).shape = (before.type id).shape
  members : ∀ id, (after.member id).shape = (before.member id).shape
  typeByKey : after.typeByKey = before.typeByKey
  memberByIdentity : after.memberByIdentity = before.memberByIdentity

/-- One program has all the members of another, of the same shape. -/
structure Grows (before after : Program) : Prop where
  assemblies : ∀ id, before.HasAssembly id → after.HasAssembly id
  types : ∀ id, before.HasType id → after.HasType id
  members : ∀ id, before.HasMember id →
    after.HasMember id ∧ (after.member id).shape = (before.member id).shape

theorem IsAccessor.grows {before after : Program} (grows : Grows before after)
    {owner id : MemberId} (known : before.HasMember owner) (h : before.IsAccessor owner id) :
    after.IsAccessor owner id := by
  obtain ⟨has, shape⟩ := grows.members id h.known
  obtain ⟨-, ownerShape⟩ := grows.members owner known
  have kind : (after.member id).kind = (before.member id).kind :=
    LoadedMember.read_eq shape (·.kind) fun _ => rfl
  have type : (after.member id).declaringType = (before.member id).declaringType :=
    LoadedMember.read_eq shape (·.declaringType) fun _ => rfl
  have ownerType : (after.member owner).declaringType = (before.member owner).declaringType :=
    LoadedMember.read_eq ownerShape (·.declaringType) fun _ => rfl
  have origin : (after.member id).owner? = (before.member id).owner? :=
    LoadedMember.read_eq shape (·.owner?) fun _ => rfl
  exact ⟨has, kind.trans h.kind, by rw [type, ownerType]; exact h.declaringType,
    origin.trans h.origin⟩

theorem OriginFits.grows {before after : Program} (grows : Grows before after) {type : TypeId}
    {kind : MemberKind} {name : SymbolName} {origin : Origin}
    (h : before.OriginFits type kind name origin) : after.OriginFits type kind name origin := by
  cases origin with
  | declared => trivial
  | accessor _ owner _ =>
      obtain ⟨hasOwner, declaringType, isMethod, named⟩ := h
      obtain ⟨has, shape⟩ := grows.members owner hasOwner
      have ownerName : (after.member owner).name = (before.member owner).name :=
        LoadedMember.read_eq shape (·.name) fun _ => rfl
      refine ⟨has, ?_, isMethod, ?_⟩
      · exact (LoadedMember.read_eq shape (·.declaringType) fun _ => rfl).trans declaringType
      · rw [ownerName]
        exact named
  | backingField property =>
      obtain ⟨has, shape⟩ := grows.members property h.1
      exact ⟨has, (LoadedMember.read_eq shape (·.declaringType) fun _ => rfl).trans h.2.1, h.2.2⟩

theorem SameShape.grows {before after : Program} (same : SameShape before after) :
    Grows before after where
  assemblies id h := Nat.lt_of_lt_of_le h same.assemblyCount
  types id h := by unfold HasType at *; rw [same.typeCount]; exact h
  members id h := ⟨by unfold HasMember at *; rw [same.memberCount]; exact h, same.members id⟩

theorem SameShape.hasType_iff {before after : Program} (same : SameShape before after)
    {id : TypeId} : after.HasType id ↔ before.HasType id := by
  unfold HasType
  rw [same.typeCount]

theorem SameShape.hasMember_iff {before after : Program} (same : SameShape before after)
    {id : MemberId} : after.HasMember id ↔ before.HasMember id := by
  unfold HasMember
  rw [same.memberCount]

theorem SameShape.hasType {before after : Program} (same : SameShape before after)
    {id : TypeId} (h : after.HasType id) : before.HasType id :=
  same.hasType_iff.mp h

theorem SameShape.hasMember {before after : Program} (same : SameShape before after)
    {id : MemberId} (h : after.HasMember id) : before.HasMember id :=
  same.hasMember_iff.mp h

/-- An identity is read off shapes alone. -/
theorem SameShape.identityOfMember {before after : Program} (same : SameShape before after)
    (id : MemberId) : after.identityOfMember id = before.identityOfMember id := by
  have shape := same.members id
  have type : (after.member id).declaringType = (before.member id).declaringType :=
    LoadedMember.read_eq shape (·.declaringType) fun _ => rfl
  have key : (after.type (before.member id).declaringType).key
      = (before.type (before.member id).declaringType).key :=
    LoadedType.read_eq (same.types _) (·.key) fun _ => rfl
  have kind : (after.member id).kind = (before.member id).kind :=
    LoadedMember.read_eq shape (·.kind) fun _ => rfl
  have name : (after.member id).name = (before.member id).name :=
    LoadedMember.read_eq shape (·.name) fun _ => rfl
  have params : (after.member id).params = (before.member id).params :=
    LoadedMember.read_eq shape (·.params) fun _ => rfl
  have result : (after.member id).type = (before.member id).type :=
    LoadedMember.read_eq shape (·.type) fun _ => rfl
  unfold Program.identityOfMember identityOf
  rw [type, key, kind, name, params, result]

/-- A change that keeps all shapes keeps the invariant, if what it lists as accessors
are accessors. -/
theorem WellFormed.of_sameShape {before after : Program} (h : before.WellFormed)
    (same : SameShape before after)
    (accessors : ∀ owner, after.HasMember owner → ∀ id ∈ (after.member owner).accessors,
      after.IsAccessor owner id) : after.WellFormed := by
  have key : ∀ id, (after.type id).key = (before.type id).key :=
    fun id => LoadedType.read_eq (same.types id) (·.key) fun _ => rfl
  have listed : ∀ id, (after.type id).members = (before.type id).members :=
    fun id => LoadedType.read_eq (same.types id) (·.members) fun _ => rfl
  have declaringType : ∀ id, (after.member id).declaringType = (before.member id).declaringType :=
    fun id => LoadedMember.read_eq (same.members id) (·.declaringType) fun _ => rfl
  refine ⟨?_, ?_, ?_, ?_, ?_, ?_, ?_, ?_, ?_, ?_, ?_, accessors⟩
  · intro id has
    have hid : (after.type id).id = (before.type id).id :=
      LoadedType.read_eq (same.types id) (·.id) fun _ => rfl
    rw [hid]
    exact h.typeId id (same.hasType has)
  · intro id has
    have hid : (after.member id).id = (before.member id).id :=
      LoadedMember.read_eq (same.members id) (·.id) fun _ => rfl
    rw [hid]
    exact h.memberId id (same.hasMember has)
  · rw [same.typeByKey]
    exact h.typeByKey.congr (fun _ => same.hasType_iff) fun id _ => key id
  · rw [same.memberByIdentity]
    exact h.memberByIdentity.congr (fun _ => same.hasMember_iff) fun id _ =>
      same.identityOfMember id
  · intro id has
    rw [declaringType]
    exact same.grows.types _ (h.declaringType id (same.hasMember has))
  · intro id has
    rw [declaringType, listed]
    exact h.listed id (same.hasMember has)
  · intro type has id hid
    rw [listed] at hid
    obtain ⟨hmember, htype⟩ := h.declares type (same.hasType has) id hid
    exact ⟨(same.grows.members id hmember).1, (declaringType id).trans htype⟩
  · intro type has
    rw [listed]
    exact h.ordered type (same.hasType has)
  · intro type has
    have hassembly : (after.type type).assembly = (before.type type).assembly :=
      LoadedType.read_eq (same.types type) (·.assembly) fun _ => rfl
    rw [hassembly]
    exact same.grows.assemblies _ (h.assembly type (same.hasType has))
  · intro type outer has houter
    have henclosing : (after.type type).enclosing = (before.type type).enclosing :=
      LoadedType.read_eq (same.types type) (·.enclosing) fun _ => rfl
    rw [henclosing] at houter
    exact h.enclosing type outer (same.hasType has) houter
  · intro id has
    have kind : (after.member id).kind = (before.member id).kind :=
      LoadedMember.read_eq (same.members id) (·.kind) fun _ => rfl
    have name : (after.member id).name = (before.member id).name :=
      LoadedMember.read_eq (same.members id) (·.name) fun _ => rfl
    have origin : (after.member id).origin = (before.member id).origin :=
      LoadedMember.read_eq (same.members id) (·.origin) fun _ => rfl
    rw [declaringType, kind, name, origin]
    exact (h.origins id (same.hasMember has)).grows same.grows

end Program

end MemberResolution
