/-
What a program shows to one who knows no positions.

A row tells of a type or member all that was declared and with what it belongs together, and
names the others: a type the assembly and the type around it, a member its type, its property
or event and its accessors.  The rows of a program stand in loading order.

An entry that is made adds its row at the end and leaves the others, because what the old rows
name keeps its name.  That needs little of the program: whatever an entry refers to must be
there (`Closed`), or else a later entry would come to stand where nothing stood.
-/
import MemberResolution.Proofs.Expansion

namespace MemberResolution

/-! ### Rows -/

/-- How a member came to be, its property or event known by identity. -/
inductive Role where
  | declared
  | accessor (kind : AccessorKind) (owner : Identity) (generated : Bool)
  | backingField (property : Identity)
  deriving DecidableEq, Repr

/-- A type as it is known by names. -/
structure TypeRow where
  assembly : String
  enclosing : Option TypeKey
  key : TypeKey
  kind : TypeKind
  flags : TypeFlags
  base : Option TypeKey
  marks : List Mark
  deriving DecidableEq, Repr

/-- A member as it is known by names. -/
structure MemberRow where
  declaringType : TypeKey
  decl : MemberDecl
  role : Role := .declared
  accessors : List Identity := []
  deriving DecidableEq, Repr

/-- The identity of the member. -/
def MemberRow.identity (row : MemberRow) : Identity :=
  Program.identityIn row.declaringType row.decl.kind row.decl.name row.decl.params row.decl.type

/-- The row of the head, before its methods are listed. -/
def Family.headRow (family : Family) (key : TypeKey) : MemberRow :=
  { declaringType := key, decl := family.head }

/-- The rows of the methods, each telling of the head. -/
def Family.methodRows (family : Family) (key : TypeKey) : List MemberRow :=
  family.methods.map fun method =>
    { declaringType := key, decl := method.2,
      role := .accessor method.1 (family.headRow key).identity family.generated }

/-- The rows of the fields, each telling of the head. -/
def Family.fieldRows (family : Family) (key : TypeKey) : List MemberRow :=
  family.fields.map fun field =>
    { declaringType := key, decl := field, role := .backingField (family.headRow key).identity }

/-- The rows of a family: the head lists the methods, and all else tells of the head. -/
def Family.rows (family : Family) (key : TypeKey) : List MemberRow :=
  { family.headRow key with accessors := (family.methodRows key).map (·.identity) }
    :: (family.methodRows key ++ family.fieldRows key)

/-- What belongs to a head belongs to nothing else. -/
theorem Family.eq_of_mem_belongings {family : Family} {owner other : MemberId}
    {part : MemberDecl × Origin} (mem : part ∈ family.belongings owner)
    (belongs : part.2.BelongsTo other) : other = owner := by
  rcases List.mem_append.mp mem with hmethod | hfield
  · obtain ⟨method, -, rfl⟩ := List.mem_map.mp hmethod
    cases belongs
    rfl
  · obtain ⟨field, -, rfl⟩ := List.mem_map.mp hfield
    cases belongs
    rfl

namespace Program

/-- The role an origin stands for. -/
def roleOf (program : Program) : Origin → Role
  | .declared => .declared
  | .accessor kind owner generated => .accessor kind (program.identityOfMember owner) generated
  | .backingField property => .backingField (program.identityOfMember property)

/-- The row of a type. -/
def typeRow (program : Program) (type : LoadedType) : TypeRow where
  assembly := (program.assembly type.assembly).name
  enclosing := type.enclosing.map fun outer => (program.type outer).key
  key := type.key
  kind := type.kind
  flags := type.flags
  base := type.base
  marks := type.marks

/-- The row of a member. -/
def memberRow (program : Program) (member : LoadedMember) : MemberRow where
  declaringType := (program.type member.declaringType).key
  decl :=
    { kind := member.kind, name := member.name, params := member.params, type := member.type,
      flags := member.flags, body := member.body, marks := member.marks }
  role := program.roleOf member.origin
  accessors := member.accessors.map program.identityOfMember

/-- The rows of the types, in loading order. -/
def typeRows (program : Program) : List TypeRow :=
  program.types.toList.map program.typeRow

/-- The rows of the members, in loading order. -/
def memberRows (program : Program) : List MemberRow :=
  program.members.toList.map program.memberRow

/-! ### Rows that stay -/

/-- Whatever an entry refers to is there. -/
structure Closed (program : Program) : Prop where
  assembly : ∀ id, program.HasType id → program.HasAssembly (program.type id).assembly
  enclosing : ∀ id outer, program.HasType id → (program.type id).enclosing = some outer →
    program.HasType outer
  declaringType : ∀ id, program.HasMember id → program.HasType (program.member id).declaringType
  owner : ∀ id owner, program.HasMember id → (program.member id).origin.BelongsTo owner →
    program.HasMember owner
  accessors : ∀ owner, program.HasMember owner → ∀ id ∈ (program.member owner).accessors,
    program.HasMember id

/-- What is there keeps its name. -/
structure KeepsNames (before after : Program) : Prop where
  assemblies : ∀ id, before.HasAssembly id →
    after.HasAssembly id ∧ (after.assembly id).name = (before.assembly id).name
  types : ∀ id, before.HasType id →
    after.HasType id ∧ (after.type id).key = (before.type id).key
      ∧ (after.type id).assembly = (before.type id).assembly
  members : ∀ id, before.HasMember id →
    after.HasMember id ∧ after.identityOfMember id = before.identityOfMember id

namespace KeepsNames

variable {before between after : Program}

theorem refl (program : Program) : program.KeepsNames program :=
  ⟨fun _ has => ⟨has, rfl⟩, fun _ has => ⟨has, rfl, rfl⟩, fun _ has => ⟨has, rfl⟩⟩

theorem trans (h : before.KeepsNames between) (h' : between.KeepsNames after) :
    before.KeepsNames after where
  assemblies id has :=
    have ⟨has₁, same⟩ := h.assemblies id has
    have ⟨has₂, same'⟩ := h'.assemblies id has₁
    ⟨has₂, same'.trans same⟩
  types id has :=
    have ⟨has₁, key, assembly⟩ := h.types id has
    have ⟨has₂, key', assembly'⟩ := h'.types id has₁
    ⟨has₂, key'.trans key, assembly'.trans assembly⟩
  members id has :=
    have ⟨has₁, same⟩ := h.members id has
    have ⟨has₂, same'⟩ := h'.members id has₁
    ⟨has₂, same'.trans same⟩

theorem roleOf (h : before.KeepsNames after) {origin : Origin}
    (has : ∀ owner, origin.BelongsTo owner → before.HasMember owner) :
    after.roleOf origin = before.roleOf origin := by
  cases origin with
  | declared => rfl
  | accessor kind owner generated =>
      exact congrArg (Role.accessor kind · generated) (h.members owner (has owner rfl)).2
  | backingField property =>
      exact congrArg Role.backingField (h.members property (has property rfl)).2

theorem typeRow (h : before.KeepsNames after) (closed : before.Closed) {id : TypeId}
    (has : before.HasType id) :
    after.typeRow (before.type id) = before.typeRow (before.type id) := by
  unfold Program.typeRow
  rw [(h.assemblies _ (closed.assembly id has)).2]
  cases enclosing : (before.type id).enclosing with
  | none => rfl
  | some outer =>
      rw [Option.map_some, (h.types outer (closed.enclosing id outer has enclosing)).2.1]
      rfl

theorem memberRow (h : before.KeepsNames after) (closed : before.Closed) {id : MemberId}
    (has : before.HasMember id) :
    after.memberRow (before.member id) = before.memberRow (before.member id) := by
  have accessors : (before.member id).accessors.map after.identityOfMember
      = (before.member id).accessors.map before.identityOfMember :=
    List.map_congr_left fun other hmem => (h.members other (closed.accessors id has other hmem)).2
  unfold Program.memberRow
  rw [(h.types _ (closed.declaringType id has)).2.1,
    h.roleOf (closed.owner id · has), accessors]

theorem typeRows (h : before.KeepsNames after) (closed : before.Closed) :
    before.types.toList.map after.typeRow = before.typeRows := by
  refine List.map_congr_left fun type hmem => ?_
  obtain ⟨id, has, rfl⟩ := exists_of_mem_types (Array.mem_toList_iff.mp hmem)
  exact h.typeRow closed has

theorem memberRows (h : before.KeepsNames after) (closed : before.Closed) :
    before.members.toList.map after.memberRow = before.memberRows := by
  refine List.map_congr_left fun member hmem => ?_
  obtain ⟨id, has, rfl⟩ := exists_of_mem_members (Array.mem_toList_iff.mp hmem)
  exact h.memberRow closed has

end KeepsNames

/-- A change of one entry is seen as a change of what is seen of it. -/
theorem map_modify {α β : Type} {read : α → β} {change : α → α} {seen : β → β}
    (same : ∀ entry, read (change entry) = seen (read entry)) (entries : List α) (i : Nat) :
    (entries.modify i change).map read = (entries.map read).modify i seen := by
  refine List.ext_getElem? fun j => ?_
  rw [List.getElem?_map, List.getElem?_modify, List.getElem?_modify, List.getElem?_map]
  cases entries[j]? with
  | none => simp
  | some entry => by_cases h : i = j <;> simp [h, same]

/-- A change that is not seen changes nothing that is seen. -/
theorem map_modify_of_same {α β : Type} {read : α → β} {change : α → α}
    (same : ∀ entry, read (change entry) = read entry) (entries : List α) (i : Nat) :
    (entries.modify i change).map read = entries.map read := by
  rw [map_modify (fun entry => (same entry).trans (id_eq _).symm), List.modify_id]

variable {program : Program}

/-! ### A new member -/

section

variable {type : TypeId} {decl : MemberDecl} {origin : Origin}

theorem keepsNames_withMember : program.KeepsNames (program.withMember type decl origin) where
  assemblies _ has := ⟨has, rfl⟩
  types _ has := ⟨withMember_hasType.mpr has, withMember_read_type (·.key) (fun _ _ => rfl) _,
    withMember_read_type (·.assembly) (fun _ _ => rfl) _⟩
  members _ has := ⟨withMember_hasMember.mpr (.inl has), withMember_identity_old has⟩

theorem Closed.withMember (h : program.Closed) (has : program.HasType type)
    (owned : ∀ owner, origin.BelongsTo owner → program.HasMember owner) :
    (program.withMember type decl origin).Closed where
  assembly id hid := by
    rw [withMember_read_type (·.assembly) (fun _ _ => rfl)]
    exact h.assembly id (withMember_hasType.mp hid)
  enclosing id outer hid houter := by
    rw [withMember_read_type (·.enclosing) (fun _ _ => rfl)] at houter
    exact withMember_hasType.mpr (h.enclosing id outer (withMember_hasType.mp hid) houter)
  declaringType id hid := by
    refine withMember_hasType.mpr ?_
    rcases withMember_hasMember.mp hid with old | rfl
    · rw [withMember_member_old old]
      exact h.declaringType id old
    · rw [withMember_member_new]
      exact has
  owner id owner hid hbelongs := by
    refine withMember_hasMember.mpr (.inl ?_)
    rcases withMember_hasMember.mp hid with old | rfl
    · rw [withMember_member_old old] at hbelongs
      exact h.owner id owner old hbelongs
    · rw [withMember_member_new] at hbelongs
      exact owned owner hbelongs
  accessors owner howner id hid := by
    refine withMember_hasMember.mpr (.inl ?_)
    rcases withMember_hasMember.mp howner with old | rfl
    · rw [withMember_member_old old] at hid
      exact h.accessors owner old id hid
    · rw [withMember_member_new] at hid
      cases hid

theorem Closed.typeRows_withMember (h : program.Closed) :
    (program.withMember type decl origin).typeRows = program.typeRows := by
  unfold typeRows
  show (program.types.modify _ _).toList.map _ = _
  rw [Array.toList_modify]
  refine (map_modify_of_same ?_ _ _).trans (keepsNames_withMember.typeRows h)
  exact fun _ => rfl

theorem Closed.memberRows_withMember (h : program.Closed)
    (owned : ∀ owner, origin.BelongsTo owner → program.HasMember owner) :
    (program.withMember type decl origin).memberRows
      = program.memberRows
        ++ [{ declaringType := (program.type type).key, decl, role := program.roleOf origin }] := by
  have names : program.KeepsNames (program.withMember type decl origin) := keepsNames_withMember
  have key : ((program.withMember type decl origin).type type).key = (program.type type).key :=
    withMember_read_type (·.key) (fun _ _ => rfl) type
  unfold memberRows
  show (program.members.push _).toList.map _ = _
  rw [Array.toList_push, List.map_append, names.memberRows h, ← names.roleOf owned, ← key]
  rfl

end

/-! ### A new type -/

section

variable {assembly : AssemblyId} {key : TypeKey} {around : Option TypeId} {decl : TypeDecl}

theorem withTypeListed_hasAssembly {id : AssemblyId} :
    (program.withTypeListed assembly key around decl).HasAssembly id ↔ program.HasAssembly id := by
  cases around with
  | none =>
      show id.index < (program.assemblies.modify _ _).size ↔ _
      rw [Array.size_modify]
      rfl
  | some outer => exact Iff.rfl

theorem withTypeListed_assemblyName (id : AssemblyId) :
    ((program.withTypeListed assembly key around decl).assembly id).name
      = (program.assembly id).name := by
  cases around with
  | none =>
      refine read_getD_modify program.assemblies (·.name) ?_ _ _
      exact fun _ => rfl
  | some outer => rfl

theorem withTypeListed_members :
    (program.withTypeListed assembly key around decl).members = program.members := by
  cases around <;> rfl

theorem Closed.keepsNames_withTypeListed (h : program.Closed) :
    program.KeepsNames (program.withTypeListed assembly key around decl) where
  assemblies id has := ⟨withTypeListed_hasAssembly.mpr has, withTypeListed_assemblyName id⟩
  types id has := ⟨withTypeListed_hasType.mpr (.inl has),
    withTypeListed_old (·.key) (fun _ _ => rfl) has,
    withTypeListed_old (·.assembly) (fun _ _ => rfl) has⟩
  members id has := by
    have same : (program.withTypeListed assembly key around decl).member id
        = program.member id := by
      unfold member
      rw [withTypeListed_members]
    refine ⟨?_, ?_⟩
    · unfold HasMember
      rw [withTypeListed_members]
      exact has
    · unfold identityOfMember identityOf
      rw [same, withTypeListed_old (·.key) (fun _ _ => rfl) (h.declaringType id has)]

theorem Closed.withTypeListed (h : program.Closed) (has : program.HasAssembly assembly)
    (inside : ∀ outer, around = some outer → program.HasType outer) :
    (program.withTypeListed assembly key around decl).Closed := by
  have old : ∀ id,
      (program.withTypeListed assembly key around decl).member id = program.member id
        ∧ ((program.withTypeListed assembly key around decl).HasMember id
          ↔ program.HasMember id) := by
    intro id
    unfold member HasMember
    rw [withTypeListed_members]
    exact ⟨rfl, Iff.rfl⟩
  have newAssembly : ((program.withTypeListed assembly key around decl).type
      ⟨program.types.size⟩).assembly = assembly := withTypeListed_new.2.1
  have newEnclosing : ((program.withTypeListed assembly key around decl).type
      ⟨program.types.size⟩).enclosing = around := withTypeListed_new.2.2
  refine ⟨?_, ?_, ?_, ?_, ?_⟩
  · intro id hid
    refine withTypeListed_hasAssembly.mpr ?_
    rcases withTypeListed_hasType.mp hid with hold | rfl
    · rw [withTypeListed_old (·.assembly) (fun _ _ => rfl) hold]
      exact h.assembly id hold
    · rw [newAssembly]
      exact has
  · intro id outer hid houter
    refine withTypeListed_hasType.mpr (.inl ?_)
    rcases withTypeListed_hasType.mp hid with hold | rfl
    · rw [withTypeListed_old (·.enclosing) (fun _ _ => rfl) hold] at houter
      exact h.enclosing id outer hold houter
    · exact inside outer (newEnclosing.symm.trans houter)
  · intro id hid
    rw [(old id).1]
    exact withTypeListed_hasType.mpr (.inl (h.declaringType id ((old id).2.mp hid)))
  · intro id owner hid hbelongs
    rw [(old id).1] at hbelongs
    exact (old owner).2.mpr (h.owner id owner ((old id).2.mp hid) hbelongs)
  · intro owner howner id hid
    rw [(old owner).1] at hid
    exact (old id).2.mpr (h.accessors owner ((old owner).2.mp howner) id hid)

theorem Closed.typeRows_withTypeListed (h : program.Closed) (has : program.HasAssembly assembly)
    (inside : ∀ outer, around = some outer → program.HasType outer) :
    (program.withTypeListed assembly key around decl).typeRows
      = program.typeRows ++ [{
          assembly := (program.assembly assembly).name
          enclosing := around.map fun outer => (program.type outer).key
          key := key
          kind := decl.kind
          flags := decl.flags
          base := decl.base
          marks := decl.marks }] := by
  have names : program.KeepsNames (program.withTypeListed assembly key around decl) :=
    h.keepsNames_withTypeListed
  have types : (program.withTypeListed assembly key around decl).types.toList.map
        (program.withTypeListed assembly key around decl).typeRow
      = ((program.withType assembly key around decl).types).toList.map
        (program.withTypeListed assembly key around decl).typeRow := by
    cases around with
    | none => rfl
    | some outer =>
        show ((program.withType assembly key (some outer) decl).types.modify _ _).toList.map _ = _
        rw [Array.toList_modify]
        refine map_modify_of_same ?_ _ _
        exact fun _ => rfl
  have enclosing : (around.map fun outer =>
        ((program.withTypeListed assembly key around decl).type outer).key)
      = around.map fun outer => (program.type outer).key := by
    cases around with
    | none => rfl
    | some outer => exact congrArg some (names.types outer (inside outer rfl)).2.1
  unfold typeRows
  rw [types]
  show (program.types.push _).toList.map _ = _
  rw [Array.toList_push, List.map_append, names.typeRows h, ← (names.assemblies assembly has).2,
    ← enclosing]
  rfl

theorem Closed.memberRows_withTypeListed (h : program.Closed) :
    (program.withTypeListed assembly key around decl).memberRows = program.memberRows := by
  have names : program.KeepsNames (program.withTypeListed assembly key around decl) :=
    h.keepsNames_withTypeListed
  unfold memberRows
  rw [withTypeListed_members]
  exact names.memberRows h

end

/-! ### Accessors that are listed -/

section

variable {owner : MemberId} {ids : List MemberId}

theorem linked_read_member {β : Type} (read : LoadedMember → β)
    (same : ∀ (entry : LoadedMember) accessors,
      read { entry with accessors := accessors } = read entry)
    (id : MemberId) : read ((program.linked owner ids).member id) = read (program.member id) :=
  read_getD_modify program.members read (fun entry => same entry _) _ _

theorem linked_hasMember {id : MemberId} :
    (program.linked owner ids).HasMember id ↔ program.HasMember id := by
  unfold HasMember linked
  rw [Array.size_modify]

theorem linked_identityOfMember (id : MemberId) :
    (program.linked owner ids).identityOfMember id = program.identityOfMember id :=
  linked_read_member program.identityOf (fun _ _ => rfl) id

theorem keepsNames_linked : program.KeepsNames (program.linked owner ids) where
  assemblies _ has := ⟨has, rfl⟩
  types _ has := ⟨has, rfl, rfl⟩
  members id has := ⟨linked_hasMember.mpr has, linked_identityOfMember id⟩

theorem Closed.linked (h : program.Closed) (there : ∀ id ∈ ids, program.HasMember id) :
    (program.linked owner ids).Closed where
  assembly := h.assembly
  enclosing := h.enclosing
  declaringType id hid := by
    rw [linked_read_member (·.declaringType) (fun _ _ => rfl)]
    exact h.declaringType id (linked_hasMember.mp hid)
  owner id owner hid hbelongs := by
    rw [linked_read_member (·.origin) (fun _ _ => rfl)] at hbelongs
    exact linked_hasMember.mpr (h.owner id owner (linked_hasMember.mp hid) hbelongs)
  accessors other hother id hid := by
    refine linked_hasMember.mpr ?_
    have old := h.accessors other (linked_hasMember.mp hother) id
    unfold member Program.linked at hid
    rw [getD_modify] at hid
    split at hid
    · rcases List.mem_append.mp hid with hold | hnew
      · exact old hold
      · exact there id hnew
    · exact old hid

/-- The row of the owner lists the accessors as well. -/
theorem memberRows_linked :
    (program.linked owner ids).memberRows
      = program.memberRows.modify owner.index fun row =>
          { row with accessors := row.accessors ++ ids.map program.identityOfMember } := by
  have identity : (program.linked owner ids).identityOfMember = program.identityOfMember :=
    funext linked_identityOfMember
  have role : (program.linked owner ids).roleOf = program.roleOf := by
    funext origin
    unfold roleOf
    rw [identity]
  have row : (program.linked owner ids).memberRow = program.memberRow := by
    funext member
    unfold memberRow
    rw [identity, role]
    rfl
  unfold memberRows
  rw [row]
  show (program.members.modify _ _).toList.map _ = _
  rw [Array.toList_modify]
  refine map_modify (fun member => ?_) _ _
  unfold memberRow
  rw [List.map_append]

end

/-! ### Programs that go on -/

/-- One program goes on from another with more types and members. -/
structure Continues (before : Program) (types : List TypeRow) (members : List MemberRow)
    (after : Program) : Prop where
  typeRows : after.typeRows = before.typeRows ++ types
  memberRows : after.memberRows = before.memberRows ++ members
  names : before.KeepsNames after
  closed : after.Closed
  /-- The names of the rows are taken as well. -/
  declares : ∀ name, after.declares name = true ↔ before.declares name = true
    ∨ name ∈ types.map (fun row => .type row.key)
    ∨ name ∈ members.map fun row => .member row.identity

namespace Continues

variable {before between after : Program} {types types' : List TypeRow}
  {members members' : List MemberRow}

theorem refl (closed : program.Closed) : program.Continues [] [] program :=
  ⟨(List.append_nil _).symm, (List.append_nil _).symm, .refl program, closed, by simp⟩

theorem trans (h : before.Continues types members between)
    (h' : between.Continues types' members' after) :
    before.Continues (types ++ types') (members ++ members') after where
  typeRows := by rw [h'.typeRows, h.typeRows, List.append_assoc]
  memberRows := by rw [h'.memberRows, h.memberRows, List.append_assoc]
  names := h.names.trans h'.names
  closed := h'.closed
  declares name := by
    rw [h'.declares, h.declares]
    simp only [List.map_append, List.mem_append]
    tauto

end Continues

/-- Assemblies that keep their names may change, and more may come. -/
theorem Closed.continues_assemblies (h : program.Closed) {assemblies : Array Assembly}
    (kept : ∀ id, program.HasAssembly id → id.index < assemblies.size
      ∧ (assemblies.getD id.index default).name = (program.assembly id).name) :
    program.Continues [] [] { program with assemblies := assemblies } := by
  have names : program.KeepsNames { program with assemblies := assemblies } :=
    ⟨kept, fun _ has => ⟨has, rfl, rfl⟩, fun _ has => ⟨has, rfl⟩⟩
  have same : ∀ name, ({ program with assemblies := assemblies } : Program).declares name
      = program.declares name := fun name => by cases name <;> rfl
  refine ⟨?_, ?_, names, ?_, fun name => by simp [same]⟩
  · exact (names.typeRows h).trans (List.append_nil _).symm
  · exact (names.memberRows h).trans (List.append_nil _).symm
  · exact ⟨fun id has => (kept _ (h.assembly id has)).1, h.enclosing, h.declaringType, h.owner,
      h.accessors⟩

theorem Closed.continues_withMember (h : program.Closed) {type : TypeId} (decl : MemberDecl)
    (origin : Origin) (has : program.HasType type)
    (owned : ∀ owner, origin.BelongsTo owner → program.HasMember owner) :
    program.Continues []
      [{ declaringType := (program.type type).key, decl, role := program.roleOf origin }]
      (program.withMember type decl origin) where
  typeRows := h.typeRows_withMember.trans (List.append_nil _).symm
  memberRows := h.memberRows_withMember owned
  names := keepsNames_withMember
  closed := h.withMember has owned
  declares name := by
    rw [← withEntry, declares_withEntry]
    simp [nameOf, MemberRow.identity]

theorem Closed.continues_withTypeListed (h : program.Closed) {assembly : AssemblyId}
    {key : TypeKey} {around : Option TypeId} {decl : TypeDecl} (has : program.HasAssembly assembly)
    (inside : ∀ outer, around = some outer → program.HasType outer) :
    program.Continues
      [{
        assembly := (program.assembly assembly).name
        enclosing := around.map fun outer => (program.type outer).key
        key := key
        kind := decl.kind
        flags := decl.flags
        base := decl.base
        marks := decl.marks }]
      [] (program.withTypeListed assembly key around decl) where
  typeRows := h.typeRows_withTypeListed has inside
  memberRows := h.memberRows_withTypeListed.trans (List.append_nil _).symm
  names := h.keepsNames_withTypeListed
  closed := h.withTypeListed has inside
  declares name := by
    rw [← withEntry, declares_withEntry]
    simp [nameOf]

/-- Members that belong to members that are there go on from a program. -/
theorem Closed.continues_parts {type : TypeId} {parts : List (MemberDecl × Origin)}
    (h : program.Closed) (has : program.HasType type)
    (owned : ∀ part ∈ parts, ∀ owner, part.2.BelongsTo owner → program.HasMember owner) :
    program.Continues []
      (parts.map fun part =>
        { declaringType := (program.type type).key, decl := part.1,
          role := program.roleOf part.2 })
      (program.withEntries (parts.map fun part => .member type part.1 part.2)) := by
  induction parts generalizing program with
  | nil => exact .refl h
  | cons part rest ih =>
      have first := h.continues_withMember part.1 part.2 has (owned part List.mem_cons_self)
      have later : ∀ other ∈ rest, ∀ owner, other.2.BelongsTo owner → program.HasMember owner :=
        fun other hmem => owned other (List.mem_cons_of_mem _ hmem)
      have others := ih first.closed (first.names.types type has).1
        fun other hmem owner belongs =>
          (first.names.members owner (later other hmem owner belongs)).1
      rw [(first.names.types type has).2.1, List.map_congr_left fun other hmem =>
        congrArg (MemberRow.mk _ _ · _) (first.names.roleOf (later other hmem))] at others
      exact first.trans others

/-! ### Families -/

theorem hasMember_iff_lt_length {id : MemberId} :
    program.HasMember id ↔ id.index < program.memberRows.length := by
  unfold HasMember memberRows
  rw [List.length_map, Array.length_toList]

theorem identityOfMember_of_row {row : MemberRow} {i : Nat}
    (h : program.memberRows[i]? = some row) : program.identityOfMember ⟨i⟩ = row.identity := by
  have has : program.HasMember ⟨i⟩ :=
    hasMember_iff_lt_length.mpr (List.getElem?_eq_some_iff.mp h).1
  unfold memberRows at h
  rw [List.getElem?_map, Array.getElem?_toList, members_getElem? has] at h
  cases h
  rfl

/-- Members that follow each other are called as their rows say. -/
theorem map_identityOfMember_row {before rows after : List MemberRow}
    (split : program.memberRows = before ++ (rows ++ after)) :
    (MemberId.row before.length rows.length).map program.identityOfMember
      = rows.map (·.identity) := by
  unfold MemberId.row
  refine List.ext_getElem (by simp) fun i _ hi => ?_
  rw [List.length_map] at hi
  have row : program.memberRows[before.length + i]? = some rows[i] := by
    rw [split, List.getElem?_append_right (Nat.le_add_right _ _), Nat.add_sub_cancel_left,
      List.getElem?_append_left hi, List.getElem?_eq_getElem hi]
  simp only [List.getElem_map, List.getElem_range', Nat.one_mul]
  exact identityOfMember_of_row row

/-- The entries of a family go on from a program; the head has nothing listed yet. -/
theorem Closed.continues_entries (h : program.Closed) {type : TypeId} (has : program.HasType type)
    (family : Family) :
    program.Continues []
      (family.headRow (program.type type).key
        :: (family.methodRows (program.type type).key ++ family.fieldRows (program.type type).key))
      (program.withEntries (family.entries type ⟨program.members.size⟩)) := by
  let owner : MemberId := ⟨program.members.size⟩
  let grown := program.withMember type family.head .declared
  have first : program.Continues [] [family.headRow (program.type type).key] grown :=
    h.continues_withMember family.head .declared has nofun
  have owned : ∀ part ∈ family.belongings owner, ∀ other, part.2.BelongsTo other →
      grown.HasMember other := by
    intro part mem other belongs
    exact withMember_hasMember.mpr (.inr (Family.eq_of_mem_belongings mem belongs))
  have identity : grown.identityOfMember owner
      = (family.headRow (program.type type).key).identity := withMember_identity_new
  have parts := first.closed.continues_parts (first.names.types type has).1 owned
  rw [(first.names.types type has).2.1] at parts
  have rows : ((family.belongings owner).map fun part =>
        ({ declaringType := (program.type type).key, decl := part.1,
           role := grown.roleOf part.2 } : MemberRow))
      = family.methodRows (program.type type).key ++ family.fieldRows (program.type type).key := by
    simp only [Family.belongings, List.map_append, List.map_map, Function.comp_def, roleOf,
      identity, Family.methodRows, Family.fieldRows]
  rw [rows] at parts
  exact first.trans parts

/-- A family goes on from a program. -/
theorem Closed.continues_family (h : program.Closed) {type : TypeId} (has : program.HasType type)
    (family : Family) :
    program.Continues [] (family.rows (program.type type).key)
      (family.finish ⟨program.members.size⟩
        (program.withEntries (family.entries type ⟨program.members.size⟩))) := by
  let key := (program.type type).key
  let made := program.withEntries (family.entries type ⟨program.members.size⟩)
  have whole : program.Continues []
      (family.headRow key :: (family.methodRows key ++ family.fieldRows key)) made :=
    h.continues_entries has family
  have length : program.memberRows.length = program.members.size := by
    unfold memberRows
    rw [List.length_map, Array.length_toList]
  have methods : (family.methodRows key).length = family.methods.length := List.length_map _
  have split : made.memberRows
      = (program.memberRows ++ [family.headRow key])
        ++ (family.methodRows key ++ family.fieldRows key) := by
    rw [whole.memberRows, List.append_assoc]
    rfl
  have accessors : (MemberId.row (program.members.size + 1) family.methods.length).map
        made.identityOfMember
      = (family.methodRows key).map (·.identity) := by
    have row := map_identityOfMember_row split
    rw [List.length_append, length, methods] at row
    exact row
  refine ⟨whole.typeRows, ?_, whole.names.trans keepsNames_linked, whole.closed.linked ?_,
    fun name => ?_⟩
  · rw [Family.finish, memberRows_linked, accessors, whole.memberRows, ← length]
    exact List.modifyTailIdx_add (List.modifyHead _) 0 program.memberRows _
  · intro id hid
    obtain ⟨i, hi, rfl⟩ := List.mem_map.mp hid
    obtain ⟨-, hlt⟩ := List.mem_range'_1.mp hi
    refine hasMember_iff_lt_length.mpr ?_
    rw [split, List.length_append, List.length_append, List.length_append, length, methods]
    exact Nat.lt_of_lt_of_le hlt (Nat.add_le_add_left (Nat.le_add_right _ _) _)
  · refine Iff.trans (Eq.to_iff ?_) (whole.declares name)
    cases name <;> rfl

end Program

/-- The members of a family take the identities of its rows. -/
theorem Family.map_nameOf_entries (family : Family) (program : Program) (type : TypeId)
    (owner : MemberId) :
    (family.entries type owner).map program.nameOf
      = (family.rows (program.type type).key).map fun row => .member row.identity := by
  simp [entries, rows, headRow, methodRows, fieldRows, belongings, Program.nameOf,
    MemberRow.identity, Function.comp_def]

end MemberResolution
