/-
How a built program is laid out.

Positions, names and lists of a program tell one story.  Every entry knows its position
and the memos find it by its name and nothing else; every member is listed once, by the type
that declares it; every type is listed once, by its assembly or by the type around it;
accessors go with their property or event; the memo of bases holds what is found by the keys
of bases.  `Coherent` says all of this, and every history of additions leads to a coherent
program, whether its additions fail or not.

`WellFormed` has what is told of a single entry and of the memos.  What is new here is that
the lists of assemblies and of enclosing types hold every type exactly once.  Only the addition
of a type touches these lists, and it touches the list together with the types; every other
step keeps the outline of the program, also where it fails.
-/
import MemberResolution.Proofs.Buildable
import MemberResolution.Proofs.Registration

namespace MemberResolution

/-! ### The outline of a program -/

/-- A type without its marks and members: what it is called and where it stands. -/
def LoadedType.outline (type : LoadedType) : LoadedType :=
  { type with marks := [], members := [] }

namespace Program

/-- Two programs have the same types at the same places.  An assembly may be added. -/
structure SameOutline (before after : Program) : Prop where
  typeCount : after.types.size = before.types.size
  types : ∀ id, (after.type id).outline = (before.type id).outline
  listed : ∀ id, (after.assembly id).types = (before.assembly id).types
  assemblyIds : ∀ id, after.HasAssembly id → (after.assembly id).id = id
    ∨ before.HasAssembly id ∧ (after.assembly id).id = (before.assembly id).id

namespace SameOutline

theorem refl (program : Program) : SameOutline program program :=
  ⟨rfl, fun _ => rfl, fun _ => rfl, fun _ has => .inr ⟨has, rfl⟩⟩

theorem trans {first second third : Program} (h : SameOutline first second)
    (h' : SameOutline second third) : SameOutline first third := by
  refine ⟨h'.typeCount.trans h.typeCount, fun id => (h'.types id).trans (h.types id),
    fun id => (h'.listed id).trans (h.listed id), fun id has => ?_⟩
  rcases h'.assemblyIds id has with own | ⟨hasSecond, same⟩
  · exact .inl own
  · rcases h.assemblyIds id hasSecond with own | ⟨hasFirst, same'⟩
    · exact .inl (same.trans own)
    · exact .inr ⟨hasFirst, same.trans same'⟩

theorem hasType {before after : Program} (h : SameOutline before after) {id : TypeId} :
    after.HasType id ↔ before.HasType id := by
  unfold HasType
  rw [h.typeCount]

/-- A change of the members and of one type that keeps what the type is called and where
it stands. -/
theorem modifyType (program : Program) (members : Array LoadedMember)
    (memberByIdentity : Memo Identity MemberId) (i : Nat)
    {change : LoadedType → LoadedType} (keeps : ∀ type, (change type).outline = type.outline) :
    SameOutline program
      { program with
        members := members
        memberByIdentity := memberByIdentity
        types := program.types.modify i change } :=
  ⟨Array.size_modify, fun id => read_getD_modify program.types LoadedType.outline keeps i id.index,
    fun _ => rfl, fun _ has => .inr ⟨has, rfl⟩⟩

theorem withMembers (program : Program) (members : Array LoadedMember) :
    SameOutline program { program with members := members } :=
  ⟨rfl, fun _ => rfl, fun _ => rfl, fun _ has => .inr ⟨has, rfl⟩⟩

end SameOutline

end Program

namespace Build

/-! ### Changes that keep something -/

/-- A change keeps what holds of a program, whether it fails or not, and what it hands back
is of a sort. -/
def Keeps {α : Type} (holds : Program → Prop) (change : Build α) (sort : α → Prop) : Prop :=
  ∀ program, holds program →
    holds (change.on program).2 ∧ ∀ result, (change.on program).1 = .ok result → sort result

namespace Keeps

variable {α β : Type} {holds : Program → Prop}

theorem pure {sort : α → Prop} {result : α} (fits : sort result) :
    Keeps holds (pure result) sort := by
  intro program h
  refine ⟨h, ?_⟩
  rintro other ⟨⟩
  exact fits

theorem bind {first : Build α} {between : α → Prop} {next : α → Build β} {sort : β → Prop}
    (hfirst : Keeps holds first between)
    (hnext : ∀ result, between result → Keeps holds (next result) sort) :
    Keeps holds (first >>= next) sort := by
  intro program h
  obtain ⟨kept, fits⟩ := hfirst program h
  rw [on_bind]
  cases hon : first.on program with
  | mk outcome middle =>
      rw [hon] at kept fits
      cases outcome with
      | error error => exact ⟨kept, fun result hresult => by cases hresult⟩
      | ok result => exact hnext result (fits result rfl) middle kept

theorem anything {change : Build α} {sort : α → Prop} (h : Keeps holds change sort) :
    Keeps holds change fun _ => True :=
  fun program kept => ⟨(h program kept).1, fun _ _ => trivial⟩

theorem map {change : Build α} {sort : α → Prop} (h : Keeps holds change sort) (make : α → β) :
    Keeps holds (make <$> change) fun _ => True := by
  rw [map_eq_pure_bind]
  exact h.bind fun _ _ => .pure trivial

end Keeps

/-! ### Properties and events

A property or event is added first, and then what belongs to it, one after the other.  What
is kept when each of these is added, and when accessors are linked, is kept when a property
or event is added, also if it gets stuck half-way.
-/

end Build

/-- A member with the origin belongs to a property or event. -/
def Origin.BelongsTo (property : MemberId) : Origin → Prop
  | .declared => False
  | .accessor _ owner _ => owner = property
  | .backingField owner => owner = property

namespace Build

/-- Adds the accessors and the field of a property. -/
def propertyParts (type : TypeId) (decl : PropertyDecl) (property : MemberId) :
    Build PropertyIds := do
  let getter ← decl.getter.mapM fun accessor =>
    insertMember type (decl.getMethod accessor) (.accessor .get property decl.automatic)
  let setter ← decl.setter.mapM fun accessor =>
    insertMember type (decl.setMethod accessor) (.accessor .set property decl.automatic)
  let backingField ←
    if decl.automatic then some <$> insertMember type decl.backingField (.backingField property)
    else pure none
  linkAccessors property (getter.toList ++ setter.toList)
  return ⟨property, getter, setter, backingField⟩

/-- Adds the accessors of an event. -/
def eventParts (type : TypeId) (decl : EventDecl) (event : MemberId) : Build EventIds := do
  let add ← insertMember type (decl.accessMethod .add decl.add)
    (.accessor .add event decl.automatic)
  let remove ← insertMember type (decl.accessMethod .remove decl.remove)
    (.accessor .remove event decl.automatic)
  linkAccessors event [add, remove]
  return ⟨event, add, remove⟩

theorem addProperty_eq (type : TypeId) (decl : PropertyDecl) :
    addProperty type decl = insertMember type decl.head .declared >>= propertyParts type decl :=
  rfl

theorem addEvent_eq (type : TypeId) (decl : EventDecl) :
    addEvent type decl = insertMember type decl.head .declared >>= eventParts type decl :=
  rfl

section

variable {holds : Program → Prop} {type : TypeId} {owner : MemberId}

theorem keeps_propertyParts
    (insert : ∀ decl origin, origin.BelongsTo owner →
      Keeps holds (insertMember type decl origin) fun _ => True)
    (link : ∀ accessors, Keeps holds (linkAccessors owner accessors) fun _ => True)
    (decl : PropertyDecl) : Keeps holds (propertyParts type decl owner) fun _ => True := by
  have accessor? : ∀ (make : AccessorDecl → MemberDecl) (origin : Origin) (decl? : Option _),
      origin.BelongsTo owner →
      Keeps holds (decl?.mapM fun decl => insertMember type (make decl) origin) fun _ => True := by
    intro make origin decl? belongs
    cases decl? with
    | none => exact .pure trivial
    | some decl => exact (insert (make decl) origin belongs).map some
  unfold propertyParts
  refine (accessor? decl.getMethod (.accessor .get owner decl.automatic) decl.getter rfl).bind
    fun getter _ => ?_
  refine (accessor? decl.setMethod (.accessor .set owner decl.automatic) decl.setter rfl).bind
    fun setter _ => ?_
  have hlink : ∀ field, Keeps holds (do
      linkAccessors owner (getter.toList ++ setter.toList)
      return (⟨owner, getter, setter, field⟩ : PropertyIds)) fun _ => True :=
    fun _ => (link _).bind fun _ _ => .pure trivial
  by_cases hautomatic : decl.automatic = true
  · simp only [hautomatic, if_true]
    exact ((insert decl.backingField (.backingField owner) rfl).map some).bind
      fun field _ => hlink field
  · simp only [hautomatic]
    exact hlink none

theorem keeps_eventParts
    (insert : ∀ decl origin, origin.BelongsTo owner →
      Keeps holds (insertMember type decl origin) fun _ => True)
    (link : ∀ accessors, Keeps holds (linkAccessors owner accessors) fun _ => True)
    (decl : EventDecl) : Keeps holds (eventParts type decl owner) fun _ => True := by
  unfold eventParts
  refine (insert _ (.accessor .add owner decl.automatic) rfl).bind fun add _ => ?_
  refine (insert _ (.accessor .remove owner decl.automatic) rfl).bind fun remove _ => ?_
  exact (link [add, remove]).bind fun _ _ => .pure trivial

variable {fresh : MemberId → Prop}

theorem keeps_addProperty
    (insert : ∀ decl origin, Keeps holds (insertMember type decl origin) fresh)
    (link : ∀ owner accessors, fresh owner →
      Keeps holds (linkAccessors owner accessors) fun _ => True) (decl : PropertyDecl) :
    Keeps holds (addProperty type decl) fun _ => True := by
  rw [addProperty_eq]
  refine (insert decl.head .declared).bind fun property added => ?_
  exact keeps_propertyParts (fun decl origin _ => (insert decl origin).anything)
    (fun accessors => link property accessors added) decl

theorem keeps_addEvent
    (insert : ∀ decl origin, Keeps holds (insertMember type decl origin) fresh)
    (link : ∀ owner accessors, fresh owner →
      Keeps holds (linkAccessors owner accessors) fun _ => True) (decl : EventDecl) :
    Keeps holds (addEvent type decl) fun _ => True := by
  rw [addEvent_eq]
  refine (insert decl.head .declared).bind fun event added => ?_
  exact keeps_eventParts (fun decl origin _ => (insert decl origin).anything)
    (fun accessors => link event accessors added) decl

end

/-! ### Changes that keep the outline -/

/-- A change that has one outline at its end and at its beginning keeps the outline. -/
theorem keeps_sameOutline {α : Type} {change : Build α}
    (same : ∀ program, Program.SameOutline program (change.on program).2) (before : Program) :
    Keeps (Program.SameOutline before) change fun _ => True :=
  fun program kept => ⟨kept.trans (same program), fun _ _ => trivial⟩

theorem sameOutline_insertMember (type : TypeId) (decl : MemberDecl) (origin : Origin)
    (program : Program) :
    Program.SameOutline program ((insertMember type decl origin).on program).2 := by
  rw [insertMember_on]
  split
  · exact .refl program
  · exact .modifyType program _ _ _ fun _ => rfl

theorem sameOutline_linkAccessors (owner : MemberId) (accessors : List MemberId)
    (program : Program) :
    Program.SameOutline program ((linkAccessors owner accessors).on program).2 :=
  .withMembers program _

theorem sameOutline_addAssembly (name : String) (program : Program) :
    Program.SameOutline program ((addAssembly name).on program).2 := by
  have hread : ∀ id, ((addAssembly name).on program).2.assembly id
      = if id.index = program.assemblies.size then
          { id := ⟨program.assemblies.size⟩, name := name }
        else program.assembly id :=
    fun id => Program.getD_push program.assemblies _ id.index
  have hsize : ((addAssembly name).on program).2.assemblies.size
      = program.assemblies.size + 1 := Array.size_push _
  refine ⟨rfl, fun _ => rfl, fun id => ?_, fun id has => ?_⟩
  · rw [hread]
    by_cases hnew : id.index = program.assemblies.size
    -- Beyond the last assembly an empty one is read, and it lists nothing either.
    · rw [if_pos hnew, Program.assembly, Array.getD_eq_getD_getElem?,
        Array.getElem?_eq_none (Nat.le_of_eq hnew.symm)]
      rfl
    · rw [if_neg hnew]
  · rw [hread]
    by_cases hnew : id.index = program.assemblies.size
    · rw [if_pos hnew, ← hnew]
      exact .inl rfl
    · rw [if_neg hnew]
      refine .inr ⟨?_, rfl⟩
      unfold Program.HasAssembly at *
      omega

theorem sameOutline_markAssembly (id : AssemblyId) (mark : Mark) (program : Program) :
    Program.SameOutline program ((markAssembly id mark).on program).2 := by
  have hread : ∀ {β : Type} (read : Assembly → β)
      (_ : ∀ assembly marks, read { assembly with marks := marks } = read assembly) other,
      read (((markAssembly id mark).on program).2.assembly other)
        = read (program.assembly other) :=
    fun read same other => Program.read_getD_modify _ read (fun _ => same _ _) _ _
  have hsize : ((markAssembly id mark).on program).2.assemblies.size = program.assemblies.size :=
    Array.size_modify
  refine ⟨rfl, fun _ => rfl, hread (·.types) fun _ _ => rfl, fun other has => .inr ⟨?_, ?_⟩⟩
  · unfold Program.HasAssembly at *
    omega
  · exact hread (·.id) (fun _ _ => rfl) other

theorem sameOutline_markType (id : TypeId) (mark : Mark) (program : Program) :
    Program.SameOutline program ((markType id mark).on program).2 :=
  .modifyType program program.members program.memberByIdentity _ fun _ => rfl

theorem sameOutline_markMember (id : MemberId) (mark : Mark) (program : Program) :
    Program.SameOutline program ((markMember id mark).on program).2 :=
  .withMembers program _

end Build

/-! ### Lists of types -/

namespace Program

/-- Every type is listed once, by its assembly or by the type around it, and a type inside
another is of the same assembly and named after it. -/
structure Filed (program : Program) : Prop where
  assemblyId : ∀ id, program.HasAssembly id → (program.assembly id).id = id
  topLevel : ∀ assembly id, (program.assembly assembly).types.count id
    = if program.HasType id ∧ (program.type id).enclosing = none
        ∧ (program.type id).assembly = assembly then 1 else 0
  nested : ∀ outer id, (program.type outer).nested.count id
    = if program.HasType id ∧ (program.type id).enclosing = some outer then 1 else 0
  inside : ∀ id outer, program.HasType id → (program.type id).enclosing = some outer →
    (program.type id).assembly = (program.type outer).assembly
      ∧ ∃ name, (program.type id).key = (program.type outer).key.nested name

/-- The lists of types are part of the outline. -/
theorem Filed.of_sameOutline {before after : Program} (h : before.Filed)
    (same : SameOutline before after) : after.Filed := by
  have read : ∀ id, (after.type id).key = (before.type id).key
      ∧ (after.type id).assembly = (before.type id).assembly
      ∧ (after.type id).enclosing = (before.type id).enclosing
      ∧ (after.type id).nested = (before.type id).nested := by
    intro id
    have outline := same.types id
    simp only [LoadedType.outline, LoadedType.mk.injEq] at outline
    obtain ⟨-, key, -, -, assembly, -, enclosing, -, nested, -⟩ := outline
    exact ⟨key, assembly, enclosing, nested⟩
  refine ⟨fun id has => ?_, fun assembly id => ?_, fun outer id => ?_, fun id outer has => ?_⟩
  · rcases same.assemblyIds id has with own | ⟨hasBefore, kept⟩
    · exact own
    · exact kept.trans (h.assemblyId id hasBefore)
  · obtain ⟨-, inAssembly, enclosing, -⟩ := read id
    simp only [same.listed, h.topLevel, same.hasType, inAssembly, enclosing]
  · simp only [(read outer).2.2.2, h.nested, same.hasType, (read id).2.2.1]
  · obtain ⟨key, assembly, enclosing, -⟩ := read id
    rw [same.hasType] at has
    rw [key, assembly, enclosing, (read outer).1, (read outer).2.1]
    exact h.inside id outer has

/-! ### A new type and the list it goes to -/

/-- The program with one more type, which its assembly or the type around it lists. -/
def withTypeListed (program : Program) (assembly : AssemblyId) (key : TypeKey)
    (around : Option TypeId) (decl : TypeDecl) : Program :=
  let grown := program.withType assembly key around decl
  match around with
  | none =>
    { grown with
      assemblies := grown.assemblies.modify assembly.index fun assembly =>
        { assembly with types := assembly.types ++ [⟨program.types.size⟩] } }
  | some outer =>
    { grown with
      types := grown.types.modify outer.index fun outer =>
        { outer with nested := outer.nested ++ [⟨program.types.size⟩] } }

section

variable {program : Program} {assembly : AssemblyId} {key : TypeKey} {around : Option TypeId}
  {decl : TypeDecl}

theorem withTypeListed_hasType {id : TypeId} :
    (program.withTypeListed assembly key around decl).HasType id
      ↔ program.HasType id ∨ id = ⟨program.types.size⟩ := by
  have size : (program.withTypeListed assembly key around decl).types.size
      = program.types.size + 1 := by
    unfold withTypeListed
    cases around with
    | none => exact Array.size_push _
    | some outer => exact Array.size_modify.trans (Array.size_push _)
  obtain ⟨i⟩ := id
  unfold HasType
  rw [size, TypeId.mk.injEq]
  show i < program.types.size + 1 ↔ i < program.types.size ∨ i = program.types.size
  omega

theorem withTypeListed_read_type {β : Type} (read : LoadedType → β)
    (same : ∀ (entry : LoadedType) nested, read { entry with nested := nested } = read entry)
    (id : TypeId) :
    read ((program.withTypeListed assembly key around decl).type id)
      = read ((program.withType assembly key around decl).type id) := by
  unfold withTypeListed
  cases around with
  | none => rfl
  | some outer => exact read_getD_modify _ read (fun entry => same entry _) _ _

/-- Only the assembly lists a type that stands by itself. -/
theorem withTypeListed_types (has : program.HasAssembly assembly) (id : AssemblyId) :
    ((program.withTypeListed assembly key around decl).assembly id).types
      = (program.assembly id).types
        ++ if around = none ∧ id = assembly then [⟨program.types.size⟩] else [] := by
  cases around with
  | some outer => simp [withTypeListed, Program.assembly, withType]
  | none =>
      unfold HasAssembly at has
      unfold withTypeListed Program.assembly
      simp only [getD_modify, withType]
      by_cases h : id = assembly
      · subst h
        simp [has]
      · have hindex : assembly.index ≠ id.index :=
          fun hc => h (by cases assembly; cases id; simpa using hc.symm)
        simp [h, hindex]

/-- Only the type around it lists a type that stands inside another. -/
theorem withTypeListed_nested (inside : ∀ outer, around = some outer → program.HasType outer)
    (id : TypeId) :
    ((program.withTypeListed assembly key around decl).type id).nested
      = (program.type id).nested
        ++ if around = some id then [⟨program.types.size⟩] else [] := by
  have grown : ((program.withType assembly key around decl).type id).nested
      = (program.type id).nested := by
    unfold Program.type withType
    rw [getD_push]
    by_cases hnew : id.index = program.types.size
    -- Beyond the last type an empty one is read, and it lists nothing either.
    · rw [if_pos hnew, Array.getD_eq_getD_getElem?,
        Array.getElem?_eq_none (Nat.le_of_eq hnew.symm)]
      rfl
    · rw [if_neg hnew]
  cases around with
  | none =>
      simp only [reduceCtorEq, if_false, List.append_nil]
      exact grown
  | some outer =>
      have has : outer.index < program.types.size + 1 :=
        Nat.lt_succ_of_lt (inside outer rfl)
      rw [← grown]
      unfold withTypeListed Program.type
      simp only [getD_modify, Option.some.injEq]
      by_cases h : outer = id
      · subst h
        simp [has, withType]
      · have hindex : outer.index ≠ id.index :=
          fun hc => h (by cases outer; cases id; simpa using hc)
        simp [h, hindex]

theorem withTypeListed_old {β : Type} (read : LoadedType → β)
    (same : ∀ (entry : LoadedType) nested, read { entry with nested := nested } = read entry)
    {id : TypeId} (has : program.HasType id) :
    read ((program.withTypeListed assembly key around decl).type id) = read (program.type id) := by
  rw [withTypeListed_read_type read same, withType_type_old has]

theorem withTypeListed_new :
    ((program.withTypeListed assembly key around decl).type ⟨program.types.size⟩).key = key
      ∧ ((program.withTypeListed assembly key around decl).type
          ⟨program.types.size⟩).assembly = assembly
      ∧ ((program.withTypeListed assembly key around decl).type
          ⟨program.types.size⟩).enclosing = around := by
  rw [withTypeListed_read_type (·.key) fun _ _ => rfl,
    withTypeListed_read_type (·.assembly) fun _ _ => rfl,
    withTypeListed_read_type (·.enclosing) fun _ _ => rfl, withType_type_new]
  exact ⟨rfl, rfl, rfl⟩

/-- The types of some sort are the old ones and perhaps the new one. -/
theorem withTypeListed_sort_iff (sort : LoadedType → Prop)
    (same : ∀ (entry : LoadedType) nested, sort { entry with nested := nested } = sort entry)
    {id : TypeId} :
    (program.withTypeListed assembly key around decl).HasType id
        ∧ sort ((program.withTypeListed assembly key around decl).type id)
      ↔ program.HasType id ∧ sort (program.type id)
        ∨ id = ⟨program.types.size⟩
          ∧ sort ((program.withType assembly key around decl).type ⟨program.types.size⟩) := by
  have fresh : ¬program.HasType ⟨program.types.size⟩ := Nat.lt_irrefl _
  by_cases hid : id = ⟨program.types.size⟩
  · subst hid
    simp [fresh, withTypeListed_hasType, withTypeListed_read_type sort same]
  · simp only [withTypeListed_hasType, hid, or_false, false_and]
    refine and_congr_right fun has => ?_
    rw [withTypeListed_old sort same has]

theorem withTypeListed_assemblyId (h : program.Filed) (id : AssemblyId)
    (has : (program.withTypeListed assembly key around decl).HasAssembly id) :
    ((program.withTypeListed assembly key around decl).assembly id).id = id := by
  cases around with
  | some outer => exact h.assemblyId id has
  | none =>
      have hasBefore : program.HasAssembly id := by
        have size : (program.withTypeListed assembly key none decl).assemblies.size
            = program.assemblies.size := Array.size_modify
        unfold HasAssembly at *
        omega
      have same : ((program.withTypeListed assembly key none decl).assembly id).id
          = (program.assembly id).id := by
        refine read_getD_modify program.assemblies (·.id) ?_ _ _
        exact fun _ => rfl
      exact same.trans (h.assemblyId id hasBefore)

/-- A list that holds an entry as often as it should still does with a new entry. -/
theorem count_append_entry {types : List TypeId} {id new : TypeId} {listed added now : Prop}
    [Decidable listed] [Decidable added] [Decidable now]
    (h : types.count id = if listed then 1 else 0) (fresh : listed → id ≠ new)
    (same : now ↔ listed ∨ id = new ∧ added) :
    (types ++ if added then [new] else []).count id = if now then 1 else 0 := by
  rw [List.count_append, h]
  by_cases hid : id = new
  · subst hid
    have unlisted : ¬listed := fun hlisted => fresh hlisted rfl
    by_cases hadded : added <;> simp [unlisted, hadded, same]
  · have absent : (if added then [new] else []).count id = 0 := by
      split <;> simp [Ne.symm hid]
    simp [absent, hid, same]

/-- A new type and the entry for it keep every type listed once. -/
theorem Filed.withTypeListed (h : program.Filed) (wellFormed : program.WellFormed)
    (has : program.HasAssembly assembly)
    (inside : ∀ outer, around = some outer → program.HasType outer
      ∧ (program.type outer).assembly = assembly
      ∧ ∃ name, key = (program.type outer).key.nested name) :
    (program.withTypeListed assembly key around decl).Filed := by
  have fresh : ∀ {id}, program.HasType id → id ≠ ⟨program.types.size⟩ := by
    rintro id hasId rfl
    exact Nat.lt_irrefl _ hasId
  refine ⟨withTypeListed_assemblyId h, fun other id => ?_, fun outer id => ?_,
    fun id outer hasId henclosing => ?_⟩
  · rw [withTypeListed_types has]
    refine count_append_entry (h.topLevel other id) (fun hlisted => fresh hlisted.1) ?_
    refine (withTypeListed_sort_iff (fun type => type.enclosing = none ∧ type.assembly = other)
      fun _ _ => rfl).trans ?_
    rw [withType_type_new, eq_comm (a := other)]
  · rw [withTypeListed_nested fun outer hc => (inside outer hc).1]
    refine count_append_entry (h.nested outer id) (fun hlisted => fresh hlisted.1) ?_
    refine (withTypeListed_sort_iff (fun type => type.enclosing = some outer)
      fun _ _ => rfl).trans ?_
    rw [withType_type_new]
  · rcases withTypeListed_hasType.mp hasId with hold | rfl
    · rw [withTypeListed_old (·.enclosing) (fun _ _ => rfl) hold] at henclosing
      have hasOuter : program.HasType outer :=
        Nat.lt_trans (wellFormed.enclosing id outer hold henclosing) hold
      rw [withTypeListed_old (·.assembly) (fun _ _ => rfl) hold,
        withTypeListed_old (·.assembly) (fun _ _ => rfl) hasOuter,
        withTypeListed_old (·.key) (fun _ _ => rfl) hold,
        withTypeListed_old (·.key) (fun _ _ => rfl) hasOuter]
      exact h.inside id outer hold henclosing
    · obtain ⟨newKey, newAssembly, newEnclosing⟩ :=
        @withTypeListed_new program assembly key around decl
      obtain ⟨hasOuter, inAssembly, named⟩ := inside outer (newEnclosing.symm.trans henclosing)
      rw [newKey, newAssembly, withTypeListed_old (·.assembly) (fun _ _ => rfl) hasOuter,
        withTypeListed_old (·.key) (fun _ _ => rfl) hasOuter]
      exact ⟨inAssembly.symm, named⟩

end

theorem filed_empty : ({} : Program).Filed := by
  have noType : ∀ id, ¬({} : Program).HasType id := fun id h => Nat.not_lt_zero _ h
  refine ⟨fun id h => absurd h (Nat.not_lt_zero _), fun assembly id => ?_, fun outer id => ?_,
    fun id _ h => absurd h (noType id)⟩
  · rw [if_neg fun hc => noType id hc.1]
    rfl
  · rw [if_neg fun hc => noType id hc.1]
    rfl

end Program

namespace Build

theorem map_on {α β : Type} (change : Build α) (make : α → β) (program : Program) :
    ((make <$> change).on program).2 = (change.on program).2 := by
  rw [map_eq_pure_bind, on_bind]
  cases change.on program with
  | mk outcome between => cases outcome <;> rfl

theorem addType_on (assembly : AssemblyId) (decl : TypeDecl) (program : Program) :
    ((addType assembly decl).on program).2
      = if (program.findType? ⟨decl.name⟩).isSome then program
        else program.withTypeListed assembly ⟨decl.name⟩ none decl := by
  unfold addType
  rw [on_bind, insertType_on]
  by_cases taken : (program.findType? ⟨decl.name⟩).isSome = true
  · rw [if_pos taken, if_pos taken]
  · rw [if_neg taken, if_neg taken]
    rfl

theorem addNestedType_on (enclosing : TypeId) (decl : TypeDecl) (program : Program) :
    ((addNestedType enclosing decl).on program).2
      = if (program.findType? ((program.type enclosing).key.nested decl.name)).isSome then program
        else program.withTypeListed (program.type enclosing).assembly
          ((program.type enclosing).key.nested decl.name) (some enclosing) decl := by
  unfold addNestedType
  rw [get_bind_on]
  simp only [on_bind, insertType_on]
  by_cases taken : (program.findType? ((program.type enclosing).key.nested decl.name)).isSome = true
  · rw [if_pos taken, if_pos taken]
  · rw [if_neg taken, if_neg taken]
    rfl

end Build

/-- Whether an addition adds a type, where it does not fail. -/
def Edit.addsType : Edit → Bool
  | .addType _ _ | .addNestedType _ _ => true
  | _ => false

/-- **Every addition but that of a type keeps the outline**, whether it fails or not. -/
theorem Edit.sameOutline_perform {edit : Edit} (other : edit.addsType = false)
    (program : Program) : Program.SameOutline program (edit.perform.on program).2 := by
  have kept : edit.perform.Keeps (Program.SameOutline program) (fun _ => True) →
      Program.SameOutline program (edit.perform.on program).2 :=
    fun keeps => (keeps program (.refl program)).1
  have insert : ∀ {type : TypeId} decl origin, Build.Keeps (Program.SameOutline program)
      (Build.insertMember type decl origin) fun _ => True :=
    fun decl origin => Build.keeps_sameOutline (Build.sameOutline_insertMember _ decl origin) _
  have link : ∀ owner accessors, True → Build.Keeps (Program.SameOutline program)
      (Build.linkAccessors owner accessors) fun _ => True :=
    fun owner accessors _ =>
      Build.keeps_sameOutline (Build.sameOutline_linkAccessors owner accessors) _
  cases edit with
  | addAssembly name =>
      exact kept ((Build.keeps_sameOutline (Build.sameOutline_addAssembly name) _).map _)
  | markAssembly id mark =>
      exact kept ((Build.keeps_sameOutline (Build.sameOutline_markAssembly id mark) _).bind
        fun _ _ => .pure trivial)
  | addType _ _ | addNestedType _ _ => cases other
  | markType id mark =>
      exact kept ((Build.keeps_sameOutline (Build.sameOutline_markType id mark) _).bind
        fun _ _ => .pure trivial)
  | addMember type decl => exact kept ((insert decl .declared).map _)
  | addProperty type decl => exact kept ((Build.keeps_addProperty insert link decl).map _)
  | addEvent type decl => exact kept ((Build.keeps_addEvent insert link decl).map _)
  | markMember id mark =>
      exact kept ((Build.keeps_sameOutline (Build.sameOutline_markMember id mark) _).bind
        fun _ _ => .pure trivial)

/-- **Every addition that speaks of what is there keeps every type listed once, whether it
fails or not.** -/
theorem Edit.filed_perform {program : Program} (edit : Edit) (h : program.Filed)
    (wellFormed : program.WellFormed) (fits : edit.Fits program) :
    (edit.perform.on program).2.Filed := by
  cases edit with
  | addType assembly decl =>
      unfold perform
      rw [Build.map_on, Build.addType_on]
      split
      · exact h
      · exact h.withTypeListed wellFormed fits nofun
  | addNestedType enclosing decl =>
      unfold perform
      rw [Build.map_on, Build.addNestedType_on]
      split
      · exact h
      · refine h.withTypeListed wellFormed (wellFormed.assembly enclosing fits) ?_
        rintro outer ⟨⟩
        exact ⟨fits, rfl, decl.name, rfl⟩
  | addAssembly _ | markAssembly _ _ | markType _ _ | addMember _ _ | addProperty _ _
  | addEvent _ _ | markMember _ _ => exact h.of_sameOutline (sameOutline_perform rfl program)

/-! ### Coherence -/

namespace Program

theorem Buildable.filed {program : Program} (h : program.Buildable) : program.Filed := by
  induction h with
  | empty => exact filed_empty
  | edit edit before fits ih => exact edit.filed_perform ih before.wellFormed fits

/-- The positions, names, lists and links of a program fit together. -/
structure Coherent (program : Program) : Prop where
  /-- An assembly knows its position. -/
  assemblyId : ∀ id, program.HasAssembly id → (program.assembly id).id = id
  /-- So does a type. -/
  typeId : ∀ id, program.HasType id → (program.type id).id = id
  /-- So does a member. -/
  memberId : ∀ id, program.HasMember id → (program.member id).id = id
  /-- By a key exactly the loaded type with the key is found. -/
  findType : ∀ key id, program.findType? key = some id
    ↔ program.HasType id ∧ (program.type id).key = key
  /-- By an identity exactly the loaded member with the identity is found. -/
  findMember : ∀ identity id, program.findMember? identity = some id
    ↔ program.HasMember id ∧ program.identityOfMember id = identity
  /-- A type is found again by its identity. -/
  findIdentityOfType : ∀ id, program.HasType id →
    program.find? (program.identityOfType id) = some (.type id)
  /-- So is a member. -/
  findIdentityOfMember : ∀ id, program.HasMember id →
    program.find? (program.identityOfMember id) = some (.member id)
  /-- The type that declares a member is loaded. -/
  declaringType : ∀ id, program.HasMember id → program.HasType (program.member id).declaringType
  /-- It lists the member once, and no other type lists it. -/
  members : ∀ type id, program.HasType type → (program.type type).members.count id
    = if program.HasMember id ∧ (program.member id).declaringType = type then 1 else 0
  /-- The assembly of a type is loaded. -/
  assembly : ∀ id, program.HasType id → program.HasAssembly (program.type id).assembly
  /-- A type that stands by itself is listed once by its assembly, and no other one. -/
  topLevel : ∀ assembly id, (program.assembly assembly).types.count id
    = if program.HasType id ∧ (program.type id).enclosing = none
        ∧ (program.type id).assembly = assembly then 1 else 0
  /-- Any other type is listed once by the type around it. -/
  nested : ∀ outer id, (program.type outer).nested.count id
    = if program.HasType id ∧ (program.type id).enclosing = some outer then 1 else 0
  /-- The type around another came before it, is of the same assembly and gives it the first
  part of its name. -/
  enclosing : ∀ id outer, program.HasType id → (program.type id).enclosing = some outer →
    program.HasType outer ∧ outer.index < id.index
      ∧ (program.type id).assembly = (program.type outer).assembly
      ∧ ∃ name, (program.type id).key.text = (program.type outer).key.text ++ "+" ++ name
  /-- The accessors that a property or event lists are methods of its type, belong to it and
  are named after it. -/
  accessors : ∀ owner, program.HasMember owner → ∀ id ∈ (program.member owner).accessors,
    program.HasMember id ∧ (program.member id).kind = .method
      ∧ (program.member id).declaringType = (program.member owner).declaringType
      ∧ ∃ kind generated, (program.member id).origin = .accessor kind owner generated
        ∧ (program.member id).name = .named (kind.lead ++ (program.member owner).name.text)
  /-- The base of a type is the loaded type with the key that the type gives. -/
  base : ∀ id base, program.baseOf? id = some base
    ↔ program.HasType base ∧ (program.type id).base = some (program.type base).key

theorem WellFormed.find?_identityOfType {program : Program} (h : program.WellFormed)
    {id : TypeId} (has : program.HasType id) :
    program.find? (program.identityOfType id) = some (.type id) := by
  have found : program.findType? (program.type id).key = some id :=
    h.findType?_eq_some_iff.mpr ⟨has, rfl⟩
  have isType : (program.identityOfType id).isType = true := rfl
  unfold find?
  rw [if_pos isType]
  exact congrArg (Option.map SymbolId.type) found

theorem WellFormed.find?_identityOfMember {program : Program} (h : program.WellFormed)
    {id : MemberId} (has : program.HasMember id) :
    program.find? (program.identityOfMember id) = some (.member id) := by
  have noType : (program.identityOfMember id).isType = false := by
    have hkind : (program.identityOfMember id).kind = (program.member id).kind.symbolKind :=
      kind_identityOf program _
    unfold Identity.isType
    rw [hkind]
    cases (program.member id).kind <;> rfl
  have found : program.findMember? (program.identityOfMember id) = some id :=
    h.findMember?_eq_some_iff.mpr ⟨has, rfl⟩
  unfold find?
  rw [noType, found]
  rfl

theorem WellFormed.of_isAccessor {program : Program} (h : program.WellFormed)
    {owner id : MemberId} (accessor : program.IsAccessor owner id) :
    ∃ kind generated, (program.member id).origin = .accessor kind owner generated
      ∧ (program.member id).name = .named (kind.lead ++ (program.member owner).name.text) := by
  have fits := h.origins id accessor.known
  have howner := accessor.origin
  unfold LoadedMember.owner? at howner
  cases horigin : (program.member id).origin with
  | declared => rw [horigin] at howner; cases howner
  | backingField _ => rw [horigin] at howner; cases howner
  | accessor kind _ generated =>
      rw [horigin] at fits howner
      cases howner
      exact ⟨kind, generated, rfl, fits.2.2.2⟩

theorem Filed.coherent {program : Program} (filed : program.Filed) (h : program.WellFormed) :
    program.Coherent where
  assemblyId := filed.assemblyId
  typeId := h.typeId
  memberId := h.memberId
  findType _ _ := h.findType?_eq_some_iff
  findMember _ _ := h.findMember?_eq_some_iff
  findIdentityOfType _ := h.find?_identityOfType
  findIdentityOfMember _ := h.find?_identityOfMember
  declaringType := h.declaringType
  members type id has := by
    rw [(h.members_nodup has).count]
    simp only [h.mem_members_iff has]
  assembly := h.assembly
  topLevel := filed.topLevel
  nested := filed.nested
  enclosing id outer has henclosing := by
    have before := h.enclosing id outer has henclosing
    obtain ⟨sameAssembly, name, hkey⟩ := filed.inside id outer has henclosing
    exact ⟨Nat.lt_trans before has, before, sameAssembly, name, congrArg TypeKey.text hkey⟩
  accessors owner has id hid := by
    have accessor := h.accessors owner has id hid
    exact ⟨accessor.known, accessor.kind, accessor.declaringType, h.of_isAccessor accessor⟩
  base _ _ := h.baseOf?_eq_some_iff

/-- **Every history of additions leads to a coherent program**, those included that fail. -/
theorem coherent_afterEdits (edits : List Edit) (fits : ({} : Program).FitsAll edits) :
    (({} : Program).afterEdits edits).Coherent := by
  have built : (({} : Program).afterEdits edits).Buildable := Buildable.empty.afterEdits fits
  exact built.filed.coherent built.wellFormed

/-- A type, a type inside it that derives from it and has an event, a property whose setter
has its identity taken, and a second type of the first name. -/
def halfAddedProperty : List Edit :=
  [.addAssembly "Lib",
   .addType ⟨0⟩ { name := "Lib.Gauge", kind := .classType },
   .addNestedType ⟨0⟩ { name := "Dial", kind := .classType, base := some ⟨"Lib.Gauge"⟩ },
   .addEvent ⟨1⟩ { name := "Turned", type := ⟨"System.Action"⟩ },
   .addMember ⟨0⟩ ((MemberDecl.method "set_Level").taking ⟨"level", ⟨"System.Int32"⟩⟩),
   .addProperty ⟨0⟩
     { name := "Level", type := ⟨"System.Int32"⟩, getter := some {}, setter := some {} },
   .addType ⟨0⟩ { name := "Lib.Gauge", kind := .structType }]

/-- The property and its getter are left behind; they are not linked. -/
theorem coherent_afterEdits_halfAddedProperty :
    let program := ({} : Program).afterEdits halfAddedProperty
    ({} : Program).FitsAll halfAddedProperty ∧ program.Coherent
      ∧ program.types.size = 2 ∧ program.members.size = 6
      ∧ (program.member ⟨4⟩).name = .named "Level" ∧ (program.member ⟨4⟩).accessors = []
      ∧ (program.member ⟨5⟩).origin = .accessor .get ⟨4⟩ false
      ∧ (program.member ⟨0⟩).accessors = [⟨1⟩, ⟨2⟩]
      ∧ program.baseOf? ⟨1⟩ = some ⟨0⟩ ∧ program.findType? ⟨"Lib.Gauge"⟩ = some ⟨0⟩ :=
  ⟨by decide, coherent_afterEdits _ (by decide), by decide +kernel⟩

end Program

end MemberResolution
