/-
What an addition makes.

An addition makes entries of a program, one after the other: a type, or a member, or a property
or event and then all that belongs to it.  An entry needs a name that is free by then, and
`attempt` makes the entries of a list up to the first whose name is taken.  Every addition is
such an attempt, and only when all entries are made does a property or event list its accessors.

So an addition that fails has made the entries before the one it stopped at, and nothing else.
One that makes a single entry has then made none, and the program is what it was.  A property
or event may have made some, and these stay behind: the accessors know whose they are, and the
property or event does not list them.
-/
import MemberResolution.Proofs.Layout

namespace MemberResolution

/-! ### Names -/

/-- A name that can be taken: the key of a type or the identity of a member. -/
inductive EntryName where
  | type (key : TypeKey)
  | member (identity : Identity)
  deriving DecidableEq, Repr

/-- The error of an addition that finds the name taken. -/
def EntryName.taken : EntryName → ModelError
  | .type key => .duplicateType key
  | .member identity => .duplicateMember identity

/-- An entry to be made. -/
inductive NewEntry where
  | type (assembly : AssemblyId) (key : TypeKey) (around : Option TypeId) (decl : TypeDecl)
  | member (type : TypeId) (decl : MemberDecl) (origin : Origin)
  deriving DecidableEq, Repr

/-- Whether the entry is a member. -/
def NewEntry.IsMember : NewEntry → Prop
  | .type .. => False
  | .member .. => True

namespace Program

/-- Whether the name is taken. -/
def declares (program : Program) : EntryName → Bool
  | .type key => (program.findType? key).isSome
  | .member identity => (program.findMember? identity).isSome

/-- The name an entry needs. -/
def nameOf (program : Program) : NewEntry → EntryName
  | .type _ key _ _ => .type key
  | .member type decl _ =>
    .member (identityIn (program.type type).key decl.kind decl.name decl.params decl.type)

/-- Whether the name of an entry is taken. -/
def refuses (program : Program) (entry : NewEntry) : Bool :=
  program.declares (program.nameOf entry)

/-- The program with one more entry. -/
def withEntry (program : Program) : NewEntry → Program
  | .type assembly key around decl => program.withTypeListed assembly key around decl
  | .member type decl origin => program.withMember type decl origin

/-- The program with more entries, made in order. -/
def withEntries (program : Program) (entries : List NewEntry) : Program :=
  entries.foldl withEntry program

/-- Makes the entries of a list up to the first whose name is taken by then. -/
def attempt (program : Program) : List NewEntry → Option ModelError × Program
  | [] => (none, program)
  | entry :: rest =>
    if program.refuses entry then (some (program.nameOf entry).taken, program)
    else (program.withEntry entry).attempt rest

/-! ### Attempts -/

/-- An attempt that does not stop has made everything. -/
theorem attempt_none {entries : List NewEntry} {program made : Program}
    (h : program.attempt entries = (none, made)) : made = program.withEntries entries := by
  induction entries generalizing program with
  | nil => cases h; rfl
  | cons entry rest ih =>
      unfold attempt at h
      split at h
      · cases h
      · exact ih h

theorem attempt_append (program : Program) (first rest : List NewEntry) :
    program.attempt (first ++ rest)
      = match program.attempt first with
        | (none, made) => made.attempt rest
        | (some error, left) => (some error, left) := by
  induction first generalizing program with
  | nil => rfl
  | cons entry more ih =>
      simp only [List.cons_append, attempt]
      split
      · rfl
      · exact ih _

end Program

namespace Build

/-- A change attempts to make entries.  Where all are made it hands back a result and puts the
program in its final form; where one is refused it fails at once. -/
def Makes {α : Type} (program : Program) (change : Build α) (entries : List NewEntry)
    (result : α) (finish : Program → Program) : Prop :=
  change.on program
    = match program.attempt entries with
      | (none, made) => (.ok result, finish made)
      | (some error, left) => (.error error, left)

namespace Makes

variable {α β : Type} {program : Program} {entries : List NewEntry} {result : α}
  {finish : Program → Program}

theorem pure : Makes program (Pure.pure result) [] result id :=
  rfl

theorem bind {first : Build α} {next : α → Build β} {more : List NewEntry} {last : β}
    (hfirst : Makes program first entries result id)
    (hnext : Makes (program.withEntries entries) (next result) more last finish) :
    Makes program (first >>= next) (entries ++ more) last finish := by
  unfold Makes
  rw [on_bind, hfirst, Program.attempt_append]
  cases hattempt : program.attempt entries with
  | mk outcome made =>
      cases outcome with
      | some error => rfl
      | none =>
          cases Program.attempt_none hattempt
          exact hnext

theorem single {change : Build α} {entry : NewEntry}
    (refused : program.refuses entry = true →
      change.on program = (.error (program.nameOf entry).taken, program))
    (free : ¬program.refuses entry = true →
      change.on program = (.ok result, finish (program.withEntry entry))) :
    Makes program change [entry] result finish := by
  unfold Makes
  by_cases taken : program.refuses entry = true
  · rw [refused taken, Program.attempt, if_pos taken]
  · rw [free taken, Program.attempt, if_neg taken]
    rfl

theorem map {change : Build α} (h : Makes program change entries result finish) (make : α → β) :
    Makes program (make <$> change) entries (make result) finish := by
  unfold Makes
  rw [map_eq_pure_bind, on_bind, h]
  cases program.attempt entries with
  | mk outcome made => cases outcome <;> rfl

end Makes

/-! ### Types -/

/-- A type is made, and its assembly or the type around it lists it. -/
theorem makes_listedType {program : Program} (assembly : AssemblyId) (key : TypeKey)
    (around : Option TypeId) (decl : TypeDecl) {list : TypeId → Build TypeId}
    (listed : (list ⟨program.types.size⟩).on (program.withType assembly key around decl)
      = (.ok ⟨program.types.size⟩, program.withTypeListed assembly key around decl)) :
    Makes program (insertType assembly key around decl >>= list)
      [.type assembly key around decl] ⟨program.types.size⟩ id := by
  refine .single (fun taken => ?_) (fun free => ?_)
  · rw [on_bind, insertType_on, if_pos (show (program.findType? key).isSome = true from taken)]
    rfl
  · rw [on_bind, insertType_on, if_neg (show ¬(program.findType? key).isSome = true from free)]
    exact listed

theorem makes_addType (program : Program) (assembly : AssemblyId) (decl : TypeDecl) :
    Makes program (addType assembly decl) [.type assembly ⟨decl.name⟩ none decl]
      ⟨program.types.size⟩ id :=
  makes_listedType assembly ⟨decl.name⟩ none decl rfl

theorem makes_addNestedType (program : Program) (enclosing : TypeId) (decl : TypeDecl) :
    Makes program (addNestedType enclosing decl)
      [.type (program.type enclosing).assembly ((program.type enclosing).key.nested decl.name)
        (some enclosing) decl]
      ⟨program.types.size⟩ id := by
  unfold Makes addNestedType
  rw [get_bind_on]
  exact makes_listedType (program.type enclosing).assembly _ (some enclosing) decl rfl

/-! ### Members -/

theorem makes_insertMember (program : Program) (type : TypeId) (decl : MemberDecl)
    (origin : Origin) :
    Makes program (insertMember type decl origin) [.member type decl origin]
      ⟨program.members.size⟩ id := by
  refine .single (fun taken => ?_) (fun free => ?_)
  · exact (insertMember_on ..).trans (if_pos taken)
  · exact (insertMember_on ..).trans (if_neg free)

end Build

namespace Program

@[simp]
theorem withMember_size (program : Program) (type : TypeId) (decl : MemberDecl) (origin : Origin) :
    (program.withMember type decl origin).members.size = program.members.size + 1 :=
  Array.size_push _

/-- The program where a property or event lists more accessors. -/
def linked (program : Program) (owner : MemberId) (accessors : List MemberId) : Program :=
  { program with
    members := program.members.modify owner.index fun member =>
      { member with accessors := member.accessors ++ accessors } }

theorem linked_nil {program : Program} {owner : MemberId} : program.linked owner [] = program := by
  have same : (fun member : LoadedMember =>
      { member with accessors := member.accessors ++ [] }) = id := by
    funext member
    simp
  have members : program.members.modify owner.index id = program.members :=
    Array.toList_inj.mp (Array.toList_modify.trans (List.modify_id ..))
  unfold linked
  rw [same, members]

end Program

/-! ### Families

A property and an event are added alike: the head, what belongs to it in the order of
positions, and at the end the list of the accessors.  Only the head and the methods differ.
-/

/-- So many members that follow each other, from a position on. -/
def MemberId.row (start count : Nat) : List MemberId :=
  (List.range' start count).map MemberId.mk

/-- A member with all that belongs to it: a property or event with its accessors and field, or
a member that stands alone. -/
structure Family where
  head : MemberDecl
  methods : List (AccessorKind × MemberDecl) := []
  fields : List MemberDecl := []
  generated : Bool := false
  deriving DecidableEq, Repr

namespace Family

/-- What is declared, in order. -/
def members (family : Family) : List MemberDecl :=
  family.head :: (family.methods.map (·.2) ++ family.fields)

/-- What belongs to the head, and how it comes to be. -/
def belongings (family : Family) (owner : MemberId) : List (MemberDecl × Origin) :=
  (family.methods.map fun method => (method.2, .accessor method.1 owner family.generated))
    ++ family.fields.map fun field => (field, .backingField owner)

/-- The entries of a family, made in a type from a position on. -/
def entries (family : Family) (type : TypeId) (owner : MemberId) : List NewEntry :=
  .member type family.head .declared
    :: (family.belongings owner).map fun part => .member type part.1 part.2

/-- The program where the head lists the methods, which follow it. -/
def finish (family : Family) (owner : MemberId) (program : Program) : Program :=
  program.linked owner (MemberId.row (owner.index + 1) family.methods.length)

end Family

/-- A property expands into itself, its methods and, if it is automatic, a field. -/
def PropertyDecl.family (decl : PropertyDecl) : Family where
  head := decl.head
  methods := (decl.getter.toList.map fun accessor => (.get, decl.getMethod accessor))
    ++ decl.setter.toList.map fun accessor => (.set, decl.setMethod accessor)
  fields := if decl.automatic then [decl.backingField] else []
  generated := decl.automatic

/-- An event expands into itself and its two methods. -/
def EventDecl.family (decl : EventDecl) : Family where
  head := decl.head
  methods := [(.add, decl.accessMethod .add decl.add),
    (.remove, decl.accessMethod .remove decl.remove)]
  generated := decl.automatic

namespace Build

/-- A change that ends with the listing of accessors. -/
theorem makes_linked {α : Type} (program : Program) (owner : MemberId) (accessors : List MemberId)
    (result : α) :
    Makes program (linkAccessors owner accessors >>= fun _ => Pure.pure result) [] result
      (·.linked owner accessors) :=
  rfl

theorem makes_insertAccessor? (program : Program) (type : TypeId)
    (make : AccessorDecl → MemberDecl) (origin : Origin) (decl? : Option AccessorDecl) :
    Makes program (decl?.mapM fun decl => insertMember type (make decl) origin)
      (decl?.toList.map fun decl => .member type (make decl) origin)
      (decl?.map fun _ => ⟨program.members.size⟩) id := by
  cases decl? with
  | none => exact .pure
  | some decl => exact (makes_insertMember program type (make decl) origin).map some

/-- Adds the field of a property, if it is automatic. -/
def insertStorage (type : TypeId) (decl : PropertyDecl) (property : MemberId) :
    Build (Option MemberId) :=
  if decl.automatic then some <$> insertMember type decl.backingField (.backingField property)
  else pure none

theorem makes_insertStorage (program : Program) (type : TypeId) (decl : PropertyDecl)
    (property : MemberId) :
    Makes program (insertStorage type decl property)
      (decl.family.fields.map fun field => .member type field (.backingField property))
      (if decl.automatic then some ⟨program.members.size⟩ else none) id := by
  unfold insertStorage PropertyDecl.family
  split
  · exact (makes_insertMember program type _ _).map some
  · exact .pure

/-- The field is added in a step of its own. -/
theorem propertyParts_eq (type : TypeId) (decl : PropertyDecl) (property : MemberId) :
    propertyParts type decl property = do
      let getter ← decl.getter.mapM fun accessor =>
        insertMember type (decl.getMethod accessor) (.accessor .get property decl.automatic)
      let setter ← decl.setter.mapM fun accessor =>
        insertMember type (decl.setMethod accessor) (.accessor .set property decl.automatic)
      let backingField ← insertStorage type decl property
      linkAccessors property (getter.toList ++ setter.toList)
      return ⟨property, getter, setter, backingField⟩ := by
  unfold propertyParts insertStorage
  by_cases automatic : decl.automatic = true
  · simp only [automatic, if_true]
  · simp only [automatic, Bool.false_eq_true, if_false]

/-- The accessors and the field of a property are made, and the accessors are listed. -/
theorem makes_propertyParts (program : Program) (type : TypeId) (decl : PropertyDecl)
    (property : MemberId) :
    ∃ ids : PropertyIds, Makes program (propertyParts type decl property)
      ((decl.family.belongings property).map fun part => .member type part.1 part.2) ids
      (·.linked property (MemberId.row program.members.size decl.family.methods.length)) := by
  let program₂ := program.withEntries (decl.getter.toList.map fun accessor =>
    .member type (decl.getMethod accessor) (.accessor .get property decl.automatic))
  let program₃ := program₂.withEntries (decl.setter.toList.map fun accessor =>
    .member type (decl.setMethod accessor) (.accessor .set property decl.automatic))
  let getter : Option MemberId := decl.getter.map fun _ => ⟨program.members.size⟩
  let setter : Option MemberId := decl.setter.map fun _ => ⟨program₂.members.size⟩
  -- The methods there are stand side by side, whether it is one, the other or both.
  have row : MemberId.row program.members.size decl.family.methods.length
      = getter.toList ++ setter.toList := by
    cases hget : decl.getter <;> cases hset : decl.setter <;>
      simp [MemberId.row, List.range'_succ, PropertyDecl.family, program₂, getter, setter,
        hget, hset, Program.withEntries, Program.withEntry]
  have parts : (decl.family.belongings property).map
        (fun part => NewEntry.member type part.1 part.2)
      = (decl.getter.toList.map fun accessor =>
          .member type (decl.getMethod accessor) (.accessor .get property decl.automatic))
        ++ ((decl.setter.toList.map fun accessor =>
            .member type (decl.setMethod accessor) (.accessor .set property decl.automatic))
          ++ ((decl.family.fields.map fun field => .member type field (.backingField property))
            ++ [])) := by
    simp only [Family.belongings, PropertyDecl.family, List.map_append, List.map_map,
      Function.comp_def, List.append_assoc, List.append_nil]
  rw [row, parts, propertyParts_eq]
  exact ⟨_, (makes_insertAccessor? program type decl.getMethod _ decl.getter).bind
    ((makes_insertAccessor? program₂ type decl.setMethod _ decl.setter).bind
      ((makes_insertStorage program₃ type decl property).bind
        (makes_linked _ property (getter.toList ++ setter.toList) _)))⟩

/-- A property is made before its accessors and its field. -/
theorem makes_addProperty (program : Program) (type : TypeId) (decl : PropertyDecl) :
    ∃ ids : PropertyIds, Makes program (addProperty type decl)
      (decl.family.entries type ⟨program.members.size⟩) ids
      (decl.family.finish ⟨program.members.size⟩) := by
  obtain ⟨ids, parts⟩ := makes_propertyParts
    (program.withMember type decl.head .declared) type decl ⟨program.members.size⟩
  rw [Program.withMember_size] at parts
  exact ⟨ids, (makes_insertMember program type decl.head .declared).bind parts⟩

theorem makes_addEvent (program : Program) (type : TypeId) (decl : EventDecl) :
    ∃ ids : EventIds, Makes program (addEvent type decl)
      (decl.family.entries type ⟨program.members.size⟩) ids
      (decl.family.finish ⟨program.members.size⟩) := by
  let program₁ := program.withMember type decl.head .declared
  let program₂ := program₁.withMember type (decl.accessMethod .add decl.add)
    (.accessor .add ⟨program.members.size⟩ decl.automatic)
  have row : MemberId.row (program.members.size + 1) 2
      = [⟨program₁.members.size⟩, ⟨program₂.members.size⟩] := by
    simp [MemberId.row, List.range'_succ, program₁, program₂]
  refine ⟨⟨⟨program.members.size⟩, ⟨program₁.members.size⟩, ⟨program₂.members.size⟩⟩, ?_⟩
  show Makes _ _ _ _ (·.linked _ (MemberId.row (program.members.size + 1) 2))
  rw [row]
  exact (makes_insertMember program type decl.head .declared).bind
    ((makes_insertMember program₁ type _ _).bind ((makes_insertMember program₂ type _ _).bind
      (makes_linked ..)))

end Build

namespace Edit

/-- The entries an addition is to make. -/
def entries (program : Program) : Edit → List NewEntry
  | .addType assembly decl => [.type assembly ⟨decl.name⟩ none decl]
  | .addNestedType enclosing decl =>
    [.type (program.type enclosing).assembly ((program.type enclosing).key.nested decl.name)
      (some enclosing) decl]
  | .addMember type decl => [.member type decl .declared]
  | .addProperty type decl => decl.family.entries type ⟨program.members.size⟩
  | .addEvent type decl => decl.family.entries type ⟨program.members.size⟩
  | .addAssembly _ | .markAssembly _ _ | .markType _ _ | .markMember _ _ => []

/-- **Every addition is an attempt to make its entries.** -/
theorem makes_perform (edit : Edit) (program : Program) : ∃ receipt finish,
    Build.Makes program edit.perform (edit.entries program) receipt finish := by
  cases edit with
  | addType assembly decl => exact ⟨_, _, (Build.makes_addType program assembly decl).map _⟩
  | addNestedType enclosing decl =>
      exact ⟨_, _, (Build.makes_addNestedType program enclosing decl).map _⟩
  | addMember type decl =>
      exact ⟨_, _, (Build.makes_insertMember program type decl .declared).map _⟩
  | addProperty type decl =>
      obtain ⟨ids, made⟩ := Build.makes_addProperty program type decl
      exact ⟨_, _, made.map _⟩
  | addEvent type decl =>
      obtain ⟨ids, made⟩ := Build.makes_addEvent program type decl
      exact ⟨_, _, made.map _⟩
  | addAssembly name =>
      exact ⟨_, fun _ => ((Build.addAssembly name).on program).2, rfl⟩
  | markAssembly id mark =>
      exact ⟨_, fun _ => ((Build.markAssembly id mark).on program).2, rfl⟩
  | markType id mark => exact ⟨_, fun _ => ((Build.markType id mark).on program).2, rfl⟩
  | markMember id mark => exact ⟨_, fun _ => ((Build.markMember id mark).on program).2, rfl⟩

end Edit

/-! ### Entries that are made together

What belongs to a property or event differs in name, so none of it is in the way of the rest,
and an entry is refused only if its name was taken from the start.
-/

namespace Program

variable {program : Program}

/-- Only members stand before others, and no two entries need one name. -/
def Apart (program : Program) (entries : List NewEntry) : Prop :=
  entries.Pairwise fun first second =>
    first.IsMember ∧ program.nameOf first ≠ program.nameOf second

theorem identityIn_kind_name (key : TypeKey) (kind : MemberKind) (name : SymbolName)
    (params : List Param) (type : TypeKey) :
    (identityIn key kind name params type).kind = kind.symbolKind
      ∧ (identityIn key kind name params type).name = name := by
  unfold identityIn Identity.returning
  split <;> exact ⟨rfl, rfl⟩

theorem nameOf_ne {type type' : TypeId} {decl decl' : MemberDecl} {origin origin' : Origin}
    (h : decl.kind.symbolKind ≠ decl'.kind.symbolKind ∨ decl.name ≠ decl'.name) :
    program.nameOf (.member type decl origin) ≠ program.nameOf (.member type' decl' origin') := by
  intro same
  have identities := EntryName.member.inj same
  obtain ⟨kind, name⟩ := identityIn_kind_name (program.type type).key decl.kind decl.name
    decl.params decl.type
  rw [identities] at kind name
  obtain ⟨kind', name'⟩ := identityIn_kind_name (program.type type').key decl'.kind decl'.name
    decl'.params decl'.type
  rcases h with h | h
  · exact h (kind.symm.trans kind')
  · exact h (name.symm.trans name')

end Program

theorem AccessorKind.lead_injective {a b : AccessorKind} {name : String}
    (h : a.lead ++ name = b.lead ++ name) : a = b := by
  have lead : a.lead = b.lead := (String.append_left_inj name).mp h
  revert lead
  cases a <;> cases b <;> decide

/-- A method is named after what it does for a property or event. -/
theorem SymbolName.lead_ne {a b : AccessorKind} (h : a ≠ b) (name : String) :
    SymbolName.named (a.lead ++ name) ≠ .named (b.lead ++ name) :=
  fun same => h (AccessorKind.lead_injective (SymbolName.named.inj same))

/-- No two members of a family are of one sort and name. -/
def Family.Distinct (family : Family) : Prop :=
  family.members.Pairwise fun first second =>
    first.kind.symbolKind ≠ second.kind.symbolKind ∨ first.name ≠ second.name

theorem Family.Distinct.apart {family : Family} (distinct : family.Distinct) (program : Program)
    (type : TypeId) (owner : MemberId) : program.Apart (family.entries type owner) := by
  have members : family.members
      = ((family.head, Origin.declared) :: family.belongings owner).map (·.1) := by
    simp [Family.members, Family.belongings, Function.comp_def]
  unfold Family.Distinct at distinct
  rw [members, List.pairwise_map] at distinct
  have entries : family.entries type owner
      = ((family.head, Origin.declared) :: family.belongings owner).map
          fun part => .member type part.1 part.2 := rfl
  unfold Program.Apart
  rw [entries, List.pairwise_map]
  exact distinct.imp fun h => ⟨trivial, Program.nameOf_ne h⟩

theorem PropertyDecl.distinct_family (decl : PropertyDecl) : decl.family.Distinct := by
  have accessors := SymbolName.lead_ne (show AccessorKind.get ≠ .set by decide) decl.name
  unfold Family.Distinct Family.members family
  cases decl.getter <;> cases decl.setter <;> cases decl.automatic <;>
    simp [MemberKind.symbolKind, head, getMethod, setMethod, backingField, accessors]

theorem EventDecl.distinct_family (decl : EventDecl) : decl.family.Distinct := by
  have accessors := SymbolName.lead_ne (show AccessorKind.add ≠ .remove by decide) decl.name
  simp [Family.Distinct, Family.members, family, MemberKind.symbolKind, head, accessMethod,
    accessors]

theorem Edit.apart_entries (edit : Edit) (program : Program) :
    program.Apart (edit.entries program) := by
  cases edit with
  | addProperty type decl => exact decl.distinct_family.apart program type _
  | addEvent type decl => exact decl.distinct_family.apart program type _
  | addType | addNestedType | addMember => exact List.pairwise_singleton _ _
  | addAssembly | markAssembly | markType | markMember => exact .nil

namespace Program

variable {program : Program} {entry : NewEntry}

/-! ### What an entry takes -/

theorem nameOf_withEntry (member : entry.IsMember) (other : NewEntry) :
    (program.withEntry entry).nameOf other = program.nameOf other := by
  cases entry with
  | type => exact member.elim
  | member type decl origin =>
      cases other with
      | type => rfl
      | member type' decl' origin' =>
          show EntryName.member _ = EntryName.member _
          rw [withEntry, withMember_read_type (·.key) (fun _ _ => rfl)]

/-- An entry that is made takes its own name and no other. -/
theorem declares_withEntry (entry : NewEntry) (name : EntryName) :
    (program.withEntry entry).declares name = true
      ↔ program.declares name = true ∨ name = program.nameOf entry := by
  have taken : ∀ {κ ν : Type} [DecidableEq κ] (memo : Memo κ ν) (key other : κ) (value : ν),
      ((memo.insert key value).find? other).isSome = true
        ↔ (memo.find? other).isSome = true ∨ other = key := by
    intro κ ν _ memo key other value
    rw [Memo.find?_insert]
    by_cases same : key = other
    · simp [same]
    · simp [same, Ne.symm same]
  cases entry with
  | type assembly key around decl =>
      have typeByKey : (program.withTypeListed assembly key around decl).typeByKey
          = program.typeByKey.insert key ⟨program.types.size⟩ := by
        cases around <;> rfl
      have memberByIdentity : (program.withTypeListed assembly key around decl).memberByIdentity
          = program.memberByIdentity := by
        cases around <;> rfl
      cases name with
      | type other =>
          simp [withEntry, declares, findType?, typeByKey, taken, nameOf]
      | member other => simp [withEntry, declares, findMember?, memberByIdentity, nameOf]
  | member type decl origin =>
      cases name with
      | type other => simp [withEntry, declares, findType?, withMember, nameOf]
      | member other => simp [withEntry, declares, findMember?, withMember, taken, nameOf]

/-- Whether an entry is refused does not depend on a member of another name. -/
theorem refuses_withEntry {other : NewEntry} (member : entry.IsMember)
    (apart : program.nameOf entry ≠ program.nameOf other) :
    (program.withEntry entry).refuses other = program.refuses other := by
  unfold refuses
  rw [nameOf_withEntry member, Bool.eq_iff_iff, declares_withEntry]
  exact or_iff_left apart.symm

theorem Apart.withEntry {rest : List NewEntry} (apart : program.Apart (entry :: rest)) :
    (program.withEntry entry).Apart rest := by
  obtain ⟨first, others⟩ := List.pairwise_cons.mp apart
  refine others.imp_of_mem ?_
  rintro a b ha - ⟨member, distinct⟩
  rw [nameOf_withEntry (first a ha).1, nameOf_withEntry (first a ha).1]
  exact ⟨member, distinct⟩

/-- **Entries that stand apart are all made if all their names are free, and else those before
the first whose name is not.** -/
theorem Apart.attempt_cases {entries : List NewEntry} (apart : program.Apart entries) :
    (∀ made ∈ entries, program.refuses made = false)
        ∧ program.attempt entries = (none, program.withEntries entries)
      ∨ ∃ left entry rest, entries = left ++ entry :: rest
        ∧ (∀ made ∈ left, program.refuses made = false)
        ∧ program.refuses entry = true
        ∧ program.attempt entries
          = (some (program.nameOf entry).taken, program.withEntries left) := by
  induction entries generalizing program with
  | nil => exact .inl ⟨by simp, rfl⟩
  | cons first more ih =>
      by_cases refused : program.refuses first = true
      · exact .inr ⟨[], first, more, rfl, by simp, refused, if_pos refused⟩
      · have same : ∀ other ∈ more,
            (program.withEntry first).refuses other = program.refuses other
              ∧ (program.withEntry first).nameOf other = program.nameOf other := by
          intro other hother
          obtain ⟨member, distinct⟩ := (List.pairwise_cons.mp apart).1 other hother
          exact ⟨refuses_withEntry member distinct, nameOf_withEntry member other⟩
        have step : program.attempt (first :: more) = (program.withEntry first).attempt more :=
          if_neg refused
        have free : program.refuses first = false := Bool.eq_false_iff.mpr refused
        rw [step]
        rcases ih apart.withEntry with ⟨frees, run⟩ | ⟨left, entry, rest, rfl, frees, taken, run⟩
        · refine .inl ⟨?_, run⟩
          intro made hmade
          rcases List.mem_cons.mp hmade with rfl | hmore
          · exact free
          · exact (same made hmore).1.symm.trans (frees made hmore)
        · have stuck := same entry (List.mem_append_right _ List.mem_cons_self)
          rw [stuck.1] at taken
          rw [stuck.2] at run
          refine .inr ⟨first :: left, entry, rest, rfl, ?_, taken, run⟩
          intro made hmade
          rcases List.mem_cons.mp hmade with rfl | hleft
          · exact free
          · exact (same made (List.mem_append_left _ hleft)).1.symm.trans (frees made hleft)

/-! ### What entries leave alone -/

theorem accessors_withEntries (entries : List NewEntry) (program : Program) (id : MemberId) :
    ((program.withEntries entries).member id).accessors = (program.member id).accessors := by
  induction entries generalizing program with
  | nil => rfl
  | cons first rest ih =>
      refine (ih (program.withEntry first)).trans ?_
      cases first with
      | type assembly key around decl => cases around <;> rfl
      | member type decl origin =>
          show ((program.withMember type decl origin).member id).accessors = _
          by_cases fresh : id = ⟨program.members.size⟩
          -- Beyond the last member an empty one is read, and it lists nothing either.
          · rw [fresh, withMember_member_new, member, Array.getD_eq_getD_getElem?,
              Array.getElem?_eq_none (Nat.le_refl _)]
            rfl
          · have other : id.index ≠ program.members.size := fun same => fresh (by rw [← same])
            unfold member withMember
            rw [getD_push, if_neg other]

theorem size_le_withEntries (entries : List NewEntry) (program : Program) :
    program.members.size ≤ (program.withEntries entries).members.size := by
  induction entries generalizing program with
  | nil => exact Nat.le_refl _
  | cons first rest ih =>
      refine Nat.le_trans ?_ (ih (program.withEntry first))
      cases first with
      | type assembly key around decl => cases around <;> exact Nat.le_refl _
      | member type decl origin => exact Nat.le_of_lt (by simp [withEntry])

theorem withEntries_ne {rest : List NewEntry} (member : entry.IsMember) :
    program.withEntries (entry :: rest) ≠ program := by
  cases entry with
  | type => exact member.elim
  | member type decl origin =>
      intro same
      have more := size_le_withEntries rest (program.withMember type decl origin)
      have size : ((program.withMember type decl origin).withEntries rest).members.size
          = program.members.size := congrArg (·.members.size) same
      rw [size, withMember_size] at more
      omega

end Program

/-! ### Additions that fail -/

/-- Whether an addition makes one entry at most. -/
def Edit.IsSingle : Edit → Prop
  | .addProperty .. | .addEvent .. => False
  | _ => True

/-- **An addition that fails has made its entries before the first whose name is taken.**  It
reports this name.  An addition of a single entry has made nothing, and any other has made
nothing exactly if its first name is taken.  In no case is an accessor listed. -/
theorem Edit.failed_leaves_entries_before {edit : Edit} {program : Program} {error : ModelError}
    (failed : (edit.perform.on program).1 = .error error) :
    (∃ left entry rest, edit.entries program = left ++ entry :: rest
        ∧ (∀ made ∈ left, program.refuses made = false) ∧ program.refuses entry = true
        ∧ error = (program.nameOf entry).taken
        ∧ (edit.perform.on program).2 = program.withEntries left)
      ∧ (edit.IsSingle → (edit.perform.on program).2 = program)
      ∧ ((edit.perform.on program).2 = program
        ↔ ∃ first, (edit.entries program).head? = some first ∧ program.refuses first = true)
      ∧ ∀ id, ((edit.perform.on program).2.member id).accessors
        = (program.member id).accessors := by
  obtain ⟨receipt, finish, made⟩ := edit.makes_perform program
  have apart : program.Apart (edit.entries program) := edit.apart_entries program
  unfold Build.Makes at made
  obtain ⟨-, run⟩ | ⟨left, entry, rest, split, free, refused, run⟩ := apart.attempt_cases
  · rw [run] at made
    rw [made] at failed
    cases failed
  · rw [run] at made
    rw [made] at failed ⊢
    cases failed
    refine ⟨⟨left, entry, rest, split, free, refused, rfl, rfl⟩, ?_, ?_,
      Program.accessors_withEntries left program⟩
    · intro single
      have short : (edit.entries program).length ≤ 1 := by
        cases edit with
        | addProperty | addEvent => exact single.elim
        | addType | addNestedType | addMember => exact Nat.le_refl _
        | addAssembly | markAssembly | markType | markMember => exact Nat.zero_le _
      rw [split, List.length_append, List.length_cons] at short
      have none : left = [] := List.length_eq_zero_iff.mp (by omega)
      rw [none]
      rfl
    · cases left with
      | nil => exact ⟨fun _ => ⟨entry, by rw [split]; rfl, refused⟩, fun _ => rfl⟩
      | cons first more =>
          rw [split] at apart ⊢
          have member : first.IsMember :=
            ((List.pairwise_cons.mp apart).1 entry (List.mem_append_right _ List.mem_cons_self)).1
          refine ⟨fun same => absurd same (Program.withEntries_ne member), ?_⟩
          rintro ⟨_, ⟨⟩, taken⟩
          rw [free first List.mem_cons_self] at taken
          cases taken

/-- A type with a method of the name that the setter of `level` would have. -/
def levelSetter : List Edit :=
  [.addAssembly "Lib",
   .addType ⟨0⟩ { name := "T", kind := .classType },
   .addMember ⟨0⟩ ((MemberDecl.method "set_Level").taking ⟨"level", ⟨"System.Int32"⟩⟩)]

/-- A property with a getter and a setter. -/
def level : Edit :=
  .addProperty ⟨0⟩
    { name := "Level", type := ⟨"System.Int32"⟩, getter := some {}, setter := some {} }

/-- The name of the property is free and the name of its setter is not, so the program is not
what it was, and the property lists nothing. -/
theorem Edit.failed_leaves_entries_before_level :
    (level.perform.on (({} : Program).afterEdits levelSetter)).1
        = .error (.duplicateMember
            ⟨.method, some ⟨"T"⟩, .named "set_Level", [⟨"System.Int32"⟩], none⟩)
      ∧ (level.perform.on (({} : Program).afterEdits levelSetter)).2
        ≠ ({} : Program).afterEdits levelSetter
      ∧ ((level.perform.on (({} : Program).afterEdits levelSetter)).2.member ⟨1⟩).accessors
        = [] := by
  have failed : (level.perform.on (({} : Program).afterEdits levelSetter)).1
      = .error (.duplicateMember
          ⟨.method, some ⟨"T"⟩, .named "set_Level", [⟨"System.Int32"⟩], none⟩) := by
    rfl
  obtain ⟨-, -, unchanged, accessors⟩ := Edit.failed_leaves_entries_before failed
  refine ⟨failed, fun same => ?_, (accessors ⟨1⟩).trans (by decide +kernel)⟩
  obtain ⟨first, head, refused⟩ := unchanged.mp same
  have free : ∀ first, (level.entries (({} : Program).afterEdits levelSetter)).head? = some first →
      (({} : Program).afterEdits levelSetter).refuses first = false := by
    rintro _ ⟨⟩
    decide +kernel
  rw [free first head] at refused
  cases refused

/-- **An addition that fails may change the program.**  The property and its getter are left
behind; the getter says whose it is, and the property does not list it. -/
theorem Edit.failed_addition_changes_level :
    ({} : Program).FitsAll (levelSetter ++ [level])
      ∧ (level.perform.on (({} : Program).afterEdits levelSetter)).1
        = .error (.duplicateMember
            ⟨.method, some ⟨"T"⟩, .named "set_Level", [⟨"System.Int32"⟩], none⟩)
      ∧ (({} : Program).afterEdits levelSetter).members.map (·.name) = #[.named "set_Level"]
      ∧ (level.perform.on (({} : Program).afterEdits levelSetter)).2.members.map
          (fun member => (member.name, member.origin, member.accessors))
        = #[(.named "set_Level", .declared, []), (.named "Level", .declared, []),
            (.named "get_Level", .accessor .get ⟨1⟩ false, [])] :=
  ⟨by decide, by rfl, by decide +kernel, by decide +kernel⟩

end MemberResolution
