/-
A manifest is lowered exactly.

The rows of a manifest are written down without regard to the additions that lower it: a type,
what its members expand into, then the types nested in it, one after the other as the document
has them.  Lowering makes the entries of these rows and no others, in this order, and it can
fail only because a name is taken.  As nothing is there when it begins, the name is then that
of an earlier row, and the error tells of the first row that repeats one.

`Lowers` says this of a change with respect to the program it finds.  It is proved of the
additions by way of what they make, and carried through sequences, lists and the tree of
nested types; the program in between matters only by what it `Continues`.
-/
import MemberResolution.Program.Manifest
import MemberResolution.Proofs.Rows

namespace MemberResolution

/-! ### The rows of a manifest -/

/-- A row of a type or of a member. -/
inductive Row where
  | type (row : TypeRow)
  | member (row : MemberRow)
  deriving DecidableEq, Repr

namespace Row

/-- What the row tells, if it is of a type. -/
def type? : Row → Option TypeRow
  | .type row => some row
  | .member _ => none

/-- What the row tells, if it is of a member. -/
def member? : Row → Option MemberRow
  | .type _ => none
  | .member row => some row

/-- The name that the row declares. -/
def name : Row → EntryName
  | .type row => .type row.key
  | .member row => .member row.identity

theorem mem_names_type_iff {rows : List Row} {key : TypeKey} :
    .type key ∈ rows.map name ↔ key ∈ (rows.filterMap type?).map (·.key) := by
  induction rows with
  | nil => simp
  | cons row rest ih => cases row <;> simp [name, type?, ih]

theorem mem_names_member_iff {rows : List Row} {identity : Identity} :
    .member identity ∈ rows.map name
      ↔ identity ∈ (rows.filterMap member?).map (·.identity) := by
  induction rows with
  | nil => simp
  | cons row rest ih => cases row <;> simp [name, member?, ih]

/-- Names are distinct if those of types are and those of members are. -/
theorem nodup_names_iff {rows : List Row} :
    (rows.map name).Nodup
      ↔ ((rows.filterMap type?).map (·.key)).Nodup
        ∧ ((rows.filterMap member?).map (·.identity)).Nodup := by
  induction rows with
  | nil => simp
  | cons row rest ih =>
      cases row with
      | type row =>
          have taken : .type row.key ∈ rest.map name ↔ _ := mem_names_type_iff
          simp only [List.map_cons, List.nodup_cons, name, List.filterMap_cons, type?,
            member?, taken, ih, and_assoc]
      | member row =>
          have taken : .member row.identity ∈ rest.map name ↔ _ := mem_names_member_iff
          simp only [List.map_cons, List.nodup_cons, name, List.filterMap_cons, type?,
            member?, taken, ih]
          exact and_left_comm

end Row

/-- What a member of a manifest expands into.  A property has a getter or setter if the manifest
tells of it or the property is automatic, and a field if it is automatic; an event always has
both of its methods. -/
def ManifestMember.family : ManifestMember → Family
  | .method name params returns body isStatic isVirtual marks =>
    { head :=
        { kind := .method, name := .named name, params, type := returns.getD .void,
          flags := { isStatic, isVirtual }, body, marks } }
  | .constructor params body isStatic marks =>
    { head :=
        { kind := .constructor,
          name := if isStatic then .staticConstructor else .instanceConstructor, params,
          flags := { isStatic }, body, marks } }
  | .operator op params returns body marks =>
    { head :=
        { kind := .operator, name := .operator op, params, type := returns,
          flags := { isStatic := true }, body, marks } }
  | .field name type isStatic marks =>
    { head := { kind := .field, name := .named name, type, flags := { isStatic }, marks } }
  | .property name type getter setter automatic isStatic marks =>
    { head := { kind := .property, name := .named name, type, flags := { isStatic }, marks }
      methods :=
        (if getter.isSome || automatic then
          [(.get,
            { kind := .method, name := .named ("get_" ++ name), type, flags := { isStatic },
              body := (getter.getD {}).body, marks := (getter.getD {}).marks })]
        else [])
        ++ if setter.isSome || automatic then
          [(.set,
            { kind := .method, name := .named ("set_" ++ name), params := [⟨"value", type⟩],
              flags := { isStatic }, body := (setter.getD {}).body,
              marks := (setter.getD {}).marks })]
        else []
      fields :=
        if automatic then
          [{ kind := .field, name := .named ("<" ++ name ++ ">k__BackingField"), type,
             flags := { isStatic } }]
        else []
      generated := automatic }
  | .event name type add remove automatic isStatic marks =>
    { head := { kind := .event, name := .named name, type, flags := { isStatic }, marks }
      methods :=
        [(.add,
          { kind := .method, name := .named ("add_" ++ name), params := [⟨"value", type⟩],
            flags := { isStatic }, body := add.body, marks := add.marks }),
         (.remove,
          { kind := .method, name := .named ("remove_" ++ name), params := [⟨"value", type⟩],
            flags := { isStatic }, body := remove.body, marks := remove.marks })]
      generated := automatic }

namespace ManifestType

/-- The row of the type itself. -/
def row (type : ManifestType) (assembly : String) (enclosing : Option TypeKey) (key : TypeKey) :
    TypeRow where
  assembly := assembly
  enclosing := enclosing
  key := key
  kind := type.kind
  flags := { isStatic := type.isStatic }
  base := type.base
  marks := type.marks

mutual

/-- The rows of what is in a type: its members, then its nested types. -/
def contents (assembly : String) (key : TypeKey) : ManifestType → List Row
  | ⟨_, _, _, _, _, members, nested⟩ =>
    (members.flatMap fun member => (member.family.rows key).map .member)
      ++ nestedRows assembly key nested

/-- The rows of nested types, each named after the type around it. -/
def nestedRows (assembly : String) (outer : TypeKey) : List ManifestType → List Row
  | [] => []
  | type :: rest =>
    .type (type.row assembly (some outer) (outer.nested type.name))
      :: (type.contents assembly (outer.nested type.name) ++ nestedRows assembly outer rest)

end

/-- The rows of a type at the top level. -/
def rows (type : ManifestType) (assembly : String) : List Row :=
  .type (type.row assembly none ⟨type.name⟩) :: type.contents assembly ⟨type.name⟩

end ManifestType

namespace Manifest

/-- The rows of a manifest, in document order. -/
def rows (manifest : Manifest) : List Row :=
  manifest.assemblies.flatMap fun assembly =>
    assembly.types.flatMap fun type => type.rows assembly.name

/-- The rows of its types. -/
def typeRows (manifest : Manifest) : List TypeRow :=
  manifest.rows.filterMap Row.type?

/-- The rows of its members, expanded. -/
def memberRows (manifest : Manifest) : List MemberRow :=
  manifest.rows.filterMap Row.member?

end Manifest

/-! ### Changes that add rows -/

namespace Program

/-- The names are free, and none is needed twice. -/
def Admits (program : Program) (names : List EntryName) : Prop :=
  names.Nodup ∧ ∀ name ∈ names, program.declares name = false

theorem Continues.declares_iff {before after : Program} {rows : List Row}
    (h : before.Continues (rows.filterMap Row.type?) (rows.filterMap Row.member?) after)
    (name : EntryName) :
    after.declares name = true ↔ before.declares name = true ∨ name ∈ rows.map Row.name := by
  rw [h.declares]
  cases name with
  | type key => simp [Row.mem_names_type_iff]
  | member identity => simp [Row.mem_names_member_iff]

/-- Names that are admitted one after the other are admitted together. -/
theorem Continues.admits_append {before after : Program} {rows : List Row}
    (h : before.Continues (rows.filterMap Row.type?) (rows.filterMap Row.member?) after)
    (first : before.Admits (rows.map Row.name)) {names : List EntryName}
    (more : after.Admits names) : before.Admits (rows.map Row.name ++ names) := by
  have free : ∀ name ∈ names, before.declares name = false ∧ name ∉ rows.map Row.name := by
    intro name hname
    have absent : ¬after.declares name = true := by
      rw [more.2 name hname]
      exact Bool.false_ne_true
    rw [h.declares_iff, not_or] at absent
    exact ⟨Bool.eq_false_iff.mpr absent.1, absent.2⟩
  refine ⟨List.nodup_append.mpr ⟨first.1, more.1, ?_⟩, ?_⟩
  · rintro name hfirst _ hmore rfl
    exact (free name hmore).2 hfirst
  · intro name hname
    rcases List.mem_append.mp hname with hfirst | hmore
    · exact first.2 name hfirst
    · exact (free name hmore).1

end Program

namespace Build

variable {α β : Type} {program : Program} {rows more : List Row} {known : α → Program → Prop}
  {final : β → Program → Prop}

/-- From a program a change goes on with rows, if their names are admitted, and then something
is known of its result.  Else it fails at the first row whose name is not free by then. -/
def Lowers (program : Program) (change : Build α) (rows : List Row)
    (known : α → Program → Prop) : Prop :=
  (program.Admits (rows.map Row.name) ∧ ∃ result after, change.on program = (.ok result, after)
      ∧ program.Continues (rows.filterMap Row.type?) (rows.filterMap Row.member?) after
      ∧ known result after)
    ∨ ∃ before name rest, rows.map Row.name = before ++ name :: rest ∧ program.Admits before
      ∧ (program.declares name = true ∨ name ∈ before)
      ∧ (change.on program).1 = .error name.taken

namespace Lowers

/-- A change that adds no row and does not fail. -/
theorem silent {change : Build α} {result : α} {after : Program}
    (on : change.on program = (.ok result, after)) (continues : program.Continues [] [] after)
    (h : known result after) : Lowers program change [] known :=
  .inl ⟨⟨List.nodup_nil, by simp⟩, result, after, on, continues, h⟩

theorem bind {first : Build α} {next : α → Build β} (hfirst : Lowers program first rows known)
    (hnext : ∀ result after, program.Continues (rows.filterMap Row.type?)
      (rows.filterMap Row.member?) after → known result after →
        Lowers after (next result) more final) :
    Lowers program (first >>= next) (rows ++ more) final := by
  unfold Lowers
  rw [on_bind]
  rcases hfirst with ⟨admits, result, between, on, continues, hknown⟩
    | ⟨before, name, rest, split, admits, taken, failed⟩
  · rw [on, List.map_append, List.filterMap_append, List.filterMap_append]
    rcases hnext result between continues hknown with ⟨admits', result', after, on', continues', h⟩
      | ⟨before, name, rest, split, admits', taken, failed⟩
    · exact .inl ⟨continues.admits_append admits admits', result', after, on',
        continues.trans continues', h⟩
    · refine .inr ⟨rows.map Row.name ++ before, name, rest, ?_,
        continues.admits_append admits admits', ?_, failed⟩
      · rw [split, List.append_assoc]
      · rw [continues.declares_iff, or_assoc, ← List.mem_append] at taken
        exact taken
  · refine .inr ⟨before, name, rest ++ more.map Row.name, ?_, admits, taken, ?_⟩
    · rw [List.map_append, split, List.append_assoc, List.cons_append]
    · cases hon : first.on program with
      | mk outcome left =>
          rw [hon] at failed
          cases failed
          rfl

/-- A change for each item of a list, made while something lasts. -/
theorem forM {items : List β} {change : β → Build PUnit} {rowsOf : β → List Row}
    {lasting : Program → Prop} (closed : ∀ program, lasting program → program.Closed)
    (lasts : ∀ before types members after, lasting before →
      before.Continues types members after → lasting after)
    (each : ∀ item ∈ items, ∀ program, lasting program →
      Lowers program (change item) (rowsOf item) fun _ _ => True)
    (begins : lasting program) :
    Lowers program (items.forM change) (items.flatMap rowsOf) fun _ _ => True := by
  induction items generalizing program with
  | nil => exact silent rfl (.refl (closed program begins)) trivial
  | cons item rest ih =>
      show Lowers program (change item >>= fun _ => rest.forM change) _ _
      refine (each item List.mem_cons_self program begins).bind fun _ after continues _ => ?_
      exact ih (fun other hmem => each other (List.mem_cons_of_mem _ hmem))
        (lasts _ _ _ _ begins continues)

end Lowers

/-- A change that makes entries which stand apart adds their rows. -/
theorem Makes.lowers {change : Build α} {entries : List NewEntry} {result : α}
    {finish : Program → Program} (made : Makes program change entries result finish)
    (apart : program.Apart entries) (names : entries.map program.nameOf = rows.map Row.name)
    (continues : program.Continues (rows.filterMap Row.type?) (rows.filterMap Row.member?)
      (finish (program.withEntries entries)))
    (h : known result (finish (program.withEntries entries))) :
    Lowers program change rows known := by
  have admits : ∀ left right : List NewEntry, entries = left ++ right →
      (∀ entry ∈ left, program.refuses entry = false) →
      program.Admits (left.map program.nameOf) := by
    rintro left right rfl free
    refine ⟨?_, ?_⟩
    · rw [List.Nodup, List.pairwise_map]
      exact (List.pairwise_append.mp apart).1.imp fun h => h.2
    · intro name hname
      obtain ⟨entry, hentry, rfl⟩ := List.mem_map.mp hname
      exact free entry hentry
  unfold Makes at made
  rcases apart.attempt_cases with ⟨free, run⟩ | ⟨left, entry, rest, rfl, free, refused, run⟩
  · rw [run] at made
    refine .inl ⟨?_, result, _, made, continues, h⟩
    rw [← names]
    exact admits entries [] (List.append_nil _).symm free
  · rw [run] at made
    refine .inr ⟨left.map program.nameOf, program.nameOf entry, rest.map program.nameOf, ?_,
      admits left (entry :: rest) rfl free, .inl refused, by rw [made]⟩
    rw [← names, List.map_append, List.map_cons]

/-! ### The additions of a manifest -/

theorem makes_discard {change : Build α} {entries : List NewEntry} {result : α}
    {finish : Program → Program} (made : Makes program change entries result finish) :
    Makes program (discard change) entries () finish :=
  made.map _

/-- A member that stands alone is made as a family of its own. -/
theorem makes_alone (type : TypeId) (decl : MemberDecl) :
    Makes program (discard (addMember type decl))
      (Family.entries { head := decl } type ⟨program.members.size⟩) ()
      (Family.finish { head := decl } ⟨program.members.size⟩) := by
  have finish : Family.finish { head := decl } ⟨program.members.size⟩ = id :=
    funext fun _ => Program.linked_nil
  rw [finish]
  exact makes_discard (makes_insertMember program type decl .declared)

end Build

open Build

namespace ManifestMember

theorem family_property (name : String) (type : TypeKey) (getter setter : Option AccessorDecl)
    (automatic isStatic : Bool) (marks : List Mark) :
    (property name type getter setter automatic isStatic marks).family
      = (if automatic then
          PropertyDecl.auto { name, type, flags := { isStatic }, getter, setter, marks }
        else { name, type, flags := { isStatic }, getter, setter, marks }).family := by
  cases getter <;> cases setter <;> cases automatic <;> rfl

theorem distinct_family (member : ManifestMember) : member.family.Distinct := by
  cases member with
  | property name type getter setter automatic isStatic marks =>
      rw [family_property]
      exact PropertyDecl.distinct_family _
  | event name type add remove automatic isStatic marks =>
      exact EventDecl.distinct_family
        { name, type, flags := { isStatic }, add, remove, automatic, marks }
  | method | constructor | operator | field => exact List.pairwise_singleton _ _

/-- Lowering a member makes what it expands into. -/
theorem makes_lower (program : Program) (type : TypeId) (member : ManifestMember) :
    Makes program (member.lower type) (member.family.entries type ⟨program.members.size⟩) ()
      (member.family.finish ⟨program.members.size⟩) := by
  cases member with
  | method name params returns body isStatic isVirtual marks => exact makes_alone type _
  | constructor params body isStatic marks =>
      cases isStatic with
      | false => exact makes_alone type _
      | true => exact makes_alone type _
  | operator op params returns body marks => exact makes_alone type _
  | field name fieldType isStatic marks => exact makes_alone type _
  | property name propertyType getter setter automatic isStatic marks =>
      rw [family_property]
      obtain ⟨ids, made⟩ := makes_addProperty program type _
      exact makes_discard made
  | event name eventType add remove automatic isStatic marks =>
      obtain ⟨ids, made⟩ := makes_addEvent program type _
      exact makes_discard made

end ManifestMember

/-! ### The tree of a manifest -/

/-- A type is loaded under a key, in an assembly of some name. -/
structure Program.Stands (id : TypeId) (key : TypeKey) (assembly : String) (program : Program) :
    Prop where
  closed : program.Closed
  has : program.HasType id
  key : (program.type id).key = key
  assembly : (program.assembly (program.type id).assembly).name = assembly

namespace Program.Stands

variable {id : TypeId} {key : TypeKey} {assembly : String} {program after : Program}
  {types : List TypeRow} {members : List MemberRow}

theorem lasts (h : program.Stands id key assembly)
    (continues : program.Continues types members after) : after.Stands id key assembly where
  closed := continues.closed
  has := (continues.names.types id h.has).1
  key := (continues.names.types id h.has).2.1.trans h.key
  assembly := by
    rw [(continues.names.types id h.has).2.2,
      (continues.names.assemblies _ (h.closed.assembly id h.has)).2]
    exact h.assembly

end Program.Stands

namespace Build

variable {program : Program}

theorem lowers_listedType {change : Build TypeId} {assembly : AssemblyId} {key : TypeKey}
    {around : Option TypeId} {decl : TypeDecl} (closed : program.Closed)
    (has : program.HasAssembly assembly)
    (inside : ∀ outer, around = some outer → program.HasType outer)
    (made : Makes program change [.type assembly key around decl] ⟨program.types.size⟩ id) :
    Lowers program change
      [.type {
        assembly := (program.assembly assembly).name
        enclosing := around.map fun outer => (program.type outer).key
        key := key
        kind := decl.kind
        flags := decl.flags
        base := decl.base
        marks := decl.marks }]
      fun id after => after.Stands id key (program.assembly assembly).name := by
  let grown := program.withTypeListed assembly key around decl
  have continues : program.Continues _ [] grown := closed.continues_withTypeListed has inside
  have new : (grown.type ⟨program.types.size⟩).key = key
      ∧ (grown.type ⟨program.types.size⟩).assembly = assembly
      ∧ (grown.type ⟨program.types.size⟩).enclosing = around := Program.withTypeListed_new
  refine made.lowers (List.pairwise_singleton _ _) rfl continues ?_
  refine ⟨continues.closed, Program.withTypeListed_hasType.mpr (.inr rfl), new.1, ?_⟩
  show (grown.assembly (grown.type ⟨program.types.size⟩).assembly).name = _
  rw [new.2.1]
  exact (continues.names.assemblies assembly has).2

end Build

open Build

variable {program : Program} {id : TypeId} {key : TypeKey} {assembly : String}

theorem filterMap_member (rows : List MemberRow) :
    (rows.map Row.member).filterMap Row.type? = []
      ∧ (rows.map Row.member).filterMap Row.member? = rows := by
  simp [List.filterMap_map, Function.comp_def, Row.type?, Row.member?]

theorem ManifestMember.lowers_lower (stands : program.Stands id key assembly)
    (member : ManifestMember) :
    Lowers program (member.lower id) ((member.family.rows key).map .member) fun _ _ => True := by
  have continues := stands.closed.continues_family stands.has member.family
  rw [stands.key] at continues
  refine (member.makes_lower program id).lowers (member.distinct_family.apart program id _) ?_ ?_
    trivial
  · rw [Family.map_nameOf_entries, stands.key, List.map_map]
    rfl
  · rw [(filterMap_member _).1, (filterMap_member _).2]
    exact continues

namespace ManifestType

mutual

theorem lowers_lowerInto : ∀ (type : ManifestType) {program : Program} {id : TypeId}
    {key : TypeKey}, program.Stands id key assembly →
      Lowers program (lowerInto id type) (type.contents assembly key) fun _ _ => True
  | ⟨_, _, _, _, _, _, nested⟩, _, _, _, stands =>
      Lowers.bind
        (.forM (fun _ h => h.closed) (fun _ _ _ _ h continues => h.lasts continues)
          (fun member _ _ h => member.lowers_lower h) stands)
        fun _ _ continues _ => lowers_lowerNested nested (stands.lasts continues)

theorem lowers_lowerNested : ∀ (types : List ManifestType) {program : Program} {id : TypeId}
    {key : TypeKey}, program.Stands id key assembly →
      Lowers program (lowerNested id types) (nestedRows assembly key types) fun _ _ => True
  | [], _, _, _, stands => .silent rfl (.refl stands.closed) trivial
  | type :: rest, program, id, key, stands => by
      have made := makes_addNestedType program id type.head
      have head := lowers_listedType stands.closed (stands.closed.assembly id stands.has)
        (fun _ houter => by cases houter; exact stands.has) made
      rw [Option.map_some, stands.key, stands.assembly] at head
      refine head.bind fun new after continues hnew => ?_
      refine (lowers_lowerInto type hnew).bind fun _ _ continues' _ => ?_
      exact lowers_lowerNested rest ((stands.lasts continues).lasts continues')

end

end ManifestType

/-! ### Assemblies -/

/-- An assembly is loaded under a name. -/
structure Program.Hosts (id : AssemblyId) (name : String) (program : Program) : Prop where
  closed : program.Closed
  has : program.HasAssembly id
  name : (program.assembly id).name = name

theorem Program.Hosts.lasts {id : AssemblyId} {name : String} {program after : Program}
    {types : List TypeRow} {members : List MemberRow} (h : program.Hosts id name)
    (continues : program.Continues types members after) : after.Hosts id name :=
  ⟨continues.closed, (continues.names.assemblies id h.has).1,
    (continues.names.assemblies id h.has).2.trans h.name⟩

namespace Build

theorem lowers_addAssembly {program : Program} (closed : program.Closed) (name : String) :
    Lowers program (addAssembly name) [] fun id after => after.Hosts id name := by
  let grown : Array Assembly :=
    program.assemblies.push { id := ⟨program.assemblies.size⟩, name := name }
  have continues : program.Continues [] [] { program with assemblies := grown } := by
    refine closed.continues_assemblies fun id has => ?_
    rw [Array.size_push, Program.getD_push, if_neg (Nat.ne_of_lt has)]
    exact ⟨Nat.lt_succ_of_lt has, rfl⟩
  refine .silent rfl continues ⟨continues.closed, ?_, ?_⟩
  · show program.assemblies.size < grown.size
    rw [Array.size_push]
    exact Nat.lt_succ_self _
  · show (grown.getD program.assemblies.size default).name = name
    rw [Program.getD_push, if_pos rfl]

theorem lowers_markAssembly {program : Program} (closed : program.Closed) (id : AssemblyId)
    (mark : Mark) : Lowers program (markAssembly id mark) [] fun _ _ => True := by
  refine .silent rfl (closed.continues_assemblies fun other has => ⟨?_, ?_⟩) trivial
  · rw [Array.size_modify]
    exact has
  · refine Program.read_getD_modify program.assemblies (·.name) ?_ _ _
    exact fun _ => rfl

end Build

theorem ManifestType.lowers_lower {program : Program} {id : AssemblyId} {name : String}
    (hosts : program.Hosts id name) (type : ManifestType) :
    Lowers program (type.lower id) (type.rows name) fun _ _ => True := by
  have head := lowers_listedType hosts.closed hosts.has (fun _ houter => by cases houter)
    (makes_addType program id type.head)
  rw [hosts.name] at head
  exact head.bind fun _ _ _ stands => type.lowers_lowerInto stands

theorem ManifestAssembly.lowers_lower {program : Program} (closed : program.Closed)
    (assembly : ManifestAssembly) :
    Lowers program assembly.lower
      (assembly.types.flatMap fun type => type.rows assembly.name) fun _ _ => True := by
  refine (lowers_addAssembly closed assembly.name).bind fun id added _ hosts => ?_
  have marks : Lowers added (assembly.marks.forM (markAssembly id)) [] fun _ _ => True := by
    have each := Lowers.forM (fun _ (h : Program.Closed _) => h) (fun _ _ _ _ _ h => h.closed)
      (fun mark (_ : mark ∈ assembly.marks) _ h => lowers_markAssembly h id mark) hosts.closed
    rw [List.flatMap_eq_nil_iff.mpr fun _ _ => rfl] at each
    exact each
  refine marks.bind fun _ marked continues _ => ?_
  exact .forM (fun _ h => h.closed) (fun _ _ _ _ h continues => h.lasts continues)
    (fun type _ _ h => type.lowers_lower h) (hosts.lasts continues)

namespace Manifest

theorem lowers_lower (manifest : Manifest) :
    Lowers {} manifest.lower manifest.rows fun _ _ => True := by
  have closed : ({} : Program).Closed := by
    refine ⟨?_, ?_, ?_, ?_, ?_⟩
    · exact fun _ has => absurd has (Nat.not_lt_zero _)
    · exact fun _ _ has => absurd has (Nat.not_lt_zero _)
    · exact fun _ has => absurd has (Nat.not_lt_zero _)
    · exact fun _ _ has => absurd has (Nat.not_lt_zero _)
    · exact fun _ has => absurd has (Nat.not_lt_zero _)
  exact .forM (fun _ h => h) (fun _ _ _ _ _ continues => continues.closed)
    (fun assembly _ _ h => assembly.lowers_lower h) closed

/--
**A manifest is lowered exactly.**  Lowering succeeds if and only if the keys of all types are
distinct and so are the identities of all members, expanded.  What comes of it has the types
and members of the manifest in document order and no others.  Where lowering fails, the error
tells of the first row in document order that repeats a name.
-/
theorem toProgram_follows_document (manifest : Manifest) :
    ((∃ program, manifest.toProgram = .ok program)
        ↔ (manifest.typeRows.map (·.key)).Nodup ∧ (manifest.memberRows.map (·.identity)).Nodup)
      ∧ (∀ program, manifest.toProgram = .ok program →
          program.typeRows = manifest.typeRows ∧ program.memberRows = manifest.memberRows)
      ∧ ∀ error, manifest.toProgram = .error error →
          ∃ before name rest, manifest.rows.map Row.name = before ++ name :: rest
            ∧ before.Nodup ∧ name ∈ before ∧ error = name.taken := by
  have nothing : ∀ name, ({} : Program).declares name = false := by
    intro name
    cases name <;> rfl
  rw [typeRows, memberRows, ← Row.nodup_names_iff]
  rcases manifest.lowers_lower with ⟨admits, result, after, on, continues, -⟩
    | ⟨before, name, rest, split, admits, taken, failed⟩
  · have lowered : manifest.toProgram = .ok after := by
      unfold toProgram
      rw [on]
    rw [lowered]
    refine ⟨⟨fun _ => admits.1, fun _ => ⟨after, rfl⟩⟩, ?_, fun error h => by cases h⟩
    rintro program ⟨⟩
    exact ⟨continues.typeRows, continues.memberRows⟩
  · have repeated : name ∈ before := taken.resolve_left (by rw [nothing]; exact Bool.false_ne_true)
    have refused : manifest.toProgram = .error name.taken := by
      unfold toProgram
      cases hon : manifest.lower.on {} with
      | mk outcome left =>
          rw [hon] at failed
          cases failed
          rfl
    rw [refused]
    refine ⟨⟨?_, fun nodup => ?_⟩, (fun program h => by cases h), ?_⟩
    · rintro ⟨program, ⟨⟩⟩
    · rw [split] at nodup
      exact absurd rfl ((List.nodup_append.mp nodup).2.2 name repeated name List.mem_cons_self)
    · rintro error ⟨⟩
      exact ⟨before, name, rest, split, admits.1, repeated, rfl⟩

/-- A gauge with an automatic property, an event and a dial inside it, and a type whose name
looks as if it were inside the gauge as well. -/
def gaugeWithDial (last : String) : Manifest :=
  { assemblies :=
      [{ name := "Lib"
         marks := []
         types :=
          [{ name := "Gauge", kind := .classType, base := none, isStatic := false, marks := []
             members :=
              [.property "Level" ⟨"System.Int32"⟩ none none true false [],
               .event "Turned" ⟨"System.Action"⟩ {} {} false false []]
             nested :=
              [{ name := "Dial", kind := .structType, base := none, isStatic := false, marks := []
                 members := [.field "angle" ⟨"System.Int32"⟩ false []]
                 nested := [] }] },
           { name := last, kind := .classType, base := some ⟨"Gauge"⟩, isStatic := false
             marks := []
             members := []
             nested := [] }] }] }

/-- The dial comes after the members of the gauge and before the next type. -/
theorem toProgram_follows_document_gaugeWithDial :
    ∃ program, (gaugeWithDial "Gauge+Hand").toProgram = .ok program
      ∧ program.typeRows.map (fun row => (row.key, row.enclosing))
        = [(⟨"Gauge"⟩, none), (⟨"Gauge+Dial"⟩, some ⟨"Gauge"⟩), (⟨"Gauge+Hand"⟩, none)]
      ∧ program.memberRows.map (fun row => (row.declaringType, row.decl.name, row.accessors.length))
        = [(⟨"Gauge"⟩, .named "Level", 2), (⟨"Gauge"⟩, .named "get_Level", 0),
            (⟨"Gauge"⟩, .named "set_Level", 0), (⟨"Gauge"⟩, .named "<Level>k__BackingField", 0),
            (⟨"Gauge"⟩, .named "Turned", 2), (⟨"Gauge"⟩, .named "add_Turned", 0),
            (⟨"Gauge"⟩, .named "remove_Turned", 0), (⟨"Gauge+Dial"⟩, .named "angle", 0)] := by
  obtain ⟨lowers, follows, -⟩ := toProgram_follows_document (gaugeWithDial "Gauge+Hand")
  obtain ⟨program, lowered⟩ := lowers.mpr ⟨by decide +kernel, by decide +kernel⟩
  obtain ⟨types, members⟩ := follows program lowered
  refine ⟨program, lowered, ?_, ?_⟩
  · rw [types]
    decide +kernel
  · rw [members]
    decide +kernel

/-- A key may be taken by a type inside another. -/
example :
    (gaugeWithDial "Gauge+Dial").toProgram = .error (.duplicateType ⟨"Gauge+Dial"⟩) := by
  decide +kernel

end Manifest

end MemberResolution
