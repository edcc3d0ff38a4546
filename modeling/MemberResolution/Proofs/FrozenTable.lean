/-
A frozen table tells what a session would tell.

A session answers one question after another and keeps what it found, a table is made all at
once and has verdicts of its own, and a report is written in yet another pass.  What each of
them says is what the resolver finds afresh: for a session that is known, and for the other
two it is read off the pass that both are made by.  So they agree, and whatever a session
was asked before makes no difference.

A table is a list of entries, each made from its own key.  That is all a look-up needs: under
a key there stands what the resolver finds for it, if the pass came by, and else nothing.
-/
import MemberResolution.Proofs.DecisionTable
import MemberResolution.Proofs.WholePass

namespace MemberResolution

namespace Program

variable {program : Program}

/-- A type that is no proxy. -/
structure IsPlainType (program : Program) (id : TypeId) : Prop where
  known : program.HasType id
  plain : (program.type id).isProxy = false

theorem WellFormed.mem_plainTypes_id (h : program.WellFormed) {id : TypeId} :
    id ∈ program.plainTypes.map (·.id) ↔ program.IsPlainType id := by
  rw [List.mem_map]
  refine ⟨?_, ?_⟩
  · rintro ⟨type, hmem, rfl⟩
    obtain ⟨has, hread, plain⟩ := (mem_plainTypes h).mp hmem
    exact ⟨has, by rw [hread]; exact plain⟩
  · intro plain
    have hid := h.typeId id plain.known
    refine ⟨program.type id, (mem_plainTypes h).mpr ?_, hid⟩
    rw [hid]
    exact ⟨plain.known, rfl, plain.plain⟩

theorem WellFormed.mem_plainTypes_members (h : program.WellFormed) {id : MemberId} :
    id ∈ program.plainTypes.flatMap (·.members) ↔ program.IsPlain id := by
  rw [List.mem_flatMap]
  refine ⟨?_, ?_⟩
  · rintro ⟨type, hmem, hid⟩
    obtain ⟨has, hread, plain⟩ := (mem_plainTypes h).mp hmem
    rw [← hread] at hid plain
    obtain ⟨hasMember, hdeclaring⟩ := h.declares type.id has id hid
    exact ⟨hasMember, by rw [hdeclaring]; exact plain⟩
  · intro plain
    have has := h.declaringType id plain.known
    refine ⟨program.type (program.member id).declaringType, (mem_plainTypes h).mpr ?_,
      h.listed id plain.known⟩
    rw [h.typeId _ has]
    exact ⟨has, rfl, plain.plain⟩

end Program

/-! ### What stands in a table -/

/-- Where each entry is what its key gives, a look-up finds what the key gives. -/
theorem lookup_eq_some_iff_of_given {κ ν ε : Type} [DecidableEq κ] {given : κ → Except ε ν}
    {keys : List κ} {entries : List (κ × ν)}
    (all : List.Forall₂ (fun key entry => entry.1 = key ∧ given key = .ok entry.2) keys entries)
    {key : κ} {value : ν} :
    entries.lookup key = some value ↔ key ∈ keys ∧ given key = .ok value := by
  induction all with
  | nil => simp
  | @cons first entry keys entries hentry _ ih =>
      obtain ⟨place, found⟩ := entry
      obtain ⟨rfl, hgiven⟩ := hentry
      by_cases heq : key = place
      · subst heq
        simp [hgiven]
      · have hne : (key == place) = false := beq_eq_false_iff_ne.mpr heq
        rw [List.lookup_cons, hne, List.mem_cons]
        simp only [heq, false_or]
        exact ih

theorem mem_iff_of_given {κ ν ε : Type} {given : κ → Except ε ν} {keys : List κ}
    {entries : List (κ × ν)}
    (all : List.Forall₂ (fun key entry => entry.1 = key ∧ given key = .ok entry.2) keys entries)
    {key : κ} {value : ν} :
    (key, value) ∈ entries ↔ key ∈ keys ∧ given key = .ok value := by
  refine ⟨fun hmem => ?_, ?_⟩
  · obtain ⟨other, hother, rfl, hgiven⟩ := exists_of_mem_forall₂ all.flip hmem
    exact ⟨hother, hgiven⟩
  · rintro ⟨hkey, hgiven⟩
    obtain ⟨entry, hmem, rfl, hentry⟩ := exists_of_mem_forall₂ all hkey
    rw [hgiven] at hentry
    cases hentry
    exact hmem

namespace Resolver

variable {resolver : Resolver}

/-- A row is a type with its members, all resolved. -/
structure IsRow (resolver : Resolver) (loaded : LoadedType)
    (row : ResolvedType × List ResolvedMember) : Prop where
  type : row.1 = resolver.resolveType loaded.id
  members : List.Forall₂ (fun id found => resolver.resolveMember id = .ok found)
    loaded.members row.2

/-- A pass that does not fail has a row for each plain type. -/
theorem rows_of_resolveAll {rows : List (ResolvedType × List ResolvedMember)}
    (resolved : resolver.resolveAll = .ok rows) :
    List.Forall₂ resolver.IsRow resolver.program.plainTypes rows := by
  obtain ⟨_, -, pass⟩ := bind_eq_ok_iff.mp resolved
  refine (forall₂_of_mapM_eq_ok pass).imp fun type row hrow => ?_
  obtain ⟨htype, hmembers⟩ := resolveRow_eq_ok_iff.mp hrow
  exact ⟨htype, forall₂_of_mapM_eq_ok hmembers⟩

theorem member_of_resolveMember {id : MemberId} {resolved : ResolvedMember}
    (found : resolver.resolveMember id = .ok resolved) : resolved.member = id := by
  obtain ⟨outcome, -, ⟨⟩⟩ := bind_eq_ok_iff.mp found
  rfl

variable {types : List LoadedType} {rows : List (ResolvedType × List ResolvedMember)}

theorem types_ofRows (all : List.Forall₂ resolver.IsRow types rows) (complete : Bool) :
    List.Forall₂ (fun id entry => entry.1 = id
        ∧ (.ok (resolver.resolveType id) : Except ConfigurationError _) = .ok entry.2)
      (types.map (·.id)) (Table.ofRows complete rows).types := by
  unfold Table.ofRows
  refine List.forall₂_map_left_iff.mpr (List.forall₂_map_right_iff.mpr ?_)
  refine all.imp fun type row hrow => ?_
  rw [hrow.type]
  exact ⟨rfl, rfl⟩

theorem members_ofRows (all : List.Forall₂ resolver.IsRow types rows) (complete : Bool) :
    List.Forall₂ (fun id entry => entry.1 = id ∧ resolver.resolveMember id = .ok entry.2)
      (types.flatMap (·.members)) (Table.ofRows complete rows).members := by
  unfold Table.ofRows
  induction all with
  | nil => exact .nil
  | cons hrow _ ih =>
      simp only [List.flatMap_cons]
      refine List.rel_append ?_ ih
      refine List.forall₂_map_right_iff.mpr (hrow.members.imp fun id found hfound => ?_)
      exact ⟨member_of_resolveMember hfound, hfound⟩

variable {complete : Bool}

/-- **A table holds what the resolver finds for each plain type**, and no other type. -/
theorem type?_ofRows (h : resolver.program.WellFormed) (resolved : resolver.resolveAll = .ok rows)
    {id : TypeId} {found : ResolvedType} :
    (Table.ofRows complete rows).type? id = some found
      ↔ resolver.program.IsPlainType id ∧ resolver.resolveType id = found := by
  rw [Table.type?,
    lookup_eq_some_iff_of_given (types_ofRows (rows_of_resolveAll resolved) complete),
    h.mem_plainTypes_id, Except.ok.injEq]

/-- **A table holds what the resolver finds for each plain member**, and no other member. -/
theorem member?_ofRows (h : resolver.program.WellFormed)
    (resolved : resolver.resolveAll = .ok rows) {id : MemberId} {found : ResolvedMember} :
    (Table.ofRows complete rows).member? id = some found
      ↔ resolver.program.IsPlain id ∧ resolver.resolveMember id = .ok found := by
  rw [Table.member?,
    lookup_eq_some_iff_of_given (members_ofRows (rows_of_resolveAll resolved) complete),
    h.mem_plainTypes_members]

theorem mem_members_ofRows (h : resolver.program.WellFormed)
    (resolved : resolver.resolveAll = .ok rows) {id : MemberId} {found : ResolvedMember} :
    (id, found) ∈ (Table.ofRows complete rows).members
      ↔ resolver.program.IsPlain id ∧ resolver.resolveMember id = .ok found := by
  rw [mem_iff_of_given (members_ofRows (rows_of_resolveAll resolved) complete),
    h.mem_plainTypes_members]

theorem exists_of_resolveAll (h : resolver.program.WellFormed)
    (resolved : resolver.resolveAll = .ok rows) {id : MemberId}
    (plain : resolver.program.IsPlain id) :
    ∃ found, resolver.resolveMember id = .ok found := by
  obtain ⟨entry, -, -, hfound⟩ := exists_of_mem_forall₂
    (members_ofRows (rows_of_resolveAll resolved) true) (h.mem_plainTypes_members.mpr plain)
  exact ⟨entry.2, hfound⟩

end Resolver

/-! ### The table, the session and the report -/

namespace Table

/-- What a report says of a type, by what a table holds. -/
def typeRecord? (table : Table) (program : Program) (type : LoadedType) : Option TypeRecord := do
  let resolved ← table.type? type.id
  let members ← type.members.mapM table.member?
  return TypeRecord.ofResolved program table.completeMessages resolved
    (members.map (MemberRecord.ofResolved program table.completeMessages))

/-- A table holds just what is no proxy, and tells of it what a session tells. -/
structure Mirrors (table : Table) (live : Session) : Prop where
  member : ∀ id, live.resolver.program.IsPlain id → ∃ resolved,
    table.member? id = some resolved ∧ (live.answer (Ask.resolveMember id)).1 = .ok resolved
  invocation : ∀ id, live.resolver.program.IsPlain id → ∃ access,
    table.checkInvocation? id = some access
      ∧ (live.answer (Ask.checkInvocation id)).1 = .ok access
  type : ∀ id, live.resolver.program.IsPlainType id → ∃ resolved,
    table.type? id = some resolved ∧ (live.answer (Ask.resolveType id)).1 = .ok resolved
  typeCheck : ∀ id, live.resolver.program.IsPlainType id → ∃ check,
    table.checkType? live.resolver.program id = some check
      ∧ (live.answer (Ask.checkType id)).1 = .ok check
  /-- It has neither an entry nor a verdict for any other member. -/
  otherMember : ∀ id, ¬ live.resolver.program.IsPlain id →
    table.member? id = none ∧ table.checkInvocation? id = none
  /-- Nor for any other type. -/
  otherType : ∀ id, ¬ live.resolver.program.IsPlainType id →
    table.type? id = none ∧ table.checkType? live.resolver.program id = none

theorem checkInvocation?_eq (table : Table) (id : MemberId) :
    table.checkInvocation? id
      = (table.member? id).map (·.invocation table.completeMessages) := by
  unfold checkInvocation?
  congr 1
  funext resolved
  unfold ResolvedMember.invocation
  cases resolved.outcome <;> rfl

theorem checkType?_eq (table : Table) (program : Program) (id : TypeId) :
    table.checkType? program id
      = (table.type? id).map (·.check (program.type id).kind table.completeMessages) := by
  unfold checkType?
  congr 1
  funext resolved
  unfold ResolvedType.check
  cases resolved.outcome <;> rfl

/-- The table of a pass mirrors every session of its resolver. -/
theorem mirrors_ofRows {live : Session} (h : live.Sound)
    {rows : List (ResolvedType × List ResolvedMember)}
    (resolved : live.resolver.resolveAll = .ok rows) :
    (Table.ofRows live.options.completeMessages rows).Mirrors live where
  member id plain := by
    obtain ⟨found, hfound⟩ := Resolver.exists_of_resolveAll h.wellFormed resolved plain
    refine ⟨found, (Resolver.member?_ofRows h.wellFormed resolved).mpr ⟨plain, hfound⟩, ?_⟩
    rw [(Session.answers_resolveMember h plain.known).value, hfound]
  invocation id plain := by
    obtain ⟨found, hfound⟩ := Resolver.exists_of_resolveAll h.wellFormed resolved plain
    have hask := (Session.answers_resolveMember h plain.known).verdict h
      (fun session resolved => resolved.invocation session.options.completeMessages)
      fun after advances => by rw [advances.options]
    refine ⟨found.invocation live.options.completeMessages, ?_, hask.value.trans ?_⟩
    · rw [checkInvocation?_eq,
        (Resolver.member?_ofRows h.wellFormed resolved).mpr ⟨plain, hfound⟩]
      rfl
    · rw [hfound]
      rfl
  type id plain := by
    refine ⟨live.resolver.resolveType id,
      (Resolver.type?_ofRows h.wellFormed resolved).mpr ⟨plain, rfl⟩, ?_⟩
    rw [(Session.answers_resolveType h plain.known).value]
  typeCheck id plain := by
    have hask := (Session.answers_resolveType h plain.known).verdict h
      (fun session resolved => resolved.check (session.resolver.program.type id).kind
        session.options.completeMessages)
      fun after advances => by rw [advances.options, advances.resolver]
    refine ⟨(live.resolver.resolveType id).check (live.resolver.program.type id).kind
      live.options.completeMessages, ?_, hask.value⟩
    rw [checkType?_eq, (Resolver.type?_ofRows h.wellFormed resolved).mpr ⟨plain, rfl⟩]
    rfl
  otherMember id other := by
    have absent : (Table.ofRows live.options.completeMessages rows).member? id = none := by
      refine Option.eq_none_iff_forall_ne_some.mpr fun found hfound => other ?_
      exact ((Resolver.member?_ofRows h.wellFormed resolved).mp hfound).1
    exact ⟨absent, by rw [checkInvocation?_eq, absent]; rfl⟩
  otherType id other := by
    have absent : (Table.ofRows live.options.completeMessages rows).type? id = none := by
      refine Option.eq_none_iff_forall_ne_some.mpr fun found hfound => other ?_
      exact ((Resolver.type?_ofRows h.wellFormed resolved).mp hfound).1
    exact ⟨absent, by rw [checkType?_eq, absent]; rfl⟩

/-- The records of a report are those of the table. -/
theorem typeRecords_ofRows {resolver : Resolver} (h : resolver.program.WellFormed)
    (complete : Bool) (stats : CacheStats) {rows : List (ResolvedType × List ResolvedMember)}
    (resolved : resolver.resolveAll = .ok rows) :
    List.Forall₂ (fun type record =>
        (Table.ofRows complete rows).typeRecord? resolver.program type = some record)
      resolver.program.plainTypes
      (Report.ofRows resolver.program complete stats rows).types := by
  refine List.forall₂_map_right_iff.mpr ?_
  have all := (List.forall₂_and_left _ _).mpr
    ⟨fun _ hmem => hmem, Resolver.rows_of_resolveAll resolved⟩
  refine all.imp fun type row hrow => ?_
  obtain ⟨hmem, htype, hmembers⟩ := hrow
  have plain : resolver.program.IsPlainType type.id :=
    h.mem_plainTypes_id.mp (List.mem_map_of_mem hmem)
  have held : List.Forall₂ (fun id found => (Table.ofRows complete rows).member? id = some found)
      type.members row.2 := by
    have listed := (List.forall₂_and_left _ _).mpr ⟨fun _ hid => hid, hmembers⟩
    refine listed.imp fun id found hfound => (Resolver.member?_ofRows h resolved).mpr ?_
    exact ⟨h.mem_plainTypes_members.mp (List.mem_flatMap.mpr ⟨type, hmem, hfound.1⟩), hfound.2⟩
  unfold typeRecord?
  rw [(Resolver.type?_ofRows h resolved).mpr ⟨plain, rfl⟩, mapM_eq_some_of_forall₂ held, htype]
  rfl

end Table

namespace Session

/-- What a session freezes, what another one answers and what the report on their program says
come to the same. -/
structure FreezesAlike (session live : Session) (program : Program) (options : Options) :
    Prop where
  /-- Freezing fails with what reporting fails with. -/
  fails : ∀ error, (session.answer Ask.freeze).1 = .error error
    ↔ program.resolve options = .error error
  /-- A table mirrors the other session, and the records of the report are its own. -/
  freezes : ∀ table, (session.answer Ask.freeze).1 = .ok table →
    table.Mirrors live
      ∧ ∃ report, program.resolve options = .ok report
        ∧ List.Forall₂ (fun type record => table.typeRecord? program type = some record)
            program.plainTypes report.types

/--
**A frozen table, a session and a report are of one mind.**  Freezing fails just where
reporting on the program does, and with the same error, whatever the session was asked
before.  The table that is made otherwise holds what is no proxy and nothing else, and tells
of it what any session about the program tells, its own verdicts included; and the records
of the report are those of the table.
-/
theorem freeze_mirrors {program : Program} (built : program.Buildable) (options : Options)
    {asked later : List Query} (fits : ∀ query ∈ asked, query.Fits program)
    (fitsLater : ∀ query ∈ later, query.Fits program) :
    ((start program options).after asked).FreezesAlike ((start program options).after later)
      program options := by
  have soundStart : (start program options).Sound := sound_start built.wellFormed options
  have advances := advances_after soundStart fits
  have advancesLive := advances_after soundStart fitsLater
  have hfreeze := answer_freeze (advances.sound soundStart)
  rw [advances.resolver, advances.options] at hfreeze
  have hreport := answer_report soundStart
  change program.resolve options = _ at hreport
  refine ⟨fun error => by rw [hfreeze, hreport, map_eq_error_iff, map_eq_error_iff], ?_⟩
  rw [hfreeze, hreport]
  cases hall : (start program options).resolver.resolveAll with
  | error error => exact nofun
  | ok rows =>
      rintro table ⟨⟩
      have hlive : ((start program options).after later).resolver.resolveAll = .ok rows := by
        rw [advancesLive.resolver]
        exact hall
      have mirrors := Table.mirrors_ofRows (advancesLive.sound soundStart) hlive
      rw [advancesLive.options] at mirrors
      exact ⟨mirrors, _, rfl, Table.typeRecords_ofRows built.wellFormed _ _ hall⟩

/-- A type with an external method and one that a proxy supplies, and an ignored
interface. -/
def mixedOutcomes : List Edit :=
  [.addAssembly "Lib",
   .addType ⟨0⟩ { name := "T", kind := .classType },
   .addMember ⟨0⟩ { MemberDecl.method "M" with marks := [.external] },
   .addMember ⟨0⟩ (.method "N"),
   .addType ⟨0⟩ { name := "I", kind := .interfaceType, marks := [.ignore] },
   .addType ⟨0⟩ { name := "P", kind := .classType, marks := [.proxy ⟨"T"⟩ true] },
   .addMember ⟨2⟩ (.method "N")]

/-- The table holds the two methods of the type, not the one of its proxy. -/
theorem freeze_mirrors_mixedOutcomes :
    let program := Program.afterEdits {} mixedOutcomes
    let asked : List Query := [.invocation ⟨0⟩, .member ⟨1⟩, .invalidate, .typeCheck ⟨1⟩]
    let later : List Query := [.type ⟨0⟩]
    let session := (start program {}).after asked
    let live := (start program {}).after later
    (program.Buildable ∧ (∀ query ∈ asked, query.Fits program)
        ∧ ∀ query ∈ later, query.Fits program)
      ∧ session.FreezesAlike live program {}
      ∧ ((session.answer Ask.freeze).1.map fun table =>
            (table.size, table.checkInvocation? ⟨1⟩, table.checkType? program ⟨1⟩))
          = .ok (2, some (.allowed "N"), some .alwaysFalse) := by
  have built : (Program.afterEdits {} mixedOutcomes).Buildable :=
    Program.Buildable.empty.afterEdits (by decide +kernel)
  have fits : ∀ query ∈ [Query.invocation ⟨0⟩, .member ⟨1⟩, .invalidate, .typeCheck ⟨1⟩],
      query.Fits (Program.afterEdits {} mixedOutcomes) := by
    decide +kernel
  have fitsLater : ∀ query ∈ [Query.type ⟨0⟩],
      query.Fits (Program.afterEdits {} mixedOutcomes) := by
    decide +kernel
  refine ⟨⟨built, fits, fitsLater⟩, freeze_mirrors built {} fits fitsLater, ?_⟩
  decide +kernel

end Session

end MemberResolution
