/-
What a report contains.

A report is on every type that is no proxy and on every member of one.  Which these are and in
which order they come is said here by position: a program gives out positions as types and
members are added, so whatever stands in the order of its positions stands in the order it was
added (`map_id_plainTypes`, `members_eq_declaredBy`).

A record of a member is made from the outcome, and each of the five sorts of outcome brings what
belongs to it and nothing else (`MemberRecord.agrees_ofResolved`).

The counts are those of a first pass.  It asks for each symbol once and finds nothing in the
cache (`Program.resolve_eq`), so what is left to do is to count the symbols.
-/
import MemberResolution.Proofs.FirstPass
import MemberResolution.Proofs.ReportLookup

namespace MemberResolution

namespace Program

variable {program : Program}

/-! ### What a report is on -/

/-- The types that are no proxies, in the order they were added. -/
def plainTypeIds (program : Program) : List TypeId :=
  ((List.range program.types.size).map TypeId.mk).filter fun id => !(program.type id).isProxy

/-- The members a type declares, in the order they were added. -/
def declaredBy (program : Program) (type : TypeId) : List MemberId :=
  ((List.range program.members.size).map MemberId.mk).filter fun id =>
    (program.member id).declaringType = type

theorem WellFormed.map_id_plainTypes (h : program.WellFormed) :
    program.plainTypes.map (·.id) = program.plainTypeIds := by
  unfold plainTypes plainTypeIds
  rw [types_toList, List.filter_map, List.filter_map, List.map_map]
  refine List.map_congr_left fun i hi => ?_
  exact h.typeId ⟨i⟩ (List.mem_range.mp (List.mem_of_mem_filter hi))

theorem mem_declaredBy {type : TypeId} {id : MemberId} :
    id ∈ program.declaredBy type
      ↔ program.HasMember id ∧ (program.member id).declaringType = type := by
  unfold declaredBy
  rw [List.mem_filter, decide_eq_true_eq, List.mem_map]
  refine and_congr_left' ⟨?_, fun has => ⟨id.index, List.mem_range.mpr has, rfl⟩⟩
  rintro ⟨i, hi, rfl⟩
  exact List.mem_range.mp hi

theorem pairwise_declaredBy (program : Program) (type : TypeId) :
    (program.declaredBy type).Pairwise fun a b => a.index < b.index := by
  refine List.Pairwise.filter _ ?_
  exact List.pairwise_map.mpr List.pairwise_lt_range

/-- **A type lists the members it declares, in the order they were added.** -/
theorem WellFormed.members_eq_declaredBy (h : program.WellFormed) {type : TypeId}
    (has : program.HasType type) :
    (program.type type).members = program.declaredBy type := by
  have ascending := program.pairwise_declaredBy type
  have nodup : (program.declaredBy type).Nodup :=
    ascending.imp fun hlt heq => Nat.ne_of_lt hlt (congrArg MemberId.index heq)
  refine List.Perm.eq_of_pairwise ?_ (h.ordered type has) ascending
    ((List.perm_ext_iff_of_nodup (h.members_nodup has) nodup).mpr fun id => ?_)
  · intro a b _ _ hab hba
    exact absurd hab (Nat.lt_asymm hba)
  · rw [mem_declaredBy]
    refine ⟨h.declares type has id, ?_⟩
    rintro ⟨known, rfl⟩
    exact h.listed id known

theorem length_flatMap_symbolsOf (types : List LoadedType) :
    (types.flatMap symbolsOf).length = types.length + (types.flatMap (·.members)).length := by
  induction types with
  | nil => rfl
  | cons type rest ih =>
      rw [List.flatMap_cons, List.flatMap_cons, List.length_append, List.length_append, ih,
        symbolsOf, List.length_cons, List.length_cons, List.length_map]
      omega

end Program

/-! ### What a record says -/

/-- What a record has beside the outcome is what belongs to the outcome. -/
structure MemberRecord.Agrees (record : MemberRecord) : Prop where
  /-- It has a diagnostic if there is no implementation to emit. -/
  diagnostic : record.diagnostic.isSome = true ↔ record.translatable = false
  untranslatable : record.translatable = false
    ↔ record.outcome = .refused ∨ record.outcome = .unimplemented
  proxy : record.proxy.isSome = true ↔ record.outcome = .proxy
  replacement : record.replacement.isSome = true ↔ record.outcome = .replaced

theorem MemberRecord.agrees_ofResolved (program : Program) (complete : Bool)
    (resolved : ResolvedMember) : (ofResolved program complete resolved).Agrees := by
  obtain ⟨_, _, _, outcome⟩ := resolved
  cases outcome <;> constructor <;>
    simp [ofResolved, Outcome.label, Outcome.isTranslatable, Outcome.bodySource,
      Outcome.diagnostic?]

namespace Resolver

variable {resolver : Resolver} {complete : Bool}

theorem agrees_of_recordOf {id : MemberId} {record : MemberRecord}
    (found : resolver.recordOf complete id = .ok record) : record.Agrees := by
  obtain ⟨resolved, -, ⟨⟩⟩ := bind_eq_ok_iff.mp found
  exact MemberRecord.agrees_ofResolved resolver.program complete resolved

/-- A record is that of a type, with one record for each member that the type declares. -/
structure Records (resolver : Resolver) (complete : Bool) (type : TypeId) (record : TypeRecord) :
    Prop where
  name : record.name = (resolver.program.type type).key
  resolved : record = TypeRecord.ofResolved resolver.program complete (resolver.resolveType type)
    record.members
  members : List.Forall₂
    (fun id member => member.signature = resolver.program.memberText id
      ∧ resolver.recordOf complete id = .ok member)
    (resolver.program.declaredBy type) record.members

/-- Every member in the record of a type has a record that agrees with itself. -/
theorem Records.agrees {type : TypeId} {record : TypeRecord}
    (h : resolver.Records complete type record) : ∀ member ∈ record.members, member.Agrees := by
  intro member hmem
  obtain ⟨id, -, -, found⟩ := exists_of_mem_forall₂ h.members.flip hmem
  exact agrees_of_recordOf found

theorem IsRow.records (h : resolver.program.WellFormed) {type : LoadedType}
    (hmem : type ∈ resolver.program.plainTypes) {row : ResolvedType × List ResolvedMember}
    (hrow : resolver.IsRow type row) :
    resolver.Records complete type.id
      (TypeRecord.ofResolved resolver.program complete row.1
        (row.2.map (MemberRecord.ofResolved resolver.program complete))) := by
  obtain ⟨has, hread, -⟩ := (Program.mem_plainTypes h).mp hmem
  have listed : type.members = resolver.program.declaredBy type.id := by
    rw [← h.members_eq_declaredBy has, hread]
  refine ⟨?_, ?_, ?_⟩
  · rw [hrow.type]
    rfl
  · rw [hrow.type]
    rfl
  · rw [← listed]
    refine List.forall₂_map_right_iff.mpr (hrow.members.imp fun id found hfound => ?_)
    have hrecord : resolver.recordOf complete id
        = .ok (MemberRecord.ofResolved resolver.program complete found) :=
      recordOf_of_resolveMember hfound
    exact ⟨signature_of_recordOf hrecord, hrecord⟩

/-- **A pass that does not fail makes a record of every plain type.** -/
theorem records_of_resolveAll (h : resolver.program.WellFormed) (complete : Bool)
    (stats : CacheStats) {rows : List (ResolvedType × List ResolvedMember)}
    (resolved : resolver.resolveAll = .ok rows) :
    List.Forall₂ (resolver.Records complete) resolver.program.plainTypeIds
      (Report.ofRows resolver.program complete stats rows).types := by
  rw [← h.map_id_plainTypes]
  refine List.forall₂_map_left_iff.mpr (List.forall₂_map_right_iff.mpr ?_)
  have all := (List.forall₂_and_left _ _).mpr ⟨fun _ hmem => hmem, rows_of_resolveAll resolved⟩
  exact all.imp fun type row hrow => hrow.2.records h hrow.1

theorem length_symbols_ofRows {types : List LoadedType}
    {rows : List (ResolvedType × List ResolvedMember)}
    (all : List.Forall₂ resolver.IsRow types rows) (complete : Bool) (stats : CacheStats) :
    let report := Report.ofRows resolver.program complete stats rows
    (types.flatMap Program.symbolsOf).length
      = report.types.length + (report.types.flatMap (·.members)).length := by
  intro report
  have ofTypes : types.length = report.types.length :=
    all.length_eq.trans (List.length_map ..).symm
  have ofMembers := (records_ofRows all complete stats).length_eq
  rw [Program.length_flatMap_symbolsOf, ofTypes, ofMembers]

end Resolver

namespace Program

variable {program : Program}

/--
**A report is complete and its counts are exact.**  It has a record for each type that is no
proxy, in the order the types were added, and in it one for each member the type declares, again
in order.  The diagnostics are those of the records, the one of a type before those of its
members.  A member has a diagnostic exactly if there is nothing to emit for it, and names a proxy
member or an expression exactly if its body comes from there.  Nothing was found in the cache,
whether there is one or not, and one miss is counted for each record.
-/
theorem resolve_reports_all (built : program.Buildable) (options : Options) {report : Report}
    (resolved : program.resolve options = .ok report) :
    let resolver := (Session.start program options).resolver
    List.Forall₂ (resolver.Records options.completeMessages) program.plainTypeIds report.types
      ∧ report.diagnostics = (report.types.flatMap fun type =>
          type.diagnostic.toList ++ type.members.filterMap (·.diagnostic))
      ∧ (∀ type ∈ report.types, ∀ member ∈ type.members, member.Agrees)
      ∧ report.cache = {
          hits := 0
          misses := report.types.length + (report.types.flatMap (·.members)).length
          invalidations := 0 } := by
  intro resolver
  have h := built.wellFormed
  rw [resolve_eq h, map_eq_pure_bind] at resolved
  obtain ⟨rows, hall, ⟨⟩⟩ := bind_eq_ok_iff.mp resolved
  have records := Resolver.records_of_resolveAll h options.completeMessages
    { misses := program.plainSymbols.length } hall
  refine ⟨records, rfl, fun type hmem => ?_, ?_⟩
  · obtain ⟨id, -, hrecord⟩ := exists_of_mem_forall₂ records.flip hmem
    exact hrecord.agrees
  · have counted := Resolver.length_symbols_ofRows (Resolver.rows_of_resolveAll hall)
      options.completeMessages { misses := program.plainSymbols.length }
    exact congrArg (fun misses => ({ misses := misses } : CacheStats)) counted

/-- The outcomes of the members, type by type. -/
def reportedOutcomes (report : Report) : List (List OutcomeLabel) :=
  report.types.map fun type => type.members.map (·.outcome)

/-- A gauge with members of every sort, some added after the proxy that supplies one of them, and
a type that is ignored. -/
def everyOutcome : List Edit :=
  [.addAssembly "Lib",
   .addType ⟨0⟩ { name := "Lib.Gauge", kind := .classType },
   .addMember ⟨0⟩ (.method "Read"),
   .addType ⟨0⟩ { name := "Lib.Supply", kind := .classType, marks := [.proxy ⟨"Lib.Gauge"⟩ true] },
   .addMember ⟨1⟩ (.method "Read"),
   .addType ⟨0⟩ { name := "Lib.Shed", kind := .classType, marks := [.ignore] },
   .addMember ⟨2⟩ (.field "key" ⟨"System.Int32"⟩),
   .addMember ⟨0⟩ (.method "Reset"),
   .addMember ⟨0⟩ { MemberDecl.field "level" ⟨"System.Int32"⟩ with
     marks := [.replacement "levelOf()"] },
   .addMember ⟨0⟩ { MemberDecl.method "Write" with marks := [.external] },
   .addMember ⟨0⟩ { MemberDecl.method "Drop" with marks := [.ignore] }]

/-- Two types and six members are reported on, and so eight misses are counted. -/
theorem resolve_reports_all_everyOutcome :
    let program := Program.afterEdits {} everyOutcome
    let options := Options.uncached
    let outcomes : List (List OutcomeLabel) :=
      [[.proxy, .own, .replaced, .unimplemented, .refused], [.refused]]
    program.Buildable ∧ ∃ report, program.resolve options = .ok report
      ∧ reportedOutcomes report = outcomes ∧ report.diagnostics.length = 4
      ∧ report.cache = { misses := 8 } := by
  intro program options outcomes
  have built : program.Buildable := Program.Buildable.empty.afterEdits (by decide +kernel)
  have shown : (do
      let report ← program.resolve options
      return decide (reportedOutcomes report = outcomes ∧ report.diagnostics.length = 4
        ∧ report.types.length + (report.types.flatMap TypeRecord.members).length = 8))
      = .ok true := by
    decide +kernel
  obtain ⟨report, resolved, shown⟩ := bind_eq_ok_iff.mp shown
  obtain ⟨labels, diagnostics, symbols⟩ := of_decide_eq_true (Except.ok.inj shown)
  obtain ⟨-, -, -, counts⟩ := resolve_reports_all built options resolved
  refine ⟨built, report, resolved, labels, diagnostics, ?_⟩
  rw [counts, symbols]

end Program

end MemberResolution
