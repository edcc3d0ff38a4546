/-
A pass over a whole program.

A report and a frozen table are made alike.  The configuration has to be in order; then
every type that is no proxy is resolved, in loading order, and each of its members, and what
was resolved is put into a form.  `Resolver.resolveAll` is this pass with neither a session
nor a form.  Both the report and the table are the same pass, each in its own form, whatever
the session kept before.

A report grows in a loop, in which every diagnostic is noted as soon as its type or member is
resolved.  So it is first brought into the shape of a pass: the loop adds whole records, and
the diagnostics it has noted are those of the records, one record after another
(`Ask.report_eq`).

A pass ends at the first thing that fails, so the questions in it are not independent of each
other: the invariant that is carried from one to the next is that the session has advanced
and so keeps nothing false.
-/
import MemberResolution.Proofs.Conversation
import MemberResolution.Proofs.Except
import MemberResolution.Proofs.Registration
import MemberResolution.Report
import MemberResolution.Table

namespace MemberResolution

/-! ### Loops that add to a report -/

/-- A loop that adds what it gets for each item gets it for all of them and adds it then. -/
theorem foldlM_eq_map_mapM {m : Type → Type} [Monad m] [LawfulMonad m] {α β σ : Type}
    (get : α → m β) (add : σ → β → σ) (items : List α) :
    ∀ start, items.foldlM (fun done item => do return add done (← get item)) start
      = (fun results => results.foldl add start) <$> items.mapM get := by
  induction items with
  | nil => intro start; simp
  | cons item rest ih =>
      intro start
      simp only [List.foldlM_cons, List.mapM_cons, bind_assoc, pure_bind, ih, List.foldl_cons,
        map_eq_pure_bind]

namespace Report

/-- The members of a type come after those it has, and their diagnostics after all others. -/
theorem foldl_addMember (members : List MemberRecord) :
    ∀ written : TypeRecord × List Diagnostic,
      members.foldl TypeRecord.addMember written
        = ({ written.1 with members := written.1.members ++ members },
            written.2 ++ members.filterMap (·.diagnostic)) := by
  induction members with
  | nil => intro written; simp
  | cons member rest ih =>
      intro written
      rw [List.foldl_cons, ih]
      cases hdiagnostic : member.diagnostic <;> simp [TypeRecord.addMember, hdiagnostic]

/-- Adds the record of a type to a report, and all its diagnostics to those of before. -/
def addRecord (report : Report) (record : TypeRecord) : Report :=
  { report with
    types := report.types ++ [record]
    diagnostics := report.diagnostics ++ record.allDiagnostics }

theorem foldl_addRecord (records : List TypeRecord) :
    ∀ report : Report, records.foldl addRecord report
      = { report with
          types := report.types ++ records
          diagnostics := report.diagnostics ++ records.flatMap (·.allDiagnostics) } := by
  induction records with
  | nil => intro report; simp
  | cons record rest ih =>
      intro report
      rw [List.foldl_cons, ih]
      simp [addRecord]

end Report

/-! ### The pass -/

namespace Resolver

/-- A type and its members, resolved. -/
def resolveRow (resolver : Resolver) (type : LoadedType) :
    Except ConfigurationError (ResolvedType × List ResolvedMember) := do
  return (resolver.resolveType type.id, ← type.members.mapM resolver.resolveMember)

/-- Everything that is no proxy, resolved, if nothing is wrong with the configuration. -/
def resolveAll (resolver : Resolver) :
    Except ConfigurationError (List (ResolvedType × List ResolvedMember)) := do
  resolver.validate
  resolver.program.plainTypes.mapM resolver.resolveRow

theorem exists_resolveMember_iff {resolver : Resolver} {id : MemberId}
    {p : Outcome → Prop} :
    (∃ found, resolver.resolveMember id = .ok found ∧ p found.outcome)
      ↔ ∃ outcome, resolver.classifyMember id = .ok outcome ∧ p outcome := by
  refine ⟨?_, ?_⟩
  · rintro ⟨found, hfound, holds⟩
    obtain ⟨outcome, hclassify, ⟨⟩⟩ := bind_eq_ok_iff.mp hfound
    exact ⟨outcome, hclassify, holds⟩
  · rintro ⟨outcome, hclassify, holds⟩
    exact ⟨_, bind_eq_ok_iff.mpr ⟨outcome, hclassify, rfl⟩, holds⟩

theorem resolveRow_eq_ok_iff {resolver : Resolver} {type : LoadedType}
    {row : ResolvedType × List ResolvedMember} :
    resolver.resolveRow type = .ok row
      ↔ row.1 = resolver.resolveType type.id
        ∧ type.members.mapM resolver.resolveMember = .ok row.2 := by
  unfold resolveRow
  rw [bind_eq_ok_iff]
  refine ⟨?_, ?_⟩
  · rintro ⟨members, hmembers, ⟨⟩⟩
    exact ⟨rfl, hmembers⟩
  · rintro ⟨htype, hmembers⟩
    exact ⟨row.2, hmembers, by rw [← htype]; rfl⟩

end Resolver

namespace Ask

/-- A pass over types with questions to a session, in which each member and each type is
put into a form. -/
def pass {μ τ : Type} (ofMember : MemberId → ResolvedMember → μ)
    (ofType : TypeId → ResolvedType → List μ → τ) (types : List LoadedType) : Ask (List τ) :=
  types.mapM fun type => do
    let resolved ← resolveType type.id
    let members ← type.members.mapM fun id => do
      return ofMember id (← resolveMember id)
    return ofType type.id resolved members

theorem freeze_eq :
    freeze = (do
      validate
      let session ← get
      let rows ← pass Prod.mk (fun id resolved members => ((id, resolved), members))
        session.resolver.program.plainTypes
      return {
        types := rows.map (·.1)
        members := rows.flatMap (·.2)
        completeMessages := session.options.completeMessages }) :=
  rfl

theorem reportType_eq (program : Program) (complete : Bool) (report : Report)
    (type : LoadedType) :
    reportType program complete report type = (do
      let resolved ← resolveType type.id
      let members ← type.members.mapM fun id => do
        return MemberRecord.ofResolved program complete (← resolveMember id)
      return report.addRecord (TypeRecord.ofResolved program complete resolved members)) := by
  unfold reportType
  refine congrArg _ (funext fun resolved => ?_)
  have loop := foldlM_eq_map_mapM
    (fun id => do return MemberRecord.ofResolved program complete (← resolveMember id))
    TypeRecord.addMember type.members
  simp only [bind_assoc, pure_bind] at loop
  simp only [loop, Report.foldl_addMember, map_eq_pure_bind, bind_assoc, pure_bind,
    List.append_assoc]
  rfl

/-- **A report is a pass, and its diagnostics are those of its records one after another.** -/
theorem report_eq :
    report = (do
      validate
      let session ← get
      let types ← pass
        (fun _ => MemberRecord.ofResolved session.resolver.program session.options.completeMessages)
        (fun _ => TypeRecord.ofResolved session.resolver.program session.options.completeMessages)
        session.resolver.program.plainTypes
      return {
        types := types
        diagnostics := types.flatMap (·.allDiagnostics)
        cache := (← get).cache.stats }) := by
  unfold report pass
  refine congrArg _ (funext fun _ => congrArg _ (funext fun session => ?_))
  have loop := foldlM_eq_map_mapM
    (fun type : LoadedType => do
      let resolved ← resolveType type.id
      let members ← type.members.mapM fun id => do
        return MemberRecord.ofResolved session.resolver.program session.options.completeMessages
          (← resolveMember id)
      return TypeRecord.ofResolved session.resolver.program session.options.completeMessages
        resolved members)
    Report.addRecord session.resolver.program.plainTypes
  simp only [bind_assoc, pure_bind, ← reportType_eq] at loop
  rw [loop]
  simp only [Report.foldl_addRecord, map_eq_pure_bind, bind_assoc, pure_bind,
    List.nil_append]

end Ask

namespace Session

variable {session : Session}

/-- How often a pass over items looks into the cache, if each costs so much and the pass
ends at the first that fails. -/
def lookUpsAlong {α β : Type} (value : α → Except ConfigurationError β) (cost : α → Nat) :
    List α → Nat
  | [] => 0
  | item :: rest =>
    cost item + match value item with
      | .ok _ => lookUpsAlong value cost rest
      | .error _ => 0

/-- **A pass of questions is a pass of their values**, if each question has its value at
whatever the session advances to on the way. -/
theorem answers_mapM {α β γ : Type} {question : α → Ask γ}
    {value : α → Except ConfigurationError β} {form : β → γ} {cost : α → Nat} {items : List α} :
    ∀ {session : Session}, session.Sound →
      (∀ item ∈ items, ∀ after count, session.Advances after count →
        after.Answers (question item) (form <$> value item) (cost item)) →
      session.Answers (items.mapM question) (List.map form <$> items.mapM value)
        (lookUpsAlong value cost items) := by
  induction items with
  | nil => intro session h _; exact .pure h []
  | cons item rest ih =>
      intro session h each
      have hfirst := each item List.mem_cons_self session 0 (.refl h)
      rw [List.mapM_cons, List.mapM_cons, lookUpsAlong]
      cases hvalue : value item with
      | error error =>
          rw [hvalue] at hfirst
          exact hfirst.bind_error
      | ok first =>
          rw [hvalue] at hfirst
          refine hfirst.bind fun between advances => ?_
          have sound := advances.sound h
          -- Whatever the rest advances to, this session advances to as well.
          have hrest := ih sound fun other hother after count further =>
            each other (List.mem_cons_of_mem _ hother) after _ (advances.trans further)
          have hall := hrest.map sound (form first :: ·)
          rw [map_eq_pure_bind] at hall
          have same : (form first :: ·) <$> List.map form <$> rest.mapM value
              = List.map form <$> (do
                let others ← rest.mapM value
                pure (first :: others)) := by
            cases rest.mapM value <;> rfl
          rw [same] at hall
          exact hall

theorem answers_members {μ : Type} (ofMember : MemberId → ResolvedMember → μ)
    {members : List MemberId} (h : session.Sound)
    (known : ∀ id ∈ members, session.resolver.program.HasMember id) :
    session.Answers
      (members.mapM fun id => do return ofMember id (← Ask.resolveMember id))
      (List.map (fun resolved => ofMember resolved.member resolved)
        <$> members.mapM session.resolver.resolveMember)
      (lookUpsAlong session.resolver.resolveMember (fun _ => 1) members) := by
  refine answers_mapM h fun id hmem after count advances => ?_
  have hask := (answers_resolveMember (advances.sound h)
    (by rw [advances.resolver]; exact known id hmem)).map (advances.sound h) (ofMember id)
  rw [advances.resolver, map_eq_pure_bind] at hask
  have same : ofMember id <$> session.resolver.resolveMember id
      = (fun resolved => ofMember resolved.member resolved)
        <$> session.resolver.resolveMember id := by
    unfold Resolver.resolveMember
    cases session.resolver.classifyMember id <;> rfl
  rw [same] at hask
  exact hask

/-- **A pass with questions to a session is the pass of its resolver**, whatever the session
keeps. -/
theorem answers_pass {μ τ : Type} (ofMember : MemberId → ResolvedMember → μ)
    (ofType : TypeId → ResolvedType → List μ → τ) {types : List LoadedType} (h : session.Sound)
    (known : ∀ type ∈ types, session.resolver.program.HasType type.id
      ∧ ∀ id ∈ type.members, session.resolver.program.HasMember id) :
    session.Answers (Ask.pass ofMember ofType types)
      (List.map (fun row => ofType row.1.type row.1
          (row.2.map fun resolved => ofMember resolved.member resolved))
        <$> types.mapM session.resolver.resolveRow)
      (lookUpsAlong session.resolver.resolveRow
        (fun type => 1 + lookUpsAlong session.resolver.resolveMember (fun _ => 1) type.members)
        types) := by
  refine answers_mapM h fun type hmem after count advances => ?_
  have sound := advances.sound h
  obtain ⟨hasType, hasMembers⟩ := known type hmem
  rw [← advances.resolver] at hasType hasMembers ⊢
  refine (answers_resolveType sound hasType).bind fun between further => ?_
  rw [← further.resolver] at hasMembers
  have hmembers := (answers_members ofMember (further.sound sound) hasMembers).map
    (further.sound sound) (ofType type.id (after.resolver.resolveType type.id))
  rw [map_eq_pure_bind, further.resolver] at hmembers
  have same : ofType type.id (after.resolver.resolveType type.id)
        <$> List.map (fun resolved => ofMember resolved.member resolved)
          <$> type.members.mapM after.resolver.resolveMember
      = (fun row : ResolvedType × List ResolvedMember => ofType row.1.type row.1
          (row.2.map fun resolved => ofMember resolved.member resolved))
        <$> after.resolver.resolveRow type := by
    unfold Resolver.resolveRow
    cases type.members.mapM after.resolver.resolveMember <;> rfl
  rw [same] at hmembers
  exact hmembers

/-! ### Tables and reports -/

theorem answer_validate_bind {α : Type} (session : Session) (next : Unit → Ask α) :
    session.answer (Ask.validate >>= next)
      = match session.resolver.validate with
        | .ok _ => session.answer (next ())
        | .error error => (.error error, session) := by
  have hvalidate : session.answer Ask.validate = (session.resolver.validate, session) := by
    show session.answer (liftM session.resolver.validate) = _
    cases session.resolver.validate <;> rfl
  rw [answer_bind, hvalidate]
  cases session.resolver.validate <;> rfl

/-- What is made of an answer may read the session after it. -/
theorem answer_bind_get {α β : Type} (session : Session) (question : Ask α)
    (make : Session → α → β) :
    session.answer (do let result ← question; return make (← get) result)
      = (make (session.answer question).2 <$> (session.answer question).1,
          (session.answer question).2) := by
  rw [answer_bind]
  cases session.answer question with
  | mk outcome between => cases outcome <;> rfl

theorem Sound.known_of_mem_plainTypes (h : session.Sound) :
    ∀ type ∈ session.resolver.program.plainTypes, session.resolver.program.HasType type.id
      ∧ ∀ id ∈ type.members, session.resolver.program.HasMember id := by
  intro type hmem
  obtain ⟨has, hread, -⟩ := (Program.mem_plainTypes h.wellFormed).mp hmem
  refine ⟨has, fun id hid => ?_⟩
  rw [← hread] at hid
  exact (h.wellFormed.declares type.id has id hid).1

end Session

/-- The table of what a pass resolved. -/
def Table.ofRows (complete : Bool) (rows : List (ResolvedType × List ResolvedMember)) : Table where
  types := rows.map fun row => (row.1.type, row.1)
  members := rows.flatMap fun row => row.2.map fun resolved => (resolved.member, resolved)
  completeMessages := complete

/-- The report on what a pass resolved. -/
def Report.ofRows (program : Program) (complete : Bool) (stats : CacheStats)
    (rows : List (ResolvedType × List ResolvedMember)) : Report :=
  let types := rows.map fun row =>
    TypeRecord.ofResolved program complete row.1
      (row.2.map (MemberRecord.ofResolved program complete))
  { types := types, diagnostics := types.flatMap (·.allDiagnostics), cache := stats }

namespace Session

variable {session : Session}

/-- **A frozen table is the table of the pass.** -/
theorem answer_freeze (h : session.Sound) :
    (session.answer Ask.freeze).1
      = Table.ofRows session.options.completeMessages <$> session.resolver.resolveAll := by
  rw [Ask.freeze_eq, answer_validate_bind]
  unfold Resolver.resolveAll
  cases session.resolver.validate with
  | error error => rfl
  | ok _ =>
      have hpass := answers_pass Prod.mk (fun id resolved members => ((id, resolved), members)) h
        h.known_of_mem_plainTypes
      have hfreeze := (hpass.map h fun rows : List ((TypeId × ResolvedType)
          × List (MemberId × ResolvedMember)) =>
        ({ types := rows.map (·.1)
           members := rows.flatMap (·.2)
           completeMessages := session.options.completeMessages } : Table)).value
      rw [map_eq_pure_bind] at hfreeze
      refine hfreeze.trans ?_
      show _ = Table.ofRows _ <$> session.resolver.program.plainTypes.mapM _
      cases session.resolver.program.plainTypes.mapM session.resolver.resolveRow with
      | error error => rfl
      | ok rows =>
          refine congrArg Except.ok ?_
          simp only [Table.ofRows, List.map_map, List.flatMap_map, Function.comp_def]

/-- **A report is the report of the pass**, with the counts of the session at its end. -/
theorem answer_report (h : session.Sound) :
    (session.answer Ask.report).1
      = Report.ofRows session.resolver.program session.options.completeMessages
          (session.answer Ask.report).2.cache.stats <$> session.resolver.resolveAll := by
  rw [Ask.report_eq, answer_validate_bind]
  unfold Resolver.resolveAll
  cases session.resolver.validate with
  | error error => rfl
  | ok _ =>
      have hpass := answers_pass
        (fun _ => MemberRecord.ofResolved session.resolver.program
          session.options.completeMessages)
        (fun _ => TypeRecord.ofResolved session.resolver.program
          session.options.completeMessages) h h.known_of_mem_plainTypes
      simp only
      rw [answer_get_bind, answer_bind_get _ _ fun after types => ({
        types := types
        diagnostics := types.flatMap (·.allDiagnostics)
        cache := after.cache.stats } : Report), hpass.value]
      generalize (session.answer (Ask.pass _ _ _)).2 = after
      show _ = Report.ofRows _ _ after.cache.stats
        <$> session.resolver.program.plainTypes.mapM session.resolver.resolveRow
      cases session.resolver.program.plainTypes.mapM session.resolver.resolveRow with
      | error error => rfl
      | ok rows => rfl

end Session

end MemberResolution
