/-
When a whole program cannot be resolved.

There are two reasons.  The configuration can be out of order: then the first misdeclared
proxy is reported, and nothing is resolved.  Or the search for a body has to follow a chain
of bases that does not end in time.  That search is the only place where an error can come up
later on, and what never searches never fails: what is ignored or replaced, fields, and
properties and events with no accessor that searches.  So it is enough that a type is stuck,
`isStuck`, and of several the first is reported.

An accessor stands among the members of its own type, so a property or event that fails adds
no further reason.
-/
import MemberResolution.Proofs.DecisionTable
import MemberResolution.Proofs.Misdeclaration
import MemberResolution.Proofs.WholePass

namespace MemberResolution

namespace Resolver

variable {resolver : Resolver} {error : ConfigurationError}

/-! ### Members that need a body -/

/-- Whether a body has to be looked for: the member is called, and neither ignored nor
replaced. -/
def needsBody (resolver : Resolver) (id : MemberId) : Bool :=
  (resolver.program.member id).kind.isCallable && !resolver.isMemberIgnored id
    && (Directive.replacement? (resolver.memberDirectives id)).isNone

/-- Whether a type has a member whose body has to be looked for along a chain of bases that
is too deep. -/
def isStuck (resolver : Resolver) (type : LoadedType) : Bool :=
  resolver.program.isTooDeep resolver.maxDepth type.id && type.members.any resolver.needsBody

theorem chain_eq_error_iff {id : TypeId} :
    resolver.chain id = .error error
      ↔ resolver.program.isTooDeep resolver.maxDepth id = true
        ∧ .inheritanceTooDeep (resolver.program.type id).key resolver.maxDepth = error := by
  unfold chain Program.chain
  by_cases deep : resolver.program.isTooDeep resolver.maxDepth id = true
  · simp [deep]
  · simp [deep]

theorem findProxyAlong_ne_error (clean : resolver.store.configurationErrors = [])
    {signature : Identity} {chain : List TypeId} :
    ∀ {atStart : Bool}, resolver.findProxyAlong signature atStart chain ≠ .error error := by
  induction chain with
  | nil => intro atStart fails; cases fails
  | cons type rest ih =>
      intro atStart
      rw [findProxyAlong, Store.errorFor?_eq_none clean]
      cases resolver.supplierAt? atStart signature type with
      | some candidate => intro fails; cases fails
      | none => exact ih

theorem findProxy_eq_error_iff (clean : resolver.store.configurationErrors = []) {start : TypeId}
    {signature : Identity} :
    resolver.findProxy start signature = .error error ↔ resolver.chain start = .error error := by
  unfold findProxy
  rw [bind_eq_error_iff]
  refine or_iff_left ?_
  rintro ⟨chain, -, fails⟩
  exact findProxyAlong_ne_error clean fails

theorem implementation_eq_error_iff {id : MemberId} :
    resolver.implementation id = .error error
      ↔ resolver.findProxy (resolver.program.member id).declaringType
          (resolver.program.identityOfMember id) = .error error := by
  unfold implementation
  simp only
  rw [bind_eq_error_iff]
  refine or_iff_left ?_
  rintro ⟨found, -, fails⟩
  cases found <;> cases fails

theorem unlessOverridden_eq_error_iff {id : MemberId}
    {otherwise : Except ConfigurationError Outcome} :
    resolver.unlessOverridden id otherwise = .error error
      ↔ (resolver.isMemberIgnored id = false
          ∧ Directive.replacement? (resolver.memberDirectives id) = none)
        ∧ otherwise = .error error := by
  unfold unlessOverridden
  cases resolver.isMemberIgnored id with
  | true => simp
  | false =>
      cases Directive.replacement? (resolver.memberDirectives id) with
      | some expression => simp
      | none => simp

theorem classifyCallable_eq_error_iff_findProxy {id : MemberId}
    (callable : (resolver.program.member id).kind.isCallable = true) :
    resolver.classifyCallable id = .error error
      ↔ resolver.needsBody id = true
        ∧ resolver.findProxy (resolver.program.member id).declaringType
            (resolver.program.identityOfMember id) = .error error := by
  unfold classifyCallable needsBody
  rw [unlessOverridden_eq_error_iff, implementation_eq_error_iff]
  simp [callable]

/-- **What is called fails exactly if it needs a body and its chain is too deep.** -/
theorem classifyCallable_eq_error_iff (clean : resolver.store.configurationErrors = [])
    {id : MemberId} (callable : (resolver.program.member id).kind.isCallable = true) :
    resolver.classifyCallable id = .error error
      ↔ resolver.needsBody id = true
        ∧ resolver.chain (resolver.program.member id).declaringType = .error error := by
  rw [classifyCallable_eq_error_iff_findProxy callable, findProxy_eq_error_iff clean]

theorem classifyMember_of_isCallable {id : MemberId}
    (callable : (resolver.program.member id).kind.isCallable = true) :
    resolver.classifyMember id = resolver.classifyCallable id := by
  unfold classifyMember classifyCallable
  cases hkind : (resolver.program.member id).kind
  case field | property | event => rw [hkind] at callable; cases callable
  all_goals rfl

/-- A property or event fails with the first of its accessors that fails, if none before it is
unimplemented. -/
theorem firstUnimplemented_eq_error_iff {accessors : List MemberId} :
    resolver.firstUnimplemented accessors = .error error
      ↔ Reaches (fun other => ∃ outcome, resolver.classifyCallable other = .ok outcome
            ∧ outcome.label ≠ .unimplemented)
          (fun accessor => resolver.classifyCallable accessor = .error error) accessors := by
  induction accessors with
  | nil => exact ⟨nofun, fun reached => absurd reached not_reaches_nil⟩
  | cons accessor rest ih =>
      rw [firstUnimplemented, reaches_cons_iff, ← ih]
      cases resolver.classifyCallable accessor with
      | error found => simp
      | ok outcome => cases outcome <;> simp [Outcome.label]

/-- **A member fails only where a member of its type needs a body and the chain of the type
is too deep.** -/
theorem exists_of_classifyMember_eq_error (h : resolver.program.WellFormed)
    (clean : resolver.store.configurationErrors = []) {id : MemberId}
    (has : resolver.program.HasMember id) (fails : resolver.classifyMember id = .error error) :
    resolver.chain (resolver.program.member id).declaringType = .error error
      ∧ ∃ other ∈ (resolver.program.type (resolver.program.member id).declaringType).members,
          resolver.needsBody other = true := by
  by_cases callable : (resolver.program.member id).kind.isCallable = true
  · rw [classifyMember_of_isCallable callable,
      classifyCallable_eq_error_iff clean callable] at fails
    exact ⟨fails.2, id, h.listed id has, fails.1⟩
  · unfold classifyMember at fails
    obtain ⟨-, fails⟩ := unlessOverridden_eq_error_iff.mp fails
    have owner : resolver.ownerOutcome id = .error error := by
      cases hkind : (resolver.program.member id).kind <;> simp only [hkind] at fails
      case field => cases fails
      case property => exact fails
      case event => exact fails
      all_goals exact absurd (by rw [hkind]; rfl) callable
    unfold ownerOutcome at owner
    split at owner
    · obtain ⟨earlier, accessor, later, haccessors, -, hfails⟩ :=
        firstUnimplemented_eq_error_iff.mp owner
      have hmem : accessor ∈ (resolver.program.member id).accessors := by
        rw [haccessors]
        exact List.mem_append_right _ List.mem_cons_self
      obtain ⟨known, kind, declaringType, -⟩ := h.accessors id has accessor hmem
      obtain ⟨needs, deep⟩ := (classifyCallable_eq_error_iff clean (by rw [kind]; rfl)).mp hfails
      rw [declaringType] at deep
      refine ⟨deep, accessor, ?_, needs⟩
      rw [← declaringType]
      exact h.listed accessor known
    · cases owner

theorem resolveMember_eq_error_iff {id : MemberId} :
    resolver.resolveMember id = .error error ↔ resolver.classifyMember id = .error error := by
  unfold resolveMember
  rw [bind_eq_error_iff]
  refine or_iff_left ?_
  rintro ⟨_, -, ⟨⟩⟩

theorem resolveMember_of_needsBody (clean : resolver.store.configurationErrors = [])
    {id : MemberId} (needs : resolver.needsBody id = true)
    (deep : resolver.chain (resolver.program.member id).declaringType = .error error) :
    resolver.resolveMember id = .error error := by
  have callable : (resolver.program.member id).kind.isCallable = true := by
    unfold needsBody at needs
    simp only [Bool.and_eq_true] at needs
    exact needs.1.1
  rw [resolveMember_eq_error_iff, classifyMember_of_isCallable callable]
  exact (classifyCallable_eq_error_iff clean callable).mpr ⟨needs, deep⟩

/-! ### Types that are stuck -/

theorem isStuck_of_mapM_eq_error (h : resolver.program.WellFormed)
    (clean : resolver.store.configurationErrors = []) {type : LoadedType}
    (hmem : type ∈ resolver.program.plainTypes)
    (fails : type.members.mapM resolver.resolveMember = .error error) :
    resolver.isStuck type = true
      ∧ .inheritanceTooDeep type.key resolver.maxDepth = error := by
  obtain ⟨has, hread, -⟩ := (Program.mem_plainTypes h).mp hmem
  obtain ⟨id, listed, hid⟩ := exists_of_mapM_eq_error fails
  rw [← hread] at listed
  obtain ⟨hasMember, hdeclaring⟩ := h.declares type.id has id listed
  obtain ⟨hchain, other, hother, needs⟩ :=
    exists_of_classifyMember_eq_error h clean hasMember (resolveMember_eq_error_iff.mp hid)
  rw [hdeclaring] at hchain hother
  obtain ⟨deep, herror⟩ := chain_eq_error_iff.mp hchain
  rw [hread] at hother herror
  unfold isStuck
  rw [deep, List.any_eq_true.mpr ⟨other, hother, needs⟩]
  exact ⟨rfl, herror⟩

/-- **A plain type fails exactly if it is stuck.** -/
theorem resolveRow_eq_error_iff (h : resolver.program.WellFormed)
    (clean : resolver.store.configurationErrors = []) {type : LoadedType}
    (hmem : type ∈ resolver.program.plainTypes) :
    resolver.resolveRow type = .error error
      ↔ resolver.isStuck type = true
        ∧ .inheritanceTooDeep type.key resolver.maxDepth = error := by
  obtain ⟨has, hread, -⟩ := (Program.mem_plainTypes h).mp hmem
  unfold resolveRow
  rw [bind_eq_error_iff]
  refine ⟨?_, ?_⟩
  · rintro (fails | ⟨_, -, ⟨⟩⟩)
    exact isStuck_of_mapM_eq_error h clean hmem fails
  · rintro ⟨stuck, rfl⟩
    left
    cases hall : type.members.mapM resolver.resolveMember with
    | error found => rw [(isStuck_of_mapM_eq_error h clean hmem hall).2]
    | ok results =>
        unfold isStuck at stuck
        obtain ⟨deep, hany⟩ := Bool.and_eq_true_iff.mp stuck
        obtain ⟨id, listed, needs⟩ := List.any_eq_true.mp hany
        obtain ⟨result, -, hresult⟩ := exists_of_mem_forall₂ (forall₂_of_mapM_eq_ok hall) listed
        rw [← hread] at listed
        obtain ⟨-, hdeclaring⟩ := h.declares type.id has id listed
        rw [resolveMember_of_needsBody clean needs
          (chain_eq_error_iff.mpr ⟨by rw [hdeclaring]; exact deep, rfl⟩)] at hresult
        cases hresult

/-! ### The whole program -/

theorem validate_eq_error_iff :
    resolver.validate = .error error
      ↔ resolver.store.configurationErrors.head? = some error := by
  unfold validate
  cases resolver.store.configurationErrors <;> simp

theorem validate_eq_ok_iff :
    resolver.validate = .ok () ↔ resolver.store.configurationErrors = [] := by
  unfold validate
  cases resolver.store.configurationErrors <;> simp

/-- **A pass fails with the first error of the configuration, or if there is none with the
first type that is stuck.** -/
theorem resolveAll_eq_error_iff (h : resolver.program.WellFormed) :
    resolver.resolveAll = .error error
      ↔ resolver.store.configurationErrors.head? = some error
        ∨ resolver.store.configurationErrors = []
          ∧ ∃ type, resolver.program.plainTypes.find? resolver.isStuck = some type
            ∧ .inheritanceTooDeep type.key resolver.maxDepth = error := by
  unfold resolveAll
  rw [bind_eq_error_iff, validate_eq_error_iff]
  refine or_congr_right ?_
  have stuck : resolver.store.configurationErrors = [] →
      (resolver.program.plainTypes.mapM resolver.resolveRow = .error error
        ↔ ∃ type, resolver.program.plainTypes.find? resolver.isStuck = some type
          ∧ .inheritanceTooDeep type.key resolver.maxDepth = error) :=
    fun clean => mapM_eq_error_iff fun _ hmem _ => resolveRow_eq_error_iff h clean hmem
  refine ⟨?_, ?_⟩
  · rintro ⟨⟨⟩, hvalid, fails⟩
    have clean := validate_eq_ok_iff.mp hvalid
    exact ⟨clean, (stuck clean).mp fails⟩
  · rintro ⟨clean, hfind⟩
    exact ⟨(), validate_eq_ok_iff.mpr clean, (stuck clean).mpr hfind⟩

/-- **A pass ends well exactly if the configuration is in order and no type is stuck.** -/
theorem exists_resolveAll_iff (h : resolver.program.WellFormed) :
    (∃ rows, resolver.resolveAll = .ok rows)
      ↔ resolver.store.configurationErrors = []
        ∧ ∀ type ∈ resolver.program.plainTypes, resolver.isStuck type = false := by
  refine ⟨?_, ?_⟩
  · rintro ⟨rows, hok⟩
    have never : ∀ error, resolver.resolveAll ≠ .error error := by
      intro error herror
      rw [hok] at herror
      cases herror
    have clean : resolver.store.configurationErrors = [] := by
      refine List.head?_eq_none_iff.mp (Option.eq_none_iff_forall_ne_some.mpr ?_)
      intro error hhead
      exact never error ((resolveAll_eq_error_iff h).mpr (.inl hhead))
    have free : resolver.program.plainTypes.find? resolver.isStuck = none := by
      refine Option.eq_none_iff_forall_ne_some.mpr ?_
      intro first hfind
      exact never _ ((resolveAll_eq_error_iff h).mpr (.inr ⟨clean, first, hfind, rfl⟩))
    refine ⟨clean, fun type hmem => ?_⟩
    simpa using List.find?_eq_none.mp free type hmem
  · rintro ⟨clean, free⟩
    cases hall : resolver.resolveAll with
    | ok rows => exact ⟨rows, rfl⟩
    | error error =>
        rcases (resolveAll_eq_error_iff h).mp hall with hhead | ⟨-, type, hfind, -⟩
        · simp [clean] at hhead
        · have hfree := free type (List.mem_of_find?_eq_some hfind)
          rw [List.find?_some hfind] at hfree
          cases hfree

end Resolver

namespace Program

/-- A program fails to resolve with the first recorded error, or else with the depth of the first
type that is stuck; and it is resolved if there is neither. -/
structure FailsAsRecorded (program : Program) (options : Options) : Prop where
  fails : ∀ error, program.resolve options = .error error
    ↔ (Session.start program options).resolver.store.configurationErrors.head? = some error
      ∨ (Session.start program options).resolver.store.configurationErrors = []
        ∧ ∃ type, program.plainTypes.find? (Session.start program options).resolver.isStuck
            = some type
          ∧ .inheritanceTooDeep type.key options.maxInheritanceDepth.toNat = error
  first : ∀ error,
    (Session.start program options).resolver.store.configurationErrors.head? = some error
      ↔ program.FirstMisdeclared error
  resolves : (∃ report, program.resolve options = .ok report)
    ↔ (Session.start program options).resolver.store.configurationErrors = []
      ∧ ∀ type ∈ program.plainTypes,
        (Session.start program options).resolver.isStuck type = false

/--
**A program cannot be resolved for two reasons only, and which error is told is fixed.**
Either the store has recorded errors, and the first of them is told; that is the first
misdeclaration by proxy name and declaration.  Or it has recorded none, and some type that is
no proxy has a chain of bases that is too deep and a member that is called and neither ignored
nor replaced; then the first such type in loading order is told.  In every other case there
is a report.
-/
theorem resolve_eq_error_iff {program : Program} (built : program.Buildable) (options : Options) :
    program.FailsAsRecorded options := by
  have h := built.wellFormed
  let resolver := (Session.start program options).resolver
  have hreport := Session.answer_report (Session.sound_start h options)
  change program.resolve options = _ <$> resolver.resolveAll at hreport
  refine ⟨fun error => ?_, fun error => h.head?_configurationErrors_iff, ?_⟩
  · rw [hreport, map_eq_error_iff]
    exact Resolver.resolveAll_eq_error_iff h
  · rw [hreport]
    refine Iff.trans ?_ (Resolver.exists_resolveAll_iff h)
    cases resolver.resolveAll with
    | error error => exact ⟨nofun, nofun⟩
    | ok rows => exact ⟨fun _ => ⟨rows, rfl⟩, fun _ => ⟨_, rfl⟩⟩

/-- Two types that are bases of each other.  The first has a field, an ignored method and a
replaced one, the second a method. -/
def mutualBases : List Edit :=
  [.addAssembly "Lib",
   .addType ⟨0⟩ { name := "A", kind := .classType, base := some ⟨"B"⟩ },
   .addMember ⟨0⟩ (.field "F" ⟨"System.Int32"⟩),
   .addMember ⟨0⟩ { MemberDecl.method "M" with marks := [.ignore] },
   .addMember ⟨0⟩ { MemberDecl.method "N" with marks := [.replacement "n"] },
   .addType ⟨0⟩ { name := "B", kind := .classType, base := some ⟨"A"⟩ },
   .addMember ⟨1⟩ (.method "M")]

/-- Both chains are too deep, and only the second type is stuck. -/
theorem resolve_eq_error_iff_mutualBases :
    let program := Program.afterEdits {} mutualBases
    let options : Options := { maxInheritanceDepth := 3 }
    let resolver := (Session.start program options).resolver
    program.Buildable
      ∧ program.FailsAsRecorded options
      ∧ (∀ id < 2, program.isTooDeep resolver.maxDepth ⟨id⟩ = true)
      ∧ (program.resolve options).map (fun _ => ()) = .error (.inheritanceTooDeep ⟨"B"⟩ 3) := by
  have built : (Program.afterEdits {} mutualBases).Buildable :=
    Program.Buildable.empty.afterEdits (by decide +kernel)
  refine ⟨built, resolve_eq_error_iff built { maxInheritanceDepth := 3 }, ?_⟩
  decide +kernel

end Program

end MemberResolution
