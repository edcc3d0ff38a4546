/-
The exit code depends on the program and the limit alone.

Two commands are compared that read one manifest and differ in how they keep answers, write
messages and choose what to show.  Such a choice can be made twice: by a switch of the command
and by a truth value in the document of the options.  `Options.switchesOn` sets these values in
a document; two documents that are alike afterwards are alike except for them, and they cannot
be read or both give the same limit.

A report is made from the pass over the program, and the pass knows only the program and the
limit.  How a message is written does not decide whether there is one, so the passes of the two
commands decide their exit codes, and they are one pass.  What is shown is chosen last: the
types that are left out take none of the diagnostics with them.
-/
import MemberResolution.CommandLine.Run
import MemberResolution.Proofs.Failure
import MemberResolution.Proofs.FirstPass
import MemberResolution.Proofs.Lowering

namespace MemberResolution

/-! ### Documents that differ in some values -/

namespace Document

/-- Items by position, each changed in the way of its field. -/
def changeItems (change : String → Json → Json) : List String → List Json → List Json
  | name :: names, item :: items => change name item :: changeItems change names items
  | _, items => items

/-- What a document gives for the fields of a structure, changed field by field. -/
def changeFields (names : List String) (change : String → Json → Json) : Json → Json
  | .object entries => .object (entries.map fun entry => (entry.1, change entry.1 entry.2))
  | .array items => .array (changeItems change names items)
  | json => json

/-- Fields that were read, changed one by one. -/
def Fields.changed (fields : Fields) (change : String → Json → Json) : Fields :=
  { fields with entries := fields.entries.map fun entry => (entry.1, change entry.1 entry.2) }

theorem length_changeItems (change : String → Json → Json) :
    ∀ (names : List String) (items : List Json),
      (changeItems change names items).length = items.length
  | [], _ => rfl
  | _ :: _, [] => rfl
  | _ :: names, _ :: items => congrArg Nat.succ (length_changeItems change names items)

theorem zip_changeItems (change : String → Json → Json) :
    ∀ (names : List String) (items : List Json),
      names.zip (changeItems change names items)
        = (names.zip items).map fun entry => (entry.1, change entry.1 entry.2)
  | [], _ => rfl
  | _ :: _, [] => rfl
  | _ :: names, _ :: items => congrArg (List.cons _) (zip_changeItems change names items)

theorem Fields.read?_changeFields (names : List String) (change : String → Json → Json)
    (json : Json) :
    Fields.read? names (changeFields names change json)
      = (Fields.read? names json).map (·.changed change) := by
  cases json with
  | object entries =>
      simp only [changeFields, Fields.read?, List.countP_map, Function.comp_def]
      split <;> rfl
  | array items =>
      simp only [changeFields, Fields.read?, length_changeItems, zip_changeItems]
      split <;> rfl
  | null | bool _ | natural _ | number _ | string _ | unusable => rfl

theorem Fields.get?_changed (fields : Fields) (change : String → Json → Json) (name : String) :
    (fields.changed change).get? name = (fields.get? name).map (change name) := by
  unfold get? changed
  induction fields.entries with
  | nil => rfl
  | cons entry rest ih =>
      rw [List.map_cons, List.lookup_cons, List.lookup_cons, ih]
      split
      · rename_i h; rw [beq_iff_eq.mp h]; rfl
      · rfl

end Document

namespace Options

open Document (Fields changeFields)

/-- A truth value, set. -/
def switchOn : Json → Json
  | .bool _ => .bool true
  | json => json

/-- The switch for the cache, in the structure that holds it, is set. -/
def setCacheSwitch : String → Json → Json
  | "cacheTypeExpressions" => switchOn
  | _ => id

/-- Both switches among the fields of options are set. -/
def setSwitch : String → Json → Json
  | "optimizer" => changeFields ["cacheTypeExpressions"] setCacheSwitch
  | "completeUnimplementedMessages" => switchOn
  | _ => id

/-- A document of options with the truth values of its two switches set. -/
def switchesOn : Json → Json :=
  changeFields ["optimizer", "maxInheritanceDepth", "completeUnimplementedMessages"] setSwitch

/-- Two texts of options that differ at most in the switches: their documents do, or both give
options and the limits of these are the same. -/
inductive SameButSwitches (one other : String) : Prop
  | documents (same : (Json.parse? one).map switchesOn = (Json.parse? other).map switchesOn)
  | options (optionsOne optionsOther : Options) (givenOne : parse? one = some optionsOne)
      (givenOther : parse? other = some optionsOther)
      (limit : optionsOther.maxInheritanceDepth = optionsOne.maxInheritanceDepth)

theorem isSome_withDefault?_changed {fields : Fields} {name : String} {value? : Json → Option Bool}
    {change : String → Json → Json}
    (same : ∀ json, (value? (change name json)).isSome = (value? json).isSome) :
    ((fields.changed change).withDefault? name true value?).isSome
      = (fields.withDefault? name true value?).isSome := by
  unfold Fields.withDefault?
  rw [Fields.get?_changed]
  cases fields.get? name with
  | none => rfl
  | some json => exact same json

theorem isSome_flag?_switchOn (json : Json) :
    (Document.flag? (switchOn json)).isSome = (Document.flag? json).isSome := by
  cases json <;> rfl

theorem isSome_cacheSwitch? (json : Json) :
    (cacheSwitch? (changeFields ["cacheTypeExpressions"] setCacheSwitch json)).isSome
      = (cacheSwitch? json).isSome := by
  unfold cacheSwitch?
  rw [Fields.read?_changeFields]
  cases Fields.read? ["cacheTypeExpressions"] json with
  | none => rfl
  | some fields => exact isSome_withDefault?_changed isSome_flag?_switchOn

/-- Of the switches only whether they can be read matters to the limit. -/
theorem map_limit (cache messages : Option Bool) (limit : Option UInt32) :
    (do return {
        cacheResolutions := ← cache
        maxInheritanceDepth := ← limit
        completeMessages := ← messages } : Option Options).map (·.maxInheritanceDepth)
      = if cache.isSome && messages.isSome then limit else none := by
  cases cache <;> cases limit <;> cases messages <;> rfl

/-- **Setting the switches does not change the limit that a document gives**, nor whether it
gives options at all. -/
theorem map_ofJson?_switchesOn (json : Json) :
    (ofJson? (switchesOn json)).map (·.maxInheritanceDepth)
      = (ofJson? json).map (·.maxInheritanceDepth) := by
  unfold ofJson? switchesOn
  rw [Fields.read?_changeFields]
  cases Fields.read? _ json with
  | none => rfl
  | some fields =>
      have limit : (fields.changed setSwitch).withDefault? "maxInheritanceDepth"
            defaultInheritanceDepth Document.word?
          = fields.withDefault? "maxInheritanceDepth" defaultInheritanceDepth Document.word? := by
        unfold Fields.withDefault?
        rw [Fields.get?_changed]
        cases fields.get? "maxInheritanceDepth" <;> rfl
      refine (map_limit _ _ _).trans (Eq.trans ?_ (map_limit _ _ _).symm)
      rw [limit, isSome_withDefault?_changed isSome_cacheSwitch?,
        isSome_withDefault?_changed isSome_flag?_switchOn]

/-- Texts that differ in the switches give one limit, or neither gives options. -/
theorem SameButSwitches.limit {one other : String} (h : SameButSwitches one other) :
    (parse? other).map (·.maxInheritanceDepth) = (parse? one).map (·.maxInheritanceDepth) := by
  cases h with
  | options optionsOne optionsOther givenOne givenOther limit =>
      rw [givenOne, givenOther]
      exact congrArg some limit
  | documents same =>
      unfold parse?
      cases hone : Json.parse? one with
      | none =>
          rw [hone] at same
          rw [Option.map_eq_none_iff.mp same.symm]
      | some json =>
          rw [hone] at same
          obtain ⟨json', hother, alike⟩ := Option.map_eq_some_iff.mp same.symm
          rw [hother]
          show (ofJson? json').map _ = (ofJson? json).map _
          rw [← map_ofJson?_switchesOn json', alike, map_ofJson?_switchesOn json]

end Options

/-! ### What a pass decides -/

theorem TypeOutcome.diagnostic?_eq_none_iff (outcome : TypeOutcome) :
    outcome.diagnostic? = none ↔ outcome.label ≠ .refused := by
  cases outcome <;> simp [diagnostic?, label]

theorem Outcome.diagnostic?_eq_none_iff (outcome : Outcome) :
    outcome.diagnostic? = none ↔ outcome.isTranslatable = true := by
  cases outcome <;> simp [diagnostic?, isTranslatable]

/-- A report has no diagnostics if nothing that was resolved has one, however messages are
written. -/
theorem Report.diagnostics_ofRows_eq_nil_iff {program : Program} {complete : Bool}
    {stats : CacheStats} {rows : List (ResolvedType × List ResolvedMember)} :
    (Report.ofRows program complete stats rows).diagnostics = []
      ↔ ∀ row ∈ rows, row.1.outcome.diagnostic? = none
          ∧ ∀ resolved ∈ row.2, resolved.outcome.diagnostic? = none := by
  unfold ofRows
  rw [List.flatMap_eq_nil_iff, List.forall_mem_map]
  refine forall₂_congr fun row _ => ?_
  simp [TypeRecord.allDiagnostics, TypeRecord.ofResolved, MemberRecord.ofResolved]

namespace Resolver

variable {resolver : Resolver}

/-- No type that is no proxy is refused, and each of their members is translatable. -/
def IsClean (resolver : Resolver) : Prop :=
  ∀ type ∈ resolver.program.plainTypes,
    (resolver.classifyType type.id).label ≠ .refused
      ∧ ∀ id ∈ type.members,
          ∃ outcome, resolver.classifyMember id = .ok outcome ∧ outcome.isTranslatable = true

theorem diagnostic?_of_resolveMember {id : MemberId} {resolved : ResolvedMember}
    (h : resolver.resolveMember id = .ok resolved) :
    (∃ outcome, resolver.classifyMember id = .ok outcome ∧ outcome.isTranslatable = true)
      ↔ resolved.outcome.diagnostic? = none := by
  obtain ⟨outcome, decided, ⟨⟩⟩ := bind_eq_ok_iff.mp h
  rw [Outcome.diagnostic?_eq_none_iff]
  simp [decided]

/-- **What a pass resolved has no diagnostics exactly if everything is clean.** -/
theorem isClean_iff_of_resolveAll {rows : List (ResolvedType × List ResolvedMember)}
    (h : resolver.resolveAll = .ok rows) :
    resolver.IsClean
      ↔ ∀ row ∈ rows, row.1.outcome.diagnostic? = none
          ∧ ∀ resolved ∈ row.2, resolved.outcome.diagnostic? = none := by
  obtain ⟨-, -, pass⟩ := bind_eq_ok_iff.mp h
  refine forall_mem_iff_of_forall₂ (forall₂_of_mapM_eq_ok pass) fun type row made => ?_
  obtain ⟨htype, hmembers⟩ := resolveRow_eq_ok_iff.mp made
  refine and_congr ?_ ?_
  · rw [htype, TypeOutcome.diagnostic?_eq_none_iff]
    rfl
  · exact forall_mem_iff_of_forall₂ (forall₂_of_mapM_eq_ok hmembers)
      fun id resolved => diagnostic?_of_resolveMember

end Resolver

namespace Program

variable {program : Program}

theorem resolve_eq_error_iff_resolveAll (wellFormed : program.WellFormed) {options : Options}
    {error : ConfigurationError} :
    program.resolve options = .error error
      ↔ (Session.start program options).resolver.resolveAll = .error error := by
  rw [program.resolve_eq wellFormed, map_eq_error_iff]

/-- **A report has no diagnostics exactly if everything is clean.** -/
theorem diagnostics_eq_nil_iff (wellFormed : program.WellFormed) {options : Options}
    {report : Report} (reported : program.resolve options = .ok report) :
    report.diagnostics = [] ↔ (Session.start program options).resolver.IsClean := by
  rw [program.resolve_eq wellFormed] at reported
  cases hall : (Session.start program options).resolver.resolveAll with
  | error error => rw [hall] at reported; cases reported
  | ok rows =>
      rw [hall] at reported
      cases reported
      rw [Report.diagnostics_ofRows_eq_nil_iff, Resolver.isClean_iff_of_resolveAll hall]

end Program

/-! ### Commands -/

namespace CommandLine

/-- What a command makes of a resolution that may have failed. -/
def Arguments.present (arguments : Arguments) : Except ConfigurationError Report → RunResult
  | .error error => .misconfigured error
  | .ok report =>
    .resolved <|
      match arguments.onlyType with
      | some name => report.onlyType name
      | none => report

/-- The options of a file, or the defaults without one. -/
def readOptions (files : Files) : Option String → Except RunFault Options
  | none => .ok {}
  | some path =>
    match files path with
    | none => .error (.optionsUnreadable path)
    | some text =>
      match Options.parse? text with
      | some options => .ok options
      | none => .error (.optionsMalformed path)

theorem loadOptions_eq (files : Files) (arguments : Arguments) :
    loadOptions files arguments
      = (fun options : Options =>
          { options with
            cacheResolutions := options.cacheResolutions && !arguments.noCache
            completeMessages := options.completeMessages && !arguments.shortMessages })
        <$> readOptions files arguments.options := by
  unfold loadOptions readOptions
  cases arguments.options with
  | none => rfl
  | some path =>
      simp only
      cases files path with
      | none => rfl
      | some text =>
          simp only
          cases Options.parse? text <;> rfl

/-- A command loads a program, then its options, and presents the resolution. -/
theorem run_eq (files : Files) (arguments : Arguments) :
    run files arguments = (do
      let program ← loadProgram files arguments.manifest
      let options ← loadOptions files arguments
      return arguments.present (program.resolve options)) := by
  unfold run
  refine congrArg (bind _) (funext fun program => congrArg (bind _) (funext fun options => ?_))
  unfold Arguments.present
  cases program.resolve options with
  | error error => rfl
  | ok report => cases arguments.onlyType <;> rfl

theorem exitCode_present (arguments : Arguments) (report : Report) :
    (arguments.present (.ok report)).exitCode = if report.diagnostics = [] then 0 else 1 := by
  unfold Arguments.present RunResult.exitCode
  cases arguments.onlyType with
  | none => simp
  | some name => simp [Report.onlyType]

/-- **The three exit codes.** -/
theorem exitCode_iff {program : Program} (wellFormed : program.WellFormed) (options : Options)
    (arguments : Arguments) :
    let code := (arguments.present (program.resolve options)).exitCode
    let resolver := (Session.start program options).resolver
    (code = 2 ↔ ∃ error, program.resolve options = .error error)
      ∧ (code = 0 ↔ (∃ report, program.resolve options = .ok report) ∧ resolver.IsClean)
      ∧ (code = 1 ↔ (∃ report, program.resolve options = .ok report) ∧ ¬resolver.IsClean) := by
  intro code resolver
  cases resolved : program.resolve options with
  | error error =>
      have two : code = 2 := by simp only [code, resolved]; rfl
      simp [two]
  | ok report =>
      have clean := Program.diagnostics_eq_nil_iff wellFormed resolved
      have decided : code = if report.diagnostics = [] then 0 else 1 := by
        simp only [code, resolved, exitCode_present]
      by_cases none : report.diagnostics = []
      · simp [decided, none, resolver, clean.mp none]
      · simp [decided, none, resolver, mt clean.mpr none]

theorem exitCode_eq_of_limit {program : Program} (wellFormed : program.WellFormed)
    {options otherOptions : Options}
    (limit : otherOptions.maxInheritanceDepth = options.maxInheritanceDepth)
    (arguments otherArguments : Arguments) :
    (otherArguments.present (program.resolve otherOptions)).exitCode
      = (arguments.present (program.resolve options)).exitCode := by
  -- The two passes are one, though the reports made from it may be written differently.
  have same : (Session.start program otherOptions).resolver
      = (Session.start program options).resolver := by
    simp only [Session.start, limit]
  have fails (error : ConfigurationError) :
      program.resolve otherOptions = .error error ↔ program.resolve options = .error error := by
    rw [Program.resolve_eq_error_iff_resolveAll wellFormed,
      Program.resolve_eq_error_iff_resolveAll wellFormed, same]
  cases resolved : program.resolve options with
  | error error => rw [(fails error).mpr resolved]; rfl
  | ok report =>
      cases otherResolved : program.resolve otherOptions with
      | error error => rw [(fails error).mp otherResolved] at resolved; cases resolved
      | ok otherReport =>
          have clean := Program.diagnostics_eq_nil_iff wellFormed resolved
          have otherClean := Program.diagnostics_eq_nil_iff wellFormed otherResolved
          rw [same] at otherClean
          rw [exitCode_present, exitCode_present]
          exact if_congr (otherClean.trans clean.symm) rfl rfl

/-- Two commands that read one manifest, and options that differ at most in the switches. -/
structure SameButSwitches (files otherFiles : Files) (arguments otherArguments : Arguments) :
    Prop where
  manifest : otherArguments.manifest = arguments.manifest
  manifestText : otherFiles arguments.manifest = files arguments.manifest
  options : otherArguments.options = arguments.options
  optionsText : ∀ path, arguments.options = some path →
    Option.Rel Options.SameButSwitches (files path) (otherFiles path)

namespace SameButSwitches

variable {files otherFiles : Files} {arguments otherArguments : Arguments}

theorem loadProgram_eq (same : SameButSwitches files otherFiles arguments otherArguments) :
    loadProgram otherFiles otherArguments.manifest = loadProgram files arguments.manifest := by
  unfold loadProgram
  rw [same.manifest, same.manifestText]

/-- Both commands have one limit, or cannot read their options for one reason. -/
theorem map_loadOptions_eq (same : SameButSwitches files otherFiles arguments otherArguments) :
    (·.maxInheritanceDepth) <$> loadOptions otherFiles otherArguments
      = (·.maxInheritanceDepth) <$> loadOptions files arguments := by
  rw [loadOptions_eq, loadOptions_eq, same.options]
  simp only [Functor.map_map]
  cases hpath : arguments.options with
  | none => rfl
  | some path =>
      have text := same.optionsText path hpath
      simp only [readOptions]
      -- Nothing but the two texts is known of the files, and only how the texts are related.
      generalize files path = one, otherFiles path = other at text ⊢
      cases text with
      | none => rfl
      | @some one other alike =>
          have limit := alike.limit
          simp only
          cases hone : Options.parse? one with
          | none =>
              rw [hone] at limit
              rw [Option.map_eq_none_iff.mp limit]
          | some given =>
              rw [hone] at limit
              obtain ⟨given', hother, hlimit⟩ := Option.map_eq_some_iff.mp limit
              rw [hother]
              exact congrArg Except.ok hlimit

end SameButSwitches

theorem wellFormed_of_loadProgram {files : Files} {path : String} {program : Program}
    (loaded : loadProgram files path = .ok program) : program.WellFormed := by
  unfold loadProgram Program.parse at loaded
  split at loaded
  · cases loaded
  · split at loaded
    · rename_i parsed
      split at parsed
      · cases parsed
      · split at parsed
        · rename_i lowered
          cases parsed
          cases loaded
          exact (Manifest.buildable_of_toProgram lowered).wellFormed
        · cases parsed
    · cases loaded

/-- Where a whole report can be shown, the types of one name can be, with all diagnostics. -/
theorem run_onlyType {files : Files} {arguments : Arguments} {report : Report}
    (whole : run files { arguments with onlyType := none } = .ok (.resolved report))
    (name : String) :
    run files { arguments with onlyType := some name }
      = .ok (.resolved (report.onlyType name)) := by
  rw [run_eq] at whole ⊢
  obtain ⟨program, loaded, whole⟩ := bind_eq_ok_iff.mp whole
  obtain ⟨options, chosen, whole⟩ := bind_eq_ok_iff.mp whole
  refine bind_eq_ok_iff.mpr ⟨program, loaded, bind_eq_ok_iff.mpr ⟨options, chosen, ?_⟩⟩
  cases resolved : program.resolve options with
  | error error => rw [resolved] at whole; cases whole
  | ok found => rw [resolved] at whole; cases whole; rfl

/--
**The exit code depends on the program and the limit alone.**  Of two commands that differ at
most in what they show and in the switches, neither can be run, for one reason, or both can and
have one exit code: two if the program cannot be resolved, zero if it can and everything is
clean, else one.  And where only the types of a name are shown, these are the ones of the whole
report, in their order, and all diagnostics stay.
-/
theorem exitCode_of_sameButSwitches {files otherFiles : Files}
    {arguments otherArguments : Arguments}
    (same : SameButSwitches files otherFiles arguments otherArguments) :
    ((∃ fault, run files arguments = .error fault ∧ run otherFiles otherArguments = .error fault)
      ∨ ∃ program options result otherResult,
          (loadProgram files arguments.manifest = .ok program
            ∧ loadOptions files arguments = .ok options)
          ∧ (run files arguments = .ok result ∧ run otherFiles otherArguments = .ok otherResult)
          ∧ otherResult.exitCode = result.exitCode
          ∧ (result.exitCode = 2 ↔ ∃ error, program.resolve options = .error error)
          ∧ (result.exitCode = 0 ↔ (∃ report, program.resolve options = .ok report)
              ∧ (Session.start program options).resolver.IsClean)
          ∧ (result.exitCode = 1 ↔ (∃ report, program.resolve options = .ok report)
              ∧ ¬(Session.start program options).resolver.IsClean))
      ∧ ∀ name report, run files { arguments with onlyType := none } = .ok (.resolved report) →
          ∃ shown, run files { arguments with onlyType := some name } = .ok (.resolved shown)
            ∧ shown.types = report.types.filter (·.name.text == name)
            ∧ shown.diagnostics = report.diagnostics := by
  refine ⟨?_, fun name report whole => ⟨_, run_onlyType whole name, rfl, rfl⟩⟩
  have programs := same.loadProgram_eq
  have limits := same.map_loadOptions_eq
  rw [run_eq, run_eq, programs]
  cases loaded : loadProgram files arguments.manifest with
  | error fault => exact .inl ⟨fault, rfl, rfl⟩
  | ok program =>
      have wellFormed := wellFormed_of_loadProgram loaded
      cases chosen : loadOptions files arguments with
      | error fault =>
          rw [chosen] at limits
          refine .inl ⟨fault, rfl, ?_⟩
          rw [map_eq_error_iff.mp limits]
          rfl
      | ok options =>
          rw [chosen] at limits
          obtain ⟨otherOptions, otherChosen, limit⟩ : ∃ otherOptions,
              loadOptions otherFiles otherArguments = .ok otherOptions
                ∧ otherOptions.maxInheritanceDepth = options.maxInheritanceDepth := by
            cases other : loadOptions otherFiles otherArguments with
            | error fault => rw [other] at limits; cases limits
            | ok otherOptions => rw [other] at limits; exact ⟨_, rfl, Except.ok.inj limits⟩
          rw [otherChosen]
          exact .inr ⟨program, options, _, _, ⟨rfl, rfl⟩, ⟨rfl, rfl⟩,
            exitCode_eq_of_limit wellFormed limit _ _, exitCode_iff wellFormed options arguments⟩

/-- An ignored type and one that is not, and no options that keep answers. -/
def ignoredTypeFiles : Files
  | "manifest" =>
    some "[[[\"Lib\", [], [[\"T\", \"class\", null, false, [[\"ignore\", null]]], [\"U\"]]]]]"
  | "options" => some "[[false]]"
  | _ => none

/-- The same with options that keep answers. -/
def ignoredTypeFilesCached : Files
  | "options" => some "[[true]]"
  | path => ignoredTypeFiles path

/-- Both commands end with one, though the second shows only the type that is not ignored. -/
theorem exitCode_of_sameButSwitches_ignoredType :
    let arguments : Arguments := { manifest := "manifest", options := some "options" }
    let otherArguments : Arguments :=
      { arguments with
        noCache := true, shortMessages := true, onlyType := some "U", format := .json }
    SameButSwitches ignoredTypeFiles ignoredTypeFilesCached arguments otherArguments
      ∧ (∃ report, run ignoredTypeFiles arguments = .ok (.resolved report)
          ∧ report.diagnostics ≠ []
          ∧ ∃ shown, run ignoredTypeFiles { arguments with onlyType := some "U" }
              = .ok (.resolved shown)
            ∧ shown.types = report.types.filter (·.name.text == "U")
            ∧ shown.diagnostics = report.diagnostics)
      ∧ ∃ result otherResult, run ignoredTypeFiles arguments = .ok result
          ∧ run ignoredTypeFilesCached otherArguments = .ok otherResult
          ∧ otherResult.exitCode = result.exitCode ∧ result.exitCode = 1 := by
  intro arguments otherArguments
  have same : SameButSwitches ignoredTypeFiles ignoredTypeFilesCached arguments otherArguments := by
    refine ⟨rfl, rfl, rfl, ?_⟩
    rintro path ⟨⟩
    exact .some (.documents rfl)
  have main := exitCode_of_sameButSwitches same
  have one : (run ignoredTypeFiles arguments).toOption.map RunResult.exitCode = some 1 := by
    decide +kernel
  rcases main.1 with
    ⟨fault, failed, -⟩ | ⟨_, _, result, otherResult, -, ⟨ran, otherRan⟩, equal, -⟩
  · rw [failed] at one; cases one
  · rw [ran] at one
    have code : result.exitCode = 1 := Option.some.inj one
    refine ⟨same, ?_, result, otherResult, ran, otherRan, equal, code⟩
    cases result with
    | misconfigured error => cases code
    | resolved report =>
        refine ⟨report, ran, fun none => ?_, main.2 "U" report ran⟩
        rw [RunResult.exitCode, none] at code
        cases code

end CommandLine

end MemberResolution
