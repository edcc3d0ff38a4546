/-
Which faults are recorded.

Every misdeclared proxy is a fault in the log, in the order of the proxy's name and the
member's declaration.  A fault of a member is kept under the target and the name that was
looked for there, and this name decides what becomes of it: whoever asks for the error of a
name is told the first fault under it, and in the list of all errors that one stands for the
others.  So the list is short of the faults that come later under a name, and of no others.
`FirstMissing` is the first fault under a name, in terms of the program alone.

That a later fault is left out is not harmless for who reads the list to mend the proxies.
`configurationErrors_misspeltOverloads` shows two overloads under one misspelt name, of which
only one is listed.
-/
import MemberResolution.Proofs.Misdeclaration

namespace MemberResolution

namespace Store

/-! ### The first of each place -/

/-- Of a list in the order of a rank, the faults that are kept are those that no other one of
the same place comes before. -/
theorem distinctFaults_first {α ρ : Type} [LinearOrder ρ] {rank : α → ρ} (fault : α → Fault)
    {list : List α} (sorted : list.Pairwise fun a b => rank a < rank b) :
    ∃ kept : List α, kept.Sublist list
      ∧ distinctFaults (list.map fault) = kept.map fault
      ∧ ∀ a, a ∈ kept ↔ a ∈ list ∧ ∀ place, (fault a).place = some place →
          ∀ b ∈ list, (fault b).place = some place → rank a ≤ rank b := by
  induction list with
  | nil => exact ⟨[], .refl _, rfl, by simp⟩
  | cons head rest ih =>
      obtain ⟨least, sorted⟩ := List.pairwise_cons.mp sorted
      obtain ⟨kept, sub, hkept, first⟩ := ih sorted
      refine ⟨head :: kept.filter fun later =>
          (fault head).place.isNone || (fault later).place != (fault head).place,
        (List.filter_sublist.trans sub).cons_cons head, ?_, fun a => ?_⟩
      · rw [List.map_cons, distinctFaults, hkept, List.filter_map, List.map_cons]
        rfl
      · rw [List.mem_cons, List.mem_filter, first, List.mem_cons]
        refine ⟨?_, ?_⟩
        · rintro (rfl | ⟨⟨hmem, hfirst⟩, hplace⟩)
          · refine ⟨.inl rfl, fun place _ b hb _ => ?_⟩
            rcases List.mem_cons.mp hb with rfl | hrest
            · exact le_refl _
            · exact le_of_lt (least b hrest)
          · refine ⟨.inr hmem, fun place ha b hb hsame => ?_⟩
            rcases List.mem_cons.mp hb with rfl | hrest
            -- The head would be of the same place, and then it is not kept.
            · simp [ha, hsame] at hplace
            · exact hfirst place ha b hrest hsame
        · rintro ⟨rfl | hmem, hfirst⟩
          · exact .inl rfl
          · refine .inr ⟨⟨hmem, fun place ha b hb => ?_⟩, ?_⟩
            · exact hfirst place ha b (List.mem_cons_of_mem _ hb)
            · cases hplace : (fault head).place with
              | none => rfl
              | some place =>
                  have apart : (fault a).place ≠ some place := by
                    intro hsame
                    have hle := hfirst place hsame head List.mem_cons_self hplace
                    exact absurd (least a hmem) (not_lt_of_ge hle)
                  simpa using apart

end Store

namespace Program

variable {program : Program} {type : TypeId} {name : String} {error : ConfigurationError}

/-! ### Faults under a name -/

/-- A member of a proxy type, at a place in its declaration, looks for a name in a target and
supplies nothing there, to be told by the error. -/
def Misses (program : Program) (type : TypeId) (name : String) (proxy : TypeId) (place : ℕ)
    (error : ConfigurationError) : Prop :=
  program.Misdeclares proxy place error ∧ program.placeSought? proxy place = some (type, name)

/-- The error tells of the first member, by proxy name and declaration, that looks for a name
in a target and supplies nothing there. -/
def FirstMissing (program : Program) (type : TypeId) (name : String)
    (error : ConfigurationError) : Prop :=
  ∃ proxy place, program.Misses type name proxy place error
    ∧ ∀ other otherPlace otherError, program.Misses type name other otherPlace otherError →
        program.declarationRank proxy place ≤ program.declarationRank other otherPlace

/-- All that miss a name, in order. -/
def missing (program : Program) (type : TypeId) (name : String) :
    List (TypeId × ℕ × ConfigurationError) :=
  program.allMisdeclarations.filter fun wrong =>
    program.placeSought? wrong.1 wrong.2.1 = some (type, name)

theorem WellFormed.mem_missing_iff (h : program.WellFormed) {proxy : TypeId} {place : ℕ} :
    (proxy, place, error) ∈ program.missing type name
      ↔ program.Misses type name proxy place error := by
  unfold missing Misses
  rw [List.mem_filter, h.mem_allMisdeclarations_iff, decide_eq_true_eq]

theorem WellFormed.errorFor?_eq_head? (h : program.WellFormed) :
    (Store.ofProgram program).errorFor? type name
      = ((program.missing type name).head?).map (·.2.2) := by
  unfold Store.errorFor? missing
  rw [h.faults_ofProgram, List.find?_map, List.head?_filter, Option.map_map]
  rfl

/-- **The error recorded for a name tells of the first member that misses it.** -/
theorem WellFormed.errorFor?_eq_some_iff (h : program.WellFormed) :
    (Store.ofProgram program).errorFor? type name = some error
      ↔ program.FirstMissing type name error := by
  have ordered : (program.missing type name).Pairwise fun a b =>
      program.declarationRank a.1 a.2.1 < program.declarationRank b.1 b.2.1 :=
    h.allMisdeclarations_ordered.filter _
  rw [h.errorFor?_eq_head?, head?_map_eq_some_iff_least ordered]
  simp only [FirstMissing, h.mem_missing_iff]

theorem WellFormed.errorFor?_eq_none_iff (h : program.WellFormed) :
    (Store.ofProgram program).errorFor? type name = none
      ↔ ∀ proxy place error, ¬ program.Misses type name proxy place error := by
  rw [h.errorFor?_eq_head?, Option.map_eq_none_iff, List.head?_eq_none_iff,
    List.eq_nil_iff_forall_not_mem]
  refine ⟨?_, ?_⟩
  · intro nothing proxy place error misses
    exact nothing _ (h.mem_missing_iff.mpr misses)
  · rintro nothing ⟨proxy, place, error⟩ hmem
    exact nothing proxy place error (h.mem_missing_iff.mp hmem)

theorem WellFormed.exists_firstMissing_iff (h : program.WellFormed) :
    (∃ error, program.FirstMissing type name error)
      ↔ ∃ proxy place error, program.Misses type name proxy place error := by
  refine ⟨?_, ?_⟩
  · rintro ⟨error, proxy, place, misses, -⟩
    exact ⟨proxy, place, error, misses⟩
  · rintro ⟨proxy, place, error, misses⟩
    cases hrecorded : (Store.ofProgram program).errorFor? type name with
    | some first => exact ⟨first, h.errorFor?_eq_some_iff.mp hrecorded⟩
    | none => exact absurd misses (h.errorFor?_eq_none_iff.mp hrecorded proxy place error)

/-! ### The list of errors -/

/-- The errors of a program with their declarations, in the order of these.  Of the members that
look for one name in one target, and miss it, the first has its error among them. -/
structure RecordsFirst (program : Program) (recorded : List (TypeId × ℕ × ConfigurationError)) :
    Prop where
  errors : (Store.ofProgram program).configurationErrors = recorded.map (·.2.2)
  ordered : recorded.Pairwise fun a b =>
    program.declarationRank a.1 a.2.1 < program.declarationRank b.1 b.2.1
  first : ∀ proxy place error, (proxy, place, error) ∈ recorded
    ↔ program.Misdeclares proxy place error
      ∧ ∀ type name, program.placeSought? proxy place = some (type, name) →
        ∀ other otherPlace otherError, program.Misses type name other otherPlace otherError →
          program.declarationRank proxy place ≤ program.declarationRank other otherPlace

/--
**Of all that is misdeclared, the errors tell what comes first under its name.**  They are
listed by proxy name and declaration.  A proxy type whose target is not loaded has its error in
the list, and a proxy member that supplies nothing has its own there exactly if no other member,
of this or another proxy, looked for the same name in the same target before it and supplied
nothing either.
-/
theorem configurationErrors_first_missing {program : Program} (built : program.Buildable) :
    ∃ recorded, program.RecordsFirst recorded := by
  have h := built.wellFormed
  obtain ⟨recorded, sub, hrecorded, first⟩ :=
    Store.distinctFaults_first
      (fun wrong => ⟨program.placeSought? wrong.1 wrong.2.1, wrong.2.2⟩) h.allMisdeclarations_ordered
  refine ⟨recorded, ?_, h.allMisdeclarations_ordered.sublist sub, fun proxy place error => ?_⟩
  · unfold Store.configurationErrors
    rw [h.faults_ofProgram, hrecorded, List.map_map]
    rfl
  · rw [first, h.mem_allMisdeclarations_iff]
    refine and_congr_right fun _ => ⟨?_, ?_⟩
    · rintro least type name sought other otherPlace otherError ⟨wrong, hsame⟩
      exact least (type, name) sought _ (h.mem_allMisdeclarations_iff.mpr wrong) hsame
    · rintro least ⟨type, name⟩ sought ⟨other, otherPlace, otherError⟩ hmem hsame
      exact least type name sought other otherPlace otherError
        ⟨h.mem_allMisdeclarations_iff.mp hmem, hsame⟩

/-- A type with one method, a proxy of a type that is not loaded, a proxy with two overloads
under a misspelt name and a third member under another, and a further proxy with a field of
the misspelt name. -/
def misspeltOverloads : List Edit :=
  [.addAssembly "Lib",
   .addType ⟨0⟩ { name := "T", kind := .classType },
   .addMember ⟨0⟩ (.method "Walk"),
   .addType ⟨0⟩ { name := "R", kind := .classType, marks := [.proxy ⟨"T"⟩ true] },
   .addMember ⟨1⟩ (.field "Wlak" ⟨"System.Int32"⟩),
   .addType ⟨0⟩ { name := "Q", kind := .classType, marks := [.proxy ⟨"T"⟩ true] },
   .addMember ⟨2⟩ (.method "Wlak"),
   .addMember ⟨2⟩ ((MemberDecl.method "Wlak").taking ⟨"pace", ⟨"System.Int32"⟩⟩),
   .addMember ⟨2⟩ (.method "Rnu"),
   .addType ⟨0⟩ { name := "P", kind := .classType, marks := [.proxy ⟨"Gone"⟩ true] }]

/-- Five things are wrong, and under the misspelt name only the first of three is recorded. -/
theorem configurationErrors_first_missing_misspeltOverloads :
    let program := Program.afterEdits {} misspeltOverloads
    program.Buildable
      ∧ (∃ recorded, program.RecordsFirst recorded)
      ∧ program.allMisdeclarations.length = 5
      ∧ (Store.ofProgram program).configurationErrors
        = [.unknownTargetType ⟨"P"⟩ ⟨"Gone"⟩,
           .unknownTargetMember "Q::Wlak()" "T::Wlak()" ⟨"T"⟩,
           .unknownTargetMember "Q::Rnu()" "T::Rnu()" ⟨"T"⟩] := by
  have built : (Program.afterEdits {} misspeltOverloads).Buildable :=
    Program.Buildable.empty.afterEdits (by decide +kernel)
  refine ⟨built, configurationErrors_first_missing built, ?_⟩
  decide +kernel

/-- The second overload is misdeclared and supplies nothing, and no error tells of it. -/
theorem configurationErrors_misspeltOverloads :
    let program := Program.afterEdits {} misspeltOverloads
    let overload : ConfigurationError :=
      .unknownTargetMember "Q::Wlak(System.Int32)" "T::Wlak(System.Int32)" ⟨"T"⟩
    program.Buildable
      ∧ program.Misdeclares ⟨2⟩ 1 overload
      ∧ overload ∉ (Store.ofProgram program).configurationErrors := by
  have built : (Program.afterEdits {} misspeltOverloads).Buildable :=
    Program.Buildable.empty.afterEdits (by decide +kernel)
  refine ⟨built, built.wellFormed.mem_allMisdeclarations_iff.mp ?_, ?_⟩
  · decide +kernel
  · decide +kernel

end Program

end MemberResolution
