/-
What is wrong with the proxies of a program.

A proxy type can name a target that is not loaded, and a proxy member can be meant for a
member its target does not have.  `Misdeclares` says so of the program alone, without a
store.  The store records the first of these, in the order of the proxy's name and the
member's declaration, and it records nothing only where there is none.

Of later ones the store may leave some out: of several members that look for one name in
one type it records the first.  What stands first is never left out, so that makes no
difference to which error a failure reports.
-/
import MemberResolution.Proofs.LeastProxy

namespace MemberResolution

namespace Program

variable {program : Program}

/-! ### Misdeclared proxies -/

/-- What is to be said of a proxy member that supplies nothing in a target type. -/
def supplyError (program : Program) (member : LoadedMember) (target : TypeId) :
    ConfigurationError :=
  let own := program.identityOf member
  let key := (program.type target).key
  match Mark.proxyTarget? member.marks with
  | none => .unknownTargetMember own.display (own.declaredBy key).display key
  | some name =>
    if program.namesakes member target name = [] then .unknownTargetMember own.display name key
    else .ambiguousTarget own.display name key

/-- The name that a proxy member looks for in its target. -/
def nameSought (member : LoadedMember) : String :=
  (Mark.proxyTarget? member.marks).getD member.name.text

/-- The target of a proxy type, and the name that the member at a place looks for there.  A
proxy type without a target looks for nothing. -/
def placeSought? (program : Program) (proxy : TypeId) (place : ℕ) : Option (TypeId × String) := do
  let (key, _) ← Mark.proxyOf? (program.type proxy).marks
  let target ← program.findType? key
  let id ← (program.type proxy).members[place]?
  return (target, nameSought (program.member id))

/-- A proxy type outside of ignored types has something wrong at a place in its
declaration, to be told by the error. -/
inductive Misdeclares (program : Program) (proxy : TypeId) : ℕ → ConfigurationError → Prop
  /-- It names a type that is not loaded. -/
  | target {key : TypeKey} {inheritable : Bool} (known : program.HasType proxy)
      (points : Mark.proxyOf? (program.type proxy).marks = some (key, inheritable))
      (live : program.isInsideIgnored proxy = false)
      (absent : ∀ target, program.HasType target → (program.type target).key ≠ key) :
      Misdeclares program proxy 0 (.unknownTargetType (program.type proxy).key key)
  /-- It is not ignored, and a member that is to replace something supplies nothing. -/
  | member {target : TypeId} {inheritable : Bool} {id : MemberId} (known : program.HasType proxy)
      (targetKnown : program.HasType target)
      (points : Mark.proxyOf? (program.type proxy).marks
        = some ((program.type target).key, inheritable))
      (live : program.isInsideIgnored proxy = false)
      (kept : Mark.isIgnored (program.type proxy).marks = false)
      (declared : id ∈ (program.type proxy).members)
      (takesPart : program.isInert (program.member id) = false)
      (nothing : ∀ supplied, ¬ program.Supplies (program.member id) target supplied) :
      Misdeclares program proxy ((program.type proxy).members.idxOf id)
        (program.supplyError (program.member id) target)

/-- The order of what is wrong: by the name of the proxy type, then by declaration. -/
def declarationRank (program : Program) (proxy : TypeId) (place : ℕ) : String ×ₗ ℕ :=
  toLex ((program.type proxy).key.text, place)

/-! ### Members that supply nothing -/

/-- The fault that a search ends with tells the error, and is kept under the name that was
looked for. -/
theorem fault_of_suppliedMember {member : LoadedMember} {target : TypeId} {fault : Fault}
    (fails : program.suppliedMember member target = .error fault) :
    fault = ⟨some (target, nameSought member), program.supplyError member target⟩ := by
  unfold suppliedMember at fails
  unfold supplyError nameSought
  cases hname : Mark.proxyTarget? member.marks with
  | none =>
      simp only [hname] at fails
      split at fails
      · cases fails
      · cases fails
        rfl
  | some name =>
      simp only [hname, namedTargets_eq] at fails
      simp only
      split at fails
      · cases fails
      · cases fails
      · rename_i hnone
        cases fails
        rw [if_pos (List.map_eq_nil_iff.mp hnone)]
        rfl
      · rename_i someNamed
        cases fails
        rw [if_neg fun hc => someNamed (List.map_eq_nil_iff.mpr hc)]
        rfl

/-- What is wrong with a proxy member, if something is. -/
def misdeclared? (program : Program) (target : TypeId) (id : MemberId) :
    Option ConfigurationError :=
  if program.isInert (program.member id) then none
  else match program.suppliedMember (program.member id) target with
    | .error fault => some fault.error
    | .ok _ => none

theorem WellFormed.misdeclared?_eq_some_iff (h : program.WellFormed) {target : TypeId}
    (has : program.HasType target) {id : MemberId} {error : ConfigurationError} :
    program.misdeclared? target id = some error
      ↔ program.isInert (program.member id) = false
        ∧ (∀ supplied, ¬ program.Supplies (program.member id) target supplied)
        ∧ program.supplyError (program.member id) target = error := by
  unfold misdeclared?
  simp only [← h.suppliedMember_eq_ok_iff has]
  cases program.isInert (program.member id) with
  | true => simp
  | false =>
      cases hsupplied : program.suppliedMember (program.member id) target with
      | error fault => simp [fault_of_suppliedMember hsupplied]
      | ok found =>
          obtain ⟨supplied, how⟩ := found
          simp

theorem memberEntries_faults (program : Program) (proxy : LoadedType) (inheritable : Bool)
    (target : TypeId) (id : MemberId) :
    (program.memberEntries proxy inheritable target id).filterMap StoreEntry.fault?
      = ((program.misdeclared? target id).map fun error =>
          Fault.mk (some (target, nameSought (program.member id))) error).toList := by
  unfold memberEntries misdeclared?
  by_cases inert : program.isInert (program.member id) = true
  · simp [inert]
  · simp only [inert, Bool.false_eq_true, if_false]
    cases hsupplied : program.suppliedMember (program.member id) target with
    | error fault =>
        rw [fault_of_suppliedMember hsupplied]
        rfl
    | ok found =>
        simp only [List.filterMap_append, StoreEntry.ofMarks_faults]
        split <;> rfl

/-! ### Misdeclarations in order -/

/-- All that is wrong with a proxy type, each with its place, in order. -/
def misdeclarations (program : Program) (proxy : LoadedType) : List (ℕ × ConfigurationError) :=
  match Mark.proxyOf? proxy.marks with
  | none => []
  | some (key, _) =>
    if program.isInsideIgnored proxy.id then []
    else match program.findType? key with
      | none => [(0, .unknownTargetType proxy.key key)]
      | some target =>
        if Mark.isIgnored proxy.marks then []
        else proxy.members.filterMap fun id =>
          (program.misdeclared? target id).map fun error => (proxy.members.idxOf id, error)

/-- What is wrong with a proxy type is entered in order, each under what was looked for. -/
theorem proxyEntries_faults {proxy : LoadedType} (read : program.type proxy.id = proxy) :
    (program.proxyEntries proxy).filterMap StoreEntry.fault?
      = (program.misdeclarations proxy).map fun wrong =>
          ⟨program.placeSought? proxy.id wrong.1, wrong.2⟩ := by
  unfold proxyEntries misdeclarations placeSought?
  rw [read]
  cases Mark.proxyOf? proxy.marks with
  | none => rfl
  | some pointer =>
      obtain ⟨key, inheritable⟩ := pointer
      simp only
      cases program.isInsideIgnored proxy.id with
      | true => rfl
      | false =>
          cases hfind : program.findType? key with
          | none => simp [hfind, StoreEntry.fault?]
          | some target =>
              simp only [Bool.false_eq_true, if_false, List.cons_append, List.filterMap_cons,
                StoreEntry.fault?, List.filterMap_append, StoreEntry.ofMarks_faults,
                List.nil_append]
              cases Mark.isIgnored proxy.marks with
              | true => rfl
              | false =>
                  simp only [Bool.false_eq_true, if_false]
                  rw [List.filterMap_flatMap, List.map_filterMap, List.filterMap_eq_flatMap_toList]
                  refine List.flatMap_congr fun id listed => ?_
                  rw [memberEntries_faults]
                  cases program.misdeclared? target id with
                  | none => rfl
                  | some error => simp [hfind, List.getElem?_idxOf listed]

/-- **The list has just what is misdeclared.** -/
theorem WellFormed.mem_misdeclarations_iff (h : program.WellFormed) {proxy : TypeId}
    (has : program.HasType proxy) {place : ℕ} {error : ConfigurationError} :
    (place, error) ∈ program.misdeclarations (program.type proxy)
      ↔ program.Misdeclares proxy place error := by
  unfold misdeclarations
  rw [h.typeId proxy has]
  refine ⟨?_, ?_⟩
  · intro hmem
    cases points : Mark.proxyOf? (program.type proxy).marks with
    | none => simp [points] at hmem
    | some pointer =>
        obtain ⟨key, inheritable⟩ := pointer
        cases live : program.isInsideIgnored proxy with
        | true => simp [points, live] at hmem
        | false =>
            cases hfind : program.findType? key with
            | none =>
                simp only [points, live, hfind, Bool.false_eq_true, if_false,
                  List.mem_singleton, Prod.mk.injEq] at hmem
                obtain ⟨rfl, rfl⟩ := hmem
                exact .target has points live (h.findType?_eq_none_iff.mp hfind)
            | some target =>
                obtain ⟨hasTarget, rfl⟩ := h.findType?_eq_some_iff.mp hfind
                cases kept : Mark.isIgnored (program.type proxy).marks with
                | true => simp [points, live, hfind, kept] at hmem
                | false =>
                    simp only [points, live, hfind, kept, Bool.false_eq_true, if_false] at hmem
                    obtain ⟨id, declared, hmap⟩ := List.mem_filterMap.mp hmem
                    obtain ⟨found, hfound, hpair⟩ := Option.map_eq_some_iff.mp hmap
                    cases hpair
                    obtain ⟨takesPart, nothing, rfl⟩ :=
                      (h.misdeclared?_eq_some_iff hasTarget).mp hfound
                    exact .member has hasTarget points live kept declared takesPart nothing
  · intro wrong
    cases wrong with
    | target known points live absent =>
        simp only [points, live, h.findType?_eq_none_iff.mpr absent, Bool.false_eq_true, if_false]
        exact List.mem_singleton_self _
    | member known targetKnown points live kept declared takesPart nothing =>
        simp only [points, live, kept, h.findType?_eq_some_iff.mpr ⟨targetKnown, rfl⟩,
          Bool.false_eq_true, if_false]
        refine List.mem_filterMap.mpr ⟨_, declared, Option.map_eq_some_iff.mpr ⟨_, ?_, rfl⟩⟩
        exact (h.misdeclared?_eq_some_iff targetKnown).mpr ⟨takesPart, nothing, rfl⟩

theorem WellFormed.misdeclarations_ordered (h : program.WellFormed) {proxy : TypeId}
    (has : program.HasType proxy) :
    (program.misdeclarations (program.type proxy)).Pairwise fun a b => a.1 < b.1 := by
  unfold misdeclarations
  split
  · exact .nil
  · split
    · exact .nil
    · split
      · exact List.pairwise_singleton _ _
      · split
        · exact .nil
        · refine (pairwise_idxOf (h.members_nodup has)).filterMap _ ?_
          intro id later hlt a ha b hb
          obtain ⟨_, -, rfl⟩ := Option.map_eq_some_iff.mp ha
          obtain ⟨_, -, rfl⟩ := Option.map_eq_some_iff.mp hb
          exact hlt

/-- All that is wrong with the proxies of a program, in order. -/
def allMisdeclarations (program : Program) : List (TypeId × ℕ × ConfigurationError) :=
  program.orderedProxies.flatMap fun proxy =>
    (program.misdeclarations proxy).map fun wrong => (proxy.id, wrong)

theorem WellFormed.mem_allMisdeclarations_iff (h : program.WellFormed) {proxy : TypeId} {place : ℕ}
    {error : ConfigurationError} :
    (proxy, place, error) ∈ program.allMisdeclarations
      ↔ program.Misdeclares proxy place error := by
  unfold allMisdeclarations
  rw [List.mem_flatMap]
  refine ⟨?_, ?_⟩
  · rintro ⟨type, htype, hmem⟩
    obtain ⟨has, hread, -⟩ := (mem_orderedProxies h).mp htype
    obtain ⟨wrong, hwrong, hpair⟩ := List.mem_map.mp hmem
    cases hpair
    rw [← hread] at hwrong
    exact (h.mem_misdeclarations_iff has).mp hwrong
  · intro wrong
    have has : program.HasType proxy := by cases wrong <;> assumption
    have isProxy : (program.type proxy).isProxy = true := by
      unfold LoadedType.isProxy
      cases wrong with
      | target _ points => rw [points]; rfl
      | member _ _ points => rw [points]; rfl
    have hid := h.typeId proxy has
    refine ⟨program.type proxy, (mem_orderedProxies h).mpr ?_, List.mem_map.mpr ?_⟩
    · rw [hid]
      exact ⟨has, rfl, isProxy⟩
    · exact ⟨(place, error), (h.mem_misdeclarations_iff has).mpr wrong, by rw [hid]⟩

theorem WellFormed.allMisdeclarations_ordered (h : program.WellFormed) :
    program.allMisdeclarations.Pairwise fun a b =>
      program.declarationRank a.1 a.2.1 < program.declarationRank b.1 b.2.1 := by
  refine List.pairwise_flatMap.mpr ⟨fun proxy hproxy => ?_, ?_⟩
  -- Of one proxy type: by declaration.
  · obtain ⟨has, hread, -⟩ := (mem_orderedProxies h).mp hproxy
    have ordered := h.misdeclarations_ordered has
    rw [hread] at ordered
    refine List.pairwise_map.mpr (ordered.imp fun hlt => ?_)
    exact Prod.Lex.toLex_lt_toLex.mpr (.inr ⟨rfl, hlt⟩)
  -- Of two: by name.
  · refine List.Pairwise.imp_of_mem ?_ h.orderedProxies_strict
    intro first later hfirst hlater hlt a ha b hb
    obtain ⟨-, hreadFirst, -⟩ := (mem_orderedProxies h).mp hfirst
    obtain ⟨-, hreadLater, -⟩ := (mem_orderedProxies h).mp hlater
    obtain ⟨_, -, rfl⟩ := List.mem_map.mp ha
    obtain ⟨_, -, rfl⟩ := List.mem_map.mp hb
    refine Prod.Lex.toLex_lt_toLex.mpr (.inl ?_)
    rw [hreadFirst, hreadLater]
    exact hlt

/-! ### The first one is recorded first -/

/-- What the first of some declarations, in order, tells, the least of them tells. -/
theorem head?_map_eq_some_iff_least {wrongs : List (TypeId × ℕ × ConfigurationError)}
    (ordered : wrongs.Pairwise fun a b =>
      program.declarationRank a.1 a.2.1 < program.declarationRank b.1 b.2.1)
    {error : ConfigurationError} :
    wrongs.head?.map (·.2.2) = some error
      ↔ ∃ proxy place, (proxy, place, error) ∈ wrongs
        ∧ ∀ other otherPlace otherError, (other, otherPlace, otherError) ∈ wrongs →
            program.declarationRank proxy place ≤ program.declarationRank other otherPlace := by
  rw [Option.map_eq_some_iff]
  refine ⟨?_, ?_⟩
  · rintro ⟨⟨proxy, place, _⟩, hhead, rfl⟩
    obtain ⟨hmem, least⟩ := (Resolver.head?_eq_some_iff_least ordered).mp hhead
    exact ⟨proxy, place, hmem, fun _ _ _ hother => least _ hother⟩
  · rintro ⟨proxy, place, hmem, least⟩
    refine ⟨(proxy, place, error), ?_, rfl⟩
    exact (Resolver.head?_eq_some_iff_least ordered).mpr
      ⟨hmem, fun ⟨_, _, _⟩ hother => least _ _ _ hother⟩

theorem head?_configurationErrors (store : Store) :
    store.configurationErrors.head? = (store.faults.map (·.error)).head? := by
  unfold Store.configurationErrors
  cases store.faults <;> rfl

/-- What a store records as faults is what is misdeclared, in order. -/
theorem WellFormed.faults_ofProgram (h : program.WellFormed) :
    (Store.ofProgram program).faults
      = program.allMisdeclarations.map fun wrong =>
          ⟨program.placeSought? wrong.1 wrong.2.1, wrong.2.2⟩ := by
  rw [Store.faults_eq, filterMap_ofProgram_proxies fun _ _ => rfl]
  unfold allMisdeclarations
  rw [List.map_flatMap]
  refine List.flatMap_congr fun proxy hproxy => ?_
  rw [proxyEntries_faults ((mem_orderedProxies h).mp hproxy).2.1, List.map_map]
  rfl

/-- Something is wrong with a proxy, to be told by the error, and nothing comes before it
in the order of proxy name and declaration. -/
def FirstMisdeclared (program : Program) (error : ConfigurationError) : Prop :=
  ∃ proxy place, program.Misdeclares proxy place error
    ∧ ∀ other otherPlace otherError, program.Misdeclares other otherPlace otherError →
        program.declarationRank proxy place ≤ program.declarationRank other otherPlace

/-- **The first error a store records is the first misdeclaration.** -/
theorem WellFormed.head?_configurationErrors_iff (h : program.WellFormed)
    {error : ConfigurationError} :
    (Store.ofProgram program).configurationErrors.head? = some error
      ↔ program.FirstMisdeclared error := by
  rw [head?_configurationErrors, h.faults_ofProgram, List.map_map, List.head?_map]
  refine (head?_map_eq_some_iff_least h.allMisdeclarations_ordered).trans ?_
  simp only [FirstMisdeclared, h.mem_allMisdeclarations_iff]

end Program

end MemberResolution
