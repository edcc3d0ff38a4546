/-
How the parts of the store refer to each other.

A candidate is filed under the identity of the member it supplies.  Its proxy type is
filed under the target type, the proxy member carries a directive that points back at
the target, and an error is found by its position among all errors.  No search through
the store checks any of this: it takes the member that a candidate names for the one it
looked for, and the error at a position for that of the name.

`CrossReferenced` says that all these references agree, and it holds of every program
that can be built.  A candidate is filed for exactly the reasons `Candidacy` lists, so
what is left to see is what stands in the log beside it: the proxy type of a candidate
is entered before it, and its source right before it and nowhere else, for no other
member has the identity of the proxy member.

Positions are handed out while the errors are recorded, one fault after another.  So the
errors so far and the positions so far are followed together, fault by fault, and what
they come to is what the store tells as its errors.
-/
import Mathlib.Data.List.Induction
import MemberResolution.Proofs.ConversionProxies
import MemberResolution.Proofs.Effective
import MemberResolution.Proofs.RecordedFaults

namespace MemberResolution

/-! ### Sources -/

namespace Directive

/-- What a directive says that its symbol, a proxy member, is to its target. -/
def source? : Directive → Option ProxySource
  | .proxySource source => some source
  | _ => none

/-- All that directives say that their symbol is to a target. -/
def sources (directives : List Directive) : List ProxySource :=
  directives.filterMap source?

@[simp] theorem sources_append (first second : List Directive) :
    sources (first ++ second) = sources first ++ sources second :=
  List.filterMap_append

theorem sources_flatMap {α : Type} (list : List α) (directives : α → List Directive) :
    sources (list.flatMap directives) = list.flatMap fun a => sources (directives a) :=
  List.filterMap_flatMap

/-- Marks make no member a source. -/
@[simp] theorem sources_ofMarks (marks : List Mark) : sources (ofMarks marks) = [] := by
  unfold sources ofMarks
  rw [List.filterMap_filterMap]
  refine List.filterMap_eq_nil_iff.mpr fun mark _ => ?_
  cases mark <;> rfl

end Directive

/-- What a proxy target comes to, read for a proxy member: the member with the signature, or
what the name means among the members of the type. -/
inductive ProxyTarget.ResolvesTo (program : Program) (member : LoadedMember) :
    ProxyTarget → MemberId → Prop
  | symbol {identity : Identity} {id : MemberId} (found : program.findMember? identity = some id) :
      ResolvesTo program member (.symbol identity) id
  | unqualified {key : TypeKey} {name : String} {type : TypeId} {id : MemberId}
      (found : program.findType? key = some type)
      (means : program.MeantByName member type name id) :
      ResolvesTo program member (.unqualified key name) id

namespace Program

variable {program : Program}

theorem WellFormed.resolvesTo_of_suppliedMember (h : program.WellFormed) {member : LoadedMember}
    {target : TypeId} (has : program.HasType target) {supplied : MemberId} {how : ProxyTarget}
    (found : program.suppliedMember member target = .ok (supplied, how)) :
    how.ResolvesTo program member supplied := by
  have supplies := (h.suppliedMember_eq_ok_iff has).mp ⟨how, found⟩
  unfold suppliedMember at found
  cases sought : Mark.proxyTarget? member.marks with
  | none =>
      simp only [sought] at found
      split at found
      · rename_i hfind
        cases found
        exact .symbol hfind
      · cases found
  | some name =>
      have means := supplies.meantByName h has sought
      have known := h.findType?_eq_some_iff.mpr ⟨has, rfl⟩
      simp only [sought] at found
      split at found
      · cases found
        exact .unqualified known means
      · cases found
        exact .unqualified known means
      · cases found
      · cases found

/-! ### The source of a proxy member

Sources are entered by members of proxy types, each for itself.
-/

theorem memberEntries_sources (program : Program) (proxy : LoadedType) (inheritable : Bool)
    (target : TypeId) (id : MemberId) (symbol : Identity) :
    Directive.sources ((program.memberEntries proxy inheritable target id).filterMap
        (StoreEntry.directive? symbol))
      = if program.isInert (program.member id) then []
        else match program.suppliedMember (program.member id) target with
          | .error _ => []
          | .ok (_, how) =>
            if offersBody (program.member id) = true ∧ program.identityOfMember id = symbol then
              [⟨how, proxyMode (program.member id), inheritable⟩]
            else [] := by
  rw [memberEntries_directives]
  split
  · rfl
  · cases program.suppliedMember (program.member id) target with
    | error fault => rfl
    | ok found =>
        obtain ⟨supplied, how⟩ := found
        have given : Directive.sources (if program.identityOfMember supplied = symbol then
            Directive.ofMarks (program.member id).marks else []) = [] := by
          split
          · exact Directive.sources_ofMarks _
          · rfl
        rw [Directive.sources_append, given, List.nil_append]
        split <;> rfl

theorem memberEntries_sources_of_ne {proxy : LoadedType} {inheritable : Bool} {target : TypeId}
    {id : MemberId} {symbol : Identity} (apart : program.identityOfMember id ≠ symbol) :
    Directive.sources ((program.memberEntries proxy inheritable target id).filterMap
      (StoreEntry.directive? symbol)) = [] := by
  rw [memberEntries_sources]
  split
  · rfl
  · split
    · rfl
    · exact if_neg fun own => apart own.2

theorem ownEntries_sources (program : Program) (type : LoadedType) (symbol : Identity) :
    Directive.sources ((program.ownEntries type).filterMap (StoreEntry.directive? symbol))
      = [] := by
  rw [ownEntries_directives, Directive.sources_append, Directive.sources_flatMap,
    List.append_eq_nil_iff, List.flatMap_eq_nil_iff]
  refine ⟨?_, fun member _ => ?_⟩
  · split
    · rw [Directive.sources_append, Directive.sources_ofMarks, List.append_nil]
      split <;> rfl
    · rfl
  · split
    · exact Directive.sources_ofMarks _
    · rfl

theorem proxyEntries_sources {proxy : LoadedType} {target : TypeId} {inheritable : Bool}
    (live : program.liveTarget? proxy = some (target, inheritable))
    (kept : Mark.isIgnored proxy.marks = false) (symbol : Identity) :
    Directive.sources ((program.proxyEntries proxy).filterMap (StoreEntry.directive? symbol))
      = proxy.members.flatMap fun id =>
          Directive.sources ((program.memberEntries proxy inheritable target id).filterMap
            (StoreEntry.directive? symbol)) := by
  rw [proxyEntries_directives live, kept, if_neg Bool.false_ne_true, Directive.sources_append,
    Directive.sources_flatMap]
  split
  · rw [Directive.sources_ofMarks, List.nil_append]
  · rfl

/-- A proxy type enters no source for what none of its members is. -/
theorem proxyEntries_sources_of_ne {proxy : LoadedType} {symbol : Identity}
    (apart : ∀ id ∈ proxy.members, program.identityOfMember id ≠ symbol) :
    Directive.sources ((program.proxyEntries proxy).filterMap (StoreEntry.directive? symbol))
      = [] := by
  cases live : program.liveTarget? proxy with
  | none =>
      have nothing : (program.proxyEntries proxy).filterMap (StoreEntry.directive? symbol)
          = [] := by
        refine List.filterMap_eq_nil_iff.mpr fun entry hmem => ?_
        obtain ⟨fault, rfl⟩ := proxyEntries_of_not_live live entry hmem
        rfl
      rw [nothing]
      rfl
  | some pointer =>
      obtain ⟨target, inheritable⟩ := pointer
      cases kept : Mark.isIgnored proxy.marks with
      | false =>
          rw [proxyEntries_sources live kept]
          exact List.flatMap_eq_nil_iff.mpr fun id listed =>
            memberEntries_sources_of_ne (apart id listed)
      | true =>
          rw [proxyEntries_directives live, kept, if_pos rfl, List.append_nil]
          split
          · exact Directive.sources_ofMarks _
          · rfl

/-- **The member of a candidate has one source**, with the mode and the reach of the candidate,
and it resolves to what the candidate supplies. -/
theorem Candidacy.sources (h : program.WellFormed) {target : TypeId} {candidate : ProxyCandidate}
    (candidacy : program.Candidacy target candidate) :
    ∃ how : ProxyTarget,
      Directive.sources ((Store.ofProgram program).directivesFor
          (program.identityOfMember candidate.member))
        = [⟨how, candidate.mode, candidate.inheritable⟩]
      ∧ how.ResolvesTo program (program.member candidate.member) candidate.target := by
  obtain ⟨how, found⟩ := (h.suppliedMember_eq_ok_iff candidacy.targetKnown).mpr candidacy.supplies
  refine ⟨how, ?_, h.resolvesTo_of_suppliedMember candidacy.targetKnown found⟩
  have mode : candidate.mode = proxyMode (program.member candidate.member) :=
    congrArg ProxyCandidate.mode candidacy.made
  have declared := (h.mem_members_iff candidacy.known).mp candidacy.listed
  have same : ∀ type, program.HasType type → ∀ id ∈ (program.type type).members,
      program.identityOfMember id = program.identityOfMember candidate.member →
        id = candidate.member := fun type has id listed =>
    h.identities id _ ((h.mem_members_iff has).mp listed).1 declared.1
  rw [Store.directivesFor_eq, Store.filterMap_ofProgram, Directive.sources_append,
    Directive.sources_flatMap, Directive.sources_flatMap,
    List.flatMap_eq_nil_iff.mpr fun type _ => ownEntries_sources program type _, List.nil_append,
    flatMap_eq_single h.orderedProxies_nodup (candidacy.type_mem_orderedProxies h)]
  · rw [proxyEntries_sources (candidacy.liveTarget?_type h) candidacy.kept,
      flatMap_eq_single (h.members_nodup candidacy.known) candidacy.listed, mode]
    · rw [memberEntries_sources, candidacy.takesPart, if_neg Bool.false_ne_true, found]
      exact if_pos ⟨candidacy.offers, rfl⟩
    · intro id listed hne
      exact memberEntries_sources_of_ne fun heq => hne (same _ candidacy.known id listed heq)
  -- Another proxy type does not declare the member.
  · intro proxy hproxy hne
    obtain ⟨hasProxy, hread, -⟩ := (mem_orderedProxies h).mp hproxy
    refine proxyEntries_sources_of_ne fun id listed heq => hne ?_
    rw [← hread] at listed
    have theirs := ((h.mem_members_iff hasProxy).mp listed).2
    rw [same _ hasProxy id listed heq, declared.2] at theirs
    rw [theirs, hread]

/-! ### One candidate for a member -/

theorem Candidacy.mem_proxiesOf (h : program.WellFormed) {target : TypeId}
    {candidate : ProxyCandidate} (candidacy : program.Candidacy target candidate) :
    candidate.proxyType ∈ (Store.ofProgram program).proxiesOf target := by
  rw [Store.proxiesOf_eq, filterMap_ofProgram_proxies fun _ _ => rfl]
  refine List.mem_flatMap.mpr ⟨_, candidacy.type_mem_orderedProxies h, ?_⟩
  rw [proxyEntries_proxies (candidacy.liveTarget?_type h), if_pos rfl, h.typeId _ candidacy.known]
  exact List.mem_singleton_self _

/-- **A proxy member is one candidate at most**: it stands in one proxy type, which has one
target, and supplies one member there. -/
theorem Candidacy.eq_of_member (h : program.WellFormed) {first second : TypeId}
    {a b : ProxyCandidate} (candidacy : program.Candidacy first a)
    (other : program.Candidacy second b) (same : a.member = b.member) : a = b := by
  have proxyType : a.proxyType = b.proxyType := by
    rw [← ((h.mem_members_iff candidacy.known).mp candidacy.listed).2, same,
      ((h.mem_members_iff other.known).mp other.listed).2]
  have pointer : some (first, a.inheritable) = some (second, b.inheritable) := by
    rw [← candidacy.liveTarget?_type h, proxyType, other.liveTarget?_type h]
  obtain ⟨rfl, inheritable⟩ := Prod.mk.inj (Option.some.inj pointer)
  obtain ⟨_, found⟩ := (h.suppliedMember_eq_ok_iff candidacy.targetKnown).mpr candidacy.supplies
  obtain ⟨_, found'⟩ := (h.suppliedMember_eq_ok_iff other.targetKnown).mpr other.supplies
  rw [← same, found] at found'
  have target : a.target = b.target := (Prod.mk.inj (Except.ok.inj found')).1
  rw [candidacy.made, other.made, proxyType, inheritable, same, target]

end Program

/-! ### Positions of errors -/

namespace Store

/-- A fault that comes last is kept unless one before it has its place. -/
theorem distinctFaults_concat (faults : List Fault) (last : Fault) :
    distinctFaults (faults ++ [last])
      = distinctFaults faults
        ++ if last.place.isSome && faults.any (·.place = last.place) then [] else [last] := by
  induction faults with
  | nil => simp [distinctFaults]
  | cons fault rest ih =>
      rw [List.cons_append, distinctFaults, distinctFaults, ih, List.filter_append,
        List.cons_append, List.any_cons]
      congr 2
      cases hlast : last.place with
      | none =>
          simp only [Option.isSome_none, Bool.false_and, Bool.false_eq_true, if_false]
          cases fault.place <;> simp [hlast]
      | some place =>
          by_cases same : fault.place = some place
          -- The new head has the place, so the last one is left out either way.
          · simp only [same, decide_true, Bool.true_or, Option.isSome_some, Bool.and_self, if_true]
            split
            · rfl
            · simp [hlast]
          · simp only [same, decide_false, Bool.false_or]
            split
            · rfl
            · simp [hlast, Ne.symm same]

end Store

/-- The errors recorded so far, and for what was looked for in vain the position of its error. -/
structure ErrorIndex where
  errors : List ConfigurationError := []
  positions : Memo (TypeId × String) Nat := {}
  deriving Repr

namespace ErrorIndex

/-- Records a fault: its error comes last, and its place is given that position.  A fault at a
place that has a position already is left out. -/
def record (index : ErrorIndex) (fault : Fault) : ErrorIndex :=
  match fault.place with
  | none => { index with errors := index.errors ++ [fault.error] }
  | some place =>
    match index.positions.find? place with
    | some _ => index
    | none =>
      { errors := index.errors ++ [fault.error]
        positions := index.positions.insert place index.errors.length }

/-- The errors of faults that are recorded one after another. -/
def ofFaults (faults : List Fault) : ErrorIndex :=
  faults.foldl record {}

/-- What is recorded of some faults: the first at each place, and what has no place. -/
structure Tells (index : ErrorIndex) (faults : List Fault) : Prop where
  errors : index.errors = (Store.distinctFaults faults).map (·.error)
  positions : ∀ place, (index.positions.find? place).bind (index.errors[·]?)
    = (faults.find? fun fault => fault.place = some place).map (·.error)
  /-- Every position is one of the errors. -/
  valid : ∀ place position, index.positions.find? place = some position →
    position < index.errors.length

variable {index : ErrorIndex} {faults : List Fault}

/-- What has no position was not looked for in vain. -/
theorem Tells.find?_eq_none_iff (tells : index.Tells faults) {place : TypeId × String} :
    index.positions.find? place = none
      ↔ (faults.find? fun fault => fault.place = some place) = none := by
  have told := tells.positions place
  cases hfind : index.positions.find? place with
  | none =>
      rw [hfind] at told
      simpa using told.symm
  | some position =>
      rw [hfind, Option.bind_some,
        List.getElem?_eq_getElem (tells.valid place position hfind)] at told
      refine iff_of_false (by simp) fun nothing => ?_
      rw [nothing] at told
      cases told

/-- Errors that come later change none of the positions. -/
theorem Tells.bind_append (tells : index.Tells faults) (later : List ConfigurationError)
    (place : TypeId × String) :
    (index.positions.find? place).bind ((index.errors ++ later)[·]?)
      = (index.positions.find? place).bind (index.errors[·]?) := by
  cases hfind : index.positions.find? place with
  | none => rfl
  | some position => exact List.getElem?_append_left (tells.valid place position hfind)

theorem Tells.empty : ErrorIndex.Tells {} [] :=
  ⟨rfl, fun _ => rfl, fun _ _ => nofun⟩

/-- A fault without a place: its error comes last, and there is no position to give. -/
theorem Tells.record_unplaced (tells : index.Tells faults) {last : Fault}
    (unplaced : last.place = none) : (index.record last).Tells (faults ++ [last]) := by
  have recorded : index.record last = { index with errors := index.errors ++ [last.error] } := by
    unfold record
    rw [unplaced]
  rw [recorded]
  refine ⟨?_, fun place => ?_, fun place position hfind => ?_⟩
  · simp [Store.distinctFaults_concat, unplaced, tells.errors]
  · rw [tells.bind_append, tells.positions, List.find?_append]
    simp [unplaced]
  · simpa using Nat.lt_succ_of_lt (tells.valid place position hfind)

/-- A fault at a place that has a position: the one that was there first stays. -/
theorem Tells.record_repeated (tells : index.Tells faults) {last first : Fault}
    {place : TypeId × String} (placed : last.place = some place)
    (found : (faults.find? fun fault => fault.place = some place) = some first) :
    (index.record last).Tells (faults ++ [last]) := by
  obtain ⟨position, hfind⟩ : ∃ position, index.positions.find? place = some position :=
    Option.ne_none_iff_exists'.mp fun nothing => by
      rw [tells.find?_eq_none_iff.mp nothing] at found
      cases found
  have recorded : index.record last = index := by
    unfold record
    rw [placed]
    simp only [hfind]
  have repeated : faults.any (·.place = last.place) = true := by
    have same := List.find?_some found
    rw [placed]
    exact List.any_eq_true.mpr ⟨first, List.mem_of_find?_eq_some found, same⟩
  rw [recorded]
  refine ⟨?_, fun other => ?_, tells.valid⟩
  · rw [Store.distinctFaults_concat, repeated, placed, tells.errors]
    simp
  · rw [tells.positions, List.find?_append]
    by_cases same : place = other
    · rw [← same, found]
      rfl
    · simp [placed, same]

/-- The first fault at a place: its error comes last and the place is given its position. -/
theorem Tells.record_first (tells : index.Tells faults) {last : Fault}
    {place : TypeId × String} (placed : last.place = some place)
    (fresh : (faults.find? fun fault => fault.place = some place) = none) :
    (index.record last).Tells (faults ++ [last]) := by
  have recorded : index.record last
      = ⟨index.errors ++ [last.error], index.positions.insert place index.errors.length⟩ := by
    unfold record
    rw [placed]
    simp only [tells.find?_eq_none_iff.mpr fresh]
  rw [recorded]
  refine ⟨?_, fun other => ?_, fun other position hother => ?_⟩
  · have unrepeated : faults.any (·.place = last.place) = false := by
      rw [placed]
      simpa using fresh
    simp [Store.distinctFaults_concat, unrepeated, tells.errors]
  · rw [Memo.find?_insert, List.find?_append]
    by_cases same : place = other
    · rw [← same, fresh, if_pos rfl]
      simp [placed]
    · rw [if_neg same, tells.bind_append, tells.positions]
      simp [placed, same]
  · rw [Memo.find?_insert] at hother
    rw [List.length_append, List.length_singleton]
    split at hother
    · cases hother
      exact Nat.lt_succ_self _
    · exact Nat.lt_succ_of_lt (tells.valid other position hother)

/-- **One more fault** leaves the errors and the positions telling of all. -/
theorem Tells.record (tells : index.Tells faults) (last : Fault) :
    (index.record last).Tells (faults ++ [last]) := by
  cases placed : last.place with
  | none => exact tells.record_unplaced placed
  | some place =>
      cases found : faults.find? fun fault => fault.place = some place with
      | some first => exact tells.record_repeated placed found
      | none => exact tells.record_first placed found

theorem tells_ofFaults (faults : List Fault) : (ofFaults faults).Tells faults := by
  induction faults using List.reverseRecOn with
  | nil => exact Tells.empty
  | append_singleton earlier last ih =>
      unfold ofFaults at ih ⊢
      rw [List.foldl_append]
      exact ih.record last

end ErrorIndex

namespace Store

/-- The errors of a store and their positions, recorded fault by fault. -/
def errorIndex (store : Store) : ErrorIndex :=
  .ofFaults store.faults

theorem errors_errorIndex (store : Store) :
    store.errorIndex.errors = store.configurationErrors :=
  (ErrorIndex.tells_ofFaults store.faults).errors

theorem errorFor?_eq_bind_position (store : Store) (type : TypeId) (name : String) :
    store.errorFor? type name
      = (store.errorIndex.positions.find? (type, name)).bind (store.configurationErrors[·]?) := by
  rw [← errors_errorIndex]
  exact ((ErrorIndex.tells_ofFaults store.faults).positions (type, name)).symm

theorem exists_error_of_position {store : Store} {type : TypeId} {name : String} {position : ℕ}
    (found : store.errorIndex.positions.find? (type, name) = some position) :
    ∃ error, store.configurationErrors[position]? = some error
      ∧ store.errorFor? type name = some error := by
  have valid := (ErrorIndex.tells_ofFaults store.faults).valid (type, name) position found
  have present : store.configurationErrors[position]? = some store.errorIndex.errors[position] := by
    rw [← errors_errorIndex]
    exact List.getElem?_eq_getElem valid
  refine ⟨_, present, ?_⟩
  rw [errorFor?_eq_bind_position, found, Option.bind_some, present]

end Store

/-- The type that a proxy member looked in, in vain. -/
def ConfigurationError.targetType? : ConfigurationError → Option TypeKey
  | .unknownTargetMember _ _ targetType | .ambiguousTarget _ _ targetType => some targetType
  | .unknownTargetType _ _ | .inheritanceTooDeep _ _ => none

namespace Program

variable {program : Program}

theorem targetType?_supplyError (program : Program) (member : LoadedMember) (target : TypeId) :
    (program.supplyError member target).targetType? = some (program.type target).key := by
  unfold supplyError
  split
  · rfl
  · dsimp only
    split <;> rfl

theorem WellFormed.targetType?_of_errorFor? (h : program.WellFormed) {type : TypeId}
    {name : String} {error : ConfigurationError}
    (recorded : (Store.ofProgram program).errorFor? type name = some error) :
    program.HasType type ∧ error.targetType? = some (program.type type).key := by
  obtain ⟨proxy, place, ⟨wrong, sought⟩, -⟩ := h.errorFor?_eq_some_iff.mp recorded
  unfold placeSought? at sought
  cases wrong with
  | target known points live absent =>
      simp [points, h.findType?_eq_none_iff.mpr absent] at sought
  | member known targetKnown points live kept declared takesPart nothing =>
      simp only [points, h.findType?_eq_some_iff.mpr ⟨targetKnown, rfl⟩, Option.pure_def,
        Option.bind_eq_bind, Option.bind_some, List.getElem?_idxOf declared, Option.some.injEq,
        Prod.mk.injEq] at sought
      obtain ⟨rfl, -⟩ := sought
      exact ⟨targetKnown, targetType?_supplyError program _ _⟩

/-! ### All references agree -/

/-- What holds of a candidate under the identity it is filed under. -/
structure CandidateAgrees (program : Program) (identity : Identity)
    (candidate : ProxyCandidate) : Prop where
  /-- The identity is that of the member it supplies. -/
  identity : identity = program.identityOfMember candidate.target
  /-- The first proxy mark of the proxy type names the type that declares this member, and tells
  whether derived types are supplied as well. -/
  pointsAt : ∃ key, Mark.proxyOf? (program.type candidate.proxyType).marks
      = some (key, candidate.inheritable)
    ∧ program.findType? key = some (program.member candidate.target).declaringType
  supplied : candidate.target
    ∈ (program.type (program.member candidate.target).declaringType).members
  /-- The proxy type declares the proxy member. -/
  declared : candidate.member ∈ (program.type candidate.proxyType).members
    ∧ (program.member candidate.member).declaringType = candidate.proxyType
  /-- The proxy type is one of those of the target type. -/
  registered : candidate.proxyType
    ∈ (Store.ofProgram program).proxiesOf (program.member candidate.target).declaringType
  kind : (program.member candidate.member).kind = (program.member candidate.target).kind
  callable : (program.member candidate.member).kind ∈ [.method, .constructor, .operator]
  /-- The proxy member has one source, which resolves to the member it supplies. -/
  source : ∃ how : ProxyTarget,
    Directive.sources ((Store.ofProgram program).directivesFor
        (program.identityOfMember candidate.member))
      = [⟨how, candidate.mode, candidate.inheritable⟩]
    ∧ how.ResolvesTo program (program.member candidate.member) candidate.target

theorem WellFormed.candidateAgrees (h : program.WellFormed) {identity : Identity}
    {candidate : ProxyCandidate}
    (hmem : candidate ∈ (Store.ofProgram program).candidatesFor identity) :
    program.CandidateAgrees identity candidate := by
  obtain ⟨hidentity, target, candidacy⟩ := h.mem_candidatesFor_iff.mp hmem
  have supplied := candidacy.supplies.mem
  have declaring := ((h.mem_members_iff candidacy.targetKnown).mp supplied).2
  have callable : (program.member candidate.member).kind.isCallable = true :=
    (Bool.and_eq_true_iff.mp candidacy.offers).1
  exact {
    identity := hidentity.symm
    pointsAt := ⟨(program.type target).key, candidacy.pointsAt,
      h.findType?_eq_some_iff.mpr (by rw [declaring]; exact ⟨candidacy.targetKnown, rfl⟩)⟩
    supplied := by rw [declaring]; exact supplied
    declared := ⟨candidacy.listed, ((h.mem_members_iff candidacy.known).mp candidacy.listed).2⟩
    registered := by rw [declaring]; exact candidacy.mem_proxiesOf h
    kind := candidacy.supplies.kind.symm
    callable := by
      revert callable
      cases (program.member candidate.member).kind <;> decide
    source := candidacy.sources h }

/-- **The references between the parts of a store.** -/
structure CrossReferenced (program : Program) : Prop where
  /-- A candidate, its member, its proxy type and what it supplies name each other. -/
  candidates : ∀ identity, ∀ candidate ∈ (Store.ofProgram program).candidatesFor identity,
    program.CandidateAgrees identity candidate
  /-- No proxy member is in two candidates, wherever they are filed. -/
  once : ∀ first second, ∀ a ∈ (Store.ofProgram program).candidatesFor first,
    ∀ b ∈ (Store.ofProgram program).candidatesFor second, a.member = b.member →
      first = second ∧ a = b
  /-- Nor is it in one that is filed twice. -/
  distinct : ∀ identity,
    (((Store.ofProgram program).candidatesFor identity).map (·.member)).Nodup
  /-- Candidates stand by the full name of the proxy type, then by declaration. -/
  ordered : ∀ identity,
    ((Store.ofProgram program).candidatesFor identity).Pairwise program.RegisteredBefore
  /-- The error for a name in a type is the one at its position. -/
  indexed : ∀ type name, (Store.ofProgram program).errorFor? type name
    = ((Store.ofProgram program).errorIndex.positions.find? (type, name)).bind
        ((Store.ofProgram program).configurationErrors[·]?)
  /-- Every position is one of the errors, and this error is about the type it is kept for. -/
  positions : ∀ type name position,
    (Store.ofProgram program).errorIndex.positions.find? (type, name) = some position →
      ∃ error, (Store.ofProgram program).configurationErrors[position]? = some error
        ∧ error.targetType? = some (program.type type).key

theorem RegisteredBefore.irrefl (candidate : ProxyCandidate) :
    ¬ program.RegisteredBefore candidate candidate := by
  rintro (name | ⟨-, declaration⟩)
  · exact String.lt_irrefl _ name
  · exact Nat.lt_irrefl _ declaration

/--
**Whatever the store keeps agrees with the rest of it.**  A candidate is filed under the member
it supplies, which the target of its proxy type declares; the proxy type is filed under this
target; the proxy member is of the same kind and carries one source, which leads to the same
member.  It is a candidate once, candidates stand by proxy name and declaration, and every
position of an error holds one that is about the type it was recorded for.
-/
theorem crossReferenced {program : Program} (built : program.Buildable) :
    program.CrossReferenced := by
  have h := built.wellFormed
  have once : ∀ first second, ∀ a ∈ (Store.ofProgram program).candidatesFor first,
      ∀ b ∈ (Store.ofProgram program).candidatesFor second, a.member = b.member →
        first = second ∧ a = b := by
    intro first second a ha b hb same
    obtain ⟨hfirst, _, candidacy⟩ := h.mem_candidatesFor_iff.mp ha
    obtain ⟨hsecond, _, other⟩ := h.mem_candidatesFor_iff.mp hb
    obtain rfl := candidacy.eq_of_member h other same
    exact ⟨hfirst.symm.trans hsecond, rfl⟩
  refine ⟨fun _ _ hmem => h.candidateAgrees hmem, once, fun identity => ?_, h.candidatesFor_ordered,
    (Store.ofProgram program).errorFor?_eq_bind_position, ?_⟩
  · refine List.pairwise_map.mpr ((h.candidatesFor_ordered identity).imp_of_mem ?_)
    intro a b ha hb before same
    obtain ⟨-, rfl⟩ := once identity identity a ha b hb same
    exact RegisteredBefore.irrefl a before
  · intro type name position found
    obtain ⟨error, hposition, recorded⟩ := Store.exists_error_of_position found
    exact ⟨error, hposition, (h.targetType?_of_errorFor? recorded).2⟩

/-- A type with two overloads, and three proxies: one supplies both overloads, one that comes
before it by name supplies an overload under a target name, cannot tell them apart with a third
parameter list and looks for a member that is not there, and the target of one is not loaded. -/
def overloadedTarget : List Edit :=
  [.addAssembly "Lib",
   .addType ⟨0⟩ { name := "T", kind := .classType },
   .addMember ⟨0⟩ (.method "M"),
   .addMember ⟨0⟩ ((MemberDecl.method "M").taking ⟨"pace", ⟨"System.Int32"⟩⟩),
   .addType ⟨0⟩ { name := "Second", kind := .classType, marks := [.proxy ⟨"T"⟩ true] },
   .addMember ⟨1⟩ (.method "M"),
   .addMember ⟨1⟩ ((MemberDecl.method "M").taking ⟨"speed", ⟨"System.Int32"⟩⟩),
   .addType ⟨0⟩ { name := "First", kind := .classType, marks := [.proxy ⟨"T"⟩ false] },
   .addMember ⟨2⟩ { MemberDecl.method "N" with marks := [.suppressBaseCall, .proxyTarget "M"] },
   .addMember ⟨2⟩
     { (MemberDecl.method "O").taking ⟨"name", ⟨"System.String"⟩⟩ with
       marks := [.proxyTarget "M"] },
   .addMember ⟨2⟩ (.method "Gone"),
   .addType ⟨0⟩ { name := "Astray", kind := .classType, marks := [.proxy ⟨"Nowhere"⟩ true] }]

/-- The overload without parameters has two candidates, and of the three errors the last two
have positions. -/
theorem crossReferenced_overloadedTarget :
    let program := Program.afterEdits {} overloadedTarget
    let store := Store.ofProgram program
    (program.Buildable ∧ program.CrossReferenced)
      ∧ store.candidatesFor (program.identityOfMember ⟨0⟩)
        = [⟨⟨4⟩, ⟨2⟩, ⟨0⟩, .replaceBodySuppressBaseCall, false, true⟩,
           ⟨⟨2⟩, ⟨1⟩, ⟨0⟩, .replaceBody, true, true⟩]
      ∧ store.configurationErrors.length = 3
      ∧ store.errorIndex.positions.find? (⟨0⟩, "M") = some 1
      ∧ store.errorIndex.positions.find? (⟨0⟩, "Gone") = some 2 := by
  have built : (Program.afterEdits {} overloadedTarget).Buildable :=
    Program.Buildable.empty.afterEdits (by decide +kernel)
  refine ⟨⟨built, crossReferenced built⟩, ?_⟩
  decide +kernel

end Program

end MemberResolution
