/-
Renames never influence resolution.

A rename travels with the marks that matter: through the directives of a symbol, through a
proxy to its target, into the records of a report.  Nothing that decides reads it on the
way.  Two programs that differ in renames alone have the same log, once the renames in it
are left out, so every question to the store but the one for a new name has one answer, and
the resolvers agree on every type.  What is left to differ in their reports are the names
that symbols are emitted under.
-/
import MemberResolution.Proofs.Agreement
import MemberResolution.Proofs.FirstPass

namespace MemberResolution

/-! ### Marks -/

namespace Mark

/-- Whether a mark renames its symbol. -/
def isRename : Mark → Bool
  | .rename _ => true
  | _ => false

/-- The marks that are no renames, in order. -/
def withoutRenames (marks : List Mark) : List Mark :=
  marks.filter fun mark => !mark.isRename

/-- A question that passes over renames does not need them. -/
theorem findSome?_withoutRenames {β : Type} {read : Mark → Option β}
    (none : ∀ name, read (.rename name) = none) (marks : List Mark) :
    (withoutRenames marks).findSome? read = marks.findSome? read := by
  induction marks with
  | nil => rfl
  | cons mark rest ih =>
      unfold withoutRenames at ih ⊢
      cases mark with
      | rename name => rw [List.findSome?_cons, none]; exact ih
      | _ => rw [List.filter_cons_of_pos rfl, List.findSome?_cons, List.findSome?_cons, ih]

@[simp] theorem proxyOf?_withoutRenames (marks : List Mark) :
    proxyOf? (withoutRenames marks) = proxyOf? marks :=
  findSome?_withoutRenames (fun _ => rfl) marks

@[simp] theorem proxyTarget?_withoutRenames (marks : List Mark) :
    proxyTarget? (withoutRenames marks) = proxyTarget? marks :=
  findSome?_withoutRenames (fun _ => rfl) marks

theorem contains_withoutRenames {mark : Mark} (keeps : mark.isRename = false)
    (marks : List Mark) : (withoutRenames marks).contains mark = marks.contains mark := by
  simp [withoutRenames, keeps]

@[simp] theorem isIgnored_withoutRenames (marks : List Mark) :
    isIgnored (withoutRenames marks) = isIgnored marks :=
  contains_withoutRenames rfl marks

@[simp] theorem isExternal_withoutRenames (marks : List Mark) :
    isExternal (withoutRenames marks) = isExternal marks :=
  contains_withoutRenames rfl marks

@[simp] theorem isNeverReplaced_withoutRenames (marks : List Mark) :
    isNeverReplaced (withoutRenames marks) = isNeverReplaced marks :=
  contains_withoutRenames rfl marks

@[simp] theorem suppressesBaseCall_withoutRenames (marks : List Mark) :
    suppressesBaseCall (withoutRenames marks) = suppressesBaseCall marks :=
  contains_withoutRenames rfl marks

end Mark

/-! ### Directives -/

namespace Directive

/-- Whether a directive renames its symbol. -/
def isRename : Directive → Bool
  | .rename _ => true
  | _ => false

/-- The directives that are no renames, in order. -/
def withoutRenames (directives : List Directive) : List Directive :=
  directives.filter fun directive => !directive.isRename

theorem contains_withoutRenames {directive : Directive} (keeps : directive.isRename = false)
    (directives : List Directive) :
    (withoutRenames directives).contains directive = directives.contains directive := by
  simp [withoutRenames, keeps]

theorem replacement?_withoutRenames (directives : List Directive) :
    replacement? (withoutRenames directives) = replacement? directives := by
  induction directives with
  | nil => rfl
  | cons directive rest ih =>
      unfold withoutRenames replacement? at ih ⊢
      cases directive with
      | rename name => exact ih
      | _ => rw [List.filter_cons_of_pos rfl, List.findSome?_cons, List.findSome?_cons, ih]

/-- Renames decide nothing. -/
theorem Alike.of_withoutRenames {a b : List Directive}
    (same : withoutRenames a = withoutRenames b) : Alike a b := by
  have reads : ∀ {directive : Directive}, directive.isRename = false →
      a.contains directive = b.contains directive := by
    intro directive keeps
    rw [← contains_withoutRenames keeps a, same, contains_withoutRenames keeps]
  refine ⟨reads rfl, reads rfl, reads rfl, ?_⟩
  rw [← replacement?_withoutRenames a, same, replacement?_withoutRenames]

end Directive

/-! ### The log -/

namespace StoreEntry

/-- Whether an entry renames a symbol. -/
def isRename : StoreEntry → Bool
  | .directive _ given => given.isRename
  | _ => false

/-- The entries that are no renames, in order. -/
def withoutRenames (entries : List StoreEntry) : List StoreEntry :=
  entries.filter fun entry => !entry.isRename

@[simp] theorem withoutRenames_append (a b : List StoreEntry) :
    withoutRenames (a ++ b) = withoutRenames a ++ withoutRenames b :=
  List.filter_append _ _

theorem withoutRenames_flatMap {α : Type} (list : List α) (enters : α → List StoreEntry) :
    withoutRenames (list.flatMap enters) = list.flatMap fun a => withoutRenames (enters a) :=
  List.filter_flatMap

/-- The marks that are no renames enter the directives that are none. -/
@[simp] theorem withoutRenames_ofMarks (symbol : Identity) (marks : List Mark) :
    withoutRenames (ofMarks symbol marks) = ofMarks symbol (Mark.withoutRenames marks) := by
  induction marks with
  | nil => rfl
  | cons mark rest ih =>
      cases mark with
      | ignore | external | replacement _ => exact congrArg (_ :: ·) ih
      | _ => exact ih

end StoreEntry

namespace Store

/-- What is selected passing over renames does not need them. -/
theorem filterMap_withoutRenames {β : Type} {select : StoreEntry → Option β}
    (none : ∀ symbol given, select (.directive symbol given) = none)
    (entries : List StoreEntry) :
    (StoreEntry.withoutRenames entries).filterMap select = entries.filterMap select := by
  induction entries with
  | nil => rfl
  | cons entry rest ih =>
      unfold StoreEntry.withoutRenames at ih ⊢
      by_cases renames : entry.isRename = true
      · cases entry with
        | directive symbol given => simp [renames, none, ih]
        | _ => cases renames
      · simp [renames, List.filterMap_cons, ih]

/-- The directives that are no renames are entered by the entries that are none. -/
theorem withoutRenames_directivesFor (store : Store) (symbol : Identity) :
    Directive.withoutRenames (store.directivesFor symbol)
      = (StoreEntry.withoutRenames store.entries).filterMap (StoreEntry.directive? symbol) := by
  rw [directivesFor_eq]
  induction store.entries with
  | nil => rfl
  | cons entry rest ih =>
      unfold StoreEntry.withoutRenames Directive.withoutRenames at ih ⊢
      cases entry with
      | directive identity given =>
          by_cases hsymbol : identity = symbol <;>
            by_cases renames : given.isRename = true <;>
            simp [StoreEntry.directive?, StoreEntry.isRename, hsymbol, renames, ih]
      | _ => simp [List.filterMap_cons, StoreEntry.directive?, StoreEntry.isRename, ih]

end Store

/-! ### Programs that differ in renames alone -/

/-- A type without the renames among its marks. -/
def LoadedType.withoutRenames (type : LoadedType) : LoadedType :=
  { type with marks := Mark.withoutRenames type.marks }

/-- A member without the renames among its marks. -/
def LoadedMember.withoutRenames (member : LoadedMember) : LoadedMember :=
  { member with marks := Mark.withoutRenames member.marks }

namespace Program

/-- A program in which nothing is renamed, without its memos, which follow from what is
loaded. -/
def withoutRenames (program : Program) : Program :=
  { assemblies := program.assemblies
    types := program.types.map (·.withoutRenames)
    members := program.members.map (·.withoutRenames) }

theorem type_withoutRenames (program : Program) (id : TypeId) :
    program.withoutRenames.type id = (program.type id).withoutRenames := by
  unfold type withoutRenames
  rw [Array.getD_eq_getD_getElem?, Array.getD_eq_getD_getElem?, Array.getElem?_map]
  cases program.types[id.index]? <;> rfl

theorem member_withoutRenames (program : Program) (id : MemberId) :
    program.withoutRenames.member id = (program.member id).withoutRenames := by
  unfold member withoutRenames
  rw [Array.getD_eq_getD_getElem?, Array.getD_eq_getD_getElem?, Array.getElem?_map]
  cases program.members[id.index]? <;> rfl

/-- Two well-formed programs that differ in renames alone. -/
structure SameButRenames (p q : Program) : Prop where
  before : p.WellFormed
  after : q.WellFormed
  same : p.withoutRenames = q.withoutRenames

namespace SameButRenames

variable {p q : Program}

theorem type (h : p.SameButRenames q) (id : TypeId) :
    (q.type id).withoutRenames = (p.type id).withoutRenames := by
  rw [← type_withoutRenames, ← type_withoutRenames, h.same]

theorem member (h : p.SameButRenames q) (id : MemberId) :
    (q.member id).withoutRenames = (p.member id).withoutRenames := by
  rw [← member_withoutRenames, ← member_withoutRenames, h.same]

theorem read_type {β : Type} (h : p.SameButRenames q) (id : TypeId) (read : LoadedType → β)
    (reads : ∀ type, read type.withoutRenames = read type) :
    read (q.type id) = read (p.type id) := by
  rw [← reads, h.type, reads]

theorem read_member {β : Type} (h : p.SameButRenames q) (id : MemberId)
    (read : LoadedMember → β) (reads : ∀ member, read member.withoutRenames = read member) :
    read (q.member id) = read (p.member id) := by
  rw [← reads, h.member, reads]

theorem typeMarks (h : p.SameButRenames q) (id : TypeId) :
    Mark.withoutRenames (q.type id).marks = Mark.withoutRenames (p.type id).marks :=
  congrArg LoadedType.marks (h.type id)

theorem memberMarks (h : p.SameButRenames q) (id : MemberId) :
    Mark.withoutRenames (q.member id).marks = Mark.withoutRenames (p.member id).marks :=
  congrArg LoadedMember.marks (h.member id)

theorem assemblies (h : p.SameButRenames q) : q.assemblies = p.assemblies :=
  (congrArg Program.assemblies h.same).symm

theorem typeCount (h : p.SameButRenames q) : q.types.size = p.types.size := by
  have size := congrArg (·.types.size) h.same
  simp only [withoutRenames, Array.size_map] at size
  exact size.symm

theorem memberCount (h : p.SameButRenames q) : q.members.size = p.members.size := by
  have size := congrArg (·.members.size) h.same
  simp only [withoutRenames, Array.size_map] at size
  exact size.symm

/-! ### What marks are read for -/

/-- What a list of marks tells without its renames is told in both programs. -/
theorem typeTells {β : Type} (h : p.SameButRenames q) (id : TypeId) {read : List Mark → β}
    (reads : ∀ marks, read (Mark.withoutRenames marks) = read marks) :
    read (q.type id).marks = read (p.type id).marks :=
  h.read_type id (fun type => read type.marks) fun type => reads type.marks

theorem memberTells {β : Type} (h : p.SameButRenames q) (id : MemberId) {read : List Mark → β}
    (reads : ∀ marks, read (Mark.withoutRenames marks) = read marks) :
    read (q.member id).marks = read (p.member id).marks :=
  h.read_member id (fun member => read member.marks) fun member => reads member.marks

theorem isProxy (h : p.SameButRenames q) (id : TypeId) :
    (q.type id).isProxy = (p.type id).isProxy := by
  unfold LoadedType.isProxy
  rw [h.typeTells id Mark.proxyOf?_withoutRenames]

theorem sameSkeleton (h : p.SameButRenames q) : p.SameSkeleton q where
  before := h.before
  after := h.after
  assemblies id _ := by
    unfold assembly
    rw [h.assemblies]
  typeCount := h.typeCount
  memberCount := h.memberCount
  types id _ := h.read_type id (·.shape) fun _ => rfl
  members id _ := h.read_member id (·.skeleton) fun _ => rfl
  proxies id _ := h.isProxy id

theorem hasType (h : p.SameButRenames q) {id : TypeId} : q.HasType id ↔ p.HasType id :=
  h.sameSkeleton.hasType

theorem extend (h : p.SameButRenames q) : p.Extends q :=
  h.sameSkeleton.extend

theorem isInsideIgnored (h : p.SameButRenames q) {id : TypeId} (has : p.HasType id) :
    q.isInsideIgnored id = p.isInsideIgnored id :=
  h.extend.isInsideIgnored has fun outer _ => h.typeTells outer Mark.isIgnored_withoutRenames

theorem isInert (h : p.SameButRenames q) {id : MemberId} (has : p.HasMember id) :
    q.isInert (q.member id) = p.isInert (p.member id) :=
  h.extend.isInert has (h.memberTells id Mark.isNeverReplaced_withoutRenames)
    fun owner _ => h.memberTells owner Mark.isNeverReplaced_withoutRenames

/-! ### What types enter -/

theorem ownEntries (h : p.SameButRenames q) {id : TypeId} (has : p.HasType id) :
    StoreEntry.withoutRenames (q.ownEntries (q.type id))
      = StoreEntry.withoutRenames (p.ownEntries (p.type id)) := by
  have members : ∀ member ∈ (p.type id).members,
      StoreEntry.withoutRenames
          (StoreEntry.ofMarks (q.identityOfMember member) (q.member member).marks)
        = StoreEntry.withoutRenames
          (StoreEntry.ofMarks (p.identityOfMember member) (p.member member).marks) := by
    intro member hmem
    rw [StoreEntry.withoutRenames_ofMarks, StoreEntry.withoutRenames_ofMarks, h.memberMarks,
      h.extend.identityOfMember (h.before.declares id has member hmem).1]
  unfold Program.ownEntries
  simp only [StoreEntry.withoutRenames_append, StoreEntry.withoutRenames_flatMap]
  rw [h.after.typeId id (h.hasType.mpr has), h.before.typeId id has, h.extend.inStubAssembly has,
    h.extend.identityOfType has, h.extend.listed has, List.flatMap_congr members,
    StoreEntry.withoutRenames_ofMarks, StoreEntry.withoutRenames_ofMarks, h.typeMarks]

theorem memberEntries (h : p.SameButRenames q) {proxy : TypeId} (hasProxy : p.HasType proxy)
    {inheritable : Bool} {target : TypeId} (hasTarget : p.HasType target) {id : MemberId}
    (has : p.HasMember id) :
    StoreEntry.withoutRenames (q.memberEntries (q.type proxy) inheritable target id)
      = StoreEntry.withoutRenames (p.memberEntries (p.type proxy) inheritable target id) := by
  have body : (q.member id).body = (p.member id).body :=
    h.read_member id (·.body) fun _ => rfl
  unfold Program.memberEntries
  simp only
  rw [h.isInert has, h.extend.suppliedMember has
    (h.memberTells id Mark.proxyTarget?_withoutRenames) hasTarget, h.extend.kind has, body,
    h.memberTells id Mark.suppressesBaseCall_withoutRenames,
    h.memberTells id Mark.isIgnored_withoutRenames,
    h.memberTells id Mark.isExternal_withoutRenames, h.extend.identityOfMember has,
    h.after.typeId proxy (h.hasType.mpr hasProxy), h.before.typeId proxy hasProxy]
  cases p.isInert (p.member id) with
  | true => rfl
  | false =>
      cases hfound : p.suppliedMember (p.member id) target with
      | error fault => rfl
      | ok found =>
          obtain ⟨supplied, how⟩ := found
          have mem := (h.before.suppliedMember_eq_ok_iff hasTarget).mp ⟨how, hfound⟩ |>.mem
          have hasSupplied := (h.before.declares target hasTarget supplied mem).1
          simp only [Bool.false_eq_true, if_false, StoreEntry.withoutRenames_append]
          rw [h.extend.identityOfMember hasSupplied, StoreEntry.withoutRenames_ofMarks,
            StoreEntry.withoutRenames_ofMarks, h.memberMarks]

theorem proxyEntries (h : p.SameButRenames q) {proxy : TypeId} (has : p.HasType proxy) :
    StoreEntry.withoutRenames (q.proxyEntries (q.type proxy))
      = StoreEntry.withoutRenames (p.proxyEntries (p.type proxy)) := by
  unfold Program.proxyEntries
  rw [h.typeTells proxy Mark.proxyOf?_withoutRenames,
    h.typeTells proxy Mark.isIgnored_withoutRenames,
    h.after.typeId proxy (h.hasType.mpr has), h.before.typeId proxy has, h.isInsideIgnored has,
    h.extend.key has, h.extend.listed has]
  cases Mark.proxyOf? (p.type proxy).marks with
  | none => rfl
  | some pointer =>
      obtain ⟨targetKey, inheritable⟩ := pointer
      simp only
      split
      · rfl
      · rw [h.sameSkeleton.findType?]
        cases hfind : p.findType? targetKey with
        | none => rfl
        | some target =>
            have hasTarget := (h.before.findType?_eq_some_iff.mp hfind).1
            have members : ∀ id ∈ (p.type proxy).members,
                StoreEntry.withoutRenames (q.memberEntries (q.type proxy) inheritable target id)
                  = StoreEntry.withoutRenames
                    (p.memberEntries (p.type proxy) inheritable target id) :=
              fun id listed =>
                h.memberEntries has hasTarget (h.before.declares proxy has id listed).1
            simp only [StoreEntry.withoutRenames_append]
            congr 1
            · have marks : StoreEntry.withoutRenames
                    (StoreEntry.ofMarks (q.identityOfType target) (q.type proxy).marks)
                  = StoreEntry.withoutRenames
                    (StoreEntry.ofMarks (p.identityOfType target) (p.type proxy).marks) := by
                rw [StoreEntry.withoutRenames_ofMarks, StoreEntry.withoutRenames_ofMarks,
                  h.typeMarks, h.extend.identityOfType hasTarget]
              exact congrArg (StoreEntry.proxy target proxy :: ·) marks
            · split
              · rfl
              · rw [StoreEntry.withoutRenames_flatMap, StoreEntry.withoutRenames_flatMap,
                  List.flatMap_congr members]

/-! ### The log of the program -/

/-- **The logs are one, but for renames.** -/
theorem entries (h : p.SameButRenames q) :
    StoreEntry.withoutRenames (Store.ofProgram q).entries
      = StoreEntry.withoutRenames (Store.ofProgram p).entries := by
  have own : ∀ type ∈ p.plainTypes,
      StoreEntry.withoutRenames (q.ownEntries (q.type type.id))
        = StoreEntry.withoutRenames (p.ownEntries type) := by
    intro type hmem
    obtain ⟨has, hread, -⟩ := (mem_plainTypes h.before).mp hmem
    rw [h.ownEntries has, hread]
  have brought : ∀ proxy ∈ p.orderedProxies,
      StoreEntry.withoutRenames (q.proxyEntries (q.type proxy.id))
        = StoreEntry.withoutRenames (p.proxyEntries proxy) := by
    intro proxy hmem
    obtain ⟨has, hread, -⟩ := (mem_orderedProxies h.before).mp hmem
    rw [h.proxyEntries has, hread]
  unfold Store.ofProgram
  simp only [StoreEntry.withoutRenames_append, StoreEntry.withoutRenames_flatMap]
  rw [h.sameSkeleton.plainTypes, h.sameSkeleton.orderedProxies, List.flatMap_map,
    List.flatMap_map, List.flatMap_congr own, List.flatMap_congr brought]

/-- What is selected passing over renames is the same. -/
theorem select {β : Type} (h : p.SameButRenames q) {select : StoreEntry → Option β}
    (none : ∀ symbol given, select (.directive symbol given) = none) :
    (Store.ofProgram q).entries.filterMap select
      = (Store.ofProgram p).entries.filterMap select := by
  rw [← Store.filterMap_withoutRenames none, h.entries, Store.filterMap_withoutRenames none]

theorem directivesFor (h : p.SameButRenames q) (symbol : Identity) :
    Directive.Alike ((Store.ofProgram q).directivesFor symbol)
      ((Store.ofProgram p).directivesFor symbol) := by
  refine .of_withoutRenames ?_
  rw [Store.withoutRenames_directivesFor, Store.withoutRenames_directivesFor, h.entries]

theorem candidatesFor (h : p.SameButRenames q) (target : Identity) :
    (Store.ofProgram q).candidatesFor target = (Store.ofProgram p).candidatesFor target := by
  rw [Store.candidatesFor_eq, Store.candidatesFor_eq]
  exact h.select fun _ _ => rfl

theorem proxiesOf (h : p.SameButRenames q) (type : TypeId) :
    (Store.ofProgram q).proxiesOf type = (Store.ofProgram p).proxiesOf type := by
  rw [Store.proxiesOf_eq, Store.proxiesOf_eq]
  exact h.select fun _ _ => rfl

theorem faults (h : p.SameButRenames q) :
    (Store.ofProgram q).faults = (Store.ofProgram p).faults := by
  rw [Store.faults_eq, Store.faults_eq]
  exact h.select fun _ _ => rfl

end SameButRenames

end Program

/-! ### Resolvers of such programs -/

namespace Resolver

/-- Two resolvers with one limit, of programs that differ in renames alone. -/
structure SameButRenames (r s : Resolver) : Prop
    extends r.program.SameButRenames s.program where
  maxDepth : s.maxDepth = r.maxDepth

namespace SameButRenames

variable {r s : Resolver}

theorem errorFor? (h : r.SameButRenames s) (type : TypeId) (name : String) :
    s.store.errorFor? type name = r.store.errorFor? type name := by
  rw [s.store_eq, r.store_eq]
  unfold Store.errorFor?
  rw [h.faults]

theorem validate (h : r.SameButRenames s) : s.validate = r.validate := by
  unfold Resolver.validate Store.configurationErrors
  rw [s.store_eq, r.store_eq, h.faults]

theorem findProxy (h : r.SameButRenames s) {start : TypeId} (has : r.program.HasType start)
    (signature : Identity) : s.findProxy start signature = r.findProxy start signature := by
  refine findProxy_eq_of_agree h.extend h.maxDepth has (fun type _ _ => h.errorFor? type _)
    fun type _ _ => ?_
  rw [s.store_eq, r.store_eq, h.candidatesFor]

/-- **The resolvers agree on every type.** -/
theorem agreesOn (h : r.SameButRenames s) {type : TypeId} (has : r.program.HasType type) :
    r.AgreesOn s type := by
  have typeDirectives : ∀ id, r.program.HasType id →
      Directive.Alike (s.typeDirectives id) (r.typeDirectives id) := by
    intro id hasId
    unfold Resolver.typeDirectives
    rw [s.store_eq, r.store_eq, h.extend.identityOfType hasId]
    exact h.directivesFor _
  refine ⟨⟨⟨h.extend, has, fun outer hmem => ?_, typeDirectives type has⟩, fun id hmem => ?_,
    fun id _ => h.read_member id (·.body) fun _ => rfl⟩, ?_, fun id _ => h.findProxy has _⟩
  · exact (typeDirectives outer (h.before.hasType_of_mem_enclosingUpTo has outer hmem)).isIgnored
  · unfold Resolver.memberDirectives
    rw [s.store_eq, r.store_eq,
      h.extend.identityOfMember (h.before.declares type has id hmem).1]
    exact h.directivesFor _
  · rw [s.store_eq, r.store_eq, h.proxiesOf]

end SameButRenames

end Resolver

/-! ### Reports without the names that are emitted -/

/-- The record without the name the member is emitted under. -/
def MemberRecord.withoutName (record : MemberRecord) : MemberRecord :=
  { record with identifier := "" }

/-- The record without the name the type is emitted under, and without what a reference to
it emits unless a replacement is in effect, as the test says. -/
def TypeRecord.withoutNames (replaced : TypeKey → Bool) (record : TypeRecord) : TypeRecord :=
  { record with
    identifier := ""
    reference := if replaced record.name then record.reference else ""
    members := record.members.map (·.withoutName) }

/-- The report without these names. -/
def Report.withoutNames (replaced : TypeKey → Bool) (report : Report) : Report :=
  { report with types := report.types.map (·.withoutNames replaced) }

/-- Whether a replacement is in effect for the type with a key. -/
def Program.hasReplacement (program : Program) (key : TypeKey) : Bool :=
  (Directive.replacement? ((Store.ofProgram program).directivesFor (.ofType key))).isSome

theorem TypeRecord.allDiagnostics_withoutNames (replaced : TypeKey → Bool) (record : TypeRecord) :
    (record.withoutNames replaced).allDiagnostics = record.allDiagnostics := by
  unfold allDiagnostics withoutNames
  simp only [List.filterMap_map]
  rfl

/-- The record of a resolved type and its members, without the names they are emitted
under. -/
def Program.bareRecord (program : Program) (complete : Bool) (replaced : TypeKey → Bool)
    (row : ResolvedType × List ResolvedMember) : TypeRecord :=
  (TypeRecord.ofResolved program complete row.1
    (row.2.map (MemberRecord.ofResolved program complete))).withoutNames replaced

/-- A report without names is made of records without names. -/
theorem Report.withoutNames_ofRows (program : Program) (complete : Bool) (stats : CacheStats)
    (replaced : TypeKey → Bool) (rows : List (ResolvedType × List ResolvedMember)) :
    (Report.ofRows program complete stats rows).withoutNames replaced
      = { types := rows.map (program.bareRecord complete replaced)
          diagnostics := (rows.map (program.bareRecord complete replaced)).flatMap
            (·.allDiagnostics)
          cache := stats } := by
  unfold Report.withoutNames Report.ofRows
  simp only [List.map_map, List.flatMap_map]
  congr 1
  refine List.flatMap_congr fun row _ => ?_
  exact (TypeRecord.allDiagnostics_withoutNames replaced _).symm

namespace Resolver

namespace SameButRenames

variable {r s : Resolver}

theorem identityOfMember (h : r.SameButRenames s) (id : MemberId) :
    s.program.identityOfMember id = r.program.identityOfMember id := by
  unfold Program.identityOfMember Program.identityOf
  rw [h.read_member id (·.declaringType) fun _ => rfl, h.read_member id (·.kind) fun _ => rfl,
    h.read_member id (·.name) fun _ => rfl, h.read_member id (·.params) fun _ => rfl,
    h.read_member id (·.type) fun _ => rfl, h.read_type _ (·.key) fun _ => rfl]

theorem hasReplacement (h : r.SameButRenames s) (key : TypeKey) :
    s.program.hasReplacement key = r.program.hasReplacement key := by
  unfold Program.hasReplacement
  rw [(h.directivesFor _).replacement?]

theorem memberRecord (h : r.SameButRenames s) (complete : Bool) {type : TypeId}
    (has : r.program.HasType type) {id : MemberId} (hmem : id ∈ (r.program.type type).members) :
    (fun resolved => (MemberRecord.ofResolved s.program complete resolved).withoutName)
        <$> s.resolveMember id
      = (fun resolved => (MemberRecord.ofResolved r.program complete resolved).withoutName)
        <$> r.resolveMember id := by
  have params : (s.program.member id).params = (r.program.member id).params :=
    h.read_member id (·.params) fun _ => rfl
  have refusal := h.extend.refusedMember (h.before.declares type has id hmem).1 params
  unfold Resolver.resolveMember
  rw [(h.agreesOn has).classifyMember hmem fun _ => refusal, h.identityOfMember]
  cases r.classifyMember id with
  | error error => rfl
  | ok outcome =>
      refine congrArg Except.ok ?_
      unfold MemberRecord.ofResolved MemberRecord.withoutName
      cases outcome with
      | proxy body => simp only [Outcome.bodySource, h.identityOfMember]
      | _ => rfl

theorem typeRecord (h : r.SameButRenames s) (complete : Bool) {id : TypeId}
    (has : r.program.HasType id) (members : List MemberRecord) :
    (TypeRecord.ofResolved s.program complete (s.resolveType id) members).withoutNames
        r.program.hasReplacement
      = (TypeRecord.ofResolved r.program complete (r.resolveType id) members).withoutNames
        r.program.hasReplacement := by
  have directives : Directive.replacement? (s.typeDirectives id)
      = Directive.replacement? (r.typeDirectives id) := (h.agreesOn has).directives.replacement?
  -- The reference is kept only where a replacement stands in it, and that is the same.
  have reference : r.program.hasReplacement (r.program.type id).key = true →
      s.typeReference id = r.typeReference id := by
    intro replaced
    have effective : (Directive.replacement? (r.typeDirectives id)).isSome = true := by
      unfold Resolver.typeDirectives
      rw [r.store_eq]
      exact replaced
    obtain ⟨expression, hexpression⟩ := Option.isSome_iff_exists.mp effective
    unfold Resolver.typeReference
    rw [directives, hexpression]
    rfl
  unfold TypeRecord.ofResolved TypeRecord.withoutNames Resolver.resolveType
  simp only [(h.agreesOn has).classifyType, h.extend.key has]
  split
  · rw [reference ‹_›]
  · rfl

/-- What a report says of a type and its members, but for their names. -/
theorem bareRecord (h : r.SameButRenames s) (complete : Bool) {type : LoadedType}
    (hmem : type ∈ r.program.plainTypes) :
    s.program.bareRecord complete r.program.hasReplacement
        <$> s.resolveRow (s.program.type type.id)
      = r.program.bareRecord complete r.program.hasReplacement <$> r.resolveRow type := by
  obtain ⟨has, hread, -⟩ := (Program.mem_plainTypes h.before).mp hmem
  -- A row without names is made of the members without names.
  have row : ∀ (resolver : Resolver) (type : LoadedType),
      resolver.program.bareRecord complete r.program.hasReplacement <$> resolver.resolveRow type
        = (fun members => (TypeRecord.ofResolved resolver.program complete
              (resolver.resolveType type.id) members).withoutNames r.program.hasReplacement)
          <$> List.map (fun resolved =>
              (MemberRecord.ofResolved resolver.program complete resolved).withoutName)
          <$> type.members.mapM resolver.resolveMember := by
    intro resolver type
    unfold Resolver.resolveRow
    cases type.members.mapM resolver.resolveMember with
    | error error => rfl
    | ok resolved =>
        refine congrArg Except.ok ?_
        unfold Program.bareRecord TypeRecord.withoutNames TypeRecord.ofResolved
        simp [MemberRecord.withoutName]
  have listed : (s.program.type type.id).members = type.members := by
    rw [h.extend.listed has, hread]
  have members := map_mapM_congr fun id (hid : id ∈ type.members) =>
    h.memberRecord complete has (by rw [hread]; exact hid)
  have hid : (s.program.type type.id).id = type.id := h.after.typeId _ (h.hasType.mpr has)
  rw [row, row, listed, members, hid]
  exact congrArg (· <$> _) (funext fun members => h.typeRecord complete has members)

/-- Everything resolved, but for names. -/
theorem resolveAll (h : r.SameButRenames s) (complete : Bool) :
    List.map (s.program.bareRecord complete r.program.hasReplacement) <$> s.resolveAll
      = List.map (r.program.bareRecord complete r.program.hasReplacement) <$> r.resolveAll := by
  unfold Resolver.resolveAll
  rw [h.validate, h.sameSkeleton.plainTypes]
  cases r.validate with
  | error error => rfl
  | ok _ =>
      show List.map _ <$> List.mapM _ (List.map _ _) = List.map _ <$> List.mapM _ _
      rw [List.mapM_map]
      exact map_mapM_congr fun type hmem => h.bareRecord complete hmem

end SameButRenames

end Resolver

/-! ### Diagnostics name what is declared -/

namespace Program

/-- The diagnostic is about a loaded type or member and names it as it is declared. -/
def NamesDeclared (program : Program) (diagnostic : ReferenceDiagnostic) : Prop :=
  (∃ id, program.HasType id
      ∧ (diagnostic = program.refusedType id ∨ diagnostic = program.externalType id))
    ∨ ∃ id, program.HasMember id
      ∧ (diagnostic = program.refusedMember id ∨ diagnostic = program.externalMethod id
        ∨ diagnostic = program.untranslatableMember id)

end Program

namespace Resolver

variable {resolver : Resolver} {id : MemberId} {diagnostic : ReferenceDiagnostic}

theorem namesDeclared_missingDiagnostic (h : resolver.program.WellFormed)
    (has : resolver.program.HasMember id) :
    resolver.program.NamesDeclared (resolver.missingDiagnostic id) := by
  unfold missingDiagnostic
  simp only
  split
  · exact .inl ⟨_, h.declaringType id has, .inr rfl⟩
  · split
    · exact .inr ⟨id, has, .inr (.inr rfl)⟩
    · exact .inr ⟨id, has, .inr (.inl rfl)⟩

theorem namesDeclared_of_unlessOverridden (has : resolver.program.HasMember id)
    {otherwise : Except ConfigurationError Outcome}
    (rest : ∀ outcome, otherwise = .ok outcome → outcome.diagnostic? = some diagnostic →
      resolver.program.NamesDeclared diagnostic)
    {outcome : Outcome} (decided : resolver.unlessOverridden id otherwise = .ok outcome)
    (raises : outcome.diagnostic? = some diagnostic) :
    resolver.program.NamesDeclared diagnostic := by
  unfold unlessOverridden at decided
  split at decided
  · cases decided
    cases raises
    exact .inr ⟨id, has, .inl rfl⟩
  · split at decided
    · cases decided
      cases raises
    · exact rest outcome decided raises

theorem namesDeclared_of_implementation (h : resolver.program.WellFormed)
    (has : resolver.program.HasMember id) {outcome : Outcome}
    (decided : resolver.implementation id = .ok outcome)
    (raises : outcome.diagnostic? = some diagnostic) :
    resolver.program.NamesDeclared diagnostic := by
  obtain ⟨found, -, hfound⟩ := bind_eq_ok_iff.mp decided
  cases found with
  | some body => cases hfound; cases raises
  | none =>
      cases hfound
      unfold ownOutcome at raises
      split at raises
      · cases raises
      · cases raises
        exact namesDeclared_missingDiagnostic h has

theorem namesDeclared_of_firstUnimplemented (h : resolver.program.WellFormed)
    {accessors : List MemberId} (known : ∀ id ∈ accessors, resolver.program.HasMember id)
    {outcome : Outcome} (decided : resolver.firstUnimplemented accessors = .ok outcome)
    (raises : outcome.diagnostic? = some diagnostic) :
    resolver.program.NamesDeclared diagnostic := by
  induction accessors with
  | nil => cases decided; cases raises
  | cons accessor rest ih =>
      unfold firstUnimplemented at decided
      split at decided
      · cases decided
      · rename_i found hfound
        cases decided
        have has := known accessor List.mem_cons_self
        exact namesDeclared_of_unlessOverridden has
          (fun _ => namesDeclared_of_implementation h has) hfound raises
      · exact ih (fun other hmem => known other (List.mem_cons_of_mem _ hmem)) decided

/-- **What using a member raises names a declared symbol.** -/
theorem namesDeclared_of_classifyMember (h : resolver.program.WellFormed)
    (has : resolver.program.HasMember id) {outcome : Outcome}
    (decided : resolver.classifyMember id = .ok outcome)
    (raises : outcome.diagnostic? = some diagnostic) :
    resolver.program.NamesDeclared diagnostic := by
  have owner : ∀ outcome, resolver.ownerOutcome id = .ok outcome →
      outcome.diagnostic? = some diagnostic → resolver.program.NamesDeclared diagnostic := by
    intro outcome decided raises
    unfold ownerOutcome at decided
    split at decided
    · refine namesDeclared_of_firstUnimplemented h (fun accessor hmem => ?_) decided raises
      exact (h.accessors id has accessor hmem).known
    · cases decided
      cases raises
  refine namesDeclared_of_unlessOverridden has (fun outcome decided raises => ?_) decided raises
  cases hkind : (resolver.program.member id).kind <;> simp only [hkind] at decided
  case field => cases decided; cases raises
  case property | event => exact owner outcome decided raises
  all_goals exact namesDeclared_of_implementation h has decided raises

theorem namesDeclared_of_classifyType {id : TypeId} (has : resolver.program.HasType id)
    (raises : (resolver.classifyType id).diagnostic? = some diagnostic) :
    resolver.program.NamesDeclared diagnostic := by
  unfold classifyType at raises
  split at raises
  · cases raises
    exact .inl ⟨id, has, .inl rfl⟩
  · split at raises
    · cases raises
    · split at raises <;> cases raises

/-- Every diagnostic of a report names a declared symbol. -/
theorem namesDeclared_of_resolveAll (h : resolver.program.WellFormed)
    {rows : List (ResolvedType × List ResolvedMember)} (resolved : resolver.resolveAll = .ok rows)
    {complete : Bool} {stats : CacheStats} :
    ∀ rendered ∈ (Report.ofRows resolver.program complete stats rows).diagnostics,
      ∃ diagnostic, resolver.program.NamesDeclared diagnostic
        ∧ rendered = diagnostic.toDiagnostic complete := by
  intro rendered hmem
  obtain ⟨record, hrecord, hrendered⟩ := List.mem_flatMap.mp hmem
  obtain ⟨row, hrow, rfl⟩ := List.mem_map.mp hrecord
  obtain ⟨-, -, passed⟩ := bind_eq_ok_iff.mp resolved
  obtain ⟨type, htype, hresolved⟩ :=
    exists_of_mem_forall₂ (forall₂_of_mapM_eq_ok passed).flip hrow
  obtain ⟨has, hread, -⟩ := (Program.mem_plainTypes h).mp htype
  obtain ⟨rowType, rowMembers⟩ := resolveRow_eq_ok_iff.mp hresolved
  rcases List.mem_append.mp hrendered with ofType | ofMember
  · obtain ⟨diagnostic, raises, rfl⟩ := Option.map_eq_some_iff.mp (Option.mem_toList.mp ofType)
    rw [rowType] at raises
    exact ⟨diagnostic, namesDeclared_of_classifyType has raises, rfl⟩
  · obtain ⟨record, hmember, hdiagnostic⟩ := List.mem_filterMap.mp ofMember
    obtain ⟨member, hresolvedMember, rfl⟩ := List.mem_map.mp hmember
    obtain ⟨diagnostic, raises, rfl⟩ := Option.map_eq_some_iff.mp hdiagnostic
    obtain ⟨id, hid, hmemberOk⟩ :=
      exists_of_mem_forall₂ (forall₂_of_mapM_eq_ok rowMembers).flip hresolvedMember
    obtain ⟨outcome, decided, hmade⟩ := bind_eq_ok_iff.mp hmemberOk
    cases hmade
    rw [← hread] at hid
    exact ⟨diagnostic,
      namesDeclared_of_classifyMember h (h.declares type.id has id hid).1 decided raises, rfl⟩

end Resolver

/-- **Renames never influence resolution.**  Two programs that differ in renames alone fail
alike, or their reports differ in nothing but the names that types and members are emitted
under and the references to types without a replacement in effect.  Whatever is renamed,
diagnostics name what is declared. -/
theorem Program.resolve_independent_of_renames {p q : Program} (built : p.Buildable)
    (rebuilt : q.Buildable) (same : p.withoutRenames = q.withoutRenames) (options : Options) :
    (Report.withoutNames p.hasReplacement <$> q.resolve options
        = Report.withoutNames p.hasReplacement <$> p.resolve options)
      ∧ (∀ key, q.hasReplacement key = p.hasReplacement key)
      ∧ ∀ report, p.resolve options = .ok report → ∀ rendered ∈ report.diagnostics,
          ∃ diagnostic, p.NamesDeclared diagnostic
            ∧ rendered = diagnostic.toDiagnostic options.completeMessages := by
  have h : (Session.start p options).resolver.SameButRenames (Session.start q options).resolver :=
    ⟨⟨built.wellFormed, rebuilt.wellFormed, same⟩, rfl⟩
  -- A report without names is made of what was resolved, without names.
  have bare : ∀ {program : Program}, program.WellFormed →
      Report.withoutNames p.hasReplacement <$> program.resolve options
        = (fun types : List TypeRecord => ({
            types := types
            diagnostics := types.flatMap (·.allDiagnostics)
            cache := { misses := program.plainSymbols.length } } : Report))
          <$> List.map (program.bareRecord options.completeMessages p.hasReplacement)
          <$> (Session.start program options).resolver.resolveAll := by
    intro program wellFormed
    rw [resolve_eq wellFormed]
    cases (Session.start program options).resolver.resolveAll with
    | error error => rfl
    | ok rows => exact congrArg Except.ok (Report.withoutNames_ofRows _ _ _ _ rows)
  refine ⟨?_, h.hasReplacement, fun report resolved => ?_⟩
  · have symbols : q.plainSymbols = p.plainSymbols := h.sameSkeleton.plainSymbols
    rw [bare rebuilt.wellFormed, bare built.wellFormed, symbols]
    exact congrArg (_ <$> ·) (h.resolveAll options.completeMessages)
  · rw [resolve_eq built.wellFormed] at resolved
    cases hall : (Session.start p options).resolver.resolveAll with
    | error error => rw [hall] at resolved; cases resolved
    | ok rows =>
        rw [hall] at resolved
        cases resolved
        exact Resolver.namesDeclared_of_resolveAll built.wellFormed hall

/-- A type with an ignored member, one that a proxy supplies and one that nothing
implements, and a type with a replacement. -/
def declaredClock : List Edit :=
  [.addAssembly "Lib",
   .addType ⟨0⟩ { name := "Lib.Clock", kind := .classType },
   .addMember ⟨0⟩ ((MemberDecl.method "Tick").marked .ignore),
   .addMember ⟨0⟩ ((MemberDecl.method "Stop").withBody .absent),
   .addMember ⟨0⟩ ((MemberDecl.method "Reset").withBody .absent),
   .addType ⟨0⟩ { name := "Lib.Hands", kind := .classType, marks := [.replacement "hands"] },
   .addType ⟨0⟩ { name := "Lib.Proxy", kind := .classType, marks := [.proxy ⟨"Lib.Clock"⟩ true] },
   .addMember ⟨2⟩ (.method "Stop")]

/-- Every one of them renamed, some through the proxy. -/
def renamedClock : List Edit :=
  declaredClock
    ++ [.markMember ⟨0⟩ (.rename "tick"), .markMember ⟨2⟩ (.rename "zero"),
        .markType ⟨1⟩ (.rename "Pointers"), .markType ⟨2⟩ (.rename "Watch"),
        .markMember ⟨3⟩ (.rename "halt")]

/-- The names that are emitted differ, and nothing else does. -/
theorem Program.resolve_independent_of_renames_clock :
    let p := ({} : Program).afterEdits declaredClock
    let q := ({} : Program).afterEdits renamedClock
    (p.Buildable ∧ q.Buildable ∧ p.withoutRenames = q.withoutRenames)
      ∧ ((Report.withoutNames p.hasReplacement <$> q.resolve {}
            = Report.withoutNames p.hasReplacement <$> p.resolve {})
          ∧ (∀ key, q.hasReplacement key = p.hasReplacement key)
          ∧ ∀ report, p.resolve {} = .ok report → ∀ rendered ∈ report.diagnostics,
              ∃ diagnostic, p.NamesDeclared diagnostic ∧ rendered = diagnostic.toDiagnostic true)
      ∧ (q.resolve {}).toOption.map (·.types.map (·.identifier)) = some ["Watch", "Pointers"]
      ∧ (q.resolve {}).toOption.map (·.diagnostics.map (·.symbol))
        = some [some "Tick()", some "void Reset()"] := by
  intro p q
  have built : p.Buildable := Buildable.empty.afterEdits (by decide)
  have rebuilt : q.Buildable := Buildable.empty.afterEdits (by decide)
  have same : p.withoutRenames = q.withoutRenames := by decide +kernel
  refine ⟨⟨built, rebuilt, same⟩, resolve_independent_of_renames built rebuilt same {}, ?_⟩
  decide +kernel

end MemberResolution
