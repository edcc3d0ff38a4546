/-
Names of parameters are not part of resolution.

An identity holds the types of parameters and not their names.  So an addition is refused or
made without regard to these names, and leaves programs that differ in them alone if it found
such programs.  They enter the same into the log, since a proxy member is matched by
identities as well, and everything in them is decided alike.

What is said of a missing body shows types of parameters.  Only a refusal shows their names,
in its text and in the symbol it is about, and a refusal decides nothing: a property or event
passes over refused accessors.
-/
import MemberResolution.Proofs.FirstPass
import MemberResolution.Proofs.Layout
import MemberResolution.Proofs.SameNames

namespace MemberResolution

/-! ### Without names of parameters -/

/-- A parameter without its name. -/
def Param.withoutName (param : Param) : Param :=
  { param with name := "" }

/-- A member without the names of its parameters. -/
def LoadedMember.withoutParamNames (member : LoadedMember) : LoadedMember :=
  { member with params := member.params.map (·.withoutName) }

@[simp] theorem LoadedMember.skeleton_withoutParamNames (member : LoadedMember) :
    member.withoutParamNames.skeleton = member.skeleton := by
  unfold skeleton withoutParamNames
  rw [List.map_map]
  rfl

namespace Program

/-- A program without the names of parameters, and without its memos, which follow from what is
loaded. -/
def withoutParamNames (program : Program) : Program :=
  { assemblies := program.assemblies
    types := program.types
    members := program.members.map (·.withoutParamNames) }

theorem member_withoutParamNames (program : Program) (id : MemberId) :
    program.withoutParamNames.member id = (program.member id).withoutParamNames := by
  unfold member withoutParamNames
  rw [Array.getD_eq_getD_getElem?, Array.getD_eq_getD_getElem?, Array.getElem?_map]
  cases program.members[id.index]? <;> rfl

@[simp] theorem identityIn_withoutNames (key : TypeKey) (kind : MemberKind) (name : SymbolName)
    (params : List Param) (type : TypeKey) :
    identityIn key kind name (params.map (·.withoutName)) type
      = identityIn key kind name params type := by
  unfold identityIn
  rw [List.map_map]
  rfl

section

variable {p q : Program}

theorem types_eq_of_same (same : p.withoutParamNames = q.withoutParamNames) :
    q.types = p.types :=
  (congrArg Program.types same).symm

theorem assemblies_eq_of_same (same : p.withoutParamNames = q.withoutParamNames) :
    q.assemblies = p.assemblies :=
  (congrArg Program.assemblies same).symm

theorem memberCount_eq_of_same (same : p.withoutParamNames = q.withoutParamNames) :
    q.members.size = p.members.size := by
  have size := congrArg (·.members.size) same
  simp only [withoutParamNames, Array.size_map] at size
  exact size.symm

theorem type_eq_of_same (same : p.withoutParamNames = q.withoutParamNames) (id : TypeId) :
    q.type id = p.type id := by
  unfold type
  rw [types_eq_of_same same]

end

end Program

/-! ### Additions -/

/-- A declaration without the names of its parameters. -/
def MemberDecl.withoutParamNames (decl : MemberDecl) : MemberDecl :=
  { decl with params := decl.params.map (·.withoutName) }

/-- Only what is called and added by itself has parameters with names of its own. -/
def Edit.withoutParamNames : Edit → Edit
  | .addMember type decl => .addMember type decl.withoutParamNames
  | edit => edit

namespace Program

theorem withoutParamNames_withMember (program : Program) (type : TypeId) (decl : MemberDecl)
    (origin : Origin) :
    (program.withMember type decl origin).withoutParamNames
      = { program.withoutParamNames.withMember type decl.withoutParamNames origin with
          memberByIdentity := {} } := by
  unfold withMember withoutParamNames
  simp only [Array.map_push, Array.size_map]
  rfl

theorem withoutParamNames_withType (program : Program) (assembly : AssemblyId) (key : TypeKey)
    (around : Option TypeId) (decl : TypeDecl) :
    (program.withType assembly key around decl).withoutParamNames
      = { program.withoutParamNames.withType assembly key around decl with typeByKey := {} } :=
  rfl

/-- A change of a member that has nothing to do with the names of parameters. -/
theorem withoutParamNames_modifyMember (program : Program) (i : Nat)
    {change : LoadedMember → LoadedMember}
    (apart : ∀ member, (change member).withoutParamNames = change member.withoutParamNames) :
    ({ program with members := program.members.modify i change } : Program).withoutParamNames
      = { program.withoutParamNames with
          members := program.withoutParamNames.members.modify i change } := by
  unfold withoutParamNames
  simp only [Program.mk.injEq, true_and, and_true]
  refine Array.ext_getElem? fun j => ?_
  rw [Array.getElem?_map, Array.getElem?_modify, Array.getElem?_modify, Array.getElem?_map]
  split
  · cases program.members[j]? with
    | none => rfl
    | some member => exact congrArg some (apart member)
  · rfl

/-- Two programs that differ in the names of parameters alone, and in which names find the
same. -/
structure FindAlike (p q : Program) : Prop where
  same : p.withoutParamNames = q.withoutParamNames
  findType? : ∀ key, q.findType? key = p.findType? key
  findMember? : ∀ identity, q.findMember? identity = p.findMember? identity

namespace FindAlike

variable {p q : Program}

/-- Declarations that differ in the names of parameters alone have one identity. -/
theorem identityIn (h : p.FindAlike q) (type : TypeId) {decl other : MemberDecl}
    (same : decl.withoutParamNames = other.withoutParamNames) :
    Program.identityIn (q.type type).key other.kind other.name other.params other.type
      = Program.identityIn (p.type type).key decl.kind decl.name decl.params decl.type := by
  have kind : other.kind = decl.kind := (congrArg MemberDecl.kind same).symm
  have name : other.name = decl.name := (congrArg MemberDecl.name same).symm
  have result : other.type = decl.type := (congrArg MemberDecl.type same).symm
  have params : other.params.map (·.withoutName) = decl.params.map (·.withoutName) :=
    (congrArg MemberDecl.params same).symm
  rw [← identityIn_withoutNames, params, identityIn_withoutNames, kind, name, result,
    type_eq_of_same h.same]

theorem withMember (h : p.FindAlike q) (type : TypeId) {decl other : MemberDecl}
    (same : decl.withoutParamNames = other.withoutParamNames) (origin : Origin) :
    (p.withMember type decl origin).FindAlike (q.withMember type other origin) where
  same := by
    rw [withoutParamNames_withMember, withoutParamNames_withMember, h.same, same]
  findType? := h.findType?
  findMember? identity := by
    have found : q.memberByIdentity.find? identity = p.memberByIdentity.find? identity :=
      h.findMember? identity
    unfold Program.findMember? Program.withMember
    simp only [Memo.find?_insert]
    rw [h.identityIn type same, memberCount_eq_of_same h.same, found]

theorem withType (h : p.FindAlike q) (assembly : AssemblyId) (key : TypeKey)
    (around : Option TypeId) (decl : TypeDecl) :
    (p.withType assembly key around decl).FindAlike (q.withType assembly key around decl) where
  same := by
    rw [withoutParamNames_withType, withoutParamNames_withType, h.same]
  findType? other := by
    have found : q.typeByKey.find? other = p.typeByKey.find? other := h.findType? other
    unfold Program.findType? Program.withType
    simp only [Memo.find?_insert]
    rw [types_eq_of_same h.same, found]
  findMember? := h.findMember?

end FindAlike

end Program

namespace Build

/-- Two changes come to the same on programs that differ in the names of parameters alone:
they hand back the same or fail alike, and leave such programs. -/
def Alike {α : Type} (one other : Build α) : Prop :=
  ∀ p q : Program, p.FindAlike q →
    (other.on q).1 = (one.on p).1 ∧ (one.on p).2.FindAlike (other.on q).2

namespace Alike

variable {α β : Type}

theorem pure (result : α) : Alike (pure result) (pure result) :=
  fun _ _ same => ⟨rfl, same⟩

theorem bind {one other : Build α} {next further : α → Build β} (first : Alike one other)
    (rest : ∀ result, Alike (next result) (further result)) :
    Alike (one >>= next) (other >>= further) := by
  intro p q same
  obtain ⟨outcome, left⟩ := first p q same
  rw [on_bind, on_bind]
  cases hone : one.on p with
  | mk result between =>
      cases hother : other.on q with
      | mk result' between' =>
          rw [hone, hother] at outcome left
          cases outcome
          cases result with
          | error error => exact ⟨rfl, left⟩
          | ok found => exact rest found between between' left

theorem map {one other : Build α} (h : Alike one other) (make : α → β) :
    Alike (make <$> one) (make <$> other) := by
  rw [map_eq_pure_bind, map_eq_pure_bind]
  exact h.bind fun result => .pure (make result)

theorem get_bind {next : Program → Build α}
    (h : ∀ p q, p.FindAlike q → Alike (next p) (next q)) :
    Alike (get >>= next) (get >>= next) :=
  fun p q same => h p q same p q same

/-- A change that leaves the memos has nothing to do with what names find. -/
theorem modify {change : Program → Program}
    (apart : ∀ program, (change program).withoutParamNames = change program.withoutParamNames)
    (types : ∀ program, (change program).typeByKey = program.typeByKey)
    (members : ∀ program, (change program).memberByIdentity = program.memberByIdentity) :
    Alike (modify change) (modify change) := by
  intro p q h
  have same : (change p).withoutParamNames = (change q).withoutParamNames := by
    rw [apart, apart, h.same]
  refine ⟨rfl, same, fun key => ?_, fun identity => ?_⟩
  · show (change q).typeByKey.find? key = (change p).typeByKey.find? key
    rw [types, types]
    exact h.findType? key
  · show (change q).memberByIdentity.find? identity = (change p).memberByIdentity.find? identity
    rw [members, members]
    exact h.findMember? identity

end Alike

/-! #### Each step -/

theorem alike_insertMember (type : TypeId) {decl other : MemberDecl}
    (same : decl.withoutParamNames = other.withoutParamNames) (origin : Origin) :
    Alike (insertMember type decl origin) (insertMember type other origin) := by
  intro p q programs
  rw [insertMember_on, insertMember_on, programs.identityIn type same, programs.findMember?]
  split
  · exact ⟨rfl, programs⟩
  · exact ⟨by rw [Program.memberCount_eq_of_same programs.same],
      programs.withMember type same origin⟩

theorem alike_insertType (assembly : AssemblyId) (key : TypeKey) (around : Option TypeId)
    (decl : TypeDecl) :
    Alike (insertType assembly key around decl) (insertType assembly key around decl) := by
  intro p q programs
  rw [insertType_on, insertType_on, programs.findType?]
  split
  · exact ⟨rfl, programs⟩
  · exact ⟨by rw [Program.types_eq_of_same programs.same],
      programs.withType assembly key around decl⟩

theorem alike_linkAccessors (owner : MemberId) (accessors : List MemberId) :
    Alike (linkAccessors owner accessors) (linkAccessors owner accessors) :=
  .modify (fun program => program.withoutParamNames_modifyMember owner.index fun _ => rfl)
    (fun _ => rfl) fun _ => rfl

theorem alike_addAssembly (name : String) : Alike (addAssembly name) (addAssembly name) := by
  intro p q programs
  have apart : ∀ program : Program, ((addAssembly name).on program).2.withoutParamNames
      = ((addAssembly name).on program.withoutParamNames).2 := fun _ => rfl
  have handsBack : ∀ program : Program,
      ((addAssembly name).on program).1 = .ok ⟨program.assemblies.size⟩ := fun _ => rfl
  refine ⟨?_, ⟨by rw [apart, apart, programs.same], programs.findType?, programs.findMember?⟩⟩
  rw [handsBack, handsBack, Program.assemblies_eq_of_same programs.same]

/-- An accessor names its parameter in one way only, so it is added as it is declared. -/
theorem alike_addProperty (type : TypeId) (decl : PropertyDecl) :
    Alike (addProperty type decl) (addProperty type decl) := by
  have accessor? : ∀ (make : AccessorDecl → MemberDecl) (origin : Origin) (decl? : Option _),
      Alike (decl?.mapM fun decl => insertMember type (make decl) origin)
        (decl?.mapM fun decl => insertMember type (make decl) origin) := by
    intro make origin decl?
    cases decl? with
    | none => exact .pure none
    | some decl => exact (alike_insertMember type rfl origin).map some
  unfold addProperty
  refine (alike_insertMember type rfl .declared).bind fun property => ?_
  refine (accessor? decl.getMethod _ decl.getter).bind fun getter => ?_
  refine (accessor? decl.setMethod _ decl.setter).bind fun setter => ?_
  have link : ∀ field, Alike (do
      linkAccessors property (getter.toList ++ setter.toList)
      return (⟨property, getter, setter, field⟩ : PropertyIds)) _ :=
    fun _ => (alike_linkAccessors property _).bind fun _ => .pure _
  by_cases hautomatic : decl.automatic = true
  · simp only [hautomatic, if_true]
    exact ((alike_insertMember type rfl _).map some).bind link
  · simp only [hautomatic]
    exact link none

theorem alike_addEvent (type : TypeId) (decl : EventDecl) :
    Alike (addEvent type decl) (addEvent type decl) := by
  unfold addEvent
  refine (alike_insertMember type rfl .declared).bind fun event => ?_
  refine (alike_insertMember type rfl _).bind fun add => ?_
  refine (alike_insertMember type rfl _).bind fun remove => ?_
  exact (alike_linkAccessors event [add, remove]).bind fun _ => .pure _

end Build

namespace Edit

/-- Additions that differ in the names of parameters are one, or add one member each. -/
theorem eq_or_addMember_of_same {edit other : Edit}
    (same : edit.withoutParamNames = other.withoutParamNames) :
    other = edit ∨ ∃ type decl decl', edit = .addMember type decl ∧ other = .addMember type decl'
      ∧ decl.withoutParamNames = decl'.withoutParamNames := by
  cases edit <;> cases other <;> simp_all [withoutParamNames]

/-- **An addition does not look at the names of parameters.** -/
theorem alike_perform {edit other : Edit}
    (same : edit.withoutParamNames = other.withoutParamNames) :
    Build.Alike edit.perform other.perform := by
  rcases eq_or_addMember_of_same same with rfl | ⟨type, decl, decl', rfl, rfl, decls⟩
  · cases other with
    | addAssembly name => exact (Build.alike_addAssembly name).map _
    | addType assembly decl =>
        refine Build.Alike.map ?_ _
        refine (Build.alike_insertType assembly _ none decl).bind fun id => ?_
        refine (Build.Alike.modify ?_ ?_ ?_).bind fun _ => .pure id
        all_goals exact fun _ => rfl
    | addNestedType enclosing decl =>
        refine Build.Alike.map ?_ _
        refine .get_bind fun p q programs => ?_
        rw [Program.type_eq_of_same programs.same]
        refine (Build.alike_insertType _ _ (some enclosing) decl).bind fun id => ?_
        refine (Build.Alike.modify ?_ ?_ ?_).bind fun _ => .pure id
        all_goals exact fun _ => rfl
    | markMember id mark =>
        refine (Build.Alike.modify (fun program => ?_) ?_ ?_).bind fun _ => .pure _
        · exact program.withoutParamNames_modifyMember id.index fun _ => rfl
        all_goals exact fun _ => rfl
    | addMember type decl => exact (Build.alike_insertMember type rfl .declared).map _
    | addProperty type decl => exact (Build.alike_addProperty type decl).map _
    | addEvent type decl => exact (Build.alike_addEvent type decl).map _
    | markAssembly id mark | markType id mark =>
        refine (Build.Alike.modify ?_ ?_ ?_).bind fun _ => .pure _
        all_goals exact fun _ => rfl
  · exact (Build.alike_insertMember type decls .declared).map _

end Edit

namespace Program

/-- What the additions of a history hand back, in order, those that fail included. -/
def receipts (program : Program) : List Edit → List (Except ModelError Receipt)
  | [] => []
  | edit :: rest => (edit.perform.on program).1 :: (edit.perform.on program).2.receipts rest

/-- **A history of additions does not look at the names of parameters.** -/
theorem receipts_of_same {edits : List Edit} :
    ∀ {others : List Edit} {p q : Program}, p.FindAlike q →
      edits.map (·.withoutParamNames) = others.map (·.withoutParamNames) →
      q.receipts others = p.receipts edits
        ∧ (p.afterEdits edits).withoutParamNames = (q.afterEdits others).withoutParamNames := by
  induction edits with
  | nil =>
      intro others p q programs histories
      rw [List.map_eq_nil_iff.mp histories.symm]
      exact ⟨rfl, programs.same⟩
  | cons edit rest ih =>
      intro others p q programs histories
      cases others with
      | nil => cases histories
      | cons other others =>
          obtain ⟨first, later⟩ := List.cons.inj histories
          obtain ⟨receipt, left⟩ := Edit.alike_perform first p q programs
          obtain ⟨receipts, programs⟩ := ih left later
          refine ⟨?_, programs⟩
          unfold Program.receipts
          rw [receipt, receipts]

end Program

/-! ### Programs that differ in the names of parameters alone -/

namespace Program

/-- Two well-formed programs that differ in the names of parameters alone. -/
structure SameButParamNames (p q : Program) : Prop where
  before : p.WellFormed
  after : q.WellFormed
  same : p.withoutParamNames = q.withoutParamNames

namespace SameButParamNames

variable {p q : Program}

theorem type (h : p.SameButParamNames q) (id : TypeId) : q.type id = p.type id :=
  type_eq_of_same h.same id

theorem read_member {β : Type} (h : p.SameButParamNames q) (id : MemberId)
    (read : LoadedMember → β) (reads : ∀ member, read member.withoutParamNames = read member) :
    read (q.member id) = read (p.member id) := by
  rw [← reads, ← member_withoutParamNames, ← h.same, member_withoutParamNames, reads]

theorem body (h : p.SameButParamNames q) (id : MemberId) :
    (q.member id).body = (p.member id).body :=
  h.read_member id (·.body) fun _ => rfl

theorem marks (h : p.SameButParamNames q) (id : MemberId) :
    (q.member id).marks = (p.member id).marks :=
  h.read_member id (·.marks) fun _ => rfl

/-- This goes for what is not loaded as well. -/
theorem identityOfMember (h : p.SameButParamNames q) (id : MemberId) :
    q.identityOfMember id = p.identityOfMember id := by
  refine (h.read_member id q.identityOf fun member => ?_).trans ?_
  · exact identityIn_withoutNames _ _ _ _ _
  · unfold Program.identityOfMember Program.identityOf
    rw [h.type]

theorem sameSkeleton (h : p.SameButParamNames q) : p.SameSkeleton q where
  before := h.before
  after := h.after
  assemblies id _ := by
    unfold assembly
    rw [assemblies_eq_of_same h.same]
  typeCount := congrArg Array.size (types_eq_of_same h.same)
  memberCount := memberCount_eq_of_same h.same
  types id _ := congrArg LoadedType.shape (h.type id)
  members id _ := h.read_member id (·.skeleton) LoadedMember.skeleton_withoutParamNames
  proxies id _ := congrArg LoadedType.isProxy (h.type id)

theorem findAlike (h : p.SameButParamNames q) : p.FindAlike q :=
  ⟨h.same, h.sameSkeleton.findType?, h.sameSkeleton.findMember?⟩

/-- **They have one log.** -/
theorem store_eq (h : p.SameButParamNames q) : Store.ofProgram q = Store.ofProgram p := by
  have skeletons := h.sameSkeleton
  refine skeletons.store_eq (fun id has _ => ?_) fun proxy has _ => ?_
  · rw [skeletons.extend.ownEntries has fun member _ => h.marks member, h.type]
  · refine skeletons.extend.proxyEntries has (by rw [h.type])
      (skeletons.extend.isInsideIgnored has fun outer _ => by rw [h.type])
      (fun key _ => skeletons.findType? key) fun _ _ id hmem inheritable target hasTarget => ?_
    have hasMember := (h.before.declares proxy has id hmem).1
    have inert : q.isInert (q.member id) = p.isInert (p.member id) :=
      skeletons.extend.isInert hasMember (by rw [h.marks]) fun owner _ => by rw [h.marks]
    exact skeletons.extend.memberEntries (by rw [h.type]) hasTarget hasMember inert (h.marks id)
      (h.body id)

end SameButParamNames

end Program

/-! ### What is resolved, but for the texts of refusals -/

/-- The outcome without what a refusal says. -/
def Outcome.withoutRefusal : Outcome → Outcome
  | .refused (.refused _) => .refused (.refused "")
  | outcome => outcome

/-- The resolved member without what a refusal says. -/
def ResolvedMember.withoutRefusal (resolved : ResolvedMember) : ResolvedMember :=
  { resolved with outcome := resolved.outcome.withoutRefusal }

namespace Resolver

/-- Two resolvers with one limit, of programs that differ in the names of parameters alone. -/
structure SameButParamNames (r s : Resolver) : Prop
    extends r.program.SameButParamNames s.program where
  maxDepth : s.maxDepth = r.maxDepth

namespace SameButParamNames

variable {r s : Resolver} {type : TypeId}

theorem sameLog (h : r.SameButParamNames s) : r.SameLog s where
  extend := h.sameSkeleton.extend
  maxDepth := h.maxDepth
  store := by rw [s.store_eq, r.store_eq, h.store_eq]

/-- **The resolvers agree on every type.** -/
theorem agreesOn (h : r.SameButParamNames s) (has : r.program.HasType type) :
    r.AgreesOn s type :=
  h.sameLog.agreesOn has fun id _ => h.body id

/-- A member has one outcome, but for what a refusal says. -/
theorem classifyMember (h : r.SameButParamNames s) (has : r.program.HasType type) {id : MemberId}
    (hmem : id ∈ (r.program.type type).members) :
    Outcome.withoutRefusal <$> s.classifyMember id
      = Outcome.withoutRefusal <$> r.classifyMember id := by
  have agrees := h.agreesOn has
  by_cases ignored : r.isMemberIgnored id = true
  · have ignored' : s.isMemberIgnored id = true := (agrees.isMemberIgnored hmem).trans ignored
    unfold Resolver.classifyMember Resolver.unlessOverridden
    rw [if_pos ignored, if_pos ignored']
    rfl
  · rw [agrees.classifyMember hmem fun hc => absurd hc ignored]

theorem resolveMember (h : r.SameButParamNames s) (has : r.program.HasType type) {id : MemberId}
    (hmem : id ∈ (r.program.type type).members) :
    ResolvedMember.withoutRefusal <$> s.resolveMember id
      = ResolvedMember.withoutRefusal <$> r.resolveMember id := by
  have ofOutcome : ∀ resolver : Resolver,
      ResolvedMember.withoutRefusal <$> resolver.resolveMember id
        = ResolvedMember.mk id (resolver.program.identityOfMember id) (resolver.memberName id)
          <$> Outcome.withoutRefusal <$> resolver.classifyMember id := by
    intro resolver
    unfold Resolver.resolveMember
    cases resolver.classifyMember id <;> rfl
  rw [ofOutcome, ofOutcome, h.identityOfMember, (h.sameLog.namesOn has).memberName hmem,
    h.classifyMember has hmem]

theorem resolveRow (h : r.SameButParamNames s) {row : LoadedType}
    (hmem : row ∈ r.program.plainTypes) :
    Prod.map id (List.map ResolvedMember.withoutRefusal) <$> s.resolveRow row
      = Prod.map id (List.map ResolvedMember.withoutRefusal) <$> r.resolveRow row := by
  obtain ⟨has, hread, -⟩ := (Program.mem_plainTypes h.before).mp hmem
  have members := map_mapM_congr fun id (hid : id ∈ row.members) =>
    h.resolveMember has (by rw [hread]; exact hid)
  have ofMembers : ∀ resolver : Resolver,
      Prod.map id (List.map ResolvedMember.withoutRefusal) <$> resolver.resolveRow row
        = (fun members => (resolver.resolveType row.id, members))
          <$> List.map ResolvedMember.withoutRefusal
          <$> row.members.mapM resolver.resolveMember := by
    intro resolver
    unfold Resolver.resolveRow
    cases row.members.mapM resolver.resolveMember <;> rfl
  rw [ofMembers, ofMembers, members,
    (h.sameLog.namesOn has).resolveType (h.agreesOn has).toAgreesAround]

/-- **Everything is resolved alike, but for what refusals of members say.** -/
theorem resolveAll (h : r.SameButParamNames s) :
    List.map (Prod.map id (List.map ResolvedMember.withoutRefusal)) <$> s.resolveAll
      = List.map (Prod.map id (List.map ResolvedMember.withoutRefusal)) <$> r.resolveAll := by
  have plain : s.program.plainTypes = r.program.plainTypes := by
    unfold Program.plainTypes
    rw [Program.types_eq_of_same h.same]
  unfold Resolver.resolveAll
  rw [h.sameLog.validate, plain]
  cases r.validate with
  | error error => rfl
  | ok _ => exact map_mapM_congr fun type hmem => h.resolveRow hmem

end SameButParamNames

end Resolver

/-! ### Reports, but for the texts of refusals -/

/-- The diagnostic without its text and its symbol, if it is a refusal. -/
def Diagnostic.withoutRefusal (diagnostic : Diagnostic) : Diagnostic :=
  if diagnostic.code = Message.memberRefused.code then
    { diagnostic with text := "", symbol := none }
  else diagnostic

/-- The record without what a refusal of the member says. -/
def MemberRecord.withoutRefusal (record : MemberRecord) : MemberRecord :=
  if record.outcome = .refused then
    { record with diagnostic := record.diagnostic.map (·.withoutRefusal) }
  else record

/-- The record without what refusals of its members say.  That of the type itself stays. -/
def TypeRecord.withoutRefusals (record : TypeRecord) : TypeRecord :=
  { record with members := record.members.map (·.withoutRefusal) }

/-- The report without what refusals of members say. -/
def Report.withoutRefusals (report : Report) : Report :=
  { report with
    types := report.types.map (·.withoutRefusals)
    diagnostics := report.diagnostics.map (·.withoutRefusal) }

theorem ReferenceDiagnostic.withoutRefusal_toDiagnostic (signature : String) (complete : Bool) :
    ((refused signature).toDiagnostic complete).withoutRefusal
      = { code := Message.memberRefused.code, category := .error, text := "" } := by
  unfold toDiagnostic Diagnostic.about Diagnostic.error Diagnostic.withoutRefusal message
  simp only [if_true]

/-- What a report says of a member is not told by what a refusal says, but for that. -/
theorem MemberRecord.withoutRefusal_ofResolved (program : Program) (complete : Bool)
    (resolved : ResolvedMember) :
    (ofResolved program complete resolved.withoutRefusal).withoutRefusal
        = (ofResolved program complete resolved).withoutRefusal
      ∧ (ofResolved program complete resolved.withoutRefusal).diagnostic.map (·.withoutRefusal)
        = (ofResolved program complete resolved).diagnostic.map (·.withoutRefusal) := by
  obtain ⟨member, identity, identifier, outcome⟩ := resolved
  cases outcome with
  | refused diagnostic =>
      cases diagnostic with
      | refused signature =>
          have diagnostics : ((ReferenceDiagnostic.refused "").toDiagnostic complete).withoutRefusal
              = ((ReferenceDiagnostic.refused signature).toDiagnostic complete).withoutRefusal := by
            rw [ReferenceDiagnostic.withoutRefusal_toDiagnostic,
              ReferenceDiagnostic.withoutRefusal_toDiagnostic]
          unfold ofResolved ResolvedMember.withoutRefusal Outcome.withoutRefusal
          unfold withoutRefusal Outcome.label Outcome.diagnostic? Outcome.bodySource
          simp only [if_true, Option.map_some]
          rw [diagnostics]
          exact ⟨rfl, rfl⟩
      | _ => exact ⟨rfl, rfl⟩
  | _ => exact ⟨rfl, rfl⟩

theorem TypeRecord.withoutRefusals_ofResolved (program : Program) (complete : Bool)
    (resolved : ResolvedType) (members : List ResolvedMember) :
    (ofResolved program complete resolved
        (members.map fun member =>
          MemberRecord.ofResolved program complete member.withoutRefusal)).withoutRefusals
      = (ofResolved program complete resolved
        (members.map (MemberRecord.ofResolved program complete))).withoutRefusals := by
  unfold ofResolved withoutRefusals
  simp only [List.map_map, Function.comp_def,
    fun resolved => (MemberRecord.withoutRefusal_ofResolved program complete resolved).1]

theorem TypeRecord.allDiagnostics_ofResolved (program : Program) (complete : Bool)
    (resolved : ResolvedType) (members : List ResolvedMember) :
    (ofResolved program complete resolved
        (members.map fun member => MemberRecord.ofResolved program complete
          member.withoutRefusal)).allDiagnostics.map (·.withoutRefusal)
      = (ofResolved program complete resolved
        (members.map
          (MemberRecord.ofResolved program complete))).allDiagnostics.map (·.withoutRefusal) := by
  unfold ofResolved allDiagnostics
  simp only [List.map_append, List.filterMap_map, List.map_filterMap, Function.comp_def,
    fun resolved => (MemberRecord.withoutRefusal_ofResolved program complete resolved).2]

theorem Report.withoutRefusals_ofRows (program : Program) (complete : Bool) (stats : CacheStats)
    (rows : List (ResolvedType × List ResolvedMember)) :
    (ofRows program complete stats
        (rows.map (Prod.map id (List.map ResolvedMember.withoutRefusal)))).withoutRefusals
      = (ofRows program complete stats rows).withoutRefusals := by
  unfold ofRows withoutRefusals
  simp only [List.map_map, List.flatMap_map, List.map_flatMap, Function.comp_def, Prod.map_fst,
    Prod.map_snd, TypeRecord.withoutRefusals_ofResolved, TypeRecord.allDiagnostics_ofResolved, id]

/-- A report shows a program by its names only, and no parameter by its name. -/
theorem Program.SameButParamNames.ofRows {p q : Program} (h : p.SameButParamNames q)
    (complete : Bool) (stats : CacheStats) (rows : List (ResolvedType × List ResolvedMember)) :
    Report.ofRows q complete stats rows = Report.ofRows p complete stats rows := by
  have members : MemberRecord.ofResolved q complete = MemberRecord.ofResolved p complete := by
    funext resolved
    unfold MemberRecord.ofResolved
    simp only [h.identityOfMember]
  unfold Report.ofRows TypeRecord.ofResolved
  simp only [members, h.type]

/-- **Names of parameters are not part of resolution.**  If two programs differ in these names
alone, additions that differ in them alone succeed or fail alike in both, with one error, and
leave such programs.  The two resolutions fail with one error, or their reports differ in
nothing but the texts and symbols of refusals of members; and what a report lists at its end
are the diagnostics of its records. -/
theorem Program.resolve_independent_of_paramNames {p q : Program} (built : p.Buildable)
    (rebuilt : q.Buildable) (same : p.withoutParamNames = q.withoutParamNames)
    (options : Options) :
    (∀ edits others : List Edit,
        edits.map (·.withoutParamNames) = others.map (·.withoutParamNames) →
        q.receipts others = p.receipts edits
          ∧ (p.afterEdits edits).withoutParamNames = (q.afterEdits others).withoutParamNames)
      ∧ Report.withoutRefusals <$> q.resolve options
        = Report.withoutRefusals <$> p.resolve options
      ∧ ∀ report, p.resolve options = .ok report ∨ q.resolve options = .ok report →
        report.diagnostics = report.types.flatMap (·.allDiagnostics) := by
  have programs : p.SameButParamNames q := ⟨built.wellFormed, rebuilt.wellFormed, same⟩
  have h : (Session.start p options).resolver.SameButParamNames (Session.start q options).resolver :=
    ⟨programs, rfl⟩
  have listed : ∀ {program : Program}, program.WellFormed → ∀ report,
      program.resolve options = .ok report →
      report.diagnostics = report.types.flatMap (·.allDiagnostics) := by
    intro program wellFormed report resolved
    rw [resolve_eq wellFormed] at resolved
    cases hall : (Session.start program options).resolver.resolveAll with
    | error error => rw [hall] at resolved; cases resolved
    | ok rows =>
        rw [hall] at resolved
        cases resolved
        rfl
  refine ⟨fun edits others histories => receipts_of_same programs.findAlike histories, ?_, ?_⟩
  · have symbols : q.plainSymbols = p.plainSymbols := programs.sameSkeleton.plainSymbols
    -- A report without refusals is made of what was resolved without refusals.
    have masked : ∀ program : Program,
        Report.withoutRefusals
            <$> Report.ofRows p options.completeMessages { misses := p.plainSymbols.length }
            <$> (Session.start program options).resolver.resolveAll
          = (fun rows => (Report.ofRows p options.completeMessages
              { misses := p.plainSymbols.length } rows).withoutRefusals)
            <$> List.map (Prod.map id (List.map ResolvedMember.withoutRefusal))
            <$> (Session.start program options).resolver.resolveAll := by
      intro program
      cases (Session.start program options).resolver.resolveAll with
      | error error => rfl
      | ok rows => exact congrArg Except.ok (Report.withoutRefusals_ofRows p _ _ rows).symm
    rw [resolve_eq rebuilt.wellFormed, resolve_eq built.wellFormed, symbols,
      funext (programs.ofRows options.completeMessages { misses := p.plainSymbols.length }),
      masked, masked, h.resolveAll]
  · rintro report (resolved | resolved)
    · exact listed built.wellFormed report resolved
    · exact listed rebuilt.wellFormed report resolved

/-- A door that a proxy opens, that nothing locks and whose bell is ignored.  Door and proxy
name the parameters of their methods as given. -/
def doorNaming (ofDoor ofProxy : String) : List Edit :=
  [.addAssembly "Lib",
   .addType ⟨0⟩ { name := "Lib.Door", kind := .classType },
   .addMember ⟨0⟩
     (((MemberDecl.method "Open").taking ⟨ofDoor, ⟨"System.Int32"⟩⟩).withBody .absent),
   .addMember ⟨0⟩
     (((MemberDecl.method "Lock").taking ⟨ofDoor, ⟨"System.Int32"⟩⟩).withBody .absent),
   .addMember ⟨0⟩ (((MemberDecl.method "Ring").taking ⟨ofDoor, ⟨"System.Int32"⟩⟩).marked .ignore),
   .addType ⟨0⟩ { name := "Ext.Door", kind := .classType, marks := [.proxy ⟨"Lib.Door"⟩ true] },
   .addMember ⟨1⟩ ((MemberDecl.method "Open").taking ⟨ofProxy, ⟨"System.Int32"⟩⟩)]

/-- A second bell is refused under any name of its parameter, the proxy opens the door under
any name, and only the bell that is refused tells the names apart. -/
theorem Program.resolve_independent_of_paramNames_doorNaming :
    let bell (name : String) : List Edit :=
      [.addMember ⟨0⟩ ((MemberDecl.method "Ring").taking ⟨name, ⟨"System.Int32"⟩⟩)]
    let p := Program.afterEdits {} (doorNaming "key" "code")
    let q := Program.afterEdits {} (doorNaming "number" "secret")
    (p.Buildable ∧ q.Buildable ∧ p.withoutParamNames = q.withoutParamNames)
      ∧ (q.receipts (bell "finger") = p.receipts (bell "hand")
        ∧ Report.withoutRefusals <$> q.resolve {} = Report.withoutRefusals <$> p.resolve {})
      ∧ (p.receipts (bell "hand")).map Except.toOption = [none]
      ∧ (p.resolve {}).toOption.map (·.types.map (·.members.map (·.proxy)))
        = some [[some "Ext.Door::Open(System.Int32)", none, none]]
      ∧ (p.resolve {}).toOption.map (·.diagnostics.map (·.symbol))
        = some [some "void Lock(System.Int32)", some "Ring(key)"]
      ∧ (q.resolve {}).toOption.map (·.diagnostics.map (·.symbol))
        = some [some "void Lock(System.Int32)", some "Ring(number)"] := by
  intro bell p q
  have built : p.Buildable := Buildable.empty.afterEdits (by decide)
  have rebuilt : q.Buildable := Buildable.empty.afterEdits (by decide)
  have same : p.withoutParamNames = q.withoutParamNames := by decide +kernel
  obtain ⟨additions, reports, -⟩ := resolve_independent_of_paramNames built rebuilt same {}
  refine ⟨⟨built, rebuilt, same⟩, ⟨(additions _ _ ?_).1, reports⟩, ?_⟩
  · decide
  · decide +kernel

end MemberResolution
