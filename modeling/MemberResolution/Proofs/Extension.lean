/-
Programs that extend a program.

One program extends another if it has everything of the other at the same positions, and
whatever more it has takes no part in what the other refers to.  Marks, bodies and the
names of parameters may differ: names, chains of bases, enclosing types and the search for
what a proxy member supplies do not read them, but for the mark that names a target.

So all of these are the same in both programs, as long as they are asked about what the
smaller one has.  A program that differs from another in marks alone extends it, and is
extended by it.
-/
import MemberResolution.Ancestry
import MemberResolution.Proofs.Registration

namespace MemberResolution

/-- A member without its body, its marks and the names of its parameters. -/
def LoadedMember.skeleton (member : LoadedMember) : LoadedMember :=
  { member with
    params := member.params.map fun param => { param with name := "" }
    body := .absent
    marks := [] }

@[simp] theorem LoadedMember.paramTypes_skeleton (member : LoadedMember) :
    member.skeleton.paramTypes = member.paramTypes := by
  simp [skeleton, paramTypes, Function.comp_def]

namespace Program

/-- One program has all that another has, and more perhaps. -/
structure Extends (p q : Program) : Prop where
  before : p.WellFormed
  after : q.WellFormed
  hasType : ∀ id, p.HasType id → q.HasType id
  hasMember : ∀ id, p.HasMember id → q.HasMember id
  assemblies : ∀ id, p.HasAssembly id → (q.assembly id).marks = (p.assembly id).marks
  types : ∀ id, p.HasType id → (q.type id).shape = (p.type id).shape
  members : ∀ id, p.HasMember id → (q.member id).skeleton = (p.member id).skeleton
  /-- What comes on top is the base of nothing that was there. -/
  bases : ∀ id key, p.HasType id → (p.type id).base = some key →
    q.findType? key = p.findType? key

namespace Extends

variable {p q : Program}

/-! ### Reading entries -/

theorem read_type (h : p.Extends q) {id : TypeId} (has : p.HasType id) {β : Type}
    (read : LoadedType → β) (reads : ∀ type, read type.shape = read type) :
    read (q.type id) = read (p.type id) :=
  LoadedType.read_eq (h.types id has) read reads

theorem key (h : p.Extends q) {id : TypeId} (has : p.HasType id) :
    (q.type id).key = (p.type id).key :=
  h.read_type has (·.key) fun _ => rfl

theorem base (h : p.Extends q) {id : TypeId} (has : p.HasType id) :
    (q.type id).base = (p.type id).base :=
  h.read_type has (·.base) fun _ => rfl

theorem enclosing (h : p.Extends q) {id : TypeId} (has : p.HasType id) :
    (q.type id).enclosing = (p.type id).enclosing :=
  h.read_type has (·.enclosing) fun _ => rfl

theorem listed (h : p.Extends q) {id : TypeId} (has : p.HasType id) :
    (q.type id).members = (p.type id).members :=
  h.read_type has (·.members) fun _ => rfl

theorem inStubAssembly (h : p.Extends q) {id : TypeId} (has : p.HasType id) :
    q.inStubAssembly id = p.inStubAssembly id := by
  have hassembly : (q.type id).assembly = (p.type id).assembly :=
    h.read_type has (·.assembly) fun _ => rfl
  unfold Program.inStubAssembly
  rw [hassembly, h.assemblies _ (h.before.assembly id has)]

theorem read_member (h : p.Extends q) {id : MemberId} (has : p.HasMember id) {β : Type}
    (read : LoadedMember → β) (reads : ∀ member, read member.skeleton = read member) :
    read (q.member id) = read (p.member id) := by
  rw [← reads, h.members id has, reads]

theorem kind (h : p.Extends q) {id : MemberId} (has : p.HasMember id) :
    (q.member id).kind = (p.member id).kind :=
  h.read_member has (·.kind) fun _ => rfl

theorem name (h : p.Extends q) {id : MemberId} (has : p.HasMember id) :
    (q.member id).name = (p.member id).name :=
  h.read_member has (·.name) fun _ => rfl

theorem paramTypes (h : p.Extends q) {id : MemberId} (has : p.HasMember id) :
    (q.member id).paramTypes = (p.member id).paramTypes :=
  h.read_member has (·.paramTypes) LoadedMember.paramTypes_skeleton

theorem declaringType (h : p.Extends q) {id : MemberId} (has : p.HasMember id) :
    (q.member id).declaringType = (p.member id).declaringType :=
  h.read_member has (·.declaringType) fun _ => rfl

theorem owner? (h : p.Extends q) {id : MemberId} (has : p.HasMember id) :
    (q.member id).owner? = (p.member id).owner? :=
  h.read_member has (·.owner?) fun _ => rfl

theorem accessors (h : p.Extends q) {id : MemberId} (has : p.HasMember id) :
    (q.member id).accessors = (p.member id).accessors :=
  h.read_member has (·.accessors) fun _ => rfl

/-! ### Names -/

theorem identityOfType (h : p.Extends q) {id : TypeId} (has : p.HasType id) :
    q.identityOfType id = p.identityOfType id := by
  unfold Program.identityOfType
  rw [h.key has]

theorem identityOfMember (h : p.Extends q) {id : MemberId} (has : p.HasMember id) :
    q.identityOfMember id = p.identityOfMember id := by
  have type : (q.member id).type = (p.member id).type :=
    h.read_member has (·.type) fun _ => rfl
  have params : (q.member id).params.map (·.type) = (p.member id).params.map (·.type) :=
    h.paramTypes has
  unfold Program.identityOfMember Program.identityOf Program.identityIn
  rw [h.declaringType has, h.key (h.before.declaringType id has), h.kind has, h.name has, params,
    type]

/-- The types that were there declare nothing new. -/
theorem findMember?_declaredBy (h : p.Extends q) {type : TypeId} (has : p.HasType type)
    (signature : Identity) :
    q.findMember? (signature.declaredBy (p.type type).key)
      = p.findMember? (signature.declaredBy (p.type type).key) := by
  refine Option.ext fun id => ?_
  have hnew := @WellFormed.eq_declaredBy_iff q h.after type (h.hasType type has) id signature
  rw [h.key has, h.listed has] at hnew
  rw [h.after.findMember?_eq_some_iff, h.before.findMember?_eq_some_iff, hnew,
    h.before.eq_declaredBy_iff has]
  refine and_congr_right fun hmem => ?_
  rw [h.identityOfMember (h.before.declares type has id hmem).1]

/-! ### Walks -/

theorem baseOf? (h : p.Extends q) {id : TypeId} (has : p.HasType id) :
    q.baseOf? id = p.baseOf? id := by
  rw [h.after.baseOf?_eq, h.before.baseOf?_eq, h.base has]
  cases hbase : (p.type id).base with
  | none => rfl
  | some key => exact h.bases id key has hbase

theorem ancestorsUpTo (h : p.Extends q) (count : Nat) :
    ∀ {id : TypeId}, p.HasType id → q.ancestorsUpTo count id = p.ancestorsUpTo count id := by
  induction count with
  | zero => intro id _; rfl
  | succ count ih =>
      intro id has
      rw [Program.ancestorsUpTo, Program.ancestorsUpTo, h.baseOf? has]
      cases hbase : p.baseOf? id with
      | none => rfl
      | some base =>
          exact congrArg _ (ih (h.before.baseOf?_eq_some_iff.mp hbase).1)

theorem chain (h : p.Extends q) (maxDepth : Nat) {id : TypeId} (has : p.HasType id) :
    q.chain maxDepth id = p.chain maxDepth id := by
  unfold Program.chain Program.isTooDeep Program.keptChain
  rw [h.ancestorsUpTo _ has, h.ancestorsUpTo _ has, h.key has]

theorem enclosingUpTo (h : p.Extends q) (count : Nat) :
    ∀ {id : TypeId}, p.HasType id → q.enclosingUpTo count id = p.enclosingUpTo count id := by
  induction count with
  | zero => intro id _; rfl
  | succ count ih =>
      intro id has
      rw [Program.enclosingUpTo, Program.enclosingUpTo, h.enclosing has]
      cases houter : (p.type id).enclosing with
      | none => rfl
      | some outer =>
          exact congrArg _ (ih (Nat.lt_trans (h.before.enclosing id outer has houter) has))

theorem enclosingChain (h : p.Extends q) {id : TypeId} (has : p.HasType id) :
    q.enclosingChain id = p.enclosingChain id :=
  h.enclosingUpTo _ has

/-! ### What proxy members supply -/

theorem namesakes (h : p.Extends q) {member newer : LoadedMember} (kind : newer.kind = member.kind)
    {type : TypeId} (has : p.HasType type) (name : String) :
    q.namesakes newer type name = p.namesakes member type name := by
  unfold Program.namesakes
  rw [h.listed has]
  refine List.filter_congr fun id hmem => ?_
  have hasMember := (h.before.declares type has id hmem).1
  rw [h.name hasMember, h.kind hasMember, kind]

/-- The same member is supplied, or the same fault is found. -/
theorem suppliedMember (h : p.Extends q) {id : MemberId} (has : p.HasMember id)
    (marks : Mark.proxyTarget? (q.member id).marks = Mark.proxyTarget? (p.member id).marks)
    {target : TypeId} (hasTarget : p.HasType target) :
    q.suppliedMember (q.member id) target = p.suppliedMember (p.member id) target := by
  have own : q.identityOf (q.member id) = p.identityOf (p.member id) := h.identityOfMember has
  unfold Program.suppliedMember
  simp only
  rw [own, marks, h.name has, h.paramTypes has, h.key hasTarget]
  cases Mark.proxyTarget? (p.member id).marks with
  | none =>
      simp only
      rw [h.findMember?_declaredBy hasTarget]
  | some name =>
      have known : ∀ other ∈ p.namesakes (p.member id) target name,
          p.HasMember other := fun other hmem =>
        (h.before.declares target hasTarget other (mem_of_mem_namesakes hmem)).1
      simp only [namedTargets_eq]
      rw [h.namesakes (h.kind has) hasTarget, List.find?_map, List.find?_map]
      generalize p.namesakes (p.member id) target name = named at known ⊢
      have sameParams : named.find?
            ((fun candidate : LoadedMember =>
              decide (candidate.paramTypes = (p.member id).paramTypes)) ∘ q.member)
          = named.find?
            ((fun candidate : LoadedMember =>
              decide (candidate.paramTypes = (p.member id).paramTypes)) ∘ p.member) := by
        rw [← List.head?_filter, ← List.head?_filter]
        refine congrArg List.head? (List.filter_congr fun other hmem => ?_)
        simp only [Function.comp_apply]
        rw [h.paramTypes (known other hmem)]
      have sameId : ∀ other ∈ named, (q.member other).id = (p.member other).id := fun other hmem =>
        h.read_member (known other hmem) (·.id) fun _ => rfl
      rw [sameParams]
      cases hexact : named.find?
          ((fun candidate : LoadedMember =>
            decide (candidate.paramTypes = (p.member id).paramTypes)) ∘ p.member) with
      | some found => simp [sameId found (List.mem_of_find?_eq_some hexact)]
      | none =>
          match named with
          | [] => rfl
          | [only] => simp [sameId only]
          | _ :: _ :: _ => rfl

end Extends

end Program

end MemberResolution
