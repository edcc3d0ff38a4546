/-
The decision table of members.

Classification asks the store, and the store was filled from all over the program.  The
table decides the same from the marks in effect, by rules that look at no store: who is
ignored, what is replaced, which proxy supplies a body, whether the own body can be
used, and which diagnostic is due if not.  `classifyMember_eq_decision` says that the
two agree wherever nothing is wrong with the program: every proxy has its target, the
chain of bases ends in time, and the walk outward reaches the outermost type.

That an ignored type silences the proxies inside it holds only within the reach of that
walk.  `classifyMember_ne_decision_farInside` shows a proxy beyond it that is heard.
-/
import MemberResolution.Access
import MemberResolution.Proofs.Effective
import MemberResolution.Proofs.LeastProxy

namespace MemberResolution

/-- The expression of the first replacement mark. -/
def Mark.replacement? (marks : List Mark) : Option String :=
  marks.findSome? fun
    | .replacement expression => some expression
    | _ => none

namespace Program

/-! ### The table -/

/-- A type and all the types around it, innermost first. -/
def typeAndAround (program : Program) (id : TypeId) : List TypeId :=
  id :: program.typesAround program.types.size id

/-- Ignored in effect: the member, its property or event, its type or a type around. -/
def isIgnoredInEffect (program : Program) (levels : Nat) (id : MemberId) : Bool :=
  Mark.isIgnored (program.effectiveOnMember levels id)
    || ((program.member id).owner?.any fun owner =>
      Mark.isIgnored (program.effectiveOnMember levels owner))
    || ((program.typeAndAround (program.member id).declaringType).any fun type =>
      Mark.isIgnored (program.effectiveOnType levels type))

/-- External in effect: the member, its property or event or its type. -/
def isExternalInEffect (program : Program) (levels : Nat) (id : MemberId) : Bool :=
  Mark.isExternal (program.effectiveOnMember levels id)
    || ((program.member id).owner?.any fun owner =>
      Mark.isExternal (program.effectiveOnMember levels owner))
    || Mark.isExternal (program.effectiveOnType levels (program.member id).declaringType)

/-- All bodies that proxies along a chain supply for the signature of a member. -/
def proxyBodies (program : Program) (levels : Nat) (chain : List TypeId) (id : MemberId) :
    List ProxyBody :=
  chain.flatMap fun ancestor =>
    ((program.type ancestor).members.filter fun target =>
        (program.identityOfMember target).sameSignature (program.identityOfMember id)).flatMap
      fun target =>
        ((program.suppliers levels target).filter fun supplier =>
            offersBody (program.member supplier) && hasProxyBody (program.member supplier)
              && (isInheritable (program.type (program.member supplier).declaringType)
                || ancestor = (program.member id).declaringType)).map
          fun supplier => ⟨supplier, (program.member supplier).declaringType, target,
            proxyMode (program.member supplier)⟩

/-- Whether the own body of what is called can be used. -/
def ownBodyUsable (program : Program) (id : MemberId) : Bool :=
  let member := program.member id
  if member.body = .abstract then true
  else if program.inStubAssembly member.declaringType then
    member.isGenerated || member.kind = .constructor
  else member.body = .present

/-- What is wrong with what is called where nothing implements it. -/
def dueDiagnostic (program : Program) (levels : Nat) (id : MemberId) : ReferenceDiagnostic :=
  let type := (program.member id).declaringType
  let marks := program.effectiveOnType levels type
  if Mark.isExternal marks && (Mark.replacement? marks).isNone
      && (program.proxiesFor levels type).isEmpty then
    program.externalType type
  else if !program.isExternalInEffect levels id && !program.inStubAssembly type
      && (program.member id).body = .untranslatable then
    program.untranslatableMember id
  else program.externalMethod id

/-- The first two rules: refused if ignored, else replaced if there is a replacement. -/
def overriding? (program : Program) (levels : Nat) (id : MemberId) : Option Outcome :=
  if program.isIgnoredInEffect levels id then some (.refused (program.refusedMember id))
  else (Mark.replacement? (program.effectiveOnMember levels id)).map .replaced

/-- The last three rules, for what is called: the first proxy body, else the own body, else
a diagnostic. -/
def implementing (program : Program) (levels : Nat) (chain : List TypeId) (id : MemberId) :
    Outcome :=
  match (program.proxyBodies levels chain id).head? with
  | some body => .proxy body
  | none =>
    if !program.isExternalInEffect levels id && program.ownBodyUsable id then .own
    else .unimplemented (program.dueDiagnostic levels id)

/-- The diagnostic of an accessor, if it comes out unimplemented. -/
def accessorDiagnostic? (program : Program) (levels : Nat) (chain : List TypeId)
    (id : MemberId) : Option ReferenceDiagnostic :=
  match (program.overriding? levels id).getD (program.implementing levels chain id) with
  | .unimplemented diagnostic => some diagnostic
  | _ => none

/-- **The decision table**: the outcome of a member by the marks in effect, where so many
levels count for proxies inside ignored types and the chain is that of its type. -/
def decision (program : Program) (levels : Nat) (chain : List TypeId) (id : MemberId) : Outcome :=
  (program.overriding? levels id).getD <|
    match (program.member id).kind with
    | .field => .own
    | .property | .event =>
      if program.isExternalInEffect levels id then
        (((program.member id).accessors.findSome?
          (program.accessorDiagnostic? levels chain)).map Outcome.unimplemented).getD .own
      else .own
    | .method | .constructor | .operator => program.implementing levels chain id

/-! ### Directives and marks answer alike -/

end Program

namespace Directive

theorem contains_ofMarks {marks : List Mark} {mark : Mark} {given : Directive}
    (only : ∀ other, ofMark? other = some given ↔ other = mark) :
    (ofMarks marks).contains given = marks.contains mark := by
  rw [Bool.eq_iff_iff, List.contains_iff_mem, List.contains_iff_mem, ofMarks, List.mem_filterMap]
  refine ⟨?_, ?_⟩
  · intro given
    obtain ⟨other, hmem, hgiven⟩ := given
    rw [← (only other).mp hgiven]
    exact hmem
  · intro hmem
    exact ⟨mark, hmem, (only mark).mpr rfl⟩

@[simp] theorem isIgnored_ofMarks (marks : List Mark) :
    isIgnored (ofMarks marks) = Mark.isIgnored marks :=
  contains_ofMarks fun other => by cases other <;> simp [ofMark?]

@[simp] theorem isExternal_ofMarks (marks : List Mark) :
    isExternal (ofMarks marks) = Mark.isExternal marks :=
  contains_ofMarks fun other => by cases other <;> simp [ofMark?]

/-- No mark of a symbol says that its assembly is a stub. -/
@[simp] theorem isStub_ofMarks (marks : List Mark) : isStub (ofMarks marks) = false := by
  rw [isStub, ← Bool.not_eq_true, List.contains_iff_mem, ofMarks, List.mem_filterMap]
  intro given
  obtain ⟨mark, -, hgiven⟩ := given
  cases mark <;> cases hgiven

@[simp] theorem replacement?_ofMarks (marks : List Mark) :
    replacement? (ofMarks marks) = Mark.replacement? marks := by
  induction marks with
  | nil => rfl
  | cons mark rest ih =>
      unfold replacement? Mark.replacement? ofMarks at ih ⊢
      cases mark <;> simp [List.filterMap_cons, ofMark?, ih]

end Directive

/-! ### The walk outward -/

namespace Program

variable {program : Program}

theorem take_enclosingUpTo (program : Program) {n m : Nat} (hle : n ≤ m) (id : TypeId) :
    (program.enclosingUpTo m id).take n = program.enclosingUpTo n id := by
  induction n generalizing m id with
  | zero => simp [enclosingUpTo]
  | succ n ih =>
      cases m with
      | zero => exact absurd hle (Nat.not_succ_le_zero n)
      | succ m =>
          rw [enclosingUpTo, enclosingUpTo, List.take_succ_cons]
          congr 1
          cases (program.type id).enclosing with
          | none => exact List.take_nil
          | some outer => exact ih (Nat.le_of_succ_le_succ hle) outer

/-- The walk outward ends, since positions go down. -/
theorem WellFormed.length_enclosingUpTo_le (h : program.WellFormed) {n : Nat} :
    ∀ {id : TypeId}, program.HasType id →
      (program.enclosingUpTo n id).length ≤ id.index + 1 := by
  induction n with
  | zero => intro id _; exact Nat.zero_le _
  | succ n ih =>
      intro id has
      rw [enclosingUpTo, List.length_cons]
      cases henclosing : (program.type id).enclosing with
      | none => exact Nat.succ_le_succ (Nat.zero_le _)
      | some outer =>
          have hlt := h.enclosing id outer has henclosing
          exact Nat.succ_le_succ
            (Nat.le_trans (ih (Nat.lt_trans hlt has)) (Nat.succ_le_of_lt hlt))

/-- **A walk with enough steps visits a type and everything around it.** -/
theorem WellFormed.enclosingUpTo_eq (h : program.WellFormed) {id : TypeId}
    (has : program.HasType id) {n : Nat}
    (enough : (program.typesAround program.types.size id).length < n) :
    program.enclosingUpTo n id = program.typeAndAround id := by
  -- Both are parts of a walk that is longer than either, and that walk is short.
  let longest := program.enclosingUpTo (n + (program.types.size + 1)) id
  have short : longest.length ≤ program.types.size :=
    Nat.le_trans (h.length_enclosingUpTo_le has) has
  have hall : program.enclosingUpTo (program.types.size + 1) id = longest := by
    rw [← take_enclosingUpTo program (Nat.le_add_left _ n) id]
    exact List.take_of_length_le (Nat.le_succ_of_le short)
  have hsplit : longest = program.typeAndAround id := by
    unfold typeAndAround typesAround
    rw [← hall]
    rfl
  rw [← take_enclosingUpTo program (Nat.le_add_right n (program.types.size + 1)) id]
  refine (List.take_of_length_le ?_).trans hsplit
  show longest.length ≤ n
  rw [hsplit]
  exact enough

end Program

/-! ### Plain members -/

namespace Program

variable {program : Program}

/-- A member of a type that is no proxy. -/
structure IsPlain (program : Program) (id : MemberId) : Prop where
  known : program.HasMember id
  plain : (program.type (program.member id).declaringType).isProxy = false

/-- A member whose type stands inside fewer types than a walk outward visits. -/
def IsNear (program : Program) (id : MemberId) : Prop :=
  (program.typesAround program.types.size (program.member id).declaringType).length
    < maxNestingDepth

/-- The property or event of a plain member is a plain member of the same type. -/
theorem IsPlain.owner (h : program.WellFormed) {id owner : MemberId}
    (plain : program.IsPlain id) (howner : (program.member id).owner? = some owner) :
    program.IsPlain owner := by
  obtain ⟨hasOwner, sameType⟩ := h.of_owner? plain.known howner
  exact ⟨hasOwner, by rw [sameType]; exact plain.plain⟩

theorem IsPlain.accessor (h : program.WellFormed) {id accessor : MemberId}
    (plain : program.IsPlain id) (hmem : accessor ∈ (program.member id).accessors) :
    program.IsPlain accessor
      ∧ (program.member accessor).declaringType = (program.member id).declaringType := by
  have listed := h.accessors id plain.known accessor hmem
  exact ⟨⟨listed.known, by rw [listed.declaringType]; exact plain.plain⟩, listed.declaringType⟩

end Program

/-! ### The classifier reads what is in effect -/

open Program (levelsVisited)

namespace Resolver

variable {resolver : Resolver}

theorem typeDirectives_eq (h : resolver.program.WellFormed) {id : TypeId}
    (has : resolver.program.HasType id) :
    resolver.typeDirectives id
      = (if !(resolver.program.type id).isProxy && resolver.program.inStubAssembly id then
            [.stubAssembly]
          else [])
        ++ Directive.ofMarks (resolver.program.effectiveOnType levelsVisited id) := by
  unfold typeDirectives
  rw [resolver.store_eq, h.directivesFor_type has]

theorem memberDirectives_eq (h : resolver.program.WellFormed) {id : MemberId}
    (plain : resolver.program.IsPlain id) :
    resolver.memberDirectives id
      = Directive.ofMarks (resolver.program.effectiveOnMember levelsVisited id) := by
  unfold memberDirectives
  rw [resolver.store_eq, h.directivesFor_member plain.known plain.plain]

theorem isIgnored_typeDirectives (h : resolver.program.WellFormed) {id : TypeId}
    (has : resolver.program.HasType id) :
    Directive.isIgnored (resolver.typeDirectives id)
      = Mark.isIgnored (resolver.program.effectiveOnType levelsVisited id) := by
  rw [typeDirectives_eq h has, ← Directive.isIgnored_ofMarks]
  split <;> simp [Directive.isIgnored]

theorem isExternal_typeDirectives (h : resolver.program.WellFormed) {id : TypeId}
    (has : resolver.program.HasType id) :
    Directive.isExternal (resolver.typeDirectives id)
      = Mark.isExternal (resolver.program.effectiveOnType levelsVisited id) := by
  rw [typeDirectives_eq h has, ← Directive.isExternal_ofMarks]
  split <;> simp [Directive.isExternal]

theorem replacement?_typeDirectives (h : resolver.program.WellFormed) {id : TypeId}
    (has : resolver.program.HasType id) :
    Directive.replacement? (resolver.typeDirectives id)
      = Mark.replacement? (resolver.program.effectiveOnType levelsVisited id) := by
  rw [typeDirectives_eq h has, ← Directive.replacement?_ofMarks]
  split <;> simp [Directive.replacement?]

theorem isStub_typeDirectives (h : resolver.program.WellFormed) {id : TypeId}
    (has : resolver.program.HasType id) (plain : (resolver.program.type id).isProxy = false) :
    Directive.isStub (resolver.typeDirectives id) = resolver.program.inStubAssembly id := by
  have marks := Directive.isStub_ofMarks (resolver.program.effectiveOnType levelsVisited id)
  rw [typeDirectives_eq h has, plain]
  cases resolver.program.inStubAssembly id with
  | true => rfl
  | false => exact marks

theorem ownerHas_eq (h : resolver.program.WellFormed) {id : MemberId}
    (plain : resolver.program.IsPlain id) {test : List Directive → Bool} {raw : List Mark → Bool}
    (agree : ∀ marks, test (Directive.ofMarks marks) = raw marks) :
    resolver.ownerHas test id
      = (resolver.program.member id).owner?.any fun owner =>
          raw (resolver.program.effectiveOnMember levelsVisited owner) := by
  unfold ownerHas
  cases howner : (resolver.program.member id).owner? with
  | none => rfl
  | some owner =>
      show test (resolver.memberDirectives owner) = raw _
      rw [memberDirectives_eq h (plain.owner h howner), agree]

theorem isMemberIgnored_eq (h : resolver.program.WellFormed) {id : MemberId}
    (plain : resolver.program.IsPlain id) (near : resolver.program.IsNear id) :
    resolver.isMemberIgnored id
      = resolver.program.isIgnoredInEffect levelsVisited id := by
  have hasType := h.declaringType id plain.known
  have around : resolver.program.enclosingChain (resolver.program.member id).declaringType
      = resolver.program.typeAndAround (resolver.program.member id).declaringType :=
    h.enclosingUpTo_eq hasType near
  have outward : resolver.isTypeIgnored (resolver.program.member id).declaringType
      = (resolver.program.typeAndAround (resolver.program.member id).declaringType).any fun type =>
          Mark.isIgnored (resolver.program.effectiveOnType levelsVisited type) := by
    unfold isTypeIgnored
    rw [Bool.eq_iff_iff, List.any_eq_true, List.any_eq_true]
    rw [← around]
    refine exists_congr fun outer => and_congr_right fun hmem => ?_
    rw [isIgnored_typeDirectives h (h.hasType_of_mem_enclosingUpTo hasType outer hmem)]
  unfold isMemberIgnored Program.isIgnoredInEffect
  rw [outward, memberDirectives_eq h plain, Directive.isIgnored_ofMarks,
    ownerHas_eq h plain Directive.isIgnored_ofMarks]

theorem isMemberExternal_eq (h : resolver.program.WellFormed) {id : MemberId}
    (plain : resolver.program.IsPlain id) :
    resolver.isMemberExternal id
      = resolver.program.isExternalInEffect levelsVisited id := by
  unfold isMemberExternal isTypeExternal Program.isExternalInEffect
  rw [memberDirectives_eq h plain, Directive.isExternal_ofMarks,
    ownerHas_eq h plain Directive.isExternal_ofMarks,
    isExternal_typeDirectives h (h.declaringType id plain.known)]

theorem hasUsableBody_eq (h : resolver.program.WellFormed) {id : MemberId}
    (plain : resolver.program.IsPlain id) :
    resolver.hasUsableBody (resolver.program.member id)
      = resolver.program.ownBodyUsable id := by
  unfold hasUsableBody Program.ownBodyUsable
  rw [isStub_typeDirectives h (h.declaringType id plain.known) plain.plain]
  cases hbody : (resolver.program.member id).body <;> simp [hbody]

theorem missingDiagnostic_eq (h : resolver.program.WellFormed) {id : MemberId}
    (plain : resolver.program.IsPlain id) :
    resolver.missingDiagnostic id
      = resolver.program.dueDiagnostic levelsVisited id := by
  have hasType := h.declaringType id plain.known
  unfold missingDiagnostic Program.dueDiagnostic
  simp only
  rw [isExternal_typeDirectives h hasType, replacement?_typeDirectives h hasType,
    isStub_typeDirectives h hasType plain.plain, isMemberExternal_eq h plain,
    resolver.store_eq, h.proxiesOf_type hasType, List.isEmpty_map]

/-! ### The proxies that are found -/

/-- The candidates for a signature as a type declares it are those for the member of the
type with this signature. -/
theorem candidatesFor_declaredBy (h : resolver.program.WellFormed) {type : TypeId}
    (has : resolver.program.HasType type) (signature : Identity) :
    resolver.store.candidatesFor (signature.declaredBy (resolver.program.type type).key)
      = ((resolver.program.type type).members.filter fun target =>
          (resolver.program.identityOfMember target).sameSignature signature).flatMap
        fun target => resolver.store.candidatesFor (resolver.program.identityOfMember target) := by
  rw [← Program.flatMap_if]
  cases hfind : resolver.program.findMember?
      (signature.declaredBy (resolver.program.type type).key) with
  | some target =>
      obtain ⟨hasTarget, hidentity⟩ := h.findMember?_eq_some_iff.mp hfind
      obtain ⟨listed, same⟩ := (h.eq_declaredBy_iff has).mp ⟨hasTarget, hidentity⟩
      rw [Program.flatMap_eq_single (h.members_nodup has) listed, if_pos same, hidentity]
      intro other hother hne
      refine if_neg fun hsame => hne ?_
      obtain ⟨hasOther, hotherIdentity⟩ := (h.eq_declaredBy_iff has).mpr ⟨hother, hsame⟩
      exact h.identities _ _ hasOther hasTarget (hotherIdentity.trans hidentity.symm)
  | none =>
      have absent := h.findMember?_eq_none_iff.mp hfind
      rw [List.flatMap_eq_nil_iff.mpr fun target hmem => if_neg fun same => ?_]
      · refine List.eq_nil_iff_forall_not_mem.mpr fun candidate hmem => ?_
        rw [resolver.store_eq] at hmem
        obtain ⟨hidentity, target, candidacy⟩ := h.mem_candidatesFor_iff.mp hmem
        have hasSupplied :=
          ((h.mem_members_iff candidacy.targetKnown).mp candidacy.supplies.mem).1
        exact absent _ hasSupplied hidentity
      · obtain ⟨hasTarget, hidentity⟩ := (h.eq_declaredBy_iff has).mpr ⟨hmem, same⟩
        exact absent target hasTarget hidentity

theorem contenders_eq_proxyBodies (h : resolver.program.WellFormed) {chain : List TypeId}
    (hasAll : ∀ ancestor ∈ chain, resolver.program.HasType ancestor) (id : MemberId) :
    (resolver.contenders (resolver.program.member id).declaringType
        (resolver.program.identityOfMember id) chain).map (·.2.proxyBody)
      = resolver.program.proxyBodies levelsVisited chain id := by
  unfold contenders Program.proxyBodies
  rw [List.map_flatMap]
  refine List.flatMap_congr fun ancestor hmem => ?_
  have has := hasAll ancestor hmem
  rw [List.map_map, candidatesFor_declaredBy h has, List.filter_flatMap, List.map_flatMap]
  refine List.flatMap_congr fun target htarget => ?_
  have hasTarget := ((h.mem_members_iff has).mp (List.mem_filter.mp htarget).1).1
  rw [resolver.store_eq, h.candidatesFor_member hasTarget, List.filter_map, List.filter_filter,
    List.map_map]
  congr 1
  refine List.filter_congr fun supplier _ => ?_
  show (counts _ ancestor (resolver.program.candidacy target supplier)
      && Program.offersBody (resolver.program.member supplier)) = _
  unfold counts Program.candidacy Program.candidateOf
  cases Program.offersBody (resolver.program.member supplier) <;>
    cases Program.hasProxyBody (resolver.program.member supplier) <;> simp

theorem findProxy_eq (h : resolver.program.WellFormed)
    (clean : resolver.store.configurationErrors = []) {id : MemberId}
    (has : resolver.program.HasMember id) {chain : List TypeId}
    (chained : resolver.chain (resolver.program.member id).declaringType = .ok chain) :
    resolver.findProxy (resolver.program.member id).declaringType
        (resolver.program.identityOfMember id)
      = .ok (resolver.program.proxyBodies levelsVisited chain id).head? := by
  obtain ⟨lineage, -⟩ := Program.chain_eq_ok_iff.mp chained
  rw [findProxy_eq_head? clean lineage chained,
    ← contenders_eq_proxyBodies h (lineage.hasType h (h.declaringType id has)), List.head?_map]

/-! ### The table decides -/

theorem implementation_eq (h : resolver.program.WellFormed)
    (clean : resolver.store.configurationErrors = []) {id : MemberId}
    (plain : resolver.program.IsPlain id) {chain : List TypeId}
    (chained : resolver.chain (resolver.program.member id).declaringType = .ok chain) :
    resolver.implementation id
      = .ok (resolver.program.implementing levelsVisited chain id) := by
  unfold implementation Program.implementing
  simp only
  rw [findProxy_eq h clean plain.known chained]
  cases (resolver.program.proxyBodies levelsVisited chain id).head? with
  | some body => rfl
  | none =>
      show Except.ok (resolver.ownOutcome id) = _
      unfold ownOutcome
      rw [isMemberExternal_eq h plain, hasUsableBody_eq h plain, missingDiagnostic_eq h plain]

theorem unlessOverridden_eq (h : resolver.program.WellFormed) {id : MemberId}
    (plain : resolver.program.IsPlain id) (near : resolver.program.IsNear id)
    {outcome : Outcome} :
    resolver.unlessOverridden id (.ok outcome)
      = .ok ((resolver.program.overriding? levelsVisited id).getD outcome) := by
  unfold unlessOverridden Program.overriding?
  rw [isMemberIgnored_eq h plain near, memberDirectives_eq h plain,
    Directive.replacement?_ofMarks]
  split
  · rfl
  · cases Mark.replacement? (resolver.program.effectiveOnMember levelsVisited id) <;> rfl

/-- A property or event takes the diagnostic of its first accessor that has one. -/
theorem firstUnimplemented_eq {diagnostic? : MemberId → Option ReferenceDiagnostic}
    {outcome : MemberId → Outcome}
    (reads : ∀ id, diagnostic? id = match outcome id with
      | .unimplemented diagnostic => some diagnostic
      | _ => none)
    {accessors : List MemberId}
    (classified : ∀ id ∈ accessors, resolver.classifyCallable id = .ok (outcome id)) :
    resolver.firstUnimplemented accessors
      = .ok (((accessors.findSome? diagnostic?).map Outcome.unimplemented).getD .own) := by
  induction accessors with
  | nil => rfl
  | cons accessor rest ih =>
      have hrest := ih fun id hmem => classified id (List.mem_cons_of_mem _ hmem)
      rw [firstUnimplemented, classified accessor List.mem_cons_self, List.findSome?_cons,
        reads accessor]
      cases outcome accessor <;> first | rfl | exact hrest

/-- **Classification is the decision table.**  Of a built program in which every proxy
declaration resolves, each member of a plain type, with a chain of bases that ends in
time and fewer types around it than a walk outward visits, is classified, and its
outcome is that of the table. -/
theorem classifyMember_eq_decision (resolver : Resolver)
    (buildable : resolver.program.Buildable)
    (clean : resolver.store.configurationErrors = []) {id : MemberId}
    (has : resolver.program.HasMember id)
    (plain : (resolver.program.type (resolver.program.member id).declaringType).isProxy = false)
    {chain : List TypeId}
    (chained : resolver.chain (resolver.program.member id).declaringType = .ok chain)
    (near : (resolver.program.typesAround resolver.program.types.size
      (resolver.program.member id).declaringType).length < maxNestingDepth) :
    resolver.classifyMember id = .ok (resolver.program.decision levelsVisited chain id) := by
  have h := buildable.wellFormed
  have isPlain : resolver.program.IsPlain id := ⟨has, plain⟩
  have callable := implementation_eq h clean isPlain chained
  have owner : resolver.ownerOutcome id
      = .ok (if resolver.program.isExternalInEffect levelsVisited id then
          (((resolver.program.member id).accessors.findSome?
            (resolver.program.accessorDiagnostic? levelsVisited chain)).map
              Outcome.unimplemented).getD .own
        else .own) := by
    unfold ownerOutcome
    rw [isMemberExternal_eq h isPlain]
    split
    · refine firstUnimplemented_eq (fun _ => rfl) fun accessor hmem => ?_
      obtain ⟨accessorPlain, sameType⟩ := isPlain.accessor h hmem
      unfold classifyCallable
      rw [implementation_eq h clean accessorPlain (by rw [sameType]; exact chained)]
      exact unlessOverridden_eq h accessorPlain
        (by unfold Program.IsNear; rw [sameType]; exact near)
    · rfl
  unfold classifyMember Program.decision
  rw [← unlessOverridden_eq h isPlain near]
  cases (resolver.program.member id).kind <;> simp only [callable, owner]

/-- A type and one derived from it that overrides a method without a body of its own, and
a proxy of the base that derived types share. -/
def proxiedOverride : List Edit :=
  [.addAssembly "Lib",
   .addType ⟨0⟩ { name := "Base", kind := .classType },
   .addMember ⟨0⟩ (.method "M"),
   .addType ⟨0⟩ { name := "Derived", kind := .classType, base := some ⟨"Base"⟩ },
   .addMember ⟨1⟩ { MemberDecl.method "M" with marks := [.external] },
   .addType ⟨0⟩ { name := "P", kind := .classType, marks := [.proxy ⟨"Base"⟩ true] },
   .addMember ⟨2⟩ (.method "M")]

/-- The override is supplied by the proxy of the base. -/
theorem classifyMember_eq_decision_proxiedOverride :
    let resolver : Resolver := { program := Program.afterEdits {} proxiedOverride, maxDepth := 8 }
    let id : MemberId := ⟨1⟩
    let chain : List TypeId := [⟨1⟩, ⟨0⟩]
    (resolver.program.Buildable ∧ resolver.store.configurationErrors = []
        ∧ resolver.program.HasMember id
        ∧ (resolver.program.type (resolver.program.member id).declaringType).isProxy = false
        ∧ resolver.chain (resolver.program.member id).declaringType = .ok chain
        ∧ (resolver.program.typesAround resolver.program.types.size
            (resolver.program.member id).declaringType).length < maxNestingDepth)
      ∧ resolver.classifyMember id = .ok (resolver.program.decision levelsVisited chain id)
      ∧ resolver.program.decision levelsVisited chain id
          = .proxy ⟨⟨2⟩, ⟨2⟩, ⟨0⟩, .replaceBody⟩ := by
  have built : (Program.afterEdits {} proxiedOverride).Buildable :=
    Program.Buildable.empty.afterEdits (by decide)
  refine ⟨⟨built, by decide +kernel, by decide +kernel, by decide +kernel, by decide +kernel,
      by decide +kernel⟩,
    classifyMember_eq_decision { program := Program.afterEdits {} proxiedOverride, maxDepth := 8 }
      built (by decide +kernel) (by decide +kernel) (by decide +kernel) (by decide +kernel)
      (by decide +kernel), ?_⟩
  decide +kernel

/-- A type with a field, and a proxy of it that brings a replacement of the field, more
levels inside an ignored type than a walk outward visits. -/
def farInside : List Edit :=
  [.addAssembly "Lib",
   .addType ⟨0⟩ { name := "T", kind := .classType },
   .addMember ⟨0⟩ (.field "F" ⟨"System.Int32"⟩),
   .addType ⟨0⟩ { name := "Outer", kind := .classType, marks := [.ignore] }]
  ++ (List.range 33).map (fun level =>
    .addNestedType ⟨level + 1⟩ { name := "N", kind := .classType })
  ++ [.addNestedType ⟨34⟩ { name := "P", kind := .classType, marks := [.proxy ⟨"T"⟩ true] },
   .addMember ⟨35⟩ { MemberDecl.field "F" ⟨"System.Int32"⟩ with marks := [.replacement "x"] }]

/-- Were all levels to count, the table would not describe classification: beyond the
walk outward an ignored type silences no proxy. -/
theorem classifyMember_ne_decision_farInside :
    let program := Program.afterEdits {} farInside
    let resolver : Resolver := { program := program, maxDepth := 64 }
    let id : MemberId := ⟨0⟩
    let chain : List TypeId := [⟨0⟩]
    let allLevels := program.types.size
    program.Buildable
      ∧ resolver.store.configurationErrors = []
      ∧ program.HasMember id
      ∧ (program.member id).isBackingField = false
      ∧ (program.type (program.member id).declaringType).isProxy = false
      ∧ resolver.chain (program.member id).declaringType = .ok chain
      ∧ (program.typesAround allLevels (program.member id).declaringType).length
          < maxNestingDepth
      ∧ resolver.classifyMember id = .ok (.replaced "x")
      ∧ program.decision allLevels chain id = .own
      ∧ resolver.classifyMember id ≠ .ok (program.decision allLevels chain id) := by
  refine ⟨Program.Buildable.empty.afterEdits (by decide +kernel), ?_⟩
  decide +kernel

end Resolver

end MemberResolution
