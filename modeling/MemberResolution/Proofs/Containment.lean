/-
Where an error of a proxy is felt.

A proxy member that supplies nothing is wrong for good, but it spoils only what looks for it.
The search for a body goes up the chain of a type, and at each type it first asks for an error
under the name it is after, and then for a candidate.  So the error of a type reaches those
members, of the type and of all derived from it, that have the name and find no candidate
before they come to the type; kind and parameters do not count.

What does not search is not reached: fields, what is ignored and what is replaced.  A property
or event is reached through its accessors, if it is external.
-/
import MemberResolution.Proofs.Conversation
import MemberResolution.Proofs.Dispatch
import MemberResolution.Proofs.Failure
import MemberResolution.Proofs.RecordedFaults

namespace MemberResolution

namespace Program

/-- A search up a chain, for a proxy that supplies a signature from a start type on, comes upon
an error: at some type of the chain it is the first to tell of a member that misses the name,
and at no type before that does a member miss the name or an eligible one supply the
signature. -/
def ComesUpon (program : Program) (start : TypeId) (signature : Identity) (chain : List TypeId)
    (error : ConfigurationError) : Prop :=
  Reaches
    (fun closer =>
      (∀ proxy place other, ¬ program.Misses closer signature.name.text proxy place other)
        ∧ ∀ body, ¬ program.Eligible start signature closer body)
    (fun type => program.FirstMissing type signature.name.text error) chain

/-- A search comes upon some error exactly if a member misses the name for a type that is
reached, and the search goes on as long as nothing eligible supplies the signature. -/
theorem WellFormed.exists_comesUpon_iff {program : Program} (h : program.WellFormed)
    {start : TypeId} {signature : Identity} {chain : List TypeId} :
    (∃ error, program.ComesUpon start signature chain error)
      ↔ Reaches (fun closer => ∀ body, ¬ program.Eligible start signature closer body)
          (fun type => ∃ proxy place error,
            program.Misses type signature.name.text proxy place error) chain := by
  unfold ComesUpon
  induction chain with
  | nil => simp [not_reaches_nil]
  | cons type rest ih =>
      simp only [reaches_cons_iff, exists_or, exists_and_left, ih, h.exists_firstMissing_iff]
      by_cases missed : ∃ proxy place error,
          program.Misses type signature.name.text proxy place error
      · simp [missed]
      · have unmissed : ∀ proxy place error,
            ¬ program.Misses type signature.name.text proxy place error :=
          fun proxy place error misses => missed ⟨proxy, place, error, misses⟩
        simp [unmissed]

end Program

namespace Resolver

variable {resolver : Resolver} {error : ConfigurationError} {signature : Identity}

/-! ### The search -/

theorem supplierAt?_eq_none_iff (h : resolver.program.WellFormed) {start type : TypeId}
    (has : resolver.program.HasType type) (callable : signature.kind.hasSignature = true)
    {atStart : Bool} (hstart : atStart = decide (type = start)) :
    resolver.supplierAt? atStart signature type = none
      ↔ ∀ body, ¬ resolver.program.Eligible start signature type body := by
  rw [resolver.supplierAt?_eq hstart, List.head?_eq_none_iff, List.filter_eq_nil_iff]
  refine ⟨?_, ?_⟩
  · intro nothing body eligible
    obtain ⟨candidate, hmem, hcounts, -⟩ := (h.eligible_iff has callable).mp eligible
    rw [← resolver.store_eq] at hmem
    exact nothing candidate hmem hcounts
  · intro nothing candidate hmem hcounts
    rw [resolver.store_eq] at hmem
    exact nothing _ ((h.eligible_iff has callable).mpr ⟨candidate, hmem, hcounts, rfl⟩)

theorem findProxyAlong_eq_error_iff (h : resolver.program.WellFormed) {start : TypeId}
    (callable : signature.kind.hasSignature = true) {chain : List TypeId}
    (hasAll : ∀ type ∈ chain, resolver.program.HasType type) {atStart : Bool}
    (first : ∀ type rest, chain = type :: rest → atStart = decide (type = start))
    (later : ∀ type ∈ chain.tail, type ≠ start) :
    resolver.findProxyAlong signature atStart chain = .error error
      ↔ resolver.program.ComesUpon start signature chain error := by
  induction chain generalizing atStart with
  | nil => exact ⟨nofun, fun reached => absurd reached not_reaches_nil⟩
  | cons type rest ih =>
      obtain ⟨hasType, hasRest⟩ := List.forall_mem_cons.mp hasAll
      have onward : resolver.findProxyAlong signature false rest = .error error
          ↔ resolver.program.ComesUpon start signature rest error := by
        refine ih hasRest ?_ fun other hmem => later other (List.mem_of_mem_tail hmem)
        rintro next rest' rfl
        exact (decide_eq_false (later next List.mem_cons_self)).symm
      have recorded : (Store.ofProgram resolver.program).errorFor? type signature.name.text
            = some error
          ↔ resolver.program.FirstMissing type signature.name.text error :=
        h.errorFor?_eq_some_iff
      have unrecorded : (Store.ofProgram resolver.program).errorFor? type signature.name.text = none
          ↔ ∀ proxy place other,
              ¬ resolver.program.Misses type signature.name.text proxy place other :=
        h.errorFor?_eq_none_iff
      have unsupplied := supplierAt?_eq_none_iff h hasType callable (first type rest rfl)
      rw [← resolver.store_eq] at recorded unrecorded
      unfold Program.ComesUpon at onward ⊢
      rw [findProxyAlong, reaches_cons_iff, ← recorded, ← unrecorded, ← unsupplied, ← onward]
      cases resolver.store.errorFor? type signature.name.text with
      | some found => simp
      | none =>
          cases resolver.supplierAt? atStart signature type with
          | some candidate => simp
          | none => simp

/-- **A search fails with the error it comes upon**, where its chain ends in time. -/
theorem findProxy_eq_error_iff_comesUpon (h : resolver.program.WellFormed) {start : TypeId}
    (has : resolver.program.HasType start) {chain : List TypeId}
    (chained : resolver.chain start = .ok chain)
    (callable : signature.kind.hasSignature = true) :
    resolver.findProxy start signature = .error error
      ↔ resolver.program.ComesUpon start signature chain error := by
  obtain ⟨lineage, -⟩ := Program.chain_eq_ok_iff.mp chained
  have nodup := lineage.nodup
  have hasAll := lineage.hasType h has
  rw [findProxy_of_chain chained]
  obtain ⟨rest, rfl⟩ := lineage.start_eq
  refine findProxyAlong_eq_error_iff h callable hasAll ?_ ?_
  · rintro _ _ ⟨rfl, rfl⟩
    exact (decide_eq_true rfl).symm
  · rintro other hmem rfl
    exact (List.nodup_cons.mp nodup).1 hmem

/-! ### Members -/

theorem exists_classifyMember_of_quiet {id : MemberId}
    (quiet : (resolver.program.member id).kind = .field ∨ resolver.isMemberIgnored id = true
      ∨ Directive.replacement? (resolver.memberDirectives id) ≠ none) :
    ∃ outcome, resolver.classifyMember id = .ok outcome := by
  cases hclassify : resolver.classifyMember id with
  | ok outcome => exact ⟨outcome, rfl⟩
  | error error =>
      unfold classifyMember at hclassify
      obtain ⟨⟨kept, unreplaced⟩, fails⟩ := unlessOverridden_eq_error_iff.mp hclassify
      rcases quiet with field | ignored | replaced
      · rw [field] at fails
        cases fails
      · rw [kept] at ignored
        cases ignored
      · exact absurd unreplaced replaced

/-- A property or event fails exactly if it is external, neither ignored nor replaced, and one
of its accessors fails before one is unimplemented. -/
theorem classifyMember_eq_error_iff_of_owner {id : MemberId}
    (owner : (resolver.program.member id).kind = .property
      ∨ (resolver.program.member id).kind = .event) :
    resolver.classifyMember id = .error error
      ↔ (resolver.isMemberIgnored id = false
          ∧ Directive.replacement? (resolver.memberDirectives id) = none)
        ∧ resolver.isMemberExternal id = true
        ∧ Reaches (fun other => ∃ outcome, resolver.classifyCallable other = .ok outcome
              ∧ outcome.label ≠ .unimplemented)
            (fun accessor => resolver.classifyCallable accessor = .error error)
            (resolver.program.member id).accessors := by
  have asOwner : resolver.classifyMember id
      = resolver.unlessOverridden id (resolver.ownerOutcome id) := by
    unfold classifyMember
    rcases owner with property | event
    · rw [property]
    · rw [event]
  rw [asOwner, unlessOverridden_eq_error_iff, ownerOutcome, ← firstUnimplemented_eq_error_iff]
  refine and_congr_right fun _ => ?_
  cases resolver.isMemberExternal id with
  | true => simp
  | false => simp

/-- **Resolution fails for a member exactly where it should**, by what it comes to for this
member and for its accessors. -/
structure ContainsErrors (resolver : Resolver)
    (resolved : MemberId → Except ConfigurationError ResolvedMember) (chain : List TypeId)
    (id : MemberId) : Prop where
  /-- A field and what is ignored or replaced never fails. -/
  quiet : (resolver.program.member id).kind = .field ∨ resolver.isMemberIgnored id = true
      ∨ Directive.replacement? (resolver.memberDirectives id) ≠ none →
    ∃ found, resolved id = .ok found
  /-- Anything else that is called fails if and only if, for some type of the chain that no
  type with an eligible proxy member comes before, some proxy member misses its name. -/
  fails : resolver.needsBody id = true →
    ((∃ error, resolved id = .error error)
      ↔ Reaches
        (fun closer => ∀ body, ¬ resolver.program.Eligible
          (resolver.program.member id).declaringType (resolver.program.identityOfMember id)
          closer body)
        (fun type => ∃ proxy place error, resolver.program.Misses type
          (resolver.program.member id).name.text proxy place error)
        chain)
  /-- The error is the first one for the first such type. -/
  tells : resolver.needsBody id = true → ∀ error, resolved id = .error error
    ↔ resolver.program.ComesUpon (resolver.program.member id).declaringType
        (resolver.program.identityOfMember id) chain error
  /-- A property or event fails with the first of its accessors that does, if it is external,
  neither ignored nor replaced, and no accessor before that is unimplemented. -/
  owner : (resolver.program.member id).kind = .property
      ∨ (resolver.program.member id).kind = .event →
    ∀ error, resolved id = .error error
      ↔ (resolver.isMemberIgnored id = false
          ∧ Directive.replacement? (resolver.memberDirectives id) = none)
        ∧ resolver.isMemberExternal id = true
        ∧ Reaches (fun other => ∃ found, resolved other = .ok found
              ∧ found.outcome.label ≠ .unimplemented)
            (fun accessor => resolved accessor = .error error)
            (resolver.program.member id).accessors

theorem resolveMember_eq_error_iff_comesUpon (h : resolver.program.WellFormed) {id : MemberId}
    (has : resolver.program.HasMember id) {chain : List TypeId}
    (chained : resolver.chain (resolver.program.member id).declaringType = .ok chain)
    (needs : resolver.needsBody id = true) :
    resolver.resolveMember id = .error error
      ↔ resolver.program.ComesUpon (resolver.program.member id).declaringType
          (resolver.program.identityOfMember id) chain error := by
  have callable : (resolver.program.member id).kind.isCallable = true := by
    unfold needsBody at needs
    simp only [Bool.and_eq_true] at needs
    exact needs.1.1
  rw [resolveMember_eq_error_iff, classifyMember_of_isCallable callable,
    classifyCallable_eq_error_iff_findProxy callable]
  refine (and_iff_right needs).trans ?_
  refine findProxy_eq_error_iff_comesUpon h (h.declaringType id has) chained ?_
  rw [Program.identityOfMember, Program.kind_identityOf, MemberKind.hasSignature_symbolKind]
  exact callable

/-- What a resolver finds contains errors, and so does whatever agrees with it on members that
are loaded. -/
theorem containsErrors {resolved : MemberId → Except ConfigurationError ResolvedMember}
    {chain : List TypeId} {id : MemberId} (h : resolver.program.WellFormed)
    (has : resolver.program.HasMember id)
    (chained : resolver.chain (resolver.program.member id).declaringType = .ok chain)
    (value : ∀ other, resolver.program.HasMember other →
      resolved other = resolver.resolveMember other) :
    resolver.ContainsErrors resolved chain id where
  quiet quiet := by
    obtain ⟨outcome, hclassify⟩ := exists_classifyMember_of_quiet quiet
    obtain ⟨found, hfound, -⟩ := (exists_resolveMember_iff (p := fun _ => True)).mpr
      ⟨outcome, hclassify, trivial⟩
    exact ⟨found, (value id has).trans hfound⟩
  fails needs := by
    rw [value id has]
    simp only [resolveMember_eq_error_iff_comesUpon h has chained needs, h.exists_comesUpon_iff]
    rw [Program.identityOfMember, Program.name_identityOf]
  tells needs error := by
    rw [value id has]
    exact resolveMember_eq_error_iff_comesUpon h has chained needs
  owner owner error := by
    rw [value id has, resolveMember_eq_error_iff, classifyMember_eq_error_iff_of_owner owner]
    refine and_congr_right fun _ => and_congr_right fun _ => ?_
    have accessor : ∀ other ∈ (resolver.program.member id).accessors,
        resolved other = resolver.resolveMember other
          ∧ resolver.classifyCallable other = resolver.classifyMember other := by
      intro other hmem
      obtain ⟨known, kind, -, -⟩ := h.accessors id has other hmem
      exact ⟨value other known, (classifyMember_of_isCallable (by rw [kind]; rfl)).symm⟩
    refine reaches_congr (fun other hmem => ?_) fun other hmem => ?_
    · rw [(accessor other hmem).1, (accessor other hmem).2]
      exact (exists_resolveMember_iff (p := fun outcome => outcome.label ≠ .unimplemented)).symm
    · rw [(accessor other hmem).1, (accessor other hmem).2, resolveMember_eq_error_iff]

end Resolver

namespace Session

/--
**An error is felt only where a search comes upon it.**  Whatever a session was asked before,
and whatever is wrong with the program, resolving a member whose chain of bases ends in time
contains errors: fields, what is ignored and what is replaced never fail, anything else that is
called fails with the first error under its name that comes no later on its chain than the
first eligible proxy member, and a property or event fails with its accessors if it is external.
-/
theorem errors_contained {program : Program} (built : program.Buildable) (options : Options)
    {asked : List Query} (fits : ∀ query ∈ asked, query.Fits program) {id : MemberId}
    (has : program.HasMember id) {chain : List TypeId}
    (chained : program.chain options.maxInheritanceDepth.toNat (program.member id).declaringType
      = .ok chain) :
    (start program options).resolver.ContainsErrors
      (fun id => (((start program options).after asked).answer (Ask.resolveMember id)).1)
      chain id :=
  Resolver.containsErrors built.wellFormed has chained fun _ hasOther =>
    answer_resolveMember_after built.wellFormed options fits hasOther

/-- A base and two types derived from it, all with one method.  A proxy of the base declares
an overload that the base does not have, and one of the derived types has a proxy of its own. -/
def overloadNotThere : List Edit :=
  [.addAssembly "Lib",
   .addType ⟨0⟩ { name := "Base", kind := .classType },
   .addMember ⟨0⟩ (.method "M"),
   .addType ⟨0⟩ { name := "Derived", kind := .classType, base := some ⟨"Base"⟩ },
   .addMember ⟨1⟩ (.method "M"),
   .addType ⟨0⟩ { name := "Shielded", kind := .classType, base := some ⟨"Base"⟩ },
   .addMember ⟨2⟩ (.method "M"),
   .addType ⟨0⟩ { name := "BaseProxy", kind := .classType, marks := [.proxy ⟨"Base"⟩ true] },
   .addMember ⟨3⟩ ((MemberDecl.method "M").taking ⟨"count", ⟨"System.Int32"⟩⟩),
   .addType ⟨0⟩
     { name := "ShieldedProxy", kind := .classType, marks := [.proxy ⟨"Shielded"⟩ true] },
   .addMember ⟨4⟩ (.method "M")]

/-- The error reaches the method without parameters in the base and in the derived type that
has no proxy of its own, and not in the other. -/
theorem errors_contained_overloadNotThere :
    let program := Program.afterEdits {} overloadNotThere
    let options : Options := {}
    let asked : List Query := [.member ⟨0⟩, .type ⟨1⟩]
    let chain : List TypeId := [⟨1⟩, ⟨0⟩]
    let resolved := fun id => (((start program options).after asked).answer
      (Ask.resolveMember id)).1
    (program.Buildable ∧ (∀ query ∈ asked, query.Fits program) ∧ program.HasMember ⟨1⟩
        ∧ program.chain options.maxInheritanceDepth.toNat (program.member ⟨1⟩).declaringType
          = .ok chain)
      ∧ (start program options).resolver.ContainsErrors resolved chain ⟨1⟩
      ∧ (∀ id < 2, resolved ⟨id⟩ = .error
          (.unknownTargetMember "BaseProxy::M(System.Int32)" "Base::M(System.Int32)" ⟨"Base"⟩))
      ∧ (resolved ⟨2⟩).map (·.outcome) = .ok (.proxy ⟨⟨4⟩, ⟨4⟩, ⟨2⟩, .replaceBody⟩) := by
  have built : (Program.afterEdits {} overloadNotThere).Buildable :=
    Program.Buildable.empty.afterEdits (by decide +kernel)
  have fits : ∀ query ∈ [Query.member ⟨0⟩, .type ⟨1⟩],
      query.Fits (Program.afterEdits {} overloadNotThere) := by
    decide +kernel
  have has : (Program.afterEdits {} overloadNotThere).HasMember ⟨1⟩ := by decide +kernel
  have chained : (Program.afterEdits {} overloadNotThere).chain
      ({} : Options).maxInheritanceDepth.toNat
        ((Program.afterEdits {} overloadNotThere).member ⟨1⟩).declaringType
        = .ok [⟨1⟩, ⟨0⟩] := by
    decide +kernel
  refine ⟨⟨built, fits, has, chained⟩, errors_contained built {} fits has chained, ?_⟩
  decide +kernel

end Session

end MemberResolution
