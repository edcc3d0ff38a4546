/-
What an ignored property or event takes with it.

An accessor asks for the directives of its property or event as well as for its own.  So
it is refused with its owner, whoever brought the directive there and whatever else the
accessor itself is told to be.

The generated field of a property asks for no directives but its own.  An ignored property
leaves it behind: the field is refused exactly if it is ignored by itself or with its type,
and left out of the emitted code only if besides that it is replaced or what it holds may
not be declared.  Nothing in this depends on the property.
-/
import MemberResolution.Proofs.Conversation

namespace MemberResolution

namespace Resolver

variable {resolver : Resolver}

/-! ### Refusal -/

theorem classifyMember_of_isMemberIgnored {id : MemberId}
    (ignored : resolver.isMemberIgnored id = true) :
    resolver.classifyMember id = .ok (.refused (resolver.program.refusedMember id)) := by
  unfold classifyMember unlessOverridden
  rw [if_pos ignored]

theorem isMemberIgnored_of_owner {id owner : MemberId}
    (howner : (resolver.program.member id).owner? = some owner)
    (ignored : Directive.isIgnored (resolver.memberDirectives owner) = true) :
    resolver.isMemberIgnored id = true := by
  have inherited : resolver.ownerHas Directive.isIgnored id = true := by
    unfold ownerHas
    rw [howner]
    exact ignored
  unfold isMemberIgnored
  rw [inherited, Bool.or_true, Bool.true_or]

/-! ### Fields -/

/-- What the outcome of a field is: nobody else is asked to implement it. -/
def fieldOutcome (resolver : Resolver) (id : MemberId) : Outcome :=
  if resolver.isMemberIgnored id then .refused (resolver.program.refusedMember id)
  else match Directive.replacement? (resolver.memberDirectives id) with
    | some expression => .replaced expression
    | none => .own

theorem classifyMember_of_field {id : MemberId}
    (field : (resolver.program.member id).kind = .field) :
    resolver.classifyMember id = .ok (resolver.fieldOutcome id) := by
  unfold classifyMember unlessOverridden fieldOutcome
  rw [field]
  split
  · rfl
  · cases Directive.replacement? (resolver.memberDirectives id) <;> rfl

theorem fieldOutcome_eq_refused_iff {id : MemberId} {diagnostic : ReferenceDiagnostic} :
    resolver.fieldOutcome id = .refused diagnostic
      ↔ resolver.isMemberIgnored id = true
        ∧ resolver.program.refusedMember id = diagnostic := by
  unfold fieldOutcome
  split
  · rename_i ignored
    simp [ignored]
  · rename_i kept
    cases Directive.replacement? (resolver.memberDirectives id) <;> simp [kept]

/-- A field is left out if it is refused or replaced, or if what it holds may not be
declared. -/
theorem fieldEmission_eq_omitted_iff {id : MemberId} :
    resolver.fieldEmission id (resolver.fieldOutcome id) = .omitted
      ↔ resolver.isMemberIgnored id = true
        ∨ (Directive.replacement? (resolver.memberDirectives id)).isSome = true
        ∨ resolver.shouldDeclareLocal (resolver.program.member id).type = false := by
  unfold fieldOutcome fieldEmission
  by_cases ignored : resolver.isMemberIgnored id = true
  · simp [ignored]
  · cases Directive.replacement? (resolver.memberDirectives id) with
    | some expression => simp [ignored]
    | none =>
        cases resolver.shouldDeclareLocal (resolver.program.member id).type
        · simp [ignored]
        · cases resolver.isMemberExternal id <;> simp [ignored]

/-- A generated field is ignored by itself or with its type, and not with its property. -/
theorem isMemberIgnored_backingField_iff {id property : MemberId}
    (origin : (resolver.program.member id).origin = .backingField property) :
    resolver.isMemberIgnored id = true
      ↔ Directive.isIgnored (resolver.memberDirectives id) = true
        ∨ resolver.isTypeIgnored (resolver.program.member id).declaringType = true := by
  have apart : resolver.ownerHas Directive.isIgnored id = false := by
    unfold ownerHas LoadedMember.owner?
    rw [origin]
  unfold isMemberIgnored
  rw [apart, Bool.or_false, Bool.or_eq_true]

end Resolver

namespace Session

/-- The session resolves the member, and its outcome is that it is refused. -/
def Refuses (session : Session) (id : MemberId) : Prop :=
  ∃ resolved, (session.answer (Ask.resolveMember id)).1 = .ok resolved
    ∧ resolved.outcome = .refused (session.resolver.program.refusedMember id)

/-- The session refuses a property or event with its accessors, those that it lists and those
that belong to it.  Of its generated field it looks at the marks alone. -/
structure RefusesWithAccessors (live : Session) (resolver : Resolver) (owner : MemberId) :
    Prop where
  itself : live.Refuses owner
  listed : ∀ accessor ∈ (resolver.program.member owner).accessors, live.Refuses accessor
  accessors : ∀ accessor, resolver.program.HasMember accessor →
    (resolver.program.member accessor).owner? = some owner → live.Refuses accessor
  generated : ∀ field, resolver.program.HasMember field →
    (resolver.program.member field).origin = .backingField owner →
      (live.Refuses field
        ↔ Directive.isIgnored (resolver.memberDirectives field) = true
          ∨ resolver.isTypeIgnored (resolver.program.member field).declaringType = true)
      ∧ ((live.answer (Ask.fieldEmission field)).1 = .ok .omitted
        ↔ (Directive.isIgnored (resolver.memberDirectives field) = true
            ∨ resolver.isTypeIgnored (resolver.program.member field).declaringType = true)
          ∨ (Directive.replacement? (resolver.memberDirectives field)).isSome = true
          ∨ resolver.shouldDeclareLocal (resolver.program.member field).type = false)

theorem refuses_after_iff {program : Program} (wellFormed : program.WellFormed)
    (options : Options) {asked : List Query} (fits : ∀ query ∈ asked, query.Fits program)
    {id : MemberId} (has : program.HasMember id) :
    ((start program options).after asked).Refuses id
      ↔ (start program options).resolver.classifyMember id
          = .ok (.refused (program.refusedMember id)) := by
  have same := (advances_after (sound_start wellFormed options) fits).resolver
  unfold Refuses
  rw [answer_resolveMember_after wellFormed options fits has, same]
  unfold Resolver.resolveMember
  refine ⟨?_, fun refused => ⟨_, by rw [refused]; rfl, rfl⟩⟩
  rintro ⟨resolved, hresolved, houtcome⟩
  obtain ⟨outcome, hclassify, ⟨⟩⟩ := bind_eq_ok_iff.mp hresolved
  rw [hclassify]
  exact congrArg Except.ok houtcome

/--
**An ignored property or event is refused together with its accessors; its generated field
goes its own way.**  The field is refused exactly if it is ignored by itself or with its
type, and it is omitted exactly if besides it may be replaced or hold what must not be
declared.
-/
theorem ignored_owner_refuses_accessors {program : Program} (built : program.Buildable)
    (options : Options) {asked : List Query} (fits : ∀ query ∈ asked, query.Fits program)
    {owner : MemberId} (has : program.HasMember owner)
    (ignored : Directive.isIgnored
      ((start program options).resolver.memberDirectives owner) = true) :
    ((start program options).after asked).RefusesWithAccessors (start program options).resolver
      owner := by
  have h := built.wellFormed
  have accessor : ∀ id, program.HasMember id → (program.member id).owner? = some owner →
      ((start program options).after asked).Refuses id := by
    intro id hid howner
    refine (refuses_after_iff h options fits hid).mpr ?_
    exact Resolver.classifyMember_of_isMemberIgnored
      (Resolver.isMemberIgnored_of_owner howner ignored)
  refine ⟨?_, fun id hid => ?_, accessor, fun field (hfield : program.HasMember field)
    (origin : (program.member field).origin = .backingField owner) => ?_⟩
  · refine (refuses_after_iff h options fits has).mpr ?_
    refine Resolver.classifyMember_of_isMemberIgnored ?_
    unfold Resolver.isMemberIgnored
    rw [ignored, Bool.true_or, Bool.true_or]
  · have listed := h.accessors owner has id hid
    exact accessor id listed.known listed.origin
  · let resolver := (start program options).resolver
    have kind : (program.member field).kind = .field := by
      have fitting := h.origins field hfield
      rw [origin] at fitting
      exact fitting.2.2
    have classified : resolver.classifyMember field = .ok (resolver.fieldOutcome field) :=
      Resolver.classifyMember_of_field kind
    have alone : resolver.isMemberIgnored field = true
        ↔ Directive.isIgnored (resolver.memberDirectives field) = true
          ∨ resolver.isTypeIgnored (program.member field).declaringType = true :=
      Resolver.isMemberIgnored_backingField_iff origin
    refine ⟨?_, ?_⟩
    · rw [refuses_after_iff h options fits hfield, classified, Except.ok.injEq,
        Resolver.fieldOutcome_eq_refused_iff]
      exact (and_iff_left rfl).trans alone
    · have emitted : (((start program options).after asked).answer (Ask.fieldEmission field)).1
          = .ok (resolver.fieldEmission field (resolver.fieldOutcome field)) := by
        rw [answer_fieldEmission_after h options fits hfield]
        unfold Resolver.resolveMember
        rw [classified]
        rfl
      rw [emitted, Except.ok.injEq, Resolver.fieldEmission_eq_omitted_iff, alone]
      rfl

/-- A gauge with two automatic properties, and a proxy that ignores both of them and the
field of the second. -/
def ignoredLevels : List Edit :=
  [.addAssembly "Lib",
   .addType ⟨0⟩ { name := "Gauge", kind := .classType },
   .addProperty ⟨0⟩ (PropertyDecl.auto { name := "Level", type := ⟨"System.Int32"⟩ }),
   .addProperty ⟨0⟩ (PropertyDecl.auto { name := "Limit", type := ⟨"System.Int32"⟩ }),
   .addType ⟨0⟩ { name := "Proxy", kind := .classType, marks := [.proxy ⟨"Gauge"⟩ true] },
   .addProperty ⟨1⟩ { name := "Level", type := ⟨"System.Int32"⟩, marks := [.ignore] },
   .addProperty ⟨1⟩ { name := "Limit", type := ⟨"System.Int32"⟩, marks := [.ignore] },
   .addMember ⟨1⟩ { MemberDecl.field "<Limit>k__BackingField" ⟨"System.Int32"⟩ with
      marks := [.ignore] }]

/-- The second property is refused with its accessors, and its field because of the proxy. -/
theorem ignored_owner_refuses_accessors_ignoredLevels :
    let program := Program.afterEdits {} ignoredLevels
    let live := (start program {}).after [.invocation ⟨5⟩, .fieldEmission ⟨3⟩]
    let resolver := (start program {}).resolver
    (program.Buildable
        ∧ (∀ query ∈ [Query.invocation ⟨5⟩, .fieldEmission ⟨3⟩], query.Fits program)
        ∧ program.HasMember ⟨4⟩
        ∧ Directive.isIgnored (resolver.memberDirectives ⟨4⟩) = true)
      ∧ live.RefusesWithAccessors resolver ⟨4⟩
      ∧ (program.member ⟨4⟩).accessors = [⟨5⟩, ⟨6⟩]
      ∧ (program.member ⟨7⟩).origin = .backingField ⟨4⟩
      ∧ (live.answer (Ask.fieldEmission ⟨7⟩)).1 = .ok .omitted := by
  have built : (Program.afterEdits {} ignoredLevels).Buildable :=
    Program.Buildable.empty.afterEdits (by decide +kernel)
  have fits : ∀ query ∈ [Query.invocation ⟨5⟩, .fieldEmission ⟨3⟩],
      query.Fits (Program.afterEdits {} ignoredLevels) := by
    decide +kernel
  have has : (Program.afterEdits {} ignoredLevels).HasMember ⟨4⟩ := by decide +kernel
  have ignored : Directive.isIgnored
      ((start (Program.afterEdits {} ignoredLevels) {}).resolver.memberDirectives ⟨4⟩) = true := by
    decide +kernel
  refine ⟨⟨built, fits, has, ignored⟩,
    ignored_owner_refuses_accessors built {} fits has ignored, ?_⟩
  decide +kernel

/-- The first property is refused, and the field that holds its value is its own and is
declared with a value. -/
theorem resolveMember_fieldOf_ignoredLevels :
    let program := Program.afterEdits {} ignoredLevels
    let live := start program {}
    program.Buildable ∧ (program.type (program.member ⟨0⟩).declaringType).isProxy = false
      ∧ Directive.isIgnored (live.resolver.memberDirectives ⟨0⟩) = true
      ∧ (live.answer (Ask.resolveMember ⟨0⟩)).1.map (·.outcome)
          = .ok (.refused (.refused "Level"))
      ∧ (program.member ⟨3⟩).origin = .backingField ⟨0⟩
      ∧ (live.answer (Ask.resolveMember ⟨3⟩)).1.map (·.outcome) = .ok .own
      ∧ (live.answer (Ask.fieldEmission ⟨3⟩)).1 = .ok .initialized := by
  have built : (Program.afterEdits {} ignoredLevels).Buildable :=
    Program.Buildable.empty.afterEdits (by decide +kernel)
  refine ⟨built, ?_⟩
  decide +kernel

end Session

end MemberResolution
