/-
The limit on chains of base types.

The bases of a type come one after another, without end if they run in a circle.
`Program.ancestor?` numbers them, the type itself being number zero.  A chain that is handed
back is all of this sequence, and there is none exactly if the sequence goes on to the number
that is one above the limit.  So a chain may hold one entry more than the limit, since the
length is compared before the type itself is counted.

A chain that is short enough does not know the limit, so a greater limit changes no chain.
It only lets chains count that failed before.  Therefore whatever succeeds still does, and
with the same result: `Lasts` is carried from the searches over the decisions to a whole pass.
Nothing has to be said of the types whose chains are new, for a result that did not fail
never asked for them.
-/
import MemberResolution.Proofs.FirstPass
import MemberResolution.Proofs.Lineage

namespace MemberResolution

namespace Program

variable {program : Program}

/-! ### Numbered ancestors -/

/-- The ancestor of a type with a number.  The type itself is number zero and its base number
one; in a circle of bases every number has an ancestor. -/
def ancestor? (program : Program) : Nat → TypeId → Option TypeId
  | 0, id => some id
  | number + 1, id => program.baseOf? id >>= program.ancestor? number

/-- A walk lists the ancestors up to its last step. -/
theorem getElem?_ancestorsUpTo (program : Program) (count : Nat) (id : TypeId) (number : Nat) :
    (program.ancestorsUpTo count id)[number]?
      = if number < count then program.ancestor? number id else none := by
  induction count generalizing id number with
  | zero => simp [ancestorsUpTo]
  | succ count ih =>
      cases number with
      | zero => simp [ancestorsUpTo, ancestor?]
      | succ number =>
          simp only [ancestorsUpTo, ancestor?, List.getElem?_cons_succ, Nat.add_lt_add_iff_right]
          cases program.baseOf? id with
          | none => simp
          | some base => exact ih base number

/-- A chain is too deep if there is an ancestor with the number one above the limit. -/
theorem isTooDeep_eq (program : Program) (maxDepth : Nat) (id : TypeId) :
    program.isTooDeep maxDepth id = (program.ancestor? (maxDepth + 1) id).isSome := by
  have last := getElem?_ancestorsUpTo program (maxDepth + 2) id (maxDepth + 1)
  rw [if_pos (Nat.lt_succ_self _)] at last
  rw [isTooDeep, ← last, Bool.eq_iff_iff, decide_eq_true_eq, isSome_getElem?]

/--
**A chain is the sequence of ancestors, unless an ancestor has the number one above the
limit.**  Then there is no chain, and the error names the type and the limit; else the chain is
the whole sequence, and no type stands in it twice.
-/
theorem chain_eq_ancestors (program : Program) (maxDepth : Nat) (id : TypeId) :
    (program.chain maxDepth id = .error (.inheritanceTooDeep (program.type id).key maxDepth)
        ↔ (program.ancestor? (maxDepth + 1) id).isSome)
      ∧ (program.ancestor? (maxDepth + 1) id = none →
          ∃ chain, program.chain maxDepth id = .ok chain ∧ chain.Nodup
            ∧ ∀ number, chain[number]? = program.ancestor? number id) := by
  have deep := isTooDeep_eq program maxDepth id
  refine ⟨?_, ?_⟩
  · unfold chain
    by_cases h : program.isTooDeep maxDepth id = true
    · simp [h, ← deep]
    · simp [h, ← deep]
  · intro last
    rw [last] at deep
    have ok : program.chain maxDepth id = .ok (program.keptChain maxDepth id) := by
      simp [chain, deep]
    obtain ⟨lineage, -⟩ := chain_eq_ok_iff.mp ok
    refine ⟨_, ok, lineage.nodup, fun number => ?_⟩
    -- A walk that is long enough for the number lists the same lineage.
    have long := lineage.ancestorsUpTo_eq
      (Nat.le_add_right (program.keptChain maxDepth id).length (number + 1))
    rw [← long, getElem?_ancestorsUpTo, if_pos (by omega)]

/-- A type and its base. -/
def baseAndDerived : List Edit :=
  [.addAssembly "Lib",
   .addType ⟨0⟩ { name := "A", kind := .classType, base := some ⟨"B"⟩ },
   .addType ⟨0⟩ { name := "B", kind := .classType }]

/-- A chain of two types where the limit is one. -/
theorem chain_longer_than_limit :
    let program := Program.afterEdits {} baseAndDerived
    program.Buildable
      ∧ ((program.ancestor? 1 ⟨0⟩).isSome ∧ program.ancestor? 2 ⟨0⟩ = none)
      ∧ program.chain 1 ⟨0⟩ = .ok [⟨0⟩, ⟨1⟩]
      ∧ ¬(program.chain 1 ⟨0⟩ = .error (.inheritanceTooDeep (program.type ⟨0⟩).key 1)
          ↔ (program.ancestor? 1 ⟨0⟩).isSome) := by
  refine ⟨Program.Buildable.empty.afterEdits (by decide), ?_, ?_, ?_⟩
  all_goals decide +kernel

/-! ### A greater limit -/

/-- A chain lasts under a greater limit. -/
theorem chain_lasts {maxDepth limit : Nat} (greater : maxDepth ≤ limit) (id : TypeId) :
    Lasts (program.chain maxDepth id) (program.chain limit id) := by
  intro chain found
  obtain ⟨lineage, short⟩ := chain_eq_ok_iff.mp found
  exact chain_eq_ok_iff.mpr ⟨lineage, short.trans (Nat.succ_le_succ greater)⟩

end Program

namespace Resolver

variable {resolver : Resolver} {limit : Nat}

/-- The resolver with another limit. -/
def withLimit (resolver : Resolver) (limit : Nat) : Resolver :=
  { resolver with maxDepth := limit }

@[simp] theorem withLimit_program : (resolver.withLimit limit).program = resolver.program :=
  rfl

/-! ### Searches -/

/-- A search along a chain that was found does not read the limit. -/
theorem findProxyAlong_withLimit (signature : Identity) (chain : List TypeId) :
    ∀ atStart, (resolver.withLimit limit).findProxyAlong signature atStart chain
      = resolver.findProxyAlong signature atStart chain := by
  induction chain with
  | nil => intro atStart; rfl
  | cons type rest ih =>
      intro atStart
      simp only [findProxyAlong, ih false]
      rfl

theorem findDeclarationAlong_withLimit (signature : Identity) (chain : List TypeId) :
    (resolver.withLimit limit).findDeclarationAlong signature chain
      = resolver.findDeclarationAlong signature chain := by
  induction chain with
  | nil => rfl
  | cons type rest ih =>
      simp only [findDeclarationAlong, ih]
      rfl

section

variable (greater : resolver.maxDepth ≤ limit)

include greater

theorem findProxy_lasts (start : TypeId) (signature : Identity) :
    Lasts (resolver.findProxy start signature)
      ((resolver.withLimit limit).findProxy start signature) := by
  refine (Program.chain_lasts greater start).bind fun chain => ?_
  rw [findProxyAlong_withLimit]
  exact .refl _

theorem findDeclaration_lasts (receiver : TypeId) (signature : Identity) :
    Lasts (resolver.findDeclaration receiver signature)
      ((resolver.withLimit limit).findDeclaration receiver signature) := by
  refine (Program.chain_lasts greater receiver).bind fun chain => ?_
  rw [findDeclarationAlong_withLimit]
  exact .refl _

/-! ### Decisions -/

theorem implementation_lasts (id : MemberId) :
    Lasts (resolver.implementation id) ((resolver.withLimit limit).implementation id) :=
  (findProxy_lasts greater _ _).bind fun found => by
    cases found with
    | none => exact .refl _
    | some body => exact .refl _

omit greater in
theorem unlessOverridden_lasts {id : MemberId} {otherwise later : Except ConfigurationError Outcome}
    (lasts : Lasts otherwise later) :
    Lasts (resolver.unlessOverridden id otherwise)
      ((resolver.withLimit limit).unlessOverridden id later) := by
  show Lasts _ (resolver.unlessOverridden id later)
  unfold unlessOverridden
  cases resolver.isMemberIgnored id with
  | true => exact .refl _
  | false =>
      cases Directive.replacement? (resolver.memberDirectives id) with
      | some expression => exact .refl _
      | none => exact lasts

theorem classifyCallable_lasts (id : MemberId) :
    Lasts (resolver.classifyCallable id) ((resolver.withLimit limit).classifyCallable id) :=
  unlessOverridden_lasts (implementation_lasts greater id)

theorem firstUnimplemented_lasts (accessors : List MemberId) :
    Lasts (resolver.firstUnimplemented accessors)
      ((resolver.withLimit limit).firstUnimplemented accessors) := by
  induction accessors with
  | nil => exact .refl _
  | cons accessor rest ih =>
      intro outcome h
      unfold firstUnimplemented at h ⊢
      cases hcall : resolver.classifyCallable accessor with
      | error error => rw [hcall] at h; cases h
      | ok first =>
          rw [hcall] at h
          rw [classifyCallable_lasts greater accessor first hcall]
          cases first with
          | unimplemented diagnostic => exact h
          | own | proxy _ | replaced _ | refused _ => exact ih outcome h

theorem ownerOutcome_lasts (id : MemberId) :
    Lasts (resolver.ownerOutcome id) ((resolver.withLimit limit).ownerOutcome id) := by
  show Lasts _ (if resolver.isMemberExternal id then _ else _)
  unfold ownerOutcome
  cases resolver.isMemberExternal id with
  | true => exact firstUnimplemented_lasts greater _
  | false => exact .refl _

/-- **A decision about a member lasts**, whatever rule made it. -/
theorem classifyMember_lasts (id : MemberId) :
    Lasts (resolver.classifyMember id) ((resolver.withLimit limit).classifyMember id) := by
  refine unlessOverridden_lasts ?_
  rw [withLimit_program]
  cases (resolver.program.member id).kind with
  | field => exact .refl _
  | property | event => exact ownerOutcome_lasts greater id
  | method | constructor | operator => exact implementation_lasts greater id

theorem resolveMember_lasts (id : MemberId) :
    Lasts (resolver.resolveMember id) ((resolver.withLimit limit).resolveMember id) :=
  (classifyMember_lasts greater id).bind fun _ => .refl _

/-! ### Questions and passes -/

theorem resolveFound_lasts (found : Option MemberId) :
    Lasts (resolver.resolveFound found) ((resolver.withLimit limit).resolveFound found) := by
  cases found with
  | none => exact .refl _
  | some id => exact (resolveMember_lasts greater id).map _

/-- **Every answer lasts.** -/
theorem respond_lasts (complete : Bool) (query : Query) :
    Lasts (resolver.respond complete query)
      ((resolver.withLimit limit).respond complete query) := by
  cases query with
  | member id => exact (resolveMember_lasts greater id).map _
  | identified identity => exact (resolveFound_lasts greater _).map _
  | dispatch receiver signature =>
      refine Lasts.map _ ((findDeclaration_lasts greater receiver signature).bind fun found => ?_)
      exact resolveFound_lasts greater found
  | reference id | invocation id | fieldEmission id =>
      exact ((resolveMember_lasts greater id).map _).map _
  | type id | typeReference id | typeCheck id | invalidate => exact .refl _

theorem resolveAll_lasts :
    Lasts resolver.resolveAll (resolver.withLimit limit).resolveAll := by
  refine (Lasts.refl resolver.validate).bind fun _ => Lasts.mapM fun type _ => ?_
  exact (Lasts.mapM fun id _ => resolveMember_lasts greater id).bind fun _ => .refl _

end

end Resolver

namespace Session

theorem answer_ask_after {program : Program} (wellFormed : program.WellFormed) (options : Options)
    {asked : List Query} (fitting : ∀ query ∈ asked, query.Fits program) {query : Query}
    (fits : query.Fits program) :
    (((start program options).after asked).answer query.ask).1
      = (start program options).resolver.respond options.completeMessages query := by
  have sound := sound_start wellFormed options
  have advances := advances_after sound fitting
  rw [(answers_ask (advances.sound sound) (by rwa [advances.resolver])).value,
    advances.resolver, advances.options]
  rfl

theorem answer_freeze_after {program : Program} (wellFormed : program.WellFormed)
    (options : Options) {asked : List Query} (fitting : ∀ query ∈ asked, query.Fits program) :
    (((start program options).after asked).answer Ask.freeze).1
      = Table.ofRows options.completeMessages
          <$> (start program options).resolver.resolveAll := by
  have sound := sound_start wellFormed options
  have advances := advances_after sound fitting
  rw [answer_freeze (advances.sound sound), advances.resolver, advances.options]
  rfl

theorem answer_validate (session : Session) :
    (session.answer Ask.validate).1 = session.resolver.validate := by
  show (session.answer (liftM session.resolver.validate)).1 = _
  cases session.resolver.validate <;> rfl

/--
**A greater limit changes no result.**  A program that is reported on under some options has the
same report under a greater limit.  And in two sessions of it, whatever each was asked before,
every question that has an answer under the smaller limit has that answer under the greater, a
dispatch through any receiver included; so has the question for a table and the one whether the
configuration is in order.  Names and what may be declared are the same anyway.
-/
theorem results_last {program : Program} (built : program.Buildable) (options : Options)
    {limit : UInt32} (greater : options.maxInheritanceDepth ≤ limit) :
    let raised := { options with maxInheritanceDepth := limit }
    Lasts (program.resolve options) (program.resolve raised)
      ∧ ∀ asked askedRaised : List Query, (∀ query ∈ asked, query.Fits program) →
          (∀ query ∈ askedRaised, query.Fits program) →
          let session := (start program options).after asked
          let other := (start program raised).after askedRaised
          (∀ query : Query, query.Fits program →
              Lasts (session.answer query.ask).1 (other.answer query.ask).1)
            ∧ Lasts (session.answer Ask.freeze).1 (other.answer Ask.freeze).1
            ∧ Lasts (session.answer Ask.validate).1 (other.answer Ask.validate).1
            ∧ other.resolver.emittedName = session.resolver.emittedName
            ∧ other.resolver.shouldDeclareLocal = session.resolver.shouldDeclareLocal := by
  intro raised
  have hlimit : (start program options).resolver.maxDepth ≤ limit.toNat :=
    UInt32.le_iff_toNat_le.mp greater
  have pass : Lasts (start program options).resolver.resolveAll
      (start program raised).resolver.resolveAll :=
    Resolver.resolveAll_lasts hlimit
  refine ⟨?_, ?_⟩
  · rw [program.resolve_eq built.wellFormed, program.resolve_eq built.wellFormed]
    exact pass.map _
  · intro asked askedRaised fitting fittingRaised session other
    have hsession : session.resolver = (start program options).resolver :=
      (advances_after (sound_start built.wellFormed options) fitting).resolver
    have hother : other.resolver = (start program options).resolver.withLimit limit.toNat :=
      (advances_after (sound_start built.wellFormed raised) fittingRaised).resolver
    refine ⟨fun query fits => ?_, ?_, ?_, ?_, ?_⟩
    · rw [answer_ask_after built.wellFormed options fitting fits,
        answer_ask_after built.wellFormed raised fittingRaised fits]
      exact Resolver.respond_lasts hlimit options.completeMessages query
    · rw [answer_freeze_after built.wellFormed options fitting,
        answer_freeze_after built.wellFormed raised fittingRaised]
      exact pass.map _
    · rw [answer_validate, answer_validate, hsession, hother]
      exact .refl _
    · rw [hsession, hother]
      rfl
    · rw [hsession, hother]
      rfl

/-- A type two bases below the one with a method, and two types that are each other's base. -/
def chainsNotAskedFor : List Edit :=
  [.addAssembly "Lib",
   .addType ⟨0⟩ { name := "A", kind := .classType, base := some ⟨"B"⟩ },
   .addType ⟨0⟩ { name := "B", kind := .classType, base := some ⟨"C"⟩ },
   .addType ⟨0⟩ { name := "C", kind := .classType },
   .addMember ⟨2⟩ (.method "M"),
   .addType ⟨0⟩ { name := "X", kind := .classType, base := some ⟨"Y"⟩ },
   .addType ⟨0⟩ { name := "Y", kind := .classType, base := some ⟨"X"⟩ }]

/-- The report and a call through the middle type last; through the most derived type there is
an answer under the greater limit only. -/
theorem results_last_chainsNotAskedFor :
    let program := Program.afterEdits {} chainsNotAskedFor
    let options : Options := { maxInheritanceDepth := 1 }
    let raised := { options with maxInheritanceDepth := 2 }
    let call (receiver : TypeId) : Query :=
      .dispatch receiver (.ofMember .method ⟨"A"⟩ (.named "M") [])
    (program.Buildable ∧ options.maxInheritanceDepth ≤ 2)
      ∧ (Lasts (program.resolve options) (program.resolve raised)
        ∧ Lasts ((start program options).answer (call ⟨1⟩).ask).1
            ((start program raised).answer (call ⟨1⟩).ask).1)
      ∧ ((program.resolve options).isOk = true
        ∧ ((start program options).answer (call ⟨1⟩).ask).1.isOk = true)
      ∧ ((start program options).answer (call ⟨0⟩).ask).1.isOk = false
      ∧ ((start program raised).answer (call ⟨0⟩).ask).1.isOk = true := by
  have built : (Program.afterEdits {} chainsNotAskedFor).Buildable :=
    Program.Buildable.empty.afterEdits (by decide)
  have greater : ({ maxInheritanceDepth := 1 } : Options).maxInheritanceDepth ≤ 2 := by decide
  have lasting := results_last built _ greater
  refine ⟨⟨built, greater⟩, ⟨lasting.1, ?_⟩, by decide +kernel, by decide +kernel⟩
  exact (lasting.2 [] [] (by simp) (by simp)).1 (.dispatch ⟨1⟩ _) trivial

end Session

end MemberResolution
