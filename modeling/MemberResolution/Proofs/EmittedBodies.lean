/-
The bodies that are emitted.

A table lists, in the order of positions, what is called and comes out as its own or with a
proxy.  A proxy has a body.  What is its own has one too, with one exception: an abstract
member is its own as a declaration, and there is nothing to write for it.  The list does not
look at that, so it holds what there is a body for, and besides exactly the abstract members
that come out as their own.

In a stub assembly a body can be had if a proxy supplies it or if it can be made without the
loaded one; so of what is its own the list has generated accessors and constructors there,
and again the abstract members.
-/
import MemberResolution.Proofs.FirstPass
import MemberResolution.Proofs.FrozenTable

namespace MemberResolution

/-! ### The list by itself -/

namespace Table

variable {table : Table} {program : Program}

theorem emittedBodies_eq (table : Table) (program : Program) :
    table.emittedBodies program
      = (((table.members.map (·.2)).filter (emitsBody program)).map (·.member)).insertionSort
          fun a b => a.index ≤ b.index :=
  inOrder_eq_insertionSort (fun _ _ => decide_eq_true_iff) _

theorem mem_emittedBodies {id : MemberId} :
    id ∈ table.emittedBodies program
      ↔ ∃ entry ∈ table.members, emitsBody program entry.2 = true ∧ entry.2.member = id := by
  rw [emittedBodies_eq, List.mem_insertionSort]
  simp only [List.mem_map, List.mem_filter]
  refine ⟨?_, ?_⟩
  · rintro ⟨_, ⟨⟨entry, hmem, rfl⟩, emits⟩, hid⟩
    exact ⟨entry, hmem, emits, hid⟩
  · rintro ⟨entry, hmem, emits, hid⟩
    exact ⟨entry.2, ⟨⟨entry, hmem, rfl⟩, emits⟩, hid⟩

/-- The list ascends, if the table has no member twice. -/
theorem pairwise_emittedBodies (nodup : (table.members.map (·.2.member)).Nodup) :
    (table.emittedBodies program).Pairwise fun a b => a.index < b.index := by
  have : Std.Total fun a b : MemberId => a.index ≤ b.index :=
    ⟨fun a b => Nat.le_total a.index b.index⟩
  have : IsTrans MemberId fun a b => a.index ≤ b.index := ⟨fun _ _ _ => Nat.le_trans⟩
  have ascends : (table.emittedBodies program).Pairwise fun a b => a.index ≤ b.index := by
    rw [emittedBodies_eq]
    exact List.pairwise_insertionSort _ _
  have distinct : (table.emittedBodies program).Nodup := by
    rw [emittedBodies_eq, (List.perm_insertionSort _ _).nodup_iff]
    refine List.Nodup.sublist (List.filter_sublist.map _) ?_
    rw [List.map_map]
    exact nodup
  refine (ascends.and distinct).imp fun ⟨hle, hne⟩ => Nat.lt_of_le_of_ne hle fun same => hne ?_
  exact congrArg MemberId.mk same

theorem emitsBody_iff {resolved : ResolvedMember} :
    emitsBody program resolved = true
      ↔ (program.member resolved.member).kind.isCallable = true
        ∧ (resolved.outcome = .own ∨ ∃ body, resolved.outcome = .proxy body) := by
  unfold emitsBody
  cases resolved.outcome <;> simp

end Table

/-! ### What there is a body for -/

/-- Whether the declaration of a member has a body that can be written: in a stub assembly
one that can be made again, elsewhere the one that was loaded. -/
def Program.hasWritableBody (program : Program) (id : MemberId) : Bool :=
  let member := program.member id
  member.body ≠ .abstract
    && if program.inStubAssembly member.declaringType then
        member.isGenerated || member.kind = .constructor
      else member.body = .present

theorem Program.ownBodyUsable_iff {program : Program} {id : MemberId} :
    program.ownBodyUsable id = true
      ↔ program.hasWritableBody id = true ∨ (program.member id).body = .abstract := by
  unfold ownBodyUsable hasWritableBody
  by_cases abstract : (program.member id).body = .abstract
  · simp [abstract]
  · simp [abstract]

namespace Resolver

variable {resolver : Resolver}

/-- There is a body to be written for what is called and no member of a proxy: a proxy
supplies it, or the member is its own and its declaration has one. -/
def IsWritten (resolver : Resolver) (id : MemberId) : Prop :=
  resolver.program.IsPlain id ∧ (resolver.program.member id).kind.isCallable = true
    ∧ ((∃ body, resolver.classifyMember id = .ok (.proxy body))
      ∨ resolver.classifyMember id = .ok .own ∧ resolver.program.hasWritableBody id = true)

/-- What is called and no member of a proxy is its own as an abstract declaration. -/
def IsOnlyDeclared (resolver : Resolver) (id : MemberId) : Prop :=
  resolver.program.IsPlain id ∧ (resolver.program.member id).kind.isCallable = true
    ∧ resolver.classifyMember id = .ok .own ∧ (resolver.program.member id).body = .abstract

/-- The list ascends and holds what there is a body to be written for, and besides what is only
declared.  In a stub assembly a proxy supplies this body, or it can be made again. -/
structure Emits (resolver : Resolver) (emitted : List MemberId) : Prop where
  ascends : emitted.Pairwise fun a b => a.index < b.index
  mem_iff : ∀ id, id ∈ emitted ↔ resolver.IsWritten id ∨ resolver.IsOnlyDeclared id
  ofStub : ∀ id ∈ emitted,
    resolver.program.inStubAssembly (resolver.program.member id).declaringType = true →
      (∃ body, resolver.classifyMember id = .ok (.proxy body))
        ∨ (resolver.program.member id).isGenerated = true
        ∨ (resolver.program.member id).kind = .constructor ∨ resolver.IsOnlyDeclared id

theorem hasUsableBody_of_own {id : MemberId}
    (callable : (resolver.program.member id).kind.isCallable = true)
    (own : resolver.classifyMember id = .ok .own) :
    resolver.hasUsableBody (resolver.program.member id) = true := by
  have implemented : resolver.implementation id = .ok .own := by
    unfold classifyMember unlessOverridden at own
    split at own
    · cases own
    · split at own
      · cases own
      · cases hkind : (resolver.program.member id).kind <;> simp only [hkind] at own callable
        case method => exact own
        case constructor => exact own
        case operator => exact own
        all_goals cases callable
  obtain ⟨found, -, hfound⟩ := bind_eq_ok_iff.mp implemented
  cases found with
  | some body => cases hfound
  | none =>
      have outcome : resolver.ownOutcome id = .own := Except.ok.inj hfound
      unfold ownOutcome at outcome
      split at outcome
      · rename_i usable
        exact (Bool.and_eq_true_iff.mp usable).2
      · cases outcome

/-- What is called and comes out as its own or with a proxy has a body to be written, or it
is only declared. -/
theorem isWritten_or_isOnlyDeclared_iff (h : resolver.program.WellFormed) {id : MemberId} :
    resolver.IsWritten id ∨ resolver.IsOnlyDeclared id
      ↔ resolver.program.IsPlain id ∧ (resolver.program.member id).kind.isCallable = true
        ∧ ∃ outcome, resolver.classifyMember id = .ok outcome
          ∧ (outcome = .own ∨ ∃ body, outcome = .proxy body) := by
  refine ⟨?_, ?_⟩
  · rintro (⟨plain, callable, ⟨body, supplied⟩ | ⟨own, -⟩⟩ | ⟨plain, callable, own, -⟩)
    · exact ⟨plain, callable, _, supplied, .inr ⟨body, rfl⟩⟩
    · exact ⟨plain, callable, _, own, .inl rfl⟩
    · exact ⟨plain, callable, _, own, .inl rfl⟩
  · rintro ⟨plain, callable, _, hclassify, rfl | ⟨body, rfl⟩⟩
    · have usable := hasUsableBody_of_own callable hclassify
      rw [hasUsableBody_eq h plain] at usable
      rcases Program.ownBodyUsable_iff.mp usable with writable | abstract
      · exact .inl ⟨plain, callable, .inr ⟨hclassify, writable⟩⟩
      · exact .inr ⟨plain, callable, hclassify, abstract⟩
    · exact .inl ⟨plain, callable, .inl ⟨body, hclassify⟩⟩

/-- In a stub assembly what is written has a proxy, or it can be made again. -/
theorem IsWritten.of_stub {id : MemberId} (written : resolver.IsWritten id)
    (stub : resolver.program.inStubAssembly
      (resolver.program.member id).declaringType = true) :
    (∃ body, resolver.classifyMember id = .ok (.proxy body))
      ∨ (resolver.program.member id).isGenerated = true
      ∨ (resolver.program.member id).kind = .constructor := by
  obtain ⟨-, -, supplied | ⟨-, writable⟩⟩ := written
  · exact .inl supplied
  · simp only [Program.hasWritableBody, stub, if_true, Bool.and_eq_true, Bool.or_eq_true,
      decide_eq_true_eq] at writable
    exact .inr writable.2

end Resolver

namespace Session

section

variable {program : Program} (built : program.Buildable) (options : Options)
  {asked : List Query} (fits : ∀ query ∈ asked, query.Fits program) {table : Table}
  (frozen : (((start program options).after asked).answer Ask.freeze).1 = .ok table)

include built fits frozen

theorem exists_rows_of_freeze :
    ∃ rows, (start program options).resolver.resolveAll = .ok rows
      ∧ table = Table.ofRows options.completeMessages rows := by
  have sound := sound_start built.wellFormed options
  have advances := advances_after sound fits
  rw [answer_freeze (advances.sound sound), advances.resolver, advances.options] at frozen
  cases hall : (start program options).resolver.resolveAll with
  | error error => rw [hall] at frozen; cases frozen
  | ok rows =>
      rw [hall] at frozen
      exact ⟨rows, rfl, (Except.ok.inj frozen).symm⟩

theorem pairwise_emittedBodies_of_freeze :
    (table.emittedBodies program).Pairwise fun a b => a.index < b.index := by
  obtain ⟨rows, resolved, rfl⟩ := exists_rows_of_freeze built options fits frozen
  refine Table.pairwise_emittedBodies ?_
  have listed : (Table.ofRows options.completeMessages rows).members.map (·.2.member)
      = program.plainTypes.flatMap (·.members) := by
    have all := Resolver.members_ofRows (Resolver.rows_of_resolveAll resolved)
      options.completeMessages
    rw [← List.forall₂_eq_eq_eq, List.forall₂_map_left_iff]
    exact all.flip.imp fun entry id ⟨_, hfound⟩ => Resolver.member_of_resolveMember hfound
  rw [listed]
  exact built.wellFormed.plainMembers_nodup

/-- A frozen table emits what is called and comes out as its own or with a proxy. -/
theorem mem_emittedBodies_of_freeze {id : MemberId} :
    id ∈ table.emittedBodies program
      ↔ program.IsPlain id ∧ (program.member id).kind.isCallable = true
        ∧ ∃ outcome, (start program options).resolver.classifyMember id = .ok outcome
          ∧ (outcome = .own ∨ ∃ body, outcome = .proxy body) := by
  obtain ⟨rows, resolved, rfl⟩ := exists_rows_of_freeze built options fits frozen
  have held : ∀ {id found}, (id, found) ∈ (Table.ofRows options.completeMessages rows).members
      ↔ program.IsPlain id ∧ (start program options).resolver.resolveMember id = .ok found :=
    Resolver.mem_members_ofRows built.wellFormed resolved
  rw [Table.mem_emittedBodies, ← Resolver.exists_resolveMember_iff]
  refine ⟨?_, ?_⟩
  · rintro ⟨⟨place, found⟩, hmem, hemits, hid⟩
    obtain ⟨plain, hresolve⟩ := held.mp hmem
    obtain rfl : place = id := (Resolver.member_of_resolveMember hresolve).symm.trans hid
    obtain ⟨callable, outcome⟩ := Table.emitsBody_iff.mp hemits
    rw [hid] at callable
    exact ⟨plain, callable, found, hresolve, outcome⟩
  · rintro ⟨plain, callable, found, hresolve, outcome⟩
    have hid := Resolver.member_of_resolveMember hresolve
    rw [← hid] at callable
    exact ⟨(id, found), held.mpr ⟨plain, hresolve⟩,
      Table.emitsBody_iff.mpr ⟨callable, outcome⟩, hid⟩

end

/--
**A table emits, in ascending order, what there is a body for, and besides exactly what is
only declared.**  In a stub assembly it emits what a proxy supplies, generated accessors and
constructors, and what is only declared.
-/
theorem emittedBodies_written_or_declared {program : Program} (built : program.Buildable)
    (options : Options) {asked : List Query} (fits : ∀ query ∈ asked, query.Fits program)
    {table : Table}
    (frozen : (((start program options).after asked).answer Ask.freeze).1 = .ok table) :
    (start program options).resolver.Emits (table.emittedBodies program) := by
  have wellFormed : (start program options).resolver.program.WellFormed := built.wellFormed
  have emitted : ∀ id, id ∈ table.emittedBodies program
      ↔ (start program options).resolver.IsWritten id
        ∨ (start program options).resolver.IsOnlyDeclared id := fun id =>
    (mem_emittedBodies_of_freeze built options fits frozen).trans
      (Resolver.isWritten_or_isOnlyDeclared_iff wellFormed).symm
  refine ⟨pairwise_emittedBodies_of_freeze built options fits frozen, emitted,
    fun id hmem stub => ?_⟩
  rcases (emitted id).mp hmem with written | declared
  · rcases written.of_stub stub with supplied | generated | constructor
    · exact .inl supplied
    · exact .inr (.inl generated)
    · exact .inr (.inr (.inl constructor))
  · exact .inr (.inr (.inr declared))

/-- A stub assembly with a method, an abstract method, an automatic property and a
constructor, another one with a method that has no body and an abstract one, and a proxy that
supplies the first method. -/
def stubbedGauge : List Edit :=
  [.addAssembly "Stub",
   .addAssembly "Lib",
   .markAssembly ⟨0⟩ .stubAssembly,
   .addType ⟨0⟩ { name := "Gauge", kind := .classType },
   .addMember ⟨0⟩ (.method "Read"),
   .addMember ⟨0⟩ ((MemberDecl.method "Reset").flagged { isAbstract := true }),
   .addProperty ⟨0⟩ (PropertyDecl.auto { name := "Level", type := ⟨"System.Int32"⟩ }),
   .addMember ⟨0⟩ .instanceConstructor,
   .addType ⟨1⟩ { name := "Dial", kind := .classType },
   .addMember ⟨1⟩ ((MemberDecl.method "Turn").withBody .absent),
   .addMember ⟨1⟩ ((MemberDecl.method "Mark").flagged { isAbstract := true }),
   .addType ⟨1⟩ { name := "Proxy", kind := .classType, marks := [.proxy ⟨"Gauge"⟩ true] },
   .addMember ⟨2⟩ (.method "Read")]

/-- What is frozen of it emits a supplied body, two accessors and a constructor, and lists the
two abstract methods with them. -/
theorem emittedBodies_written_or_declared_stubbedGauge :
    let program := Program.afterEdits {} stubbedGauge
    let session := (start program {}).after [.member ⟨4⟩, .invocation ⟨2⟩]
    ∃ table, (program.Buildable
        ∧ (∀ query ∈ [Query.member ⟨4⟩, .invocation ⟨2⟩], query.Fits program)
        ∧ (session.answer Ask.freeze).1 = .ok table)
      ∧ (start program {}).resolver.Emits (table.emittedBodies program)
      ∧ table.emittedBodies program = [⟨0⟩, ⟨1⟩, ⟨3⟩, ⟨4⟩, ⟨6⟩, ⟨8⟩] := by
  have built : (Program.afterEdits {} stubbedGauge).Buildable :=
    Program.Buildable.empty.afterEdits (by decide +kernel)
  have fits : ∀ query ∈ [Query.member ⟨4⟩, .invocation ⟨2⟩],
      query.Fits (Program.afterEdits {} stubbedGauge) := by
    decide +kernel
  have emits : (((start (Program.afterEdits {} stubbedGauge) {}).after
      [.member ⟨4⟩, .invocation ⟨2⟩]).answer Ask.freeze).1.map
        (·.emittedBodies (Program.afterEdits {} stubbedGauge))
          = .ok [⟨0⟩, ⟨1⟩, ⟨3⟩, ⟨4⟩, ⟨6⟩, ⟨8⟩] := by
    decide +kernel
  cases frozen : (((start (Program.afterEdits {} stubbedGauge) {}).after
      [.member ⟨4⟩, .invocation ⟨2⟩]).answer Ask.freeze).1 with
  | error error => rw [frozen] at emits; cases emits
  | ok table =>
      rw [frozen] at emits
      exact ⟨table, ⟨built, fits, frozen⟩,
        emittedBodies_written_or_declared built {} fits frozen, Except.ok.inj emits⟩

/-- An abstract method of a type that is no proxy is emitted, though it has no body. -/
theorem emittedBodies_abstract_stubbedGauge :
    let program := Program.afterEdits {} stubbedGauge
    let resolver := (start program {}).resolver
    program.Buildable ∧ resolver.classifyMember ⟨8⟩ = .ok .own
      ∧ (program.member ⟨8⟩).body = .abstract ∧ program.hasWritableBody ⟨8⟩ = false
      ∧ ((start program {}).answer Ask.freeze).1.map (·.emittedBodies program)
          = .ok [⟨0⟩, ⟨1⟩, ⟨3⟩, ⟨4⟩, ⟨6⟩, ⟨8⟩] := by
  have built : (Program.afterEdits {} stubbedGauge).Buildable :=
    Program.Buildable.empty.afterEdits (by decide +kernel)
  refine ⟨built, ?_⟩
  decide +kernel

end Session

end MemberResolution
