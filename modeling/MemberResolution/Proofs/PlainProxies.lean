/-
Plain proxies only help.

A proxy that carries no mark but its own, whose members give no directives and all have what
they supply, enters candidates, and beside them notes about itself and its members.  So the
directives of everything else stay: names, refusals and replacements do not change, and no
search meets a new fault.  Where a search for a proxy found a body it still finds one, be it
another, since the candidates it passed are still there and more may stand among them.

What is not translatable may fare better or read differently, and a property that was stuck
at one accessor may now get stuck at the next.  So the decisions are compared from what was
translatable or refused, which is what they are made of: an own body stays usable, and a
property or event is passed by each accessor that was passed before.
-/
import MemberResolution.Proofs.Locality

namespace MemberResolution

namespace Program

/-! ### What a plain proxy enters -/

/-- A proxy type carries no mark but the one that makes it a proxy, its members give no
directives, and each of them that takes part supplies a member of the target. -/
structure IsPlainProxy (program : Program) (proxy : TypeId) (target : TypeKey) : Prop where
  marks : ∃ inheritable, (program.type proxy).marks = [.proxy target inheritable]
  undirected : ∀ id ∈ (program.type proxy).members,
    Directive.ofMarks (program.member id).marks = []
  supplies : ∀ id ∈ (program.type proxy).members, program.isInert (program.member id) = true
    ∨ ∃ type, program.findType? target = some type
      ∧ (program.suppliedMember (program.member id) type).isOk = true

/-- The entry is a candidate or a note of a proxy, or says that the target is not loaded. -/
def IsOffer (program : Program) (proxy : TypeId) (target : TypeKey) : StoreEntry → Prop
  | .directive symbol _ => symbol.declaringType = some (program.type proxy).key
  | .fault fault => fault.place = none ∧ program.findType? target = none
  | .candidate _ _ | .proxy _ _ => True

namespace IsPlainProxy

variable {program : Program} {proxy : TypeId} {target : TypeKey}

theorem points (h : program.IsPlainProxy proxy target) :
    ∃ inheritable, Mark.proxyOf? (program.type proxy).marks = some (target, inheritable) := by
  obtain ⟨inheritable, marks⟩ := h.marks
  exact ⟨inheritable, by rw [marks]; rfl⟩

theorem isOffer_of_mem_memberEntries (h : program.IsPlainProxy proxy target)
    (wellFormed : program.WellFormed) (has : program.HasType proxy) {inheritable : Bool}
    {type : TypeId} (finds : program.findType? target = some type) {id : MemberId}
    (listed : id ∈ (program.type proxy).members) :
    ∀ entry ∈ program.memberEntries (program.type proxy) inheritable type id,
      program.IsOffer proxy target entry := by
  intro entry hmem
  unfold memberEntries at hmem
  simp only at hmem
  split at hmem
  · cases hmem
  · rename_i live
    obtain inert | ⟨found, hfound, supplied⟩ := h.supplies id listed
    · exact absurd inert live
    · cases finds.symm.trans hfound
      cases hsupplied : program.suppliedMember (program.member id) type with
      | error fault => rw [hsupplied] at supplied; cases supplied
      | ok pair =>
          rw [hsupplied] at hmem
          unfold StoreEntry.ofMarks at hmem
          rw [h.undirected id listed] at hmem
          simp only [List.map_nil, List.nil_append] at hmem
          split at hmem
          · cases hmem
          · rcases List.mem_cons.mp hmem with rfl | rest
            · show (program.identityOfMember id).declaringType = _
              rw [identityOfMember, declaringType_identityOf,
                (wellFormed.declares proxy has id listed).2]
            · rw [List.mem_singleton.mp rest]
              trivial

/-- **A plain proxy enters nothing but offers.** -/
theorem isOffer_of_mem_proxyEntries (h : program.IsPlainProxy proxy target)
    (wellFormed : program.WellFormed) (has : program.HasType proxy) :
    ∀ entry ∈ program.proxyEntries (program.type proxy), program.IsOffer proxy target entry := by
  intro entry hmem
  obtain ⟨inheritable, marks⟩ := h.marks
  have points : Mark.proxyOf? [.proxy target inheritable] = some (target, inheritable) := rfl
  unfold proxyEntries at hmem
  rw [marks, points] at hmem
  simp only at hmem
  split at hmem
  · cases hmem
  · cases hfind : program.findType? target with
    | none =>
        rw [hfind] at hmem
        rw [List.mem_singleton.mp hmem]
        exact ⟨rfl, hfind⟩
    | some type =>
        rw [hfind] at hmem
        rcases List.mem_append.mp hmem with itself | fromMembers
        · -- The mark of a proxy gives no directive.
          rw [List.mem_singleton.mp itself]
          trivial
        · obtain ⟨id, listed, hentry⟩ := List.mem_flatMap.mp fromMembers
          exact h.isOffer_of_mem_memberEntries wellFormed has hfind listed entry hentry

end IsPlainProxy

/-- A well-formed program gains a plain proxy that nothing in it refers to. -/
structure GainsPlainProxy (p q : Program) (proxy : TypeId) (target : TypeKey) : Prop
    extends p.GainsProxy q proxy target where
  plain : q.IsPlainProxy proxy target

namespace GainsPlainProxy

variable {p q : Program} {proxy : TypeId} {target : TypeKey}

/-! ### The new log -/

theorem select {β : Type} (h : p.GainsPlainProxy q proxy target) {select : StoreEntry → Option β}
    (passes : ∀ entry, q.IsOffer proxy target entry → select entry = none) :
    (Store.ofProgram q).entries.filterMap select
      = (Store.ofProgram p).entries.filterMap select :=
  h.toGainsProxy.select fun entry hmem =>
    passes entry (h.plain.isOffer_of_mem_proxyEntries h.after h.hasProxy entry hmem)

theorem directivesFor (h : p.GainsPlainProxy q proxy target) {symbol : Identity}
    (other : symbol.declaringType ≠ some (q.type proxy).key) :
    (Store.ofProgram q).directivesFor symbol = (Store.ofProgram p).directivesFor symbol := by
  rw [Store.directivesFor_eq, Store.directivesFor_eq]
  refine h.select fun entry offer => ?_
  cases entry with
  | directive identity given =>
      refine if_neg fun same => other ?_
      rw [← same]
      exact offer
  | candidate _ _ | proxy _ _ | fault _ => rfl

theorem errorFor? (h : p.GainsPlainProxy q proxy target) (type : TypeId) (name : String) :
    (Store.ofProgram q).errorFor? type name = (Store.ofProgram p).errorFor? type name := by
  rw [Store.errorFor?_eq, Store.errorFor?_eq, h.select fun entry offer => ?_]
  cases entry with
  | fault fault =>
      refine if_neg fun same => ?_
      cases offer.1.symm.trans same
  | directive _ _ | candidate _ _ | proxy _ _ => rfl

/-- If its target is loaded, nothing is wrong with the proxy. -/
theorem faults (h : p.GainsPlainProxy q proxy target) (loaded : q.findType? target ≠ none) :
    (Store.ofProgram q).faults = (Store.ofProgram p).faults := by
  rw [Store.faults_eq, Store.faults_eq]
  refine h.select fun entry offer => ?_
  cases entry with
  | fault fault => exact absurd offer.2 loaded
  | directive _ _ | candidate _ _ | proxy _ _ => rfl

theorem mem_candidatesFor (h : p.GainsPlainProxy q proxy target) {signature : Identity}
    {candidate : ProxyCandidate}
    (hmem : candidate ∈ (Store.ofProgram p).candidatesFor signature) :
    candidate ∈ (Store.ofProgram q).candidatesFor signature := by
  rw [Store.candidatesFor_eq, List.mem_filterMap] at hmem ⊢
  obtain ⟨entry, hentry, selected⟩ := hmem
  exact ⟨entry, h.mem_entries hentry, selected⟩

end GainsPlainProxy

end Program

/-! ### Outcomes that only get better -/

/-- What was translatable is translatable, and what was refused is refused as it was. -/
structure Helps (old new : Except ConfigurationError Outcome) : Prop where
  translatable : ∀ outcome, old = .ok outcome → outcome.isTranslatable = true →
    ∃ better, new = .ok better ∧ better.isTranslatable = true
  refused : ∀ diagnostic, old = .ok (.refused diagnostic) → new = .ok (.refused diagnostic)

theorem Helps.refl (outcome : Except ConfigurationError Outcome) : Helps outcome outcome :=
  ⟨fun same h translatable => ⟨same, h, translatable⟩, fun _ h => h⟩

/-- So what was not unimplemented is not. -/
theorem Helps.implemented {old new : Except ConfigurationError Outcome} (h : Helps old new)
    {outcome : Outcome} (decided : old = .ok outcome)
    (implemented : ∀ diagnostic, outcome ≠ .unimplemented diagnostic) :
    ∃ better, new = .ok better ∧ ∀ diagnostic, better ≠ .unimplemented diagnostic := by
  cases outcome with
  | unimplemented diagnostic => exact absurd rfl (implemented diagnostic)
  | refused diagnostic => exact ⟨_, h.refused diagnostic decided, nofun⟩
  | own | proxy _ | replaced _ =>
      obtain ⟨better, hbetter, translatable⟩ := h.translatable _ decided rfl
      refine ⟨better, hbetter, fun diagnostic same => ?_⟩
      rw [same] at translatable
      cases translatable

namespace Resolver

theorem implementation_of_findProxy {resolver : Resolver} {id : MemberId}
    {found : Option ProxyBody}
    (ends : resolver.findProxy (resolver.program.member id).declaringType
      (resolver.program.identityOfMember id) = .ok found) :
    resolver.implementation id = .ok (found.elim (resolver.ownOutcome id) .proxy) := by
  unfold Resolver.implementation
  cases found with
  | some body => simp only [ends]; rfl
  | none => simp only [ends]; rfl

theorem isTranslatable_ownOutcome (resolver : Resolver) (id : MemberId) :
    (resolver.ownOutcome id).isTranslatable
      = (!resolver.isMemberExternal id && resolver.hasUsableBody (resolver.program.member id)) := by
  unfold Resolver.ownOutcome
  cases !resolver.isMemberExternal id && resolver.hasUsableBody (resolver.program.member id) <;> rfl

theorem ownOutcome_ne_refused (resolver : Resolver) (id : MemberId)
    (diagnostic : ReferenceDiagnostic) : resolver.ownOutcome id ≠ .refused diagnostic := by
  unfold Resolver.ownOutcome
  split <;> exact nofun

/-- The program of a resolver gains a plain proxy, and the limit on chains stays. -/
structure GainsPlainProxy (r s : Resolver) (proxy : TypeId) (target : TypeKey) : Prop
    extends r.program.GainsPlainProxy s.program proxy target where
  maxDepth : s.maxDepth = r.maxDepth

namespace GainsPlainProxy

variable {r s : Resolver} {proxy : TypeId} {target : TypeKey} {type : TypeId}

/-! ### What stays -/

theorem sameDirectives (h : r.GainsPlainProxy s proxy target) : r.SameDirectives s where
  extend := h.extend
  types id has := by
    unfold Resolver.typeDirectives
    rw [s.store_eq, r.store_eq, h.extend.identityOfType has]
    exact h.directivesFor (Option.some_ne_none _).symm
  members id has := by
    unfold Resolver.memberDirectives
    rw [s.store_eq, r.store_eq, h.extend.identityOfMember has]
    refine h.directivesFor fun declared => ?_
    rw [Program.identityOfMember, Program.declaringType_identityOf] at declared
    exact h.key_ne (h.before.declaringType id has) (Option.some.inj declared)

theorem namesOn (h : r.GainsPlainProxy s proxy target) (has : r.program.HasType type) :
    r.NamesOn s type :=
  h.sameDirectives.namesOn has

theorem agreesInside (h : r.GainsPlainProxy s proxy target) (has : r.program.HasType type) :
    r.AgreesInside s type :=
  h.sameDirectives.agreesInside has fun id hmem => by
    rw [h.members id (h.before.declares type has id hmem).1]

/-! ### What a search finds -/

theorem supplierAt? (h : r.GainsPlainProxy s proxy target) (has : r.program.HasType type)
    {atStart : Bool} {signature : Identity}
    (found : (r.supplierAt? atStart signature type).isSome = true) :
    (s.supplierAt? atStart signature type).isSome = true := by
  unfold Resolver.supplierAt? at found ⊢
  rw [List.find?_isSome] at found ⊢
  obtain ⟨candidate, hmem, counts⟩ := found
  rw [r.store_eq] at hmem
  rw [s.store_eq, h.extend.key has]
  exact ⟨candidate, h.mem_candidatesFor hmem, counts⟩

/-- A search that ended well still does, and with a body if it did so before. -/
theorem findProxyAlong (h : r.GainsPlainProxy s proxy target) {signature : Identity}
    {chain : List TypeId} (known : ∀ type ∈ chain, r.program.HasType type) :
    ∀ {atStart : Bool} {found : Option ProxyBody},
      r.findProxyAlong signature atStart chain = .ok found →
      ∃ better, s.findProxyAlong signature atStart chain = .ok better
        ∧ (found.isSome = true → better.isSome = true) := by
  induction chain with
  | nil =>
      rintro atStart found ⟨⟩
      exact ⟨none, rfl, id⟩
  | cons type rest ih =>
      intro atStart found ends
      have has := known type List.mem_cons_self
      have errors : s.store.errorFor? type signature.name.text
          = r.store.errorFor? type signature.name.text := by
        rw [s.store_eq, r.store_eq, h.errorFor?]
      unfold Resolver.findProxyAlong at ends ⊢
      rw [errors]
      cases herror : r.store.errorFor? type signature.name.text with
      | some error => rw [herror] at ends; cases ends
      | none =>
          rw [herror] at ends
          simp only at ends ⊢
          cases hnew : s.supplierAt? atStart signature type with
          | some candidate => exact ⟨some candidate.proxyBody, rfl, fun _ => rfl⟩
          | none =>
              cases hold : r.supplierAt? atStart signature type with
              | some candidate =>
                  have gone : (s.supplierAt? atStart signature type).isSome = true :=
                    h.supplierAt? has (by rw [hold]; rfl)
                  rw [hnew] at gone
                  cases gone
              | none =>
                  rw [hold] at ends
                  exact ih (fun other hmem => known other (List.mem_cons_of_mem _ hmem)) ends

theorem findProxy (h : r.GainsPlainProxy s proxy target) (has : r.program.HasType type)
    {signature : Identity} {found : Option ProxyBody}
    (ends : r.findProxy type signature = .ok found) :
    ∃ better, s.findProxy type signature = .ok better
      ∧ (found.isSome = true → better.isSome = true) := by
  have chained : s.chain type = r.chain type := by
    unfold Resolver.chain
    rw [h.maxDepth, h.extend.chain r.maxDepth has]
  obtain ⟨chain, hchain, ends⟩ := bind_eq_ok_iff.mp ends
  obtain ⟨lineage, -⟩ := Program.chain_eq_ok_iff.mp hchain
  unfold Resolver.findProxy
  rw [chained, hchain]
  exact h.findProxyAlong (lineage.hasType h.before has) ends

/-! ### Decisions -/

theorem implementation (h : r.GainsPlainProxy s proxy target) {id : MemberId}
    (has : r.program.HasMember id) : Helps (r.implementation id) (s.implementation id) := by
  have hasType := h.before.declaringType id has
  have agrees := h.agreesInside hasType
  have hmem := h.before.listed id has
  refine ⟨fun outcome decided translatable => ?_, fun diagnostic decided => ?_⟩
  · obtain ⟨found, hfound, -⟩ := bind_eq_ok_iff.mp decided
    rw [implementation_of_findProxy hfound] at decided
    obtain ⟨better, hbetter, keeps⟩ := h.findProxy hasType hfound
    rw [← h.extend.declaringType has, ← h.extend.identityOfMember has] at hbetter
    refine ⟨_, implementation_of_findProxy hbetter, ?_⟩
    cases better with
    | some body => rfl
    | none =>
        cases found with
        | some body => cases keeps rfl
        | none =>
            -- The own body was used, and can still be.
            cases decided
            rw [Option.elim_none, isTranslatable_ownOutcome] at translatable ⊢
            rw [agrees.isMemberExternal hmem, agrees.hasUsableBody hmem, translatable]
  · obtain ⟨found, hfound, -⟩ := bind_eq_ok_iff.mp decided
    rw [implementation_of_findProxy hfound] at decided
    cases found with
    | some body => cases decided
    | none => exact absurd (Except.ok.inj decided) (r.ownOutcome_ne_refused id diagnostic)

/-- Whatever is decided by the last rules, the first two go before it as they did. -/
theorem unlessOverridden (h : r.GainsPlainProxy s proxy target) {id : MemberId}
    (has : r.program.HasMember id) {old new : Except ConfigurationError Outcome}
    (helps : Helps old new) :
    Helps (r.unlessOverridden id old) (s.unlessOverridden id new) := by
  have agrees := h.agreesInside (h.before.declaringType id has)
  have refusal : s.program.refusedMember id = r.program.refusedMember id :=
    h.extend.refusedMember has (by rw [h.members id has])
  rw [agrees.unlessOverridden (h.before.listed id has) fun _ => refusal]
  unfold Resolver.unlessOverridden
  split
  · exact .refl _
  · split
    · exact .refl _
    · exact helps

theorem firstUnimplemented (h : r.GainsPlainProxy s proxy target) {accessors : List MemberId}
    (known : ∀ id ∈ accessors, r.program.HasMember id) {outcome : Outcome}
    (decided : r.firstUnimplemented accessors = .ok outcome)
    (implemented : ∀ diagnostic, outcome ≠ .unimplemented diagnostic) :
    s.firstUnimplemented accessors = .ok outcome := by
  induction accessors with
  | nil => exact decided
  | cons accessor rest ih =>
      have has := known accessor List.mem_cons_self
      have further := ih fun other hmem => known other (List.mem_cons_of_mem _ hmem)
      unfold Resolver.firstUnimplemented at decided ⊢
      split at decided
      · cases decided
      · cases decided
        exact absurd rfl (implemented _)
      · rename_i passed notStuck hpassed
        have helps : Helps (r.classifyCallable accessor) (s.classifyCallable accessor) :=
          h.unlessOverridden has (h.implementation has)
        obtain ⟨better, hbetter, goesOn⟩ := helps.implemented hpassed notStuck
        rw [hbetter]
        split
        · cases ‹Except.ok _ = .error _›
        · cases ‹Except.ok _ = .ok _›
          exact absurd rfl (goesOn _)
        · exact further decided

theorem ownerOutcome (h : r.GainsPlainProxy s proxy target) {id : MemberId}
    (has : r.program.HasMember id) : Helps (r.ownerOutcome id) (s.ownerOutcome id) := by
  have agrees := h.agreesInside (h.before.declaringType id has)
  unfold Resolver.ownerOutcome
  rw [agrees.isMemberExternal (h.before.listed id has), h.extend.accessors has]
  split
  · have known : ∀ accessor ∈ (r.program.member id).accessors, r.program.HasMember accessor :=
      fun accessor hmem => (h.before.accessors id has accessor hmem).known
    refine ⟨fun outcome decided translatable => ⟨outcome, ?_, translatable⟩,
      fun diagnostic decided => h.firstUnimplemented known decided nofun⟩
    refine h.firstUnimplemented known decided fun diagnostic same => ?_
    rw [same] at translatable
    cases translatable
  · exact .refl _

/-- **Every member that was there is helped.** -/
theorem classifyMember (h : r.GainsPlainProxy s proxy target) {id : MemberId}
    (has : r.program.HasMember id) : Helps (r.classifyMember id) (s.classifyMember id) := by
  refine h.unlessOverridden has ?_
  rw [h.extend.kind has]
  cases (r.program.member id).kind with
  | field => exact .refl _
  | property | event => exact h.ownerOutcome has
  | method | constructor | operator => exact h.implementation has

/-- What was translatable stays so under its name. -/
theorem resolveMember_of_translatable (h : r.GainsPlainProxy s proxy target) {id : MemberId}
    (has : r.program.HasMember id) {resolved : ResolvedMember}
    (resolves : r.resolveMember id = .ok resolved)
    (translatable : resolved.outcome.isTranslatable = true) :
    ∃ better, s.resolveMember id = .ok better ∧ better.outcome.isTranslatable = true
      ∧ better.identifier = resolved.identifier := by
  obtain ⟨outcome, decided, ⟨⟩⟩ := bind_eq_ok_iff.mp resolves
  obtain ⟨better, hbetter, fares⟩ :=
    (h.classifyMember has).translatable outcome decided translatable
  refine ⟨_, bind_eq_ok_iff.mpr ⟨better, hbetter, rfl⟩, fares, ?_⟩
  exact (h.namesOn (h.before.declaringType id has)).memberName (h.before.listed id has)

theorem resolveMember_of_refused (h : r.GainsPlainProxy s proxy target) {id : MemberId}
    (has : r.program.HasMember id) {resolved : ResolvedMember}
    (resolves : r.resolveMember id = .ok resolved) {diagnostic : ReferenceDiagnostic}
    (refused : resolved.outcome = .refused diagnostic) : s.resolveMember id = .ok resolved := by
  obtain ⟨outcome, decided, ⟨⟩⟩ := bind_eq_ok_iff.mp resolves
  cases refused
  have names := h.namesOn (h.before.declaringType id has)
  unfold Resolver.resolveMember
  rw [(h.classifyMember has).refused diagnostic decided, h.extend.identityOfMember has,
    names.memberName (h.before.listed id has)]
  rfl

end GainsPlainProxy

end Resolver

namespace Session

/-- **Plain proxies only help.**  If a program gets a top-level proxy type whose name no type
of it has for its base or target, and the proxy carries no other mark, its members give no
directives and each of them that takes part supplies a member of the target, then in sessions
of the two programs, whatever they were asked before, every member that was translatable is
translatable under the same name, and every member that was refused is refused as before.  No
configuration error comes up, if the target is loaded. -/
theorem plain_proxy_only_helps {p q : Program} (built : p.Buildable) (rebuilt : q.Buildable)
    {proxy : TypeId} {target : TypeKey} (appends : p.AppendsType q proxy)
    (plain : q.IsPlainProxy proxy target) (unknown : ¬p.RefersTo (q.type proxy).key)
    (options : Options) {asked askedNew : List Query} (fits : ∀ query ∈ asked, query.Fits p)
    (fitsNew : ∀ query ∈ askedNew, query.Fits q) :
    let old := (start p options).after asked
    let new := (start q options).after askedNew
    (∀ id, p.HasMember id → ∀ resolved, (old.answer (Ask.resolveMember id)).1 = .ok resolved →
        (resolved.outcome.isTranslatable = true →
          ∃ better, (new.answer (Ask.resolveMember id)).1 = .ok better
            ∧ better.outcome.isTranslatable = true ∧ better.identifier = resolved.identifier)
        ∧ ∀ diagnostic, resolved.outcome = .refused diagnostic →
          (new.answer (Ask.resolveMember id)).1 = .ok resolved)
      ∧ (q.findType? target ≠ none →
        (Store.ofProgram q).configurationErrors = (Store.ofProgram p).configurationErrors) := by
  intro old new
  have gains : p.GainsPlainProxy q proxy target :=
    ⟨⟨appends, built.wellFormed, rebuilt.wellFormed, plain.points, unknown⟩, plain⟩
  have h : (start p options).resolver.GainsPlainProxy (start q options).resolver proxy target :=
    ⟨gains, rfl⟩
  refine ⟨fun id has resolved resolves => ?_, fun loaded => ?_⟩
  · rw [answer_resolveMember_after built.wellFormed options fits has] at resolves
    rw [answer_resolveMember_after rebuilt.wellFormed options fitsNew (h.extend.hasMember id has)]
    exact ⟨h.resolveMember_of_translatable has resolves,
      fun diagnostic => h.resolveMember_of_refused has resolves⟩
  · unfold Store.configurationErrors
    rw [gains.faults loaded]

/-- A door that a proxy opens and nothing locks, whose bell is ignored, and a gate that derives
from it. -/
def openedDoor : List Edit :=
  [.addAssembly "Lib",
   .addType ⟨0⟩ { name := "Lib.Door", kind := .classType },
   .addMember ⟨0⟩ ((MemberDecl.method "Open").withBody .absent),
   .addMember ⟨0⟩ ((MemberDecl.method "Lock").withBody .absent),
   .addMember ⟨0⟩ ((MemberDecl.method "Ring").marked .ignore),
   .addType ⟨0⟩ { name := "Lib.Gate", kind := .classType, base := some ⟨"Lib.Door"⟩ },
   .addMember ⟨1⟩ ((MemberDecl.method "Open").withBody .absent),
   .addType ⟨0⟩ { name := "Ext.Door", kind := .classType, marks := [.proxy ⟨"Lib.Door"⟩ true] },
   .addMember ⟨2⟩ (.method "Open")]

/-- Another proxy for the door, registered before the first, for every method of it. -/
def doorKeeper : List Edit :=
  [.addType ⟨0⟩ { name := "Add.Door", kind := .classType, marks := [.proxy ⟨"Lib.Door"⟩ true] },
   .addMember ⟨3⟩ (.method "Open"),
   .addMember ⟨3⟩ ((MemberDecl.method "Shut").marked (.proxyTarget "Lock")),
   .addMember ⟨3⟩ (.method "Ring")]

/-- The gate is opened by another proxy, the door is locked now, and the bell stays refused. -/
theorem plain_proxy_only_helps_doorKeeper :
    let p := Program.afterEdits {} openedDoor
    let q := Program.afterEdits p doorKeeper
    let options : Options := {}
    let old := (start p options).after [.member ⟨1⟩]
    let new := (start q options).after [.type ⟨0⟩, .member ⟨3⟩]
    let gate : ResolvedMember :=
      ⟨⟨3⟩, p.identityOfMember ⟨3⟩, "Open", .proxy ⟨⟨4⟩, ⟨2⟩, ⟨0⟩, .replaceBody⟩⟩
    let bell : ResolvedMember :=
      ⟨⟨2⟩, p.identityOfMember ⟨2⟩, "Ring", .refused (p.refusedMember ⟨2⟩)⟩
    (p.Buildable ∧ q.Buildable ∧ p.AppendsType q ⟨3⟩ ∧ q.IsPlainProxy ⟨3⟩ ⟨"Lib.Door"⟩
        ∧ ¬p.RefersTo (q.type ⟨3⟩).key
        ∧ (old.answer (Ask.resolveMember ⟨3⟩)).1 = .ok gate
        ∧ (old.answer (Ask.resolveMember ⟨2⟩)).1 = .ok bell)
      ∧ ((∃ better, (new.answer (Ask.resolveMember ⟨3⟩)).1 = .ok better
          ∧ better.outcome.isTranslatable = true ∧ better.identifier = "Open")
        ∧ (new.answer (Ask.resolveMember ⟨2⟩)).1 = .ok bell
        ∧ (Store.ofProgram q).configurationErrors = (Store.ofProgram p).configurationErrors)
      ∧ (new.answer (Ask.resolveMember ⟨3⟩)).1.toOption.map (·.outcome)
          = some (.proxy ⟨⟨5⟩, ⟨3⟩, ⟨0⟩, .replaceBody⟩)
      ∧ (old.answer (Ask.resolveMember ⟨1⟩)).1.toOption.map (·.outcome.label)
          = some .unimplemented
      ∧ (new.answer (Ask.resolveMember ⟨1⟩)).1.toOption.map (·.outcome)
          = some (.proxy ⟨⟨6⟩, ⟨3⟩, ⟨1⟩, .replaceBody⟩) := by
  intro p q options old new gate bell
  have built : p.Buildable := Program.Buildable.empty.afterEdits (by decide)
  have rebuilt : q.Buildable := built.afterEdits (by decide +kernel)
  have count : p.types.size = 3 := by decide +kernel
  have appends : p.AppendsType q ⟨3⟩ := by
    rw [← count]
    exact p.appendsType_afterEdits (by decide +kernel) (by decide +kernel)
  have supplies : ∀ id ∈ (q.type ⟨3⟩).members,
      (q.suppliedMember (q.member id) ⟨0⟩).isOk = true := by decide +kernel
  have plain : q.IsPlainProxy ⟨3⟩ ⟨"Lib.Door"⟩ :=
    ⟨⟨true, by decide +kernel⟩, by decide +kernel,
      fun id listed => .inr ⟨⟨0⟩, by decide +kernel, supplies id listed⟩⟩
  have unknown : ¬p.RefersTo (q.type ⟨3⟩).key := by decide +kernel
  have fits : ∀ query ∈ [Query.member ⟨1⟩], query.Fits p := by decide +kernel
  have fitsNew : ∀ query ∈ [Query.type ⟨0⟩, .member ⟨3⟩], query.Fits q := by decide +kernel
  have gateOpens : (old.answer (Ask.resolveMember ⟨3⟩)).1 = .ok gate := by decide +kernel
  have bellRefused : (old.answer (Ask.resolveMember ⟨2⟩)).1 = .ok bell := by decide +kernel
  obtain ⟨members, errors⟩ :=
    plain_proxy_only_helps built rebuilt appends plain unknown options fits fitsNew
  refine ⟨⟨built, rebuilt, appends, plain, unknown, gateOpens, bellRefused⟩,
    ⟨?_, ?_, errors (by decide +kernel)⟩, ?_, ?_, ?_⟩
  · exact (members ⟨3⟩ (by decide +kernel) gate gateOpens).1 rfl
  · exact (members ⟨2⟩ (by decide +kernel) bell bellRefused).2 _ rfl
  all_goals decide +kernel

end Session

end MemberResolution
