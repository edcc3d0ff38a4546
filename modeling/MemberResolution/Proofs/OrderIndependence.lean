/-
The order of declarations does not matter.

Of two programs that differ in order alone, a session answers the same: the positions in
an answer are renumbered, and nothing else about it changes.  That holds question by
question, through every conversation.

Told by name, so with every position replaced by the identity that stands at it, the
answers are equal.  A renumbering keeps the identities of what is loaded, and all that an
answer speaks of is: a resolved member is one that was found, and the proxy in its outcome
was a candidate, so its proxy type, its member and the target are loaded too.
-/
import Mathlib.Logic.Equiv.Basic
import MemberResolution.Proofs.ChosenBody
import MemberResolution.Proofs.Conversation
import MemberResolution.Proofs.RenumberedResolver

namespace MemberResolution

/-! ### Renumbered conversations -/

namespace Renumbering

variable (ρ : Renumbering)

/-- A question with the positions it speaks of renumbered. -/
def onQuery : Query → Query
  | .member id => .member (ρ.member id)
  | .identified identity => .identified identity
  | .type id => .type (ρ.type id)
  | .dispatch receiver signature => .dispatch (ρ.type receiver) signature
  | .reference id => .reference (ρ.member id)
  | .invocation id => .invocation (ρ.member id)
  | .typeReference id => .typeReference (ρ.type id)
  | .typeCheck id => .typeCheck (ρ.type id)
  | .fieldEmission id => .fieldEmission (ρ.member id)
  | .invalidate => .invalidate

/-- An answer with all positions in it renumbered. -/
def onAnswer : Answer → Answer
  | .member resolved => .member (ρ.onResolvedMember resolved)
  | .perhapsMember resolved => .perhapsMember (resolved.map ρ.onResolvedMember)
  | .type resolved => .type (ρ.onResolvedType resolved)
  | .access access => .access access
  | .typeCheck check => .typeCheck check
  | .fieldEmission emission => .fieldEmission emission
  | .done => .done

theorem reference_onResolvedMember (resolved : ResolvedMember) (complete : Bool) :
    (ρ.onResolvedMember resolved).reference complete = resolved.reference complete := by
  obtain ⟨id, identity, identifier, outcome⟩ := resolved
  cases outcome with
  | unimplemented diagnostic => cases diagnostic <;> rfl
  | _ => rfl

theorem invocation_onResolvedMember (resolved : ResolvedMember) (complete : Bool) :
    (ρ.onResolvedMember resolved).invocation complete = resolved.invocation complete := by
  obtain ⟨id, identity, identifier, outcome⟩ := resolved
  cases outcome <;> rfl

end Renumbering

/-- Whether all positions a question speaks of belong to the program, a receiver
included. -/
def Query.Loaded (program : Program) : Query → Prop
  | .dispatch receiver _ => program.HasType receiver
  | query => query.Fits program

theorem Query.Loaded.fits {program : Program} {query : Query} (h : query.Loaded program) :
    query.Fits program := by
  cases query with
  | dispatch => trivial
  | _ => exact h

namespace Renumbering

variable {ρ : Renumbering} {p q : Program} {r s : Resolver}

theorem Carries.loaded (h : ρ.Carries p q) {query : Query} (loaded : query.Loaded p) :
    (ρ.onQuery query).Loaded q := by
  cases query with
  | member | reference | invocation | fieldEmission => exact (h.hasMember _).mpr loaded
  | type | typeReference | typeCheck | dispatch => exact (h.hasType _).mpr loaded
  | identified | invalidate => trivial

namespace Matches

theorem resolveFound (h : ρ.Matches r s) {found : Option MemberId}
    (has : ∀ id, found = some id → r.program.HasMember id) :
    s.resolveFound (found.map ρ.member)
      = (r.resolveFound found).map (Option.map ρ.onResolvedMember) := by
  cases found with
  | none => rfl
  | some id =>
      show some <$> s.resolveMember (ρ.member id) = (some <$> r.resolveMember id).map _
      rw [h.resolveMember (has id rfl)]
      cases r.resolveMember id <;> rfl

/-- A question gets the same answer, renumbered. -/
theorem respond (h : ρ.Matches r s) (complete : Bool) {query : Query}
    (loaded : query.Loaded r.program) :
    s.respond complete (ρ.onQuery query) = (r.respond complete query).map ρ.onAnswer := by
  cases query with
  | member id =>
      show Answer.member <$> s.resolveMember (ρ.member id) = _
      rw [h.resolveMember loaded, Resolver.respond]
      cases r.resolveMember id <;> rfl
  | identified identity =>
      show Answer.perhapsMember <$> s.resolveFound (s.program.findMember? identity) = _
      rw [h.findMember?, h.resolveFound fun id hfound =>
        (h.before.findMember?_eq_some_iff.mp hfound).1, Resolver.respond]
      cases r.resolveFound (r.program.findMember? identity) <;> rfl
  | type id =>
      show Except.ok (Answer.type (s.resolveType (ρ.type id))) = _
      rw [h.resolveType loaded]
      rfl
  | dispatch receiver signature =>
      show Answer.perhapsMember <$> (s.findDeclaration (ρ.type receiver) signature
        >>= s.resolveFound) = _
      rw [h.findDeclaration loaded, Resolver.respond]
      cases hfound : r.findDeclaration receiver signature with
      | error error => rfl
      | ok found =>
          show Answer.perhapsMember <$> s.resolveFound (found.map ρ.member)
            = (Answer.perhapsMember <$> r.resolveFound found).map ρ.onAnswer
          rw [h.resolveFound]
          · cases r.resolveFound found <;> rfl
          · rintro id rfl
            exact Resolver.hasMember_of_findDeclaration h.before hfound
  | reference id =>
      show Answer.access <$> (·.reference complete) <$> s.resolveMember (ρ.member id) = _
      rw [h.resolveMember loaded, Resolver.respond]
      cases r.resolveMember id with
      | error error => rfl
      | ok resolved =>
          exact congrArg (Except.ok ∘ Answer.access)
            (ρ.reference_onResolvedMember resolved complete)
  | invocation id =>
      show Answer.access <$> (·.invocation complete) <$> s.resolveMember (ρ.member id) = _
      rw [h.resolveMember loaded, Resolver.respond]
      cases r.resolveMember id with
      | error error => rfl
      | ok resolved =>
          exact congrArg (Except.ok ∘ Answer.access)
            (ρ.invocation_onResolvedMember resolved complete)
  | typeReference id =>
      show Except.ok (Answer.access ((s.resolveType (ρ.type id)).access complete)) = _
      rw [h.resolveType loaded]
      rfl
  | typeCheck id =>
      have hkind : (s.program.type (ρ.type id)).kind = (r.program.type id).kind :=
        h.read_type loaded (·.kind) fun _ _ => rfl
      show Except.ok (Answer.typeCheck
        ((s.resolveType (ρ.type id)).check (s.program.type (ρ.type id)).kind complete)) = _
      rw [h.resolveType loaded, hkind]
      rfl
  | fieldEmission id =>
      show Answer.fieldEmission <$> (s.fieldEmission (ρ.member id) ·.outcome)
        <$> s.resolveMember (ρ.member id) = _
      rw [h.resolveMember loaded, Resolver.respond]
      cases r.resolveMember id with
      | error error => rfl
      | ok resolved =>
          exact congrArg (Except.ok ∘ Answer.fieldEmission)
            (h.fieldEmission loaded resolved.outcome)
  | invalidate => rfl

end Matches

end Renumbering

namespace Session

variable {ρ : Renumbering} {p q : Program}

theorem matches_start (h : ρ.Carries p q) (options : Options) :
    ρ.Matches (start p options).resolver (start q options).resolver :=
  ⟨h, rfl⟩

/-- **Every conversation about the new order is one about the old, renumbered.** -/
theorem answers_renumbered (h : ρ.Carries p q) (options : Options) {queries : List Query}
    (loaded : ∀ query ∈ queries, query.Loaded p) :
    (start q options).answers (queries.map ρ.onQuery)
      = ((start p options).answers queries).map (Except.map ρ.onAnswer) := by
  have fits : ∀ query ∈ queries, query.Fits p := fun query hquery => (loaded query hquery).fits
  have fitsNew : ∀ query ∈ queries.map ρ.onQuery, query.Fits q := by
    intro query hquery
    obtain ⟨old, hold, rfl⟩ := List.mem_map.mp hquery
    exact (h.loaded (loaded old hold)).fits
  rw [answers_eq_map (sound_start h.after options) fitsNew,
    answers_eq_map (sound_start h.before options) fits, List.map_map, List.map_map]
  refine List.map_congr_left fun query hquery => ?_
  exact (matches_start h options).respond _ (loaded query hquery)

end Session

/-! ### Answers by name -/

/-- A proxy body, told by name. -/
structure NamedBody where
  member : Identity
  proxyType : Identity
  target : Identity
  mode : ProxyMode
  deriving DecidableEq, Repr

/-- An outcome, told by name. -/
inductive NamedOutcome where
  | own
  | proxy (body : NamedBody)
  | replaced (expression : String)
  | unimplemented (diagnostic : ReferenceDiagnostic)
  | refused (diagnostic : ReferenceDiagnostic)
  deriving DecidableEq, Repr

/-- What an identity resolves to, told by name. -/
inductive Resolution where
  | member (member identity : Identity) (identifier : String) (outcome : NamedOutcome)
  | type (type : Identity) (identifier qualifiedName reference : String) (outcome : TypeOutcome)
  deriving DecidableEq, Repr

namespace Program

variable (program : Program)

def namedBody (body : ProxyBody) : NamedBody where
  member := program.identityOfMember body.member
  proxyType := program.identityOfType body.proxyType
  target := program.identityOfMember body.target
  mode := body.mode

def namedOutcome : Outcome → NamedOutcome
  | .own => .own
  | .proxy body => .proxy (program.namedBody body)
  | .replaced expression => .replaced expression
  | .unimplemented diagnostic => .unimplemented diagnostic
  | .refused diagnostic => .refused diagnostic

def namedMember (resolved : ResolvedMember) : Resolution :=
  .member (program.identityOfMember resolved.member) resolved.identity resolved.identifier
    (program.namedOutcome resolved.outcome)

def namedType (resolved : ResolvedType) : Resolution :=
  .type (program.identityOfType resolved.type) resolved.identifier resolved.qualifiedName
    resolved.reference resolved.outcome

/-- All that a proxy body speaks of is loaded. -/
structure HasBody (body : ProxyBody) : Prop where
  member : program.HasMember body.member
  proxyType : program.HasType body.proxyType
  target : program.HasMember body.target

end Program

/-- What a session answers about the symbol with an identity, if there is one, told by
name.  Of the identity of a type only the name counts. -/
def Session.resolution (session : Session) (identity : Identity) :
    Except ConfigurationError (Option Resolution) :=
  let program := session.resolver.program
  if identity.isType then
    match program.findType? ⟨identity.name.text⟩ with
    | some id => (session.answer (Ask.resolveType id)).1.map fun type => program.namedType type
    | none => .ok none
  else (session.answer (Ask.resolveIdentity identity)).1.map (Option.map program.namedMember)

/-! ### Proxies that are found are loaded -/

namespace Resolver

variable {resolver : Resolver}

theorem hasBody_of_classifyMember (h : resolver.program.WellFormed) {id : MemberId}
    (has : resolver.program.HasMember id) {body : ProxyBody}
    (chosen : resolver.classifyMember id = .ok (.proxy body)) :
    resolver.program.HasBody body := by
  obtain ⟨ancestor, hasAncestor, eligible⟩ := eligible_of_classifyMember h has chosen
  exact ⟨(h.declares _ eligible.known _ eligible.declared).1, eligible.known,
    (h.declares _ hasAncestor _ eligible.supplies.mem).1⟩

end Resolver

/-! ### Independence -/

namespace Renumbering

variable {ρ : Renumbering} {p q : Program}

theorem Carries.namedBody (h : ρ.Carries p q) {body : ProxyBody} (has : p.HasBody body) :
    q.namedBody (ρ.onBody body) = p.namedBody body := by
  unfold Program.namedBody onBody
  rw [h.identityOfMember has.member, h.identityOfType has.proxyType, h.identityOfMember has.target]

theorem Carries.namedOutcome (h : ρ.Carries p q) {outcome : Outcome}
    (has : ∀ body, outcome = .proxy body → p.HasBody body) :
    q.namedOutcome (ρ.onOutcome outcome) = p.namedOutcome outcome := by
  cases outcome with
  | proxy body => exact congrArg NamedOutcome.proxy (h.namedBody (has body rfl))
  | _ => rfl

theorem Matches.namedMember {r s : Resolver} (h : ρ.Matches r s) {id : MemberId}
    (has : r.program.HasMember id) :
    (s.resolveMember (ρ.member id)).map s.program.namedMember
      = (r.resolveMember id).map r.program.namedMember := by
  rw [h.resolveMember has]
  unfold Resolver.resolveMember
  cases hclass : r.classifyMember id with
  | error error => rfl
  | ok outcome =>
      have named : s.program.namedOutcome (ρ.onOutcome outcome)
          = r.program.namedOutcome outcome := by
        refine h.namedOutcome fun body hbody => ?_
        rw [hbody] at hclass
        exact Resolver.hasBody_of_classifyMember h.before has hclass
      refine congrArg Except.ok ?_
      unfold Program.namedMember onResolvedMember
      rw [h.identityOfMember has, named]

theorem Matches.namedType {r s : Resolver} (h : ρ.Matches r s) {id : TypeId}
    (has : r.program.HasType id) :
    s.program.namedType (s.resolveType (ρ.type id)) = r.program.namedType (r.resolveType id) := by
  rw [h.resolveType has]
  exact congrArg (Resolution.type · (r.typeName id) (r.qualifiedName id) (r.typeReference id)
    (r.classifyType id)) (h.identityOfType has)

end Renumbering

namespace Session

variable {ρ : Renumbering}

theorem map_found {α β : Type} (value : Except ConfigurationError α) (name : α → β) :
    (some <$> value).map (Option.map name) = (value.map name).map some := by
  cases value <;> rfl

/-- Two sessions that keep nothing false agree on every identity. -/
theorem resolution_eq {old new : Session} (hold : old.Sound) (hnew : new.Sound)
    (h : ρ.Matches old.resolver new.resolver) (identity : Identity) :
    new.resolution identity = old.resolution identity := by
  unfold resolution
  simp only
  split
  · rw [h.findType?]
    cases hfind : old.resolver.program.findType? ⟨identity.name.text⟩ with
    | none => rfl
    | some id =>
        have has := (h.before.findType?_eq_some_iff.mp hfind).1
        simp only [Option.map_some]
        rw [(answers_resolveType hold has).value,
          (answers_resolveType hnew ((h.hasType id).mpr has)).value]
        exact congrArg (Except.ok ∘ some) (h.namedType has)
  · rw [(answers_resolveIdentity hold identity).value,
      (answers_resolveIdentity hnew identity).value, h.findMember?]
    cases hfind : old.resolver.program.findMember? identity with
    | none => rfl
    | some id =>
        have named := h.namedMember (h.before.findMember?_eq_some_iff.mp hfind).1
        show (some <$> new.resolver.resolveMember (ρ.member id)).map _
          = (some <$> old.resolver.resolveMember id).map _
        rw [map_found, map_found, named]

/--
**Nothing a session tells depends on the order of declarations.**  If a program is another
one in a new order, then sessions of the two, whatever they were asked before, resolve
every identity alike: to the same name and the same outcome, with the same proxy in it, or
to the same error.  They have the same configuration errors, in the same order, and so the
same validity.
-/
theorem resolution_independent_of_order {p q : Program} (built : p.Buildable)
    (rebuilt : q.Buildable) (reorders : ρ.Reorders p q) (options : Options)
    {asked askedNew : List Query} (fits : ∀ query ∈ asked, query.Fits p)
    (fitsNew : ∀ query ∈ askedNew, query.Fits q) :
    let old := (start p options).after asked
    let new := (start q options).after askedNew
    (∀ identity, new.resolution identity = old.resolution identity)
      ∧ (new.answer Ask.validate).1 = (old.answer Ask.validate).1
      ∧ new.resolver.store.configurationErrors = old.resolver.store.configurationErrors := by
  intro old new
  have carries : ρ.Carries p q := ⟨reorders, built.wellFormed, rebuilt.wellFormed⟩
  have soundOld : (start p options).Sound := sound_start built.wellFormed options
  have soundNew : (start q options).Sound := sound_start rebuilt.wellFormed options
  have advancesOld : (start p options).Advances old _ := advances_after soundOld fits
  have advancesNew : (start q options).Advances new _ := advances_after soundNew fitsNew
  have hmatches : ρ.Matches old.resolver new.resolver := by
    rw [advancesOld.resolver, advancesNew.resolver]
    exact matches_start carries options
  exact ⟨resolution_eq (advancesOld.sound soundOld) (advancesNew.sound soundNew) hmatches,
    hmatches.validate, hmatches.configurationErrors⟩

/-- Two nested proxies of one type, each with a member the type does not have. -/
def nestedProxies : List Edit :=
  [.addAssembly "Lib",
   .addAssembly "Ext",
   .addType ⟨0⟩ { name := "T", kind := .classType },
   .addType ⟨1⟩ { name := "Outer", kind := .classType },
   .addNestedType ⟨1⟩ { name := "A", kind := .classType, marks := [.proxy ⟨"T"⟩ true] },
   .addNestedType ⟨1⟩ { name := "B", kind := .classType, marks := [.proxy ⟨"T"⟩ true] },
   .addMember ⟨0⟩ (.method "M"),
   .addMember ⟨2⟩ (.method "M"),
   .addMember ⟨2⟩ (.method "X"),
   .addMember ⟨3⟩ (.method "M"),
   .addMember ⟨3⟩ (.method "X")]

/-- The same with the assemblies, the outer types and the nested types swapped. -/
def nestedProxiesSwapped : List Edit :=
  [.addAssembly "Ext",
   .addAssembly "Lib",
   .addType ⟨0⟩ { name := "Outer", kind := .classType },
   .addType ⟨1⟩ { name := "T", kind := .classType },
   .addNestedType ⟨0⟩ { name := "B", kind := .classType, marks := [.proxy ⟨"T"⟩ true] },
   .addNestedType ⟨0⟩ { name := "A", kind := .classType, marks := [.proxy ⟨"T"⟩ true] },
   .addMember ⟨1⟩ (.method "M"),
   .addMember ⟨2⟩ (.method "M"),
   .addMember ⟨2⟩ (.method "X"),
   .addMember ⟨3⟩ (.method "M"),
   .addMember ⟨3⟩ (.method "X")]

/-- Where the swap puts each position. -/
def nestedProxiesSwap : Renumbering where
  assembly := Equiv.swap ⟨0⟩ ⟨1⟩
  type := (Equiv.swap ⟨0⟩ ⟨1⟩).trans (Equiv.swap ⟨2⟩ ⟨3⟩)
  member := (Equiv.swap ⟨1⟩ ⟨3⟩).trans (Equiv.swap ⟨2⟩ ⟨4⟩)

/-- What holds of both positions that are swapped holds after the swap where it did before. -/
theorem swap_iff {α : Type} [DecidableEq α] {P : α → Prop} {a b : α} (ha : P a) (hb : P b)
    (id : α) : P (Equiv.swap a b id) ↔ P id := by
  rw [Equiv.swap_apply_def]
  split
  · rename_i heq
    rw [heq]
    exact iff_of_true hb ha
  · split
    · rename_i heq
      rw [heq]
      exact iff_of_true ha hb
    · rfl

theorem nestedProxies_reorders :
    nestedProxiesSwap.Reorders (Program.afterEdits {} nestedProxies)
      (Program.afterEdits {} nestedProxiesSwapped) := by
  generalize hp : Program.afterEdits {} nestedProxies = p
  generalize hq : Program.afterEdits {} nestedProxiesSwapped = q
  have sizes : (p.assemblies.size = 2 ∧ p.types.size = 4 ∧ p.members.size = 5)
      ∧ q.assemblies.size = 2 ∧ q.types.size = 4 ∧ q.members.size = 5 := by
    subst hp hq
    decide +kernel
  obtain ⟨⟨assembliesOld, typesOld, membersOld⟩, assembliesNew, typesNew, membersNew⟩ := sizes
  have assemblies : ∀ i < 2,
      q.assembly (nestedProxiesSwap.assembly ⟨i⟩)
          = { nestedProxiesSwap.onAssembly (p.assembly ⟨i⟩) with
              types := (q.assembly (nestedProxiesSwap.assembly ⟨i⟩)).types }
        ∧ (q.assembly (nestedProxiesSwap.assembly ⟨i⟩)).types.Perm
            (nestedProxiesSwap.onAssembly (p.assembly ⟨i⟩)).types := by
    subst hp hq
    decide +kernel
  have types : ∀ i < 4,
      q.type (nestedProxiesSwap.type ⟨i⟩)
          = { nestedProxiesSwap.onType (p.type ⟨i⟩) with
              nested := (q.type (nestedProxiesSwap.type ⟨i⟩)).nested }
        ∧ (q.type (nestedProxiesSwap.type ⟨i⟩)).nested.Perm
            (nestedProxiesSwap.onType (p.type ⟨i⟩)).nested := by
    subst hp hq
    decide +kernel
  have members : ∀ i < 5,
      q.member (nestedProxiesSwap.member ⟨i⟩) = nestedProxiesSwap.onMember (p.member ⟨i⟩) := by
    subst hp hq
    decide +kernel
  refine ⟨fun id => ?_, fun id => ?_, fun id => ?_, fun id has => ?_, fun id has => ?_,
    fun id has => ?_, fun id has => ?_, fun id has => ?_⟩
  · show (nestedProxiesSwap.assembly id).index < q.assemblies.size ↔ id.index < p.assemblies.size
    rw [assembliesOld, assembliesNew]
    exact swap_iff (P := fun id : AssemblyId => id.index < 2) (by decide) (by decide) id
  · show (nestedProxiesSwap.type id).index < q.types.size ↔ id.index < p.types.size
    rw [typesOld, typesNew]
    exact (swap_iff (P := fun id : TypeId => id.index < 4) (by decide) (by decide) _).trans
      (swap_iff (P := fun id : TypeId => id.index < 4) (by decide) (by decide) id)
  · show (nestedProxiesSwap.member id).index < q.members.size ↔ id.index < p.members.size
    rw [membersOld, membersNew]
    exact (swap_iff (P := fun id : MemberId => id.index < 5) (by decide) (by decide) _).trans
      (swap_iff (P := fun id : MemberId => id.index < 5) (by decide) (by decide) id)
  · exact (assemblies id.index (assembliesOld ▸ has)).1
  · exact (assemblies id.index (assembliesOld ▸ has)).2
  · exact (types id.index (typesOld ▸ has)).1
  · exact (types id.index (typesOld ▸ has)).2
  · exact members id.index (membersOld ▸ has)

/-- In both orders the proxy with the smaller name supplies the method, and its error is
the one that is kept. -/
theorem resolution_independent_of_order_nestedProxies :
    let p := Program.afterEdits {} nestedProxies
    let q := Program.afterEdits {} nestedProxiesSwapped
    let options : Options := {}
    let old := (start p options).after [.type ⟨0⟩]
    let new := (start q options).after [.member ⟨4⟩, .type ⟨1⟩]
    let method := Identity.ofMember .method ⟨"T"⟩ (.named "M") []
    let missing := Identity.ofMember .method ⟨"T"⟩ (.named "X") []
    (p.Buildable ∧ q.Buildable ∧ nestedProxiesSwap.Reorders p q
        ∧ (∀ query ∈ [Query.type ⟨0⟩], query.Fits p)
        ∧ ∀ query ∈ [Query.member ⟨4⟩, .type ⟨1⟩], query.Fits q)
      ∧ ((∀ identity, new.resolution identity = old.resolution identity)
        ∧ (new.answer Ask.validate).1 = (old.answer Ask.validate).1
        ∧ new.resolver.store.configurationErrors = old.resolver.store.configurationErrors)
      ∧ new.resolution method
          = .ok (some (.member method method "M" (.proxy
              { member := method.declaredBy ⟨"Outer+A"⟩
                proxyType := .ofType ⟨"Outer+A"⟩
                target := method
                mode := .replaceBody })))
      ∧ new.resolver.store.configurationErrors
          = [.unknownTargetMember (missing.declaredBy ⟨"Outer+A"⟩).display missing.display
              ⟨"T"⟩] := by
  have built : (Program.afterEdits {} nestedProxies).Buildable :=
    Program.Buildable.empty.afterEdits (by decide)
  have rebuilt : (Program.afterEdits {} nestedProxiesSwapped).Buildable :=
    Program.Buildable.empty.afterEdits (by decide)
  have fits : ∀ query ∈ [Query.type ⟨0⟩], query.Fits (Program.afterEdits {} nestedProxies) := by
    decide +kernel
  have fitsNew : ∀ query ∈ [Query.member ⟨4⟩, .type ⟨1⟩],
      query.Fits (Program.afterEdits {} nestedProxiesSwapped) := by
    decide +kernel
  refine ⟨⟨built, rebuilt, nestedProxies_reorders, fits, fitsNew⟩,
    resolution_independent_of_order built rebuilt nestedProxies_reorders {} fits fitsNew, ?_, ?_⟩
  · decide +kernel
  · decide +kernel

end Session

end MemberResolution
