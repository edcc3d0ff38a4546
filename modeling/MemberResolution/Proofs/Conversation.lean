/-
A conversation does not depend on the cache.

What a session answers is what its resolver finds afresh: `Resolver.respond` says it
without a session, and `Resolver.lookUps` says how often the cache is asked on the way.
Both speak of the program and the options alone.

That a session agrees with them rests on one invariant, `Cache.Faithful`: whatever the
cache keeps under a key is what would be found for it now.  A resolved member is kept
under an identity, so this needs that no two members share one.  A question that fails
keeps nothing and so cannot break the invariant; dropping every answer cannot either.

A cached and an uncached session then agree question by question, since both agree with
the resolver, and so do their counts of look-ups.
-/
import MemberResolution.Proofs.Buildable
import MemberResolution.Proofs.Except
import MemberResolution.Session

namespace MemberResolution

/-! ### What a cache may keep -/

namespace Cache

/-- How many look-ups were made. -/
def lookUps (cache : Cache) : Nat :=
  cache.stats.hits + cache.stats.misses

/-- Whatever is kept is what the resolver finds now. -/
structure Faithful (resolver : Resolver) (cache : Cache) : Prop where
  members : ∀ id, resolver.program.HasMember id → ∀ resolved,
    cache.members.find? (resolver.program.identityOfMember id) = some resolved →
      resolver.resolveMember id = .ok resolved
  types : ∀ id, resolver.program.HasType id → ∀ resolved,
    cache.types.find? (resolver.program.identityOfType id) = some resolved →
      resolver.resolveType id = resolved
  dispatches : ∀ receiver signature target,
    cache.dispatches.find? (receiver, signature) = some target →
      resolver.findDeclaration receiver signature = .ok target

/-- The cache is switched off, so it keeps nothing and never finds anything. -/
structure Idle (cache : Cache) : Prop where
  disabled : cache.enabled = false
  members : cache.members = {}
  types : cache.types = {}
  dispatches : cache.dispatches = {}
  hits : cache.stats.hits = 0

variable {resolver : Resolver} {cache : Cache}

theorem Faithful.empty (enabled : Bool) : Faithful resolver { enabled := enabled } :=
  ⟨fun _ _ _ => nofun, fun _ _ _ => nofun, fun _ _ _ => nofun⟩

theorem Faithful.record (h : cache.Faithful resolver) (found : Bool) :
    (cache.record found).Faithful resolver :=
  ⟨h.members, h.types, h.dispatches⟩

/-- A change of what is kept that no count shows. -/
structure Keeps (resolver : Resolver) (change : Cache → Cache) : Prop where
  faithful : ∀ cache, cache.Faithful resolver → (change cache).Faithful resolver
  lookUps : ∀ cache, (change cache).lookUps = cache.lookUps
  idle : ∀ cache, cache.Idle → (change cache).Idle

theorem keeps_invalidate : Keeps resolver invalidate where
  faithful _ _ := ⟨fun _ _ _ => nofun, fun _ _ _ => nofun, fun _ _ _ => nofun⟩
  lookUps _ := rfl
  idle _ h := ⟨h.disabled, rfl, rfl, rfl, h.hits⟩

/-- A member may be kept under its identity, which is that of no other member. -/
theorem keeps_insertMember (wellFormed : resolver.program.WellFormed) {id : MemberId}
    (has : resolver.program.HasMember id) {resolved : ResolvedMember}
    (fresh : resolver.resolveMember id = .ok resolved) :
    Keeps resolver (·.insertMember (resolver.program.identityOfMember id) resolved) where
  faithful cache h := by
    unfold Cache.insertMember
    split
    · refine ⟨?_, h.types, h.dispatches⟩
      intro other hasOther kept hkept
      rw [Memo.find?_insert] at hkept
      split at hkept
      · rename_i hidentity
        rw [← wellFormed.identities id other has hasOther hidentity, fresh, Option.some.inj hkept]
      · exact h.members other hasOther kept hkept
    · exact h
  lookUps cache := by unfold Cache.insertMember; split <;> rfl
  idle cache h := by unfold Cache.insertMember; rw [if_neg (by simp [h.disabled])]; exact h

theorem keeps_insertType (wellFormed : resolver.program.WellFormed) {id : TypeId}
    (has : resolver.program.HasType id) :
    Keeps resolver
      (·.insertType (resolver.program.identityOfType id) (resolver.resolveType id)) where
  faithful cache h := by
    unfold Cache.insertType
    split
    · refine ⟨h.members, ?_, h.dispatches⟩
      intro other hasOther kept hkept
      rw [Memo.find?_insert] at hkept
      split at hkept
      · rename_i hidentity
        have hkey := Program.key_eq_of_identityOfType hidentity
        rw [← wellFormed.keys id other has hasOther hkey, Option.some.inj hkept]
      · exact h.types other hasOther kept hkept
    · exact h
  lookUps cache := by unfold Cache.insertType; split <;> rfl
  idle cache h := by unfold Cache.insertType; rw [if_neg (by simp [h.disabled])]; exact h

theorem keeps_insertDispatch {receiver : TypeId} {signature : Identity}
    {target : Option MemberId} (fresh : resolver.findDeclaration receiver signature = .ok target) :
    Keeps resolver (·.insertDispatch receiver signature target) where
  faithful cache h := by
    unfold Cache.insertDispatch
    split
    · refine ⟨h.members, h.types, ?_⟩
      intro other name kept hkept
      rw [Memo.find?_insert] at hkept
      split at hkept
      · rename_i hkey
        obtain ⟨rfl, rfl⟩ := Prod.mk.inj hkey
        rw [fresh, Option.some.inj hkept]
      · exact h.dispatches other name kept hkept
    · exact h
  lookUps cache := by unfold Cache.insertDispatch; split <;> rfl
  idle cache h := by unfold Cache.insertDispatch; rw [if_neg (by simp [h.disabled])]; exact h

end Cache

/-! ### What a session answers -/

namespace Resolver

/-- Resolves what a search for a member found, if it found anything. -/
def resolveFound (resolver : Resolver) :
    Option MemberId → Except ConfigurationError (Option ResolvedMember)
  | some id => some <$> resolver.resolveMember id
  | none => .ok none

/-- The answer to a question, found afresh. -/
def respond (resolver : Resolver) (complete : Bool) : Query → Except ConfigurationError Answer
  | .member id => .member <$> resolver.resolveMember id
  | .identified identity =>
    .perhapsMember <$> resolver.resolveFound (resolver.program.findMember? identity)
  | .type id => .ok (.type (resolver.resolveType id))
  | .dispatch receiver signature =>
    .perhapsMember <$> (resolver.findDeclaration receiver signature >>= resolver.resolveFound)
  | .reference id => .access <$> (·.reference complete) <$> resolver.resolveMember id
  | .invocation id => .access <$> (·.invocation complete) <$> resolver.resolveMember id
  | .typeReference id => .ok (.access ((resolver.resolveType id).access complete))
  | .typeCheck id =>
    .ok (.typeCheck ((resolver.resolveType id).check (resolver.program.type id).kind complete))
  | .fieldEmission id =>
    .fieldEmission <$> (resolver.fieldEmission id ·.outcome) <$> resolver.resolveMember id
  | .invalidate => .ok .done

/-- How often a question looks into the cache. -/
def lookUps (resolver : Resolver) : Query → Nat
  | .identified identity => (resolver.program.findMember? identity).toList.length
  | .dispatch receiver signature =>
    match resolver.findDeclaration receiver signature with
    | .ok found => 1 + found.toList.length
    | .error _ => 1
  | .invalidate => 0
  | _ => 1

end Resolver

namespace Ask

/-- A question that looks into the cache, finds the answer afresh where it is not there,
and keeps it. -/
def memoized {α : Type} (find : Cache → Option α × Cache) (compute : Ask α)
    (keep : α → Cache → Cache) : Ask α := do
  match ← lookUp find with
  | some kept => return kept
  | none =>
    let result ← compute
    store (keep result)
    return result

theorem resolveMember_eq (id : MemberId) :
    resolveMember id = (do
      let resolver := (← get).resolver
      let identity := resolver.program.identityOfMember id
      memoized (·.member identity) (liftM (resolver.resolveMember id))
        (fun resolved cache => cache.insertMember identity resolved)) := by
  unfold resolveMember memoized
  refine congrArg _ (funext fun session => ?_)
  refine congrArg (bind (lookUp (·.member _))) (funext fun kept => ?_)
  cases kept <;> rfl

theorem resolveType_eq (id : TypeId) :
    resolveType id = (do
      let resolver := (← get).resolver
      let identity := resolver.program.identityOfType id
      memoized (·.type identity) (pure (resolver.resolveType id))
        (fun resolved cache => cache.insertType identity resolved)) := by
  unfold resolveType memoized
  refine congrArg _ (funext fun session => ?_)
  refine congrArg (bind (lookUp (·.type _))) (funext fun kept => ?_)
  cases kept <;> rfl

theorem findDeclaration_eq (receiver : TypeId) (signature : Identity) :
    findDeclaration receiver signature
      = memoized (·.dispatch receiver signature)
          (do (← get).resolver.findDeclaration receiver signature)
          (fun target cache => cache.insertDispatch receiver signature target) := by
  unfold findDeclaration memoized
  refine congrArg _ (funext fun kept => ?_)
  cases kept <;> rfl

/-- Resolves what a search for a member found, if it found anything. -/
def resolveFound : Option MemberId → Ask (Option ResolvedMember)
  | some id => some <$> resolveMember id
  | none => return none

theorem resolveIdentity_eq (identity : Identity) :
    resolveIdentity identity
      = (do resolveFound ((← get).resolver.program.findMember? identity)) := by
  unfold resolveIdentity
  refine congrArg _ (funext fun session => ?_)
  cases session.resolver.program.findMember? identity <;> rfl

theorem resolveDispatch_eq (receiver : TypeId) (signature : Identity) :
    resolveDispatch receiver signature = findDeclaration receiver signature >>= resolveFound := by
  unfold resolveDispatch
  refine congrArg _ (funext fun found => ?_)
  cases found <;> rfl

end Ask

namespace Session

/-- The session is about a well-formed program and keeps nothing false. -/
structure Sound (session : Session) : Prop where
  wellFormed : session.resolver.program.WellFormed
  faithful : session.cache.Faithful session.resolver

/-- One session came out of another by so many look-ups. -/
structure Advances (before after : Session) (count : Nat) : Prop where
  resolver : after.resolver = before.resolver
  options : after.options = before.options
  faithful : after.cache.Faithful after.resolver
  lookUps : after.cache.lookUps = before.cache.lookUps + count
  idle : before.cache.Idle → after.cache.Idle

/-- A question has the given answer and makes so many look-ups. -/
structure Answers {α : Type} (session : Session) (question : Ask α)
    (value : Except ConfigurationError α) (count : Nat) : Prop where
  value : (session.answer question).1 = value
  advances : session.Advances (session.answer question).2 count

variable {session : Session}

theorem Advances.refl (h : session.Sound) : session.Advances session 0 :=
  ⟨rfl, rfl, h.faithful, rfl, id⟩

theorem Advances.trans {before between after : Session} {m n : Nat}
    (first : before.Advances between m) (second : between.Advances after n) :
    before.Advances after (m + n) where
  resolver := second.resolver.trans first.resolver
  options := second.options.trans first.options
  faithful := second.faithful
  lookUps := by rw [second.lookUps, first.lookUps, Nat.add_assoc]
  idle := fun h => second.idle (first.idle h)

theorem Advances.sound {after : Session} {count : Nat} (h : session.Sound)
    (advances : session.Advances after count) : after.Sound where
  wellFormed := by rw [advances.resolver]; exact h.wellFormed
  faithful := advances.faithful

theorem answer_bind {α β : Type} (session : Session) (first : Ask α) (next : α → Ask β) :
    session.answer (first >>= next)
      = match session.answer first with
        | (.ok result, between) => between.answer (next result)
        | (.error error, between) => (.error error, between) := by
  simp only [Session.answer, ExceptT.run_bind, StateT.run_bind]
  cases h : (ExceptT.run first).run session with
  | mk outcome between => cases outcome <;> rfl

theorem Answers.bind {α β : Type} {first : Ask α} {next : α → Ask β} {result : α}
    {value : Except ConfigurationError β} {m n : Nat}
    (hfirst : session.Answers first (.ok result) m)
    (hnext : ∀ between, session.Advances between m → between.Answers (next result) value n) :
    session.Answers (first >>= next) value (m + n) := by
  have hrun : session.answer (first >>= next)
      = (session.answer first).2.answer (next result) := by
    rw [answer_bind]
    cases h : session.answer first with
    | mk outcome between =>
        have hvalue := hfirst.value
        rw [h] at hvalue
        subst hvalue
        rfl
  have h := hnext _ hfirst.advances
  exact ⟨by rw [hrun]; exact h.value, by rw [hrun]; exact hfirst.advances.trans h.advances⟩

theorem Answers.bind_error {α β : Type} {first : Ask α} {next : α → Ask β}
    {error : ConfigurationError} {count : Nat}
    (hfirst : session.Answers first (.error error) count) :
    session.Answers (first >>= next) (.error error) count := by
  have hrun : session.answer (first >>= next) = (.error error, (session.answer first).2) := by
    rw [answer_bind]
    cases h : session.answer first with
    | mk outcome between =>
        have hvalue := hfirst.value
        rw [h] at hvalue
        subst hvalue
        rfl
  exact ⟨by rw [hrun], by rw [hrun]; exact hfirst.advances⟩

theorem Answers.pure {α : Type} (h : session.Sound) (result : α) :
    session.Answers (pure result) (.ok result) 0 :=
  ⟨rfl, .refl h⟩

theorem answer_get_bind {α : Type} (next : Session → Ask α) :
    session.answer (get >>= next) = session.answer (next session) :=
  rfl

theorem Answers.get_bind {α : Type} {next : Session → Ask α}
    {value : Except ConfigurationError α} {count : Nat}
    (h : session.Answers (next session) value count) :
    session.Answers (get >>= next) value count :=
  ⟨by rw [answer_get_bind]; exact h.value, by rw [answer_get_bind]; exact h.advances⟩

theorem Answers.map {α β : Type} {question : Ask α} {value : Except ConfigurationError α}
    {count : Nat} (h : session.Sound) (make : α → β)
    (hquestion : session.Answers question value count) :
    session.Answers (make <$> question) (make <$> value) count := by
  rw [map_eq_pure_bind]
  cases value with
  | error error => exact hquestion.bind_error
  | ok result =>
      refine hquestion.bind (n := 0) fun between advances => ?_
      exact .pure (advances.sound h) (make result)

theorem answers_lift {α : Type} (h : session.Sound) (outcome : Except ConfigurationError α) :
    session.Answers (liftM outcome) outcome 0 := by
  cases outcome with
  | error error => exact ⟨rfl, .refl h⟩
  | ok result => exact ⟨rfl, .refl h⟩

/-- A look-up counts once, and what is switched off finds nothing. -/
theorem answers_lookUp {α : Type} (h : session.Sound) {find : Cache → Option α × Cache}
    (records : (find session.cache).2 = session.cache.record (find session.cache).1.isSome)
    (idle : session.cache.Idle → (find session.cache).1 = none) :
    session.Answers (Ask.lookUp find) (.ok (find session.cache).1) 1 := by
  refine ⟨rfl, rfl, rfl, ?_, ?_, ?_⟩
  · show (find session.cache).2.Faithful session.resolver
    rw [records]
    exact h.faithful.record _
  · show (find session.cache).2.lookUps = session.cache.lookUps + 1
    rw [records]
    unfold Cache.lookUps Cache.record
    split
    · exact Nat.add_right_comm _ _ _
    · rfl
  · intro hidle
    show (find session.cache).2.Idle
    rw [records, idle hidle]
    exact ⟨hidle.disabled, hidle.members, hidle.types, hidle.dispatches, hidle.hits⟩

/-- Keeping an answer is no look-up, and what is switched off keeps nothing. -/
theorem answers_store (h : session.Sound) {change : Cache → Cache}
    (keeps : Cache.Keeps session.resolver change) :
    session.Answers (Ask.store change) (.ok ()) 0 :=
  ⟨rfl, rfl, rfl, keeps.faithful _ h.faithful, keeps.lookUps _, keeps.idle _⟩

/-- What is kept is answered from the cache, and what is not is found afresh and kept. -/
theorem answers_memoized {α : Type} (h : session.Sound) {find : Cache → Option α × Cache}
    {compute : Ask α} {keep : α → Cache → Cache} {fresh : Except ConfigurationError α}
    (records : (find session.cache).2 = session.cache.record (find session.cache).1.isSome)
    (idle : session.cache.Idle → (find session.cache).1 = none)
    (faithful : ∀ kept, (find session.cache).1 = some kept → fresh = .ok kept)
    (computes : ∀ between, session.Advances between 1 → between.Answers compute fresh 0)
    (keeps : ∀ result, fresh = .ok result → Cache.Keeps session.resolver (keep result)) :
    session.Answers (Ask.memoized find compute keep) fresh 1 := by
  refine (answers_lookUp h records idle).bind (n := 0) fun between advances => ?_
  have sound := advances.sound h
  have hcompute := computes between advances
  cases hkept : (find session.cache).1 with
  | some kept =>
      rw [faithful kept hkept]
      exact .pure sound kept
  | none =>
      cases fresh with
      | error error => exact hcompute.bind_error
      | ok result =>
          refine hcompute.bind (n := 0) fun found advances' => ?_
          have hresolver : found.resolver = session.resolver :=
            advances'.resolver.trans advances.resolver
          have hstore := answers_store (advances'.sound sound)
            (hresolver ▸ keeps result rfl : Cache.Keeps found.resolver (keep result))
          exact hstore.bind (n := 0) fun last advances'' =>
            .pure (advances''.sound (advances'.sound sound)) result

/-! ### Resolving -/

/-- **A resolved member is what the resolver finds, kept or not.** -/
theorem answers_resolveMember (h : session.Sound) {id : MemberId}
    (has : session.resolver.program.HasMember id) :
    session.Answers (Ask.resolveMember id) (session.resolver.resolveMember id) 1 := by
  rw [Ask.resolveMember_eq]
  refine Answers.get_bind (answers_memoized h rfl ?_ ?_ ?_ ?_)
  · intro idle
    show session.cache.members.find? _ = none
    rw [idle.members, Memo.find?_empty]
  · exact h.faithful.members id has
  · exact fun between advances => answers_lift (advances.sound h) _
  · exact fun resolved fresh => Cache.keeps_insertMember h.wellFormed has fresh

theorem answers_resolveType (h : session.Sound) {id : TypeId}
    (has : session.resolver.program.HasType id) :
    session.Answers (Ask.resolveType id) (.ok (session.resolver.resolveType id)) 1 := by
  rw [Ask.resolveType_eq]
  refine Answers.get_bind (answers_memoized h rfl ?_ ?_ ?_ ?_)
  · intro idle
    show session.cache.types.find? _ = none
    rw [idle.types, Memo.find?_empty]
  · exact fun kept hkept => congrArg Except.ok (h.faithful.types id has kept hkept)
  · exact fun between advances => .pure (advances.sound h) _
  · rintro resolved ⟨⟩
    exact Cache.keeps_insertType h.wellFormed has

/-- A dispatch is what the resolver finds, kept or not, also where it finds nothing. -/
theorem answers_findDeclaration (h : session.Sound) (receiver : TypeId) (signature : Identity) :
    session.Answers (Ask.findDeclaration receiver signature)
      (session.resolver.findDeclaration receiver signature) 1 := by
  rw [Ask.findDeclaration_eq]
  refine answers_memoized h rfl ?_ ?_ ?_ ?_
  · intro idle
    show session.cache.dispatches.find? _ = none
    rw [idle.dispatches, Memo.find?_empty]
  · exact h.faithful.dispatches receiver signature
  · intro between advances
    refine Answers.get_bind ?_
    rw [advances.resolver]
    exact answers_lift (advances.sound h) _
  · exact fun target fresh => Cache.keeps_insertDispatch fresh

end Session

/-! ### Questions -/

/-- Whether the positions a question speaks of belong to the program. -/
def Query.Fits (program : Program) : Query → Prop
  | .member id | .reference id | .invocation id | .fieldEmission id => program.HasMember id
  | .type id | .typeReference id | .typeCheck id => program.HasType id
  | .identified _ | .dispatch _ _ | .invalidate => True

instance (program : Program) : (query : Query) → Decidable (query.Fits program)
  | .identified _ | .dispatch _ _ | .invalidate => inferInstanceAs (Decidable True)
  | .member _ | .reference _ | .invocation _ | .fieldEmission _ | .type _ | .typeReference _
  | .typeCheck _ => inferInstanceAs (Decidable (_ < _))

namespace Resolver

theorem hasMember_of_findDeclarationAlong {resolver : Resolver}
    (wellFormed : resolver.program.WellFormed) {signature : Identity} {id : MemberId} :
    ∀ (chain : List TypeId), resolver.findDeclarationAlong signature chain = .ok (some id) →
      resolver.program.HasMember id := by
  intro chain
  induction chain with
  | nil => intro h; cases h
  | cons type rest ih =>
      intro h
      unfold findDeclarationAlong at h
      split at h
      · cases h
      · split at h
        · rename_i found hfound
          cases h
          exact (wellFormed.findMember?_eq_some_iff.mp hfound).1
        · exact ih h

theorem hasMember_of_findDeclaration {resolver : Resolver}
    (wellFormed : resolver.program.WellFormed) {receiver : TypeId} {signature : Identity}
    {id : MemberId} (h : resolver.findDeclaration receiver signature = .ok (some id)) :
    resolver.program.HasMember id := by
  obtain ⟨chain, -, found⟩ := bind_eq_ok_iff.mp h
  exact hasMember_of_findDeclarationAlong wellFormed chain found

end Resolver

namespace Session

variable {session : Session}

/-- A verdict on what was resolved, made with what the session is about. -/
theorem Answers.verdict {α β : Type} {question : Ask α} {value : Except ConfigurationError α}
    {count : Nat} (h : session.Sound) (hquestion : session.Answers question value count)
    (judge : Session → α → β)
    (same : ∀ after, session.Advances after count → judge after = judge session) :
    session.Answers (do let result ← question; return judge (← get) result)
      (judge session <$> value) count := by
  cases value with
  | error error => exact hquestion.bind_error
  | ok result =>
      refine hquestion.bind (n := 0) fun after advances => ?_
      refine Answers.get_bind ?_
      rw [same after advances]
      exact .pure (advances.sound h) _

/-- Resolving what was found looks up one member, if there is one. -/
theorem answers_resolveFound (h : session.Sound) {found : Option MemberId}
    (has : ∀ id, found = some id → session.resolver.program.HasMember id) :
    session.Answers (Ask.resolveFound found) (session.resolver.resolveFound found)
      found.toList.length := by
  cases found with
  | none => exact .pure h none
  | some id => exact (answers_resolveMember h (has id rfl)).map h some

theorem answers_resolveIdentity (h : session.Sound) (identity : Identity) :
    session.Answers (Ask.resolveIdentity identity)
      (session.resolver.resolveFound (session.resolver.program.findMember? identity))
      (session.resolver.lookUps (.identified identity)) := by
  rw [Ask.resolveIdentity_eq]
  refine Answers.get_bind (answers_resolveFound h ?_)
  exact fun id hfound => (h.wellFormed.findMember?_eq_some_iff.mp hfound).1

theorem answers_resolveDispatch (h : session.Sound) (receiver : TypeId) (signature : Identity) :
    session.Answers (Ask.resolveDispatch receiver signature)
      (session.resolver.findDeclaration receiver signature >>= session.resolver.resolveFound)
      (session.resolver.lookUps (.dispatch receiver signature)) := by
  rw [Ask.resolveDispatch_eq]
  unfold Resolver.lookUps
  have hfind := answers_findDeclaration h receiver signature
  cases hfresh : session.resolver.findDeclaration receiver signature with
  | error error =>
      rw [hfresh] at hfind
      simp only [hfresh]
      exact hfind.bind_error
  | ok found =>
      rw [hfresh] at hfind
      simp only [hfresh]
      refine hfind.bind fun between advances => ?_
      show between.Answers _ (session.resolver.resolveFound found) _
      rw [← advances.resolver]
      refine answers_resolveFound (advances.sound h) ?_
      rintro id rfl
      rw [advances.resolver]
      exact Resolver.hasMember_of_findDeclaration h.wellFormed hfresh

theorem answers_invalidate (h : session.Sound) :
    session.Answers Ask.invalidate (.ok ()) 0 :=
  answers_store h Cache.keeps_invalidate

/-- **A session answers every question as its resolver does, whatever it keeps.** -/
theorem answers_ask (h : session.Sound) {query : Query}
    (fits : query.Fits session.resolver.program) :
    session.Answers query.ask
      (session.resolver.respond session.options.completeMessages query)
      (session.resolver.lookUps query) := by
  cases query with
  | member id => exact (answers_resolveMember h fits).map h _
  | identified identity => exact (answers_resolveIdentity h identity).map h _
  | type id => exact (answers_resolveType h fits).map h _
  | dispatch receiver signature => exact (answers_resolveDispatch h receiver signature).map h _
  | reference id =>
      refine Answers.map h _ ((answers_resolveMember h fits).verdict h
        (fun session resolved => resolved.reference session.options.completeMessages) ?_)
      exact fun after advances => by rw [advances.options]
  | invocation id =>
      refine Answers.map h _ ((answers_resolveMember h fits).verdict h
        (fun session resolved => resolved.invocation session.options.completeMessages) ?_)
      exact fun after advances => by rw [advances.options]
  | typeReference id =>
      refine Answers.map h _ ((answers_resolveType h fits).verdict h
        (fun session resolved => resolved.access session.options.completeMessages) ?_)
      exact fun after advances => by rw [advances.options]
  | typeCheck id =>
      refine Answers.map h _ ((answers_resolveType h fits).verdict h
        (fun session resolved => resolved.check (session.resolver.program.type id).kind
          session.options.completeMessages) ?_)
      exact fun after advances => by rw [advances.options, advances.resolver]
  | fieldEmission id =>
      refine Answers.map h _ ((answers_resolveMember h fits).verdict h
        (fun session resolved => session.resolver.fieldEmission id resolved.outcome) ?_)
      exact fun after advances => by rw [advances.resolver]
  | invalidate =>
      refine (answers_invalidate h).bind (n := 0) fun after advances => ?_
      exact .pure (advances.sound h) Answer.done

/-! ### Conversations -/

/-- How often a conversation looks into the cache. -/
def lookUpsOf (resolver : Resolver) : List Query → Nat
  | [] => 0
  | query :: rest => resolver.lookUps query + lookUpsOf resolver rest

theorem answers_eq_map {queries : List Query} :
    ∀ {session : Session}, session.Sound →
      (∀ query ∈ queries, query.Fits session.resolver.program) →
      session.answers queries
        = queries.map (session.resolver.respond session.options.completeMessages) := by
  induction queries with
  | nil => intro session _ _; rfl
  | cons query rest ih =>
      intro session h fits
      have hask := answers_ask h (fits query (by simp))
      have hrest := ih (hask.advances.sound h) (by
        rw [hask.advances.resolver]
        exact fun query hquery => fits query (by simp [hquery]))
      rw [hask.advances.resolver, hask.advances.options] at hrest
      show (session.answer query.ask).1 :: (session.answer query.ask).2.answers rest = _
      rw [hask.value, hrest, List.map_cons]

theorem advances_after {queries : List Query} :
    ∀ {session : Session}, session.Sound →
      (∀ query ∈ queries, query.Fits session.resolver.program) →
      session.Advances (session.after queries) (lookUpsOf session.resolver queries) := by
  induction queries with
  | nil => intro session h _; exact .refl h
  | cons query rest ih =>
      intro session h fits
      have hask := answers_ask h (fits query (by simp))
      have hrest := ih (hask.advances.sound h) (by
        rw [hask.advances.resolver]
        exact fun query hquery => fits query (by simp [hquery]))
      rw [hask.advances.resolver] at hrest
      exact hask.advances.trans hrest

theorem sound_start {program : Program} (wellFormed : program.WellFormed) (options : Options) :
    (start program options).Sound :=
  ⟨wellFormed, .empty _⟩

/-- Whatever a session was asked before, it resolves a member as the resolver of its program
does. -/
theorem answer_resolveMember_after {program : Program} (wellFormed : program.WellFormed)
    (options : Options) {asked : List Query} (fits : ∀ query ∈ asked, query.Fits program)
    {id : MemberId} (has : program.HasMember id) :
    (((start program options).after asked).answer (Ask.resolveMember id)).1
      = (start program options).resolver.resolveMember id := by
  have sound := sound_start wellFormed options
  have advances := advances_after sound fits
  rw [(answers_resolveMember (advances.sound sound) (by rwa [advances.resolver])).value,
    advances.resolver]

theorem answer_resolveType_after {program : Program} (wellFormed : program.WellFormed)
    (options : Options) {asked : List Query} (fits : ∀ query ∈ asked, query.Fits program)
    {id : TypeId} (has : program.HasType id) :
    (((start program options).after asked).answer (Ask.resolveType id)).1
      = .ok ((start program options).resolver.resolveType id) := by
  have sound := sound_start wellFormed options
  have advances := advances_after sound fits
  rw [(answers_resolveType (advances.sound sound) (by rwa [advances.resolver])).value,
    advances.resolver]

theorem answer_fieldEmission_after {program : Program} (wellFormed : program.WellFormed)
    (options : Options) {asked : List Query} (fits : ∀ query ∈ asked, query.Fits program)
    {id : MemberId} (has : program.HasMember id) :
    (((start program options).after asked).answer (Ask.fieldEmission id)).1
      = (fun resolved => (start program options).resolver.fieldEmission id resolved.outcome)
        <$> (start program options).resolver.resolveMember id := by
  have sound := sound_start wellFormed options
  have advances := advances_after sound fits
  have soundAfter := advances.sound sound
  have hasAfter : ((start program options).after asked).resolver.program.HasMember id := by
    rwa [advances.resolver]
  have resolves := answers_resolveMember soundAfter hasAfter
  have judged := resolves.verdict soundAfter
    (fun session resolved => session.resolver.fieldEmission id resolved.outcome)
    fun after further => by rw [further.resolver]
  rw [advances.resolver] at judged
  exact judged.value

/--
**Whether a session keeps its answers shows in its hits alone.**  A cached and an
uncached session of one program give the same answers, or fail in the same way, through
every conversation; and at its end, so after each of its steps, the uncached one has
found nothing and both have looked up equally often.
-/
theorem answers_independent_of_cache {program : Program} (built : program.Buildable)
    (options : Options) (queries : List Query) (fits : ∀ query ∈ queries, query.Fits program) :
    let cached := start program { options with cacheResolutions := true }
    let uncached := start program { options with cacheResolutions := false }
    cached.answers queries = uncached.answers queries
      ∧ (uncached.after queries).cache.stats.hits = 0
      ∧ (cached.after queries).cache.stats.hits + (cached.after queries).cache.stats.misses
          = (uncached.after queries).cache.stats.misses := by
  intro cached uncached
  have soundCached : cached.Sound := sound_start built.wellFormed _
  have soundUncached : uncached.Sound := sound_start built.wellFormed _
  have hcached := advances_after soundCached fits
  have huncached := advances_after soundUncached fits
  have hhits : (uncached.after queries).cache.stats.hits = 0 :=
    (huncached.idle ⟨rfl, rfl, rfl, rfl, rfl⟩).hits
  refine ⟨?_, hhits, ?_⟩
  · rw [answers_eq_map soundCached fits, answers_eq_map soundUncached fits]
    rfl
  · have hcount : (cached.after queries).cache.lookUps = (uncached.after queries).cache.lookUps :=
      hcached.lookUps.trans huncached.lookUps.symm
    unfold Cache.lookUps at hcount
    rw [hhits, Nat.zero_add] at hcount
    exact hcount

/-- A type with a method, and a proxy of it that names a method it does not have. -/
def misnamedProxy : List Edit :=
  [.addAssembly "Lib",
   .addType ⟨0⟩ { name := "T", kind := .classType },
   .addMember ⟨0⟩ (.method "M"),
   .addType ⟨0⟩ { name := "P", kind := .classType, marks := [.proxy ⟨"T"⟩ true] },
   .addMember ⟨1⟩ (.method "X")]

/-- Questions with repetitions, one of which fails. -/
def repeatedQuestions : List Query :=
  [.member ⟨0⟩, .member ⟨0⟩, .dispatch ⟨0⟩ (.ofMember .method ⟨"T"⟩ (.named "X") []),
   .dispatch ⟨0⟩ (.ofMember .method ⟨"T"⟩ (.named "M") []),
   .dispatch ⟨0⟩ (.ofMember .method ⟨"T"⟩ (.named "M") []), .type ⟨0⟩, .invalidate, .type ⟨0⟩]

/-- A conversation with hits, with a failure and with a fresh start in its middle. -/
theorem answers_independent_of_cache_misnamedProxy :
    let program := Program.afterEdits {} misnamedProxy
    let options : Options := {}
    let cached := start program { options with cacheResolutions := true }
    let uncached := start program { options with cacheResolutions := false }
    (program.Buildable ∧ ∀ query ∈ repeatedQuestions, query.Fits program)
      ∧ (cached.answers repeatedQuestions = uncached.answers repeatedQuestions
        ∧ (uncached.after repeatedQuestions).cache.stats.hits = 0
        ∧ (cached.after repeatedQuestions).cache.stats.hits
            + (cached.after repeatedQuestions).cache.stats.misses
          = (uncached.after repeatedQuestions).cache.stats.misses)
      ∧ (cached.after repeatedQuestions).cache.stats = ⟨4, 5, 1⟩ := by
  have built : (Program.afterEdits {} misnamedProxy).Buildable :=
    Program.Buildable.empty.afterEdits (by decide)
  have fits : ∀ query ∈ repeatedQuestions,
      query.Fits (Program.afterEdits {} misnamedProxy) := by
    decide
  refine ⟨⟨built, fits⟩, answers_independent_of_cache built {} repeatedQuestions fits, ?_⟩
  decide +kernel

end Session

end MemberResolution
