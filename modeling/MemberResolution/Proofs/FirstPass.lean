/-
The first pass finds nothing in the cache.

A report asks for every type that is no proxy and for each of its members once.  A session
that has been asked nothing keeps nothing, and what it keeps later it keeps under the
identity of something it was asked for; no two symbols share one.  So as long as no question
is put twice, none is answered from the cache, and the counts of a report can be told from
the program alone.  `Session.HasAsked` is this invariant, and a question keeps it if what it
asks for was not asked for before.
-/
import Mathlib.Data.List.Flatten
import MemberResolution.Proofs.Effective
import MemberResolution.Proofs.SameEntries
import MemberResolution.Proofs.WholePass

namespace MemberResolution

namespace Program

/-- The position is that of a loaded type or member. -/
def HasSymbol (program : Program) : SymbolId → Prop
  | .type id => program.HasType id
  | .member id => program.HasMember id

/-- A type, then its members. -/
def symbolsOf (type : LoadedType) : List SymbolId :=
  .type type.id :: type.members.map .member

/-- Every type that is no proxy, each followed by its members. -/
def plainSymbols (program : Program) : List SymbolId :=
  program.plainTypes.flatMap symbolsOf

variable {program : Program}

/-- No symbol stands among them twice. -/
theorem WellFormed.plainSymbols_nodup (h : program.WellFormed) : program.plainSymbols.Nodup := by
  refine List.nodup_flatMap.mpr ⟨fun type hmem => ?_, ?_⟩
  · obtain ⟨has, hread, -⟩ := (mem_plainTypes h).mp hmem
    have declared := h.members_nodup has
    rw [hread] at declared
    refine List.nodup_cons.mpr ⟨by simp, declared.map fun a b hab => ?_⟩
    cases hab
    rfl
  · refine (h.types_pairwise.sublist List.filter_sublist).imp_of_mem fun {a b} ha hb hne => ?_
    obtain ⟨hasA, readA, -⟩ := (mem_plainTypes h).mp ha
    obtain ⟨hasB, readB, -⟩ := (mem_plainTypes h).mp hb
    have apart : a.id ≠ b.id := by
      intro hid
      rw [← readA, ← readB, hid] at hne
      exact hne rfl
    intro symbol inA inB
    rcases List.mem_cons.mp inA with rfl | hmemberA
    · rcases List.mem_cons.mp inB with hid | hmemberB
      · exact apart (SymbolId.type.inj hid)
      · simp at hmemberB
    · obtain ⟨id, hidA, rfl⟩ := List.mem_map.mp hmemberA
      have hidB : id ∈ b.members := by simpa [symbolsOf] using inB
      rw [← readA] at hidA
      rw [← readB] at hidB
      exact apart ((h.declares _ hasA id hidA).2.symm.trans (h.declares _ hasB id hidB).2)

theorem WellFormed.plainMembers_nodup (h : program.WellFormed) :
    (program.plainTypes.flatMap (·.members)).Nodup := by
  refine List.Nodup.of_map SymbolId.member (h.plainSymbols_nodup.sublist ?_)
  rw [List.map_flatMap]
  exact List.Sublist.flatMap_right _ fun type _ => List.sublist_cons_self _ _

theorem SameSkeleton.plainSymbols {p q : Program} (h : p.SameSkeleton q) :
    q.plainSymbols = p.plainSymbols := by
  unfold Program.plainSymbols
  rw [h.plainTypes, List.flatMap_map]
  refine List.flatMap_congr fun type hmem => ?_
  obtain ⟨has, hread, -⟩ := (mem_plainTypes h.before).mp hmem
  unfold symbolsOf
  rw [h.after.typeId _ (h.hasType.mpr has), h.extend.listed has, hread]

end Program

/-! ### What a cache keeps -/

namespace Cache

/-- Whatever is kept is kept under the identity of one of some symbols. -/
structure KeepsOnly (program : Program) (asked : List SymbolId) (cache : Cache) : Prop where
  members : ∀ identity, cache.members.find? identity ≠ none →
    ∃ id, .member id ∈ asked ∧ program.identityOfMember id = identity
  types : ∀ identity, cache.types.find? identity ≠ none →
    ∃ id, .type id ∈ asked ∧ program.identityOfType id = identity

variable {program : Program} {asked : List SymbolId} {cache : Cache}

theorem KeepsOnly.append (h : cache.KeepsOnly program asked) (further : List SymbolId) :
    cache.KeepsOnly program (asked ++ further) := by
  refine ⟨fun identity found => ?_, fun identity found => ?_⟩
  · obtain ⟨id, hmem, hidentity⟩ := h.members identity found
    exact ⟨id, List.mem_append_left _ hmem, hidentity⟩
  · obtain ⟨id, hmem, hidentity⟩ := h.types identity found
    exact ⟨id, List.mem_append_left _ hmem, hidentity⟩

theorem KeepsOnly.insertMember (h : cache.KeepsOnly program asked) {id : MemberId}
    (hmem : .member id ∈ asked) (resolved : ResolvedMember) :
    (cache.insertMember (program.identityOfMember id) resolved).KeepsOnly program asked := by
  unfold Cache.insertMember
  split
  · refine ⟨fun identity found => ?_, h.types⟩
    simp only [Memo.find?_insert] at found
    split at found
    · exact ⟨id, hmem, ‹_›⟩
    · exact h.members identity found
  · exact h

theorem KeepsOnly.insertType (h : cache.KeepsOnly program asked) {id : TypeId}
    (hmem : .type id ∈ asked) (resolved : ResolvedType) :
    (cache.insertType (program.identityOfType id) resolved).KeepsOnly program asked := by
  unfold Cache.insertType
  split
  · refine ⟨h.members, fun identity found => ?_⟩
    simp only [Memo.find?_insert] at found
    split at found
    · exact ⟨id, hmem, ‹_›⟩
    · exact h.types identity found
  · exact h

theorem stats_insertMember (cache : Cache) (identity : Identity) (resolved : ResolvedMember) :
    (cache.insertMember identity resolved).stats = cache.stats := by
  unfold Cache.insertMember
  split <;> rfl

theorem stats_insertType (cache : Cache) (identity : Identity) (resolved : ResolvedType) :
    (cache.insertType identity resolved).stats = cache.stats := by
  unfold Cache.insertType
  split <;> rfl

end Cache

/-! ### What a session was asked for -/

namespace Session

/-- A session about a program was asked for some symbols, each for the first time. -/
structure HasAsked (program : Program) (asked : List SymbolId) (session : Session) : Prop where
  program_eq : session.resolver.program = program
  known : ∀ symbol ∈ asked, program.HasSymbol symbol
  keeps : session.cache.KeepsOnly program asked
  stats : session.cache.stats = { misses := asked.length }

theorem hasAsked_start (program : Program) (options : Options) :
    (start program options).HasAsked program [] :=
  ⟨rfl, nofun, ⟨fun _ found => absurd rfl found, fun _ found => absurd rfl found⟩, rfl⟩

end Session

namespace Ask

/-- A question asks for some symbols, in order: where it succeeds and none of them was asked
for before, they are what was asked for in addition. -/
def AsksFor (program : Program) {α : Type} (question : Ask α) (symbols : List SymbolId) : Prop :=
  ∀ earlier session, Session.HasAsked program earlier session → (earlier ++ symbols).Nodup →
    ∀ result, (session.answer question).1 = .ok result →
      (session.answer question).2.HasAsked program (earlier ++ symbols)

namespace AsksFor

variable {program : Program} {α β : Type}

theorem pure (result : α) : AsksFor program (pure result) [] := by
  intro earlier session h _ _ _
  rw [List.append_nil]
  exact h

theorem bind {first : Ask α} {next : α → Ask β} {symbols further : List SymbolId}
    (hfirst : AsksFor program first symbols)
    (hnext : ∀ result, AsksFor program (next result) further) :
    AsksFor program (first >>= next) (symbols ++ further) := by
  intro earlier session h nodup result hresult
  rw [← List.append_assoc] at nodup ⊢
  rw [Session.answer_bind] at hresult ⊢
  have asked := hfirst earlier session h (nodup.sublist (List.sublist_append_left _ _))
  cases hanswer : session.answer first with
  | mk outcome between =>
      rw [hanswer] at hresult asked
      cases outcome with
      | error error => cases hresult
      | ok found => exact hnext found _ between (asked found rfl) nodup result hresult

theorem get_bind {next : Session → Ask α} {symbols : List SymbolId}
    (h : ∀ session, session.resolver.program = program → AsksFor program (next session) symbols) :
    AsksFor program (get >>= next) symbols :=
  fun earlier session asked nodup result hresult =>
    h session asked.program_eq earlier session asked nodup result hresult

theorem lift (outcome : Except ConfigurationError α) : AsksFor program (liftM outcome) [] := by
  cases outcome with
  | error error => exact fun _ _ _ _ _ hresult => by cases hresult
  | ok result => exact .pure result

theorem mapM {question : α → Ask β} {symbols : α → List SymbolId} {items : List α}
    (each : ∀ item ∈ items, AsksFor program (question item) (symbols item)) :
    AsksFor program (items.mapM question) (items.flatMap symbols) := by
  induction items with
  | nil => exact .pure []
  | cons item rest ih =>
      rw [List.mapM_cons, List.flatMap_cons]
      refine (each item List.mem_cons_self).bind fun first => ?_
      rw [← List.append_nil (rest.flatMap symbols)]
      exact (ih fun other hmem => each other (List.mem_cons_of_mem _ hmem)).bind fun _ => .pure _

end AsksFor

end Ask

namespace Session

/-! ### Questions for what is not kept -/

/-- What is not kept is found afresh and kept from then on. -/
theorem answer_memoized_of_missing {α : Type} {session : Session} {find : Cache → Option α × Cache}
    {fresh : Except ConfigurationError α} {keep : α → Cache → Cache}
    (missing : (find session.cache).1 = none) {result : α}
    (hresult : (session.answer (Ask.memoized find (liftM fresh) keep)).1 = .ok result) :
    (session.answer (Ask.memoized find (liftM fresh) keep)).2
      = { session with cache := keep result (find session.cache).2 } := by
  have looked : session.answer (Ask.lookUp find)
      = (.ok none, { session with cache := (find session.cache).2 }) := by
    rw [← missing]
    rfl
  unfold Ask.memoized at hresult ⊢
  rw [answer_bind, looked] at hresult ⊢
  cases fresh with
  | error error => cases hresult
  | ok found =>
      cases hresult
      rfl

variable {program : Program} {asked : List SymbolId} {session : Session}

/-- A look-up that finds nothing, and what is kept after it. -/
theorem HasAsked.miss (h : session.HasAsked program asked) (symbol : SymbolId)
    (has : program.HasSymbol symbol) (keep : Cache → Cache)
    (keeps : ∀ cache : Cache, cache.KeepsOnly program (asked ++ [symbol]) →
      (keep cache).KeepsOnly program (asked ++ [symbol]))
    (stats : ∀ cache, (keep cache).stats = cache.stats) :
    HasAsked program (asked ++ [symbol])
      { session with cache := keep (session.cache.record false) } := by
  refine ⟨h.program_eq, fun other hmem => ?_, ?_, ?_⟩
  · rcases List.mem_append.mp hmem with hearlier | hnew
    · exact h.known other hearlier
    · rw [List.mem_singleton.mp hnew]
      exact has
  · have kept := h.keeps.append [symbol]
    exact keeps _ ⟨kept.members, kept.types⟩
  · rw [stats, List.length_append]
    unfold Cache.record
    rw [h.stats]
    rfl

/-- A member is looked for in the cache, and it is not there. -/
theorem asksFor_resolveMember (wellFormed : program.WellFormed) {id : MemberId}
    (has : program.HasMember id) :
    Ask.AsksFor program (Ask.resolveMember id) [.member id] := by
  intro earlier session h nodup result hresult
  have missing : session.cache.members.find? (program.identityOfMember id) = none := by
    by_contra found
    obtain ⟨other, hmem, hidentity⟩ := h.keeps.members _ found
    have same := wellFormed.identities other id (h.known _ hmem) has hidentity
    subst same
    exact (List.nodup_append.mp nodup).2.2 _ hmem _ (List.mem_singleton_self _) rfl
  rw [← h.program_eq] at missing
  rw [Ask.resolveMember_eq, answer_get_bind] at hresult ⊢
  rw [answer_memoized_of_missing missing hresult]
  have looked : (session.cache.member (session.resolver.program.identityOfMember id)).2
      = session.cache.record false := by
    unfold Cache.member
    rw [missing]
    rfl
  simp only [looked]
  rw [h.program_eq]
  exact h.miss (.member id) has (·.insertMember (program.identityOfMember id) result)
    (fun cache keeps => keeps.insertMember (by simp) result)
    fun cache => cache.stats_insertMember _ result

theorem asksFor_resolveType (wellFormed : program.WellFormed) {id : TypeId}
    (has : program.HasType id) :
    Ask.AsksFor program (Ask.resolveType id) [.type id] := by
  intro earlier session h nodup result hresult
  have missing : session.cache.types.find? (program.identityOfType id) = none := by
    by_contra found
    obtain ⟨other, hmem, hidentity⟩ := h.keeps.types _ found
    have same := wellFormed.identityOfType_injective (h.known _ hmem) has hidentity
    subst same
    exact (List.nodup_append.mp nodup).2.2 _ hmem _ (List.mem_singleton_self _) rfl
  rw [← h.program_eq] at missing
  rw [Ask.resolveType_eq, answer_get_bind] at hresult ⊢
  have fresh : (pure (session.resolver.resolveType id) : Ask ResolvedType)
      = liftM (Except.ok (session.resolver.resolveType id) : Except ConfigurationError _) := rfl
  simp only [fresh] at hresult ⊢
  rw [answer_memoized_of_missing missing hresult]
  have looked : (session.cache.type (session.resolver.program.identityOfType id)).2
      = session.cache.record false := by
    unfold Cache.type
    rw [missing]
    rfl
  simp only [looked]
  rw [h.program_eq]
  exact h.miss (.type id) has (·.insertType (program.identityOfType id) result)
    (fun cache keeps => keeps.insertType (by simp) result)
    fun cache => cache.stats_insertType _ result

/-! ### Reports -/

theorem asksFor_pass {μ τ : Type} (wellFormed : program.WellFormed)
    (ofMember : MemberId → ResolvedMember → μ) (ofType : TypeId → ResolvedType → List μ → τ) :
    Ask.AsksFor program (Ask.pass ofMember ofType program.plainTypes) program.plainSymbols := by
  refine Ask.AsksFor.mapM fun type hmem => ?_
  obtain ⟨has, hread, -⟩ := (Program.mem_plainTypes wellFormed).mp hmem
  have member : ∀ id ∈ type.members, Ask.AsksFor program
      (do return ofMember id (← Ask.resolveMember id)) [.member id] := by
    intro id hid
    rw [← hread] at hid
    have asks := asksFor_resolveMember wellFormed (wellFormed.declares type.id has id hid).1
    rw [← List.append_nil [SymbolId.member id]]
    exact asks.bind fun resolved => .pure _
  unfold Program.symbolsOf
  rw [← List.singleton_append]
  refine (asksFor_resolveType wellFormed has).bind fun resolved => ?_
  rw [← List.append_nil (type.members.map SymbolId.member), List.map_eq_flatMap]
  exact (Ask.AsksFor.mapM member).bind fun members => .pure _

theorem asksFor_report (wellFormed : program.WellFormed) :
    Ask.AsksFor program Ask.report program.plainSymbols := by
  have validate : Ask.AsksFor program Ask.validate [] :=
    .get_bind fun session _ => .lift session.resolver.validate
  rw [Ask.report_eq, ← List.nil_append program.plainSymbols]
  refine validate.bind fun _ => .get_bind fun session hprogram => ?_
  subst hprogram
  rw [← List.append_nil session.resolver.program.plainSymbols]
  exact (asksFor_pass wellFormed _ _).bind fun types => .get_bind fun after _ => .pure _

end Session

/-- **A report counts one miss for each symbol in it, and no hit**, with a cache or without. -/
theorem Program.resolve_eq {program : Program} (wellFormed : program.WellFormed)
    (options : Options) :
    program.resolve options
      = Report.ofRows program options.completeMessages { misses := program.plainSymbols.length }
          <$> (Session.start program options).resolver.resolveAll := by
  have whole := Session.answer_report (Session.sound_start wellFormed options)
  have counts := Session.asksFor_report wellFormed [] (Session.start program options)
    (Session.hasAsked_start program options) wellFormed.plainSymbols_nodup
  unfold Program.resolve
  cases hall : (Session.start program options).resolver.resolveAll with
  | error error =>
      rw [hall] at whole
      exact whole
  | ok rows =>
      rw [hall] at whole
      rw [whole, (counts _ whole).stats]
      rfl

end MemberResolution
