/-
What proxies register.

The store enters the proxy types one by one, by full name, and of each of them the
members in the order of declaration.  Three facts about this log are used again and
again.

  * The proxy types are entered in the strict order of their names, each once.
  * What a proxy member supplies is a relation between it and the members of the
    target type, `Supplies`, and the search in `suppliedMember` decides it.
  * A candidate is in the log for exactly the reasons `Candidacy` lists, and the
    candidates for one member stand in the order of proxy name and declaration.
-/
import Mathlib.Data.List.Sort
import MemberResolution.Proofs.WellFormed
import MemberResolution.Store

namespace MemberResolution

theorem MemberKind.symbolKind_injective {a b : MemberKind} (h : a.symbolKind = b.symbolKind) :
    a = b := by
  cases a <;> cases b <;> first | rfl | cases h

/-- The members with a signature are those that are called. -/
theorem MemberKind.hasSignature_symbolKind (kind : MemberKind) :
    kind.symbolKind.hasSignature = kind.isCallable := by
  cases kind <;> rfl

/-! ### Proxies in order -/

/-- Putting items in order is sorting them. -/
theorem inOrder_eq_insertionSort {α : Type} {before : α → α → Bool} {r : α → α → Prop}
    [DecidableRel r] (decides : ∀ a b, before a b = true ↔ r a b) (items : List α) :
    inOrder before items = items.insertionSort r := by
  unfold inOrder List.insertionSort
  congr 1
  funext item items
  induction items with
  | nil => rfl
  | cons head rest ih => simp only [insertInOrder, List.orderedInsert_cons, ih, decides]

namespace Program

variable {program : Program}

theorem orderedProxies_eq (program : Program) :
    program.orderedProxies
      = program.proxyTypes.insertionSort fun a b => a.key.text ≤ b.key.text :=
  inOrder_eq_insertionSort (fun _ _ => decide_eq_true_iff) _

theorem orderedProxies_perm (program : Program) :
    program.orderedProxies.Perm program.proxyTypes := by
  rw [orderedProxies_eq]
  exact List.perm_insertionSort _ _

theorem orderedProxies_sorted (program : Program) :
    program.orderedProxies.Pairwise fun a b => a.key.text ≤ b.key.text := by
  have : Std.Total fun a b : LoadedType => a.key.text ≤ b.key.text :=
    ⟨fun a b => String.le_total a.key.text b.key.text⟩
  have : IsTrans LoadedType fun a b => a.key.text ≤ b.key.text :=
    ⟨fun _ _ _ => String.le_trans⟩
  rw [orderedProxies_eq]
  exact List.pairwise_insertionSort _ _

theorem types_toList (program : Program) :
    program.types.toList = (List.range program.types.size).map fun i => program.type ⟨i⟩ := by
  refine List.ext_getElem (by simp) fun i hi _ => ?_
  rw [Array.length_toList] at hi
  have hget : program.types[i]? = some (program.type ⟨i⟩) := types_getElem? hi
  rw [Array.getElem?_eq_getElem hi] at hget
  simpa using Option.some.inj hget

theorem WellFormed.types_pairwise (h : program.WellFormed) :
    program.types.toList.Pairwise fun a b => a.key ≠ b.key := by
  rw [types_toList, List.pairwise_map]
  refine List.pairwise_lt_range.imp_of_mem fun {i j} hi hj hlt hkey => ?_
  have same := h.keys ⟨i⟩ ⟨j⟩ (List.mem_range.mp hi) (List.mem_range.mp hj) hkey
  rw [TypeId.mk.injEq] at same
  exact Nat.ne_of_lt hlt same

/-- **The proxies stand in the strict order of their names.** -/
theorem WellFormed.orderedProxies_strict (h : program.WellFormed) :
    program.orderedProxies.Pairwise fun a b => a.key.text < b.key.text := by
  have distinct : program.orderedProxies.Pairwise fun a b => a.key ≠ b.key :=
    (program.orderedProxies_perm.pairwise_iff fun hab hba => hab hba.symm).mpr
      (h.types_pairwise.sublist List.filter_sublist)
  refine (program.orderedProxies_sorted.and distinct).imp fun ⟨hle, hne⟩ => ?_
  refine String.not_le.mp fun hge => hne ?_
  exact congrArg TypeKey.mk (String.le_antisymm hle hge)

theorem WellFormed.orderedProxies_nodup (h : program.WellFormed) : program.orderedProxies.Nodup :=
  h.orderedProxies_strict.imp fun {a b} (before : a.key.text < b.key.text) (same : a = b) =>
    String.lt_irrefl b.key.text (same ▸ before)

/-- The order by name is the only one there is. -/
theorem WellFormed.orderedProxies_eq_of_perm (h : program.WellFormed) {proxies : List LoadedType}
    (perm : program.orderedProxies.Perm proxies)
    (sorted : proxies.Pairwise fun a b => a.key.text < b.key.text) :
    program.orderedProxies = proxies := by
  refine List.Perm.eq_of_pairwise ?_ h.orderedProxies_strict sorted perm
  intro a b _ _ hab hba
  exact absurd hab (String.lt_asymm hba)

/-- What a program lists as its types is what it has at their positions. -/
theorem WellFormed.mem_types_iff (h : program.WellFormed) {type : LoadedType} :
    type ∈ program.types.toList ↔ program.HasType type.id ∧ program.type type.id = type := by
  rw [Array.mem_toList_iff]
  refine ⟨?_, ?_⟩
  · intro hmem
    obtain ⟨id, has, rfl⟩ := exists_of_mem_types hmem
    rw [h.typeId id has]
    exact ⟨has, rfl⟩
  · intro given
    obtain ⟨has, hread⟩ := given
    rw [← hread]
    exact Array.mem_of_getElem? (types_getElem? has)

theorem mem_orderedProxies (h : program.WellFormed) {proxy : LoadedType} :
    proxy ∈ program.orderedProxies
      ↔ program.HasType proxy.id ∧ program.type proxy.id = proxy ∧ proxy.isProxy = true := by
  rw [program.orderedProxies_perm.mem_iff, proxyTypes, List.mem_filter, h.mem_types_iff, and_assoc]

theorem mem_plainTypes (h : program.WellFormed) {type : LoadedType} :
    type ∈ program.plainTypes
      ↔ program.HasType type.id ∧ program.type type.id = type ∧ type.isProxy = false := by
  rw [plainTypes, List.mem_filter, h.mem_types_iff, Bool.not_eq_true', and_assoc]

/-! ### What a proxy member supplies -/

@[simp] theorem declaringType_identityOf (program : Program) (member : LoadedMember) :
    (program.identityOf member).declaringType = some (program.type member.declaringType).key := by
  unfold identityOf identityIn Identity.returning
  split <;> rfl

@[simp] theorem kind_identityOf (program : Program) (member : LoadedMember) :
    (program.identityOf member).kind = member.kind.symbolKind := by
  unfold identityOf identityIn Identity.returning
  split <;> rfl

@[simp] theorem name_identityOf (program : Program) (member : LoadedMember) :
    (program.identityOf member).name = member.name := by
  unfold identityOf identityIn Identity.returning
  split <;> rfl

theorem WellFormed.mem_members_iff (h : program.WellFormed) {type : TypeId}
    (has : program.HasType type) {id : MemberId} :
    id ∈ (program.type type).members
      ↔ program.HasMember id ∧ (program.member id).declaringType = type := by
  refine ⟨?_, ?_⟩
  · exact h.declares type has id
  · intro given
    obtain ⟨hasMember, rfl⟩ := given
    exact h.listed id hasMember

/-- A signature as a type declares it is the identity of that member of the type which
has the signature. -/
theorem WellFormed.eq_declaredBy_iff (h : program.WellFormed) {type : TypeId}
    (has : program.HasType type) {id : MemberId} {signature : Identity} :
    (program.HasMember id
        ∧ program.identityOfMember id = signature.declaredBy (program.type type).key)
      ↔ id ∈ (program.type type).members
        ∧ (program.identityOfMember id).sameSignature signature = true := by
  rw [h.mem_members_iff has]
  have hdeclaring : (program.identityOfMember id).declaringType
      = some (program.type (program.member id).declaringType).key :=
    declaringType_identityOf program _
  simp only [Identity.sameSignature, Bool.and_eq_true, decide_eq_true_eq, and_assoc]
  refine ⟨?_, ?_⟩
  · intro given
    obtain ⟨hasMember, heq⟩ := given
    rw [heq, Identity.declaredBy, Option.some.injEq] at hdeclaring
    have htype := h.keys _ _ has (h.declaringType id hasMember) hdeclaring
    rw [heq]
    exact ⟨hasMember, htype.symm, rfl, rfl, rfl, rfl⟩
  · intro given
    obtain ⟨hasMember, rfl, hkind, hname, hparams, hreturns⟩ := given
    refine ⟨hasMember, ?_⟩
    cases hidentity : program.identityOfMember id
    rw [hidentity] at hdeclaring hkind hname hparams hreturns
    subst hkind hname hparams hreturns hdeclaring
    rfl

/-- The members of a type with a name in metadata and the kind of a given member. -/
def namesakes (program : Program) (member : LoadedMember) (type : TypeId) (name : String) :
    List MemberId :=
  (program.type type).members.filter fun id =>
    (program.member id).name.text = name && (program.member id).kind = member.kind

/-- A proxy member supplies a member of the target type: without a target name the one
with its signature, and else, of those with this name and its kind, the first one with
its parameter types, or the only one there is. -/
def Supplies (program : Program) (member : LoadedMember) (target : TypeId)
    (supplied : MemberId) : Prop :=
  match Mark.proxyTarget? member.marks with
  | none =>
    supplied ∈ (program.type target).members
      ∧ (program.identityOfMember supplied).sameSignature (program.identityOf member) = true
  | some name =>
    let named := program.namesakes member target name
    let exact := named.filter fun id => (program.member id).paramTypes = member.paramTypes
    exact.head? = some supplied ∨ exact = [] ∧ named = [supplied]

theorem namedTargets_eq (program : Program) (member : LoadedMember) (target : TypeId)
    (name : String) : program.namedTargets member target name
      = (program.namesakes member target name).map program.member := by
  unfold namedTargets membersNamed namesakes
  rw [List.filter_map, List.filter_map, List.filter_filter]
  congr 2
  funext id
  simp [Bool.and_comm]

theorem mem_of_mem_namesakes {member : LoadedMember} {target : TypeId} {name : String}
    {id : MemberId} (hmem : id ∈ program.namesakes member target name) :
    id ∈ (program.type target).members :=
  (List.mem_filter.mp hmem).1

theorem Supplies.mem_namesakes {member : LoadedMember} {target : TypeId} {supplied : MemberId}
    {name : String} (h : program.Supplies member target supplied)
    (named : Mark.proxyTarget? member.marks = some name) :
    supplied ∈ program.namesakes member target name := by
  unfold Supplies at h
  rw [named] at h
  rcases h with hexact | ⟨-, honly⟩
  · exact (List.mem_filter.mp (List.mem_of_head? hexact)).1
  · rw [honly]
    exact List.mem_singleton_self _

/-- What is supplied without a target name has the signature of what supplies it. -/
theorem Supplies.sameSignature {member : LoadedMember} {target : TypeId} {supplied : MemberId}
    (h : program.Supplies member target supplied)
    (unnamed : Mark.proxyTarget? member.marks = none) :
    supplied ∈ (program.type target).members
      ∧ (program.identityOfMember supplied).sameSignature (program.identityOf member) = true := by
  unfold Supplies at h
  rw [unnamed] at h
  exact h

theorem Supplies.mem {member : LoadedMember} {target : TypeId} {supplied : MemberId}
    (h : program.Supplies member target supplied) :
    supplied ∈ (program.type target).members := by
  cases hname : Mark.proxyTarget? member.marks with
  | none => exact (h.sameSignature hname).1
  | some name => exact mem_of_mem_namesakes (h.mem_namesakes hname)

theorem Supplies.kind {member : LoadedMember} {target : TypeId} {supplied : MemberId}
    (h : program.Supplies member target supplied) :
    (program.member supplied).kind = member.kind := by
  cases hname : Mark.proxyTarget? member.marks with
  | none =>
      have same := (h.sameSignature hname).2
      simp only [Identity.sameSignature, Bool.and_eq_true, decide_eq_true_eq] at same
      have hkind := same.1.1.1
      rw [identityOfMember, kind_identityOf, kind_identityOf] at hkind
      exact MemberKind.symbolKind_injective hkind
  | some name =>
      have named := (List.mem_filter.mp (h.mem_namesakes hname)).2
      simp only [Bool.and_eq_true, decide_eq_true_eq] at named
      exact named.2

/-- **The search finds what is supplied, and it finds nothing where nothing is.** -/
theorem WellFormed.suppliedMember_eq_ok_iff (h : program.WellFormed) {member : LoadedMember}
    {target : TypeId} (has : program.HasType target) {supplied : MemberId} :
    (∃ how, program.suppliedMember member target = .ok (supplied, how))
      ↔ program.Supplies member target supplied := by
  unfold suppliedMember Supplies
  cases Mark.proxyTarget? member.marks with
  | none =>
      simp only
      rw [← h.eq_declaredBy_iff has]
      rw [← h.findMember?_eq_some_iff]
      cases program.findMember?
        ((program.identityOf member).declaredBy (program.type target).key) with
      | none => simp
      | some found => simp
  | some name =>
      have known : ∀ id ∈ program.namesakes member target name, (program.member id).id = id :=
        fun id hmem => h.memberId id
          (h.declares target has id (mem_of_mem_namesakes hmem)).1
      simp only [namedTargets_eq]
      rw [List.find?_map, ← List.head?_filter, Function.comp_def]
      generalize program.namesakes member target name = named at known ⊢
      cases hexact : named.filter fun id => (program.member id).paramTypes = member.paramTypes with
      | cons first rest =>
          have hfirst : first ∈ named := by
            refine (List.mem_filter (p := fun id =>
              (program.member id).paramTypes = member.paramTypes)).mp ?_ |>.1
            rw [hexact]
            exact List.mem_cons_self
          simp [known first hfirst]
      | nil =>
          match named with
          | [] => simp
          | [only] => simp [known only]
          | _ :: _ :: _ => simp

end Program

/-! ### Reading the log -/

namespace StoreEntry

/-- The directive an entry gives to a symbol. -/
def directive? (symbol : Identity) : StoreEntry → Option Directive
  | .directive identity given => if identity = symbol then some given else none
  | _ => none

/-- The candidate an entry gives to a member. -/
def candidate? (target : Identity) : StoreEntry → Option ProxyCandidate
  | .candidate identity given => if identity = target then some given else none
  | _ => none

/-- The fault an entry records. -/
def fault? : StoreEntry → Option Fault
  | .fault recorded => some recorded
  | _ => none

/-- The error an entry records for a name in a type. -/
def errorAt? (type : TypeId) (name : String) : StoreEntry → Option ConfigurationError
  | .fault recorded => if recorded.place = some (type, name) then some recorded.error else none
  | _ => none

/-- The proxy an entry gives to a target type. -/
def proxy? (type : TypeId) : StoreEntry → Option TypeId
  | .proxy target given => if target = type then some given else none
  | _ => none

theorem ofMarks_filterMap {β : Type} {select : StoreEntry → Option β}
    (none : ∀ symbol given, select (.directive symbol given) = none) (symbol : Identity)
    (marks : List Mark) : (ofMarks symbol marks).filterMap select = [] := by
  unfold ofMarks
  rw [List.filterMap_map]
  exact List.filterMap_eq_nil_iff.mpr fun given _ => none symbol given

@[simp] theorem ofMarks_candidates (symbol target : Identity) (marks : List Mark) :
    (ofMarks symbol marks).filterMap (candidate? target) = [] :=
  ofMarks_filterMap (fun _ _ => rfl) symbol marks

@[simp] theorem ofMarks_faults (symbol : Identity) (marks : List Mark) :
    (ofMarks symbol marks).filterMap fault? = [] :=
  ofMarks_filterMap (fun _ _ => rfl) symbol marks

end StoreEntry

namespace Store

theorem candidatesFor_eq (store : Store) (target : Identity) :
    store.candidatesFor target = store.entries.filterMap (StoreEntry.candidate? target) :=
  rfl

theorem directivesFor_eq (store : Store) (symbol : Identity) :
    store.directivesFor symbol = store.entries.filterMap (StoreEntry.directive? symbol) :=
  rfl

theorem proxiesOf_eq (store : Store) (type : TypeId) :
    store.proxiesOf type = store.entries.filterMap (StoreEntry.proxy? type) :=
  rfl

theorem faults_eq (store : Store) : store.faults = store.entries.filterMap StoreEntry.fault? :=
  rfl

theorem errorFor?_eq (store : Store) (type : TypeId) (name : String) :
    store.errorFor? type name
      = (store.entries.filterMap (StoreEntry.errorAt? type name)).head? := by
  unfold errorFor?
  rw [faults_eq, ← List.head?_filter, ← List.head?_map, List.filter_filterMap,
    List.map_filterMap]
  congr 2
  funext entry
  cases entry with
  | fault recorded =>
      unfold StoreEntry.errorAt? StoreEntry.fault?
      by_cases here : recorded.place = some (type, name)
      · simp [here]
      · simp [here]
  | directive _ _ | candidate _ _ | proxy _ _ => rfl

/-- Selecting from the log is selecting from what each type enters. -/
theorem filterMap_ofProgram {β : Type} (program : Program) (select : StoreEntry → Option β) :
    (ofProgram program).entries.filterMap select
      = (program.plainTypes.flatMap fun type => (program.ownEntries type).filterMap select)
        ++ program.orderedProxies.flatMap fun proxy =>
          (program.proxyEntries proxy).filterMap select := by
  unfold ofProgram
  rw [List.filterMap_append, List.filterMap_flatMap, List.filterMap_flatMap]

end Store

namespace Program

variable {program : Program}

/-- By themselves types enter directives and nothing else. -/
theorem ownEntries_filterMap {β : Type} {select : StoreEntry → Option β}
    (none : ∀ symbol given, select (.directive symbol given) = none) (program : Program)
    (type : LoadedType) : (program.ownEntries type).filterMap select = [] := by
  unfold ownEntries
  rw [List.filterMap_append, List.filterMap_append, List.filterMap_flatMap,
    StoreEntry.ofMarks_filterMap none]
  simp only [StoreEntry.ofMarks_filterMap none, List.append_nil]
  split <;> simp [none]

/-- What is no directive comes from proxies. -/
theorem filterMap_ofProgram_proxies {β : Type} {select : StoreEntry → Option β}
    (none : ∀ symbol given, select (.directive symbol given) = none) (program : Program) :
    (Store.ofProgram program).entries.filterMap select
      = program.orderedProxies.flatMap fun proxy =>
          (program.proxyEntries proxy).filterMap select := by
  rw [Store.filterMap_ofProgram]
  simp [ownEntries_filterMap none]

/-! ### Live proxies -/

/-- The target and inheritability of a proxy type that has its target and does not stand
inside an ignored type. -/
def liveTarget? (program : Program) (proxy : LoadedType) : Option (TypeId × Bool) :=
  match Mark.proxyOf? proxy.marks with
  | none => none
  | some (key, inheritable) =>
    if program.isInsideIgnored proxy.id then none
    else (program.findType? key).map fun target => (target, inheritable)

theorem WellFormed.liveTarget?_eq_some_iff (h : program.WellFormed) {proxy : LoadedType}
    {target : TypeId} {inheritable : Bool} :
    program.liveTarget? proxy = some (target, inheritable)
      ↔ program.HasType target
        ∧ Mark.proxyOf? proxy.marks = some ((program.type target).key, inheritable)
        ∧ program.isInsideIgnored proxy.id = false := by
  unfold liveTarget?
  cases hmark : Mark.proxyOf? proxy.marks with
  | none => simp
  | some pointer =>
      obtain ⟨key, inh⟩ := pointer
      cases hinside : program.isInsideIgnored proxy.id with
      | true => simp
      | false =>
          simp only [Bool.false_eq_true, if_false, Option.map_eq_some_iff, Prod.mk.injEq,
            Option.some.injEq, and_true]
          refine ⟨?_, ?_⟩
          · intro given
            obtain ⟨found, hfind, rfl, rfl⟩ := given
            obtain ⟨has, hkey⟩ := h.findType?_eq_some_iff.mp hfind
            exact ⟨has, hkey.symm, rfl⟩
          · intro given
            obtain ⟨has, rfl, rfl⟩ := given
            exact ⟨target, h.findType?_eq_some_iff.mpr ⟨has, rfl⟩, rfl, rfl⟩

theorem proxyEntries_of_live {proxy : LoadedType} {target : TypeId} {inheritable : Bool}
    (live : program.liveTarget? proxy = some (target, inheritable)) :
    program.proxyEntries proxy
      = .proxy target proxy.id
        :: StoreEntry.ofMarks (program.identityOfType target) proxy.marks
        ++ if Mark.isIgnored proxy.marks then []
          else proxy.members.flatMap (program.memberEntries proxy inheritable target) := by
  revert live
  unfold liveTarget? proxyEntries
  cases Mark.proxyOf? proxy.marks with
  | none => exact nofun
  | some pointer =>
      obtain ⟨key, inh⟩ := pointer
      simp only
      by_cases hinside : program.isInsideIgnored proxy.id = true
      · rw [if_pos hinside]
        exact nofun
      · rw [if_neg hinside, if_neg hinside]
        intro live
        obtain ⟨found, hfind, hpair⟩ := Option.map_eq_some_iff.mp live
        obtain ⟨rfl, rfl⟩ := Prod.mk.inj hpair
        rw [hfind]

/-- A proxy type that is not live enters nothing but what is wrong with it. -/
theorem proxyEntries_of_not_live {proxy : LoadedType}
    (dead : program.liveTarget? proxy = none) :
    ∀ entry ∈ program.proxyEntries proxy, ∃ fault, entry = .fault fault := by
  revert dead
  unfold liveTarget? proxyEntries
  cases Mark.proxyOf? proxy.marks with
  | none =>
      intro _ entry hmem
      cases hmem
  | some pointer =>
      obtain ⟨key, inh⟩ := pointer
      simp only
      by_cases hinside : program.isInsideIgnored proxy.id = true
      · rw [if_pos hinside, if_pos hinside]
        intro _ entry hmem
        cases hmem
      · rw [if_neg hinside, if_neg hinside]
        intro dead entry hmem
        rw [Option.map_eq_none_iff.mp dead] at hmem
        exact ⟨_, List.mem_singleton.mp hmem⟩

/-! ### Candidates -/

/-- How the body of a proxy member takes the place of its target's. -/
def proxyMode (member : LoadedMember) : ProxyMode :=
  if Mark.suppressesBaseCall member.marks then .replaceBodySuppressBaseCall else .replaceBody

/-- Whether a proxy member has a body of its own to supply. -/
def hasProxyBody (member : LoadedMember) : Bool :=
  member.body = .present && !Mark.isExternal member.marks

/-- The candidate that a proxy member is for the member it supplies. -/
def candidateOf (program : Program) (proxy : TypeId) (inheritable : Bool)
    (id supplied : MemberId) : ProxyCandidate :=
  ⟨id, proxy, supplied, proxyMode (program.member id), inheritable,
    hasProxyBody (program.member id)⟩

/-- Whether a proxy member that takes part offers a body as well as its directives. -/
def offersBody (member : LoadedMember) : Bool :=
  member.kind.isCallable && !Mark.isIgnored member.marks

/-- Everything a candidate is in the log for. -/
structure Candidacy (program : Program) (target : TypeId) (candidate : ProxyCandidate) : Prop where
  known : program.HasType candidate.proxyType
  targetKnown : program.HasType target
  /-- The first proxy mark names the target. -/
  pointsAt : Mark.proxyOf? (program.type candidate.proxyType).marks
    = some ((program.type target).key, candidate.inheritable)
  /-- No type around the proxy type is ignored. -/
  live : program.isInsideIgnored candidate.proxyType = false
  /-- Nor is the proxy type itself. -/
  kept : Mark.isIgnored (program.type candidate.proxyType).marks = false
  listed : candidate.member ∈ (program.type candidate.proxyType).members
  takesPart : program.isInert (program.member candidate.member) = false
  offers : offersBody (program.member candidate.member) = true
  supplies : program.Supplies (program.member candidate.member) target candidate.target
  made : candidate = program.candidateOf candidate.proxyType candidate.inheritable
    candidate.member candidate.target

theorem Candidacy.liveTarget?_type (h : program.WellFormed) {target : TypeId}
    {candidate : ProxyCandidate} (candidacy : program.Candidacy target candidate) :
    program.liveTarget? (program.type candidate.proxyType)
      = some (target, candidate.inheritable) := by
  refine h.liveTarget?_eq_some_iff.mpr ⟨candidacy.targetKnown, candidacy.pointsAt, ?_⟩
  rw [h.typeId _ candidacy.known]
  exact candidacy.live

theorem Candidacy.type_mem_orderedProxies (h : program.WellFormed) {target : TypeId}
    {candidate : ProxyCandidate} (candidacy : program.Candidacy target candidate) :
    program.type candidate.proxyType ∈ program.orderedProxies := by
  refine (mem_orderedProxies h).mpr ?_
  rw [h.typeId _ candidacy.known]
  refine ⟨candidacy.known, rfl, ?_⟩
  unfold LoadedType.isProxy
  rw [candidacy.pointsAt]
  rfl

/-- The candidate a proxy member registers for the member with an identity. -/
def offer? (program : Program) (proxy : TypeId) (inheritable : Bool) (target : TypeId)
    (identity : Identity) (id : MemberId) : Option ProxyCandidate :=
  if !program.isInert (program.member id) && offersBody (program.member id) then
    match program.suppliedMember (program.member id) target with
    | .error _ => none
    | .ok (supplied, _) =>
      if program.identityOfMember supplied = identity then
        some (program.candidateOf proxy inheritable id supplied)
      else none
  else none

theorem memberEntries_candidates (program : Program) (proxy : LoadedType) (inheritable : Bool)
    (target : TypeId) (id : MemberId) (identity : Identity) :
    (program.memberEntries proxy inheritable target id).filterMap
        (StoreEntry.candidate? identity)
      = (program.offer? proxy.id inheritable target identity id).toList := by
  unfold memberEntries offer? offersBody
  by_cases inert : program.isInert (program.member id) = true
  · simp [inert]
  · simp only [inert]
    cases program.suppliedMember (program.member id) target with
    | error fault => simp [StoreEntry.candidate?]
    | ok found =>
        obtain ⟨supplied, how⟩ := found
        cases (program.member id).kind.isCallable <;>
          cases Mark.isIgnored (program.member id).marks <;>
          by_cases hidentity : program.identityOfMember supplied = identity <;>
          simp [hidentity, List.filterMap_cons, StoreEntry.candidate?, candidateOf, proxyMode,
            hasProxyBody]

theorem proxyEntries_candidates (program : Program) (proxy : LoadedType) (identity : Identity) :
    (program.proxyEntries proxy).filterMap (StoreEntry.candidate? identity)
      = match program.liveTarget? proxy with
        | none => []
        | some (target, inheritable) =>
          if Mark.isIgnored proxy.marks then []
          else proxy.members.filterMap
            (program.offer? proxy.id inheritable target identity) := by
  cases hlive : program.liveTarget? proxy with
  | none =>
      refine List.filterMap_eq_nil_iff.mpr fun entry hmem => ?_
      obtain ⟨fault, rfl⟩ := proxyEntries_of_not_live hlive entry hmem
      rfl
  | some live =>
      obtain ⟨target, inheritable⟩ := live
      rw [proxyEntries_of_live hlive]
      cases Mark.isIgnored proxy.marks with
      | true => simp [List.filterMap_cons, StoreEntry.candidate?]
      | false =>
          simp only [List.cons_append, List.filterMap_cons, StoreEntry.candidate?,
            List.filterMap_append, StoreEntry.ofMarks_candidates, List.nil_append,
            Bool.false_eq_true, if_false, List.filterMap_flatMap, memberEntries_candidates]
          exact (List.filterMap_eq_flatMap_toList _ _).symm

theorem candidatesFor_ofProgram (program : Program) (identity : Identity) :
    (Store.ofProgram program).candidatesFor identity
      = program.orderedProxies.flatMap fun proxy =>
          (program.proxyEntries proxy).filterMap (StoreEntry.candidate? identity) :=
  filterMap_ofProgram_proxies (fun _ _ => rfl) program

/-- What a member offers, and why. -/
theorem WellFormed.offer?_eq_some_iff (h : program.WellFormed) {proxy target : TypeId}
    (has : program.HasType target) {inheritable : Bool} {identity : Identity} {id : MemberId}
    {candidate : ProxyCandidate} :
    program.offer? proxy inheritable target identity id = some candidate
      ↔ program.isInert (program.member id) = false ∧ offersBody (program.member id) = true
        ∧ ∃ supplied, program.Supplies (program.member id) target supplied
          ∧ program.identityOfMember supplied = identity
          ∧ candidate = program.candidateOf proxy inheritable id supplied := by
  unfold offer?
  by_cases offers : program.isInert (program.member id) = false
      ∧ offersBody (program.member id) = true
  · obtain ⟨active, body⟩ := offers
    simp only [active, body, Bool.not_false, Bool.and_self, if_true, true_and,
      ← h.suppliedMember_eq_ok_iff has]
    cases program.suppliedMember (program.member id) target with
    | error fault => simp
    | ok found =>
        obtain ⟨supplied, how⟩ := found
        simp only [Except.ok.injEq, Prod.mk.injEq, exists_and_left, exists_eq', and_true]
        refine ⟨?_, ?_⟩
        · intro hsome
          by_cases hidentity : program.identityOfMember supplied = identity
          · rw [if_pos hidentity, Option.some.injEq] at hsome
            exact ⟨supplied, rfl, hidentity, hsome.symm⟩
          · rw [if_neg hidentity] at hsome
            cases hsome
        · intro given
          obtain ⟨_, rfl, hidentity, rfl⟩ := given
          exact if_pos hidentity
  · rw [if_neg (by simpa using offers)]
    refine ⟨?_, ?_⟩
    · intro hnone
      cases hnone
    · intro given
      obtain ⟨active, body, -⟩ := given
      exact absurd ⟨active, body⟩ offers

/-- **What is in the log as a candidate, and why.** -/
theorem WellFormed.mem_candidatesFor_iff (h : program.WellFormed) {identity : Identity}
    {candidate : ProxyCandidate} :
    candidate ∈ (Store.ofProgram program).candidatesFor identity
      ↔ program.identityOfMember candidate.target = identity
        ∧ ∃ target, program.Candidacy target candidate := by
  rw [candidatesFor_ofProgram, List.mem_flatMap]
  refine ⟨?_, ?_⟩
  · intro given
    obtain ⟨proxy, hproxy, hmem⟩ := given
    obtain ⟨has, hread, -⟩ := (mem_orderedProxies h).mp hproxy
    rw [proxyEntries_candidates] at hmem
    cases hlive : program.liveTarget? proxy with
    | none => simp [hlive] at hmem
    | some live =>
        obtain ⟨target, inheritable⟩ := live
        obtain ⟨hasTarget, points, live⟩ := h.liveTarget?_eq_some_iff.mp hlive
        cases kept : Mark.isIgnored proxy.marks with
        | true => simp [hlive, kept] at hmem
        | false =>
            simp only [hlive, kept, Bool.false_eq_true, if_false] at hmem
            obtain ⟨id, hid, hoffer⟩ := List.mem_filterMap.mp hmem
            obtain ⟨active, body, supplied, supplies, hidentity, rfl⟩ :=
              (h.offer?_eq_some_iff hasTarget).mp hoffer
            rw [← hread] at points kept hid
            exact ⟨hidentity, target, has, hasTarget, points, live, kept, hid, active, body,
              supplies, rfl⟩
  · intro given
    obtain ⟨hidentity, target, candidacy⟩ := given
    refine ⟨program.type candidate.proxyType, candidacy.type_mem_orderedProxies h, ?_⟩
    rw [proxyEntries_candidates, candidacy.liveTarget?_type h, h.typeId _ candidacy.known]
    simp only [candidacy.kept, Bool.false_eq_true, if_false]
    exact List.mem_filterMap.mpr ⟨candidate.member, candidacy.listed,
      (h.offer?_eq_some_iff candidacy.targetKnown).mpr
        ⟨candidacy.takesPart, candidacy.offers, _, candidacy.supplies, hidentity, candidacy.made⟩⟩

/-! ### The order of candidates -/

/-- In a list without repetition what stands earlier has the smaller position. -/
theorem pairwise_idxOf {α : Type} [DecidableEq α] {list : List α} (nodup : list.Nodup) :
    list.Pairwise fun a b => list.idxOf a < list.idxOf b := by
  refine List.pairwise_iff_getElem.mpr fun i j hi hj hij => ?_
  rw [nodup.idxOf_getElem i hi, nodup.idxOf_getElem j hj]
  exact hij

theorem WellFormed.members_nodup (h : program.WellFormed) {type : TypeId}
    (has : program.HasType type) : (program.type type).members.Nodup :=
  (h.ordered type has).imp fun hlt heq => Nat.ne_of_lt hlt (congrArg MemberId.index heq)

/-- A candidate is of a proxy type with a smaller name than another, or both are of one
proxy type and it is declared earlier. -/
def RegisteredBefore (program : Program) (a b : ProxyCandidate) : Prop :=
  (program.type a.proxyType).key.text < (program.type b.proxyType).key.text
    ∨ a.proxyType = b.proxyType
      ∧ (program.type a.proxyType).members.idxOf a.member
        < (program.type a.proxyType).members.idxOf b.member

/-- What a member offers is a candidate for the member, of the given proxy type. -/
theorem offer?_eq_some {proxy target : TypeId} {inheritable : Bool} {identity : Identity}
    {id : MemberId} {candidate : ProxyCandidate}
    (offer : program.offer? proxy inheritable target identity id = some candidate) :
    candidate.proxyType = proxy ∧ candidate.member = id := by
  unfold offer? at offer
  split at offer
  · split at offer
    · cases offer
    · split at offer
      · cases offer
        exact ⟨rfl, rfl⟩
      · cases offer
  · cases offer

theorem mem_proxyEntries_candidates {proxy : LoadedType} {identity : Identity}
    {candidate : ProxyCandidate}
    (hmem : candidate ∈ (program.proxyEntries proxy).filterMap (StoreEntry.candidate? identity)) :
    candidate.proxyType = proxy.id := by
  rw [proxyEntries_candidates] at hmem
  split at hmem
  · cases hmem
  · split at hmem
    · cases hmem
    · obtain ⟨id, -, offer⟩ := List.mem_filterMap.mp hmem
      exact (offer?_eq_some offer).1

/-- **Candidates stand in the order of proxy name and declaration.** -/
theorem WellFormed.candidatesFor_ordered (h : program.WellFormed) (identity : Identity) :
    ((Store.ofProgram program).candidatesFor identity).Pairwise program.RegisteredBefore := by
  rw [candidatesFor_ofProgram]
  refine List.pairwise_flatMap.mpr ⟨fun proxy hproxy => ?_, ?_⟩
  -- Of one proxy type: in the order of its members.
  · obtain ⟨has, hread, -⟩ := (mem_orderedProxies h).mp hproxy
    rw [proxyEntries_candidates]
    split
    · exact List.Pairwise.nil
    · split
      · exact List.Pairwise.nil
      · have declared := pairwise_idxOf (h.members_nodup has)
        rw [hread] at declared
        refine declared.filterMap _ fun id later hlt a hoffer b hlater => .inr ?_
        obtain ⟨hproxyA, hmemberA⟩ := offer?_eq_some hoffer
        obtain ⟨hproxyB, hmemberB⟩ := offer?_eq_some hlater
        rw [hproxyA, hproxyB, hmemberA, hmemberB, hread]
        exact ⟨rfl, hlt⟩
  -- Of two: in the order of their names.
  · refine List.Pairwise.imp_of_mem ?_ h.orderedProxies_strict
    intro first later hfirst hlater hlt a ha b hb
    obtain ⟨-, hreadFirst, -⟩ := (mem_orderedProxies h).mp hfirst
    obtain ⟨-, hreadLater, -⟩ := (mem_orderedProxies h).mp hlater
    refine .inl ?_
    rw [mem_proxyEntries_candidates ha, mem_proxyEntries_candidates hb, hreadFirst, hreadLater]
    exact hlt

end Program

end MemberResolution
