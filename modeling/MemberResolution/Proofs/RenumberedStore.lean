/-
The store of a program in a new order.

Proxies enter the log in the order of their names, so that part of the log is the old
one, entry by entry, with its positions renumbered.  Plain types enter in loading order,
and there the logs differ; but what they enter is directives, and no two of them enter
any for one symbol.  So every question to the store has the old answer, renumbered, and
where the answer holds no positions, just the old answer.
-/
import MemberResolution.Proofs.Renumbering

namespace MemberResolution

namespace Renumbering

variable (ρ : Renumbering)

/-- A candidate with all positions in it renumbered. -/
def onCandidate (candidate : ProxyCandidate) : ProxyCandidate :=
  { candidate with
    member := ρ.member candidate.member
    proxyType := ρ.type candidate.proxyType
    target := ρ.member candidate.target }

/-- An entry of the log with all positions in it renumbered. -/
def onEntry : StoreEntry → StoreEntry
  | .directive symbol directive => .directive symbol directive
  | .candidate target candidate => .candidate target (ρ.onCandidate candidate)
  | .proxy target proxy => .proxy (ρ.type target) (ρ.type proxy)
  | .fault fault => .fault (ρ.onFault fault)

variable {ρ} {p q : Program}

namespace Carries

/-! ### What types enter -/

theorem ofMarks_onEntry (ρ : Renumbering) (symbol : Identity) (marks : List Mark) :
    (StoreEntry.ofMarks symbol marks).map ρ.onEntry = StoreEntry.ofMarks symbol marks := by
  unfold StoreEntry.ofMarks
  rw [List.map_map]
  rfl

theorem ownEntries (h : ρ.Carries p q) {id : TypeId} (has : p.HasType id) :
    q.ownEntries (q.type (ρ.type id)) = p.ownEntries (p.type id) := by
  have members : ((q.type (ρ.type id)).members.flatMap fun member =>
        StoreEntry.ofMarks (q.identityOfMember member) (q.member member).marks)
      = (p.type id).members.flatMap fun member =>
        StoreEntry.ofMarks (p.identityOfMember member) (p.member member).marks := by
    rw [h.listed has, List.flatMap_map]
    refine List.flatMap_congr fun member listed => ?_
    have hasMember := (h.before.declares id has member listed).1
    rw [h.identityOfMember hasMember, h.memberMarks hasMember]
  unfold Program.ownEntries
  rw [members, h.typeId has, h.before.typeId id has, h.inStubAssembly has, h.identityOfType has,
    h.typeMarks has]

theorem memberEntries (h : ρ.Carries p q) {proxy : TypeId} (hasProxy : p.HasType proxy)
    {inheritable : Bool} {target : TypeId} (hasTarget : p.HasType target) {id : MemberId}
    (has : p.HasMember id) :
    q.memberEntries (q.type (ρ.type proxy)) inheritable (ρ.type target) (ρ.member id)
      = (p.memberEntries (p.type proxy) inheritable target id).map ρ.onEntry := by
  unfold Program.memberEntries
  simp only
  rw [h.isInert has, h.suppliedMember has hasTarget, h.memberMarks has, h.kind has, h.body has,
    h.identityOfMember has, h.typeId hasProxy, h.before.typeId proxy hasProxy]
  cases p.isInert (p.member id) with
  | true => rfl
  | false =>
      cases hfound : p.suppliedMember (p.member id) target with
      | error fault => rfl
      | ok found =>
          obtain ⟨supplied, how⟩ := found
          have mem := (h.before.suppliedMember_eq_ok_iff hasTarget).mp ⟨how, hfound⟩ |>.mem
          have hasSupplied := (h.before.declares target hasTarget supplied mem).1
          simp only [onSupplied, Bool.false_eq_true, if_false]
          rw [h.identityOfMember hasSupplied, List.map_append, ofMarks_onEntry]
          split <;> rfl

theorem proxyEntries (h : ρ.Carries p q) {proxy : TypeId} (has : p.HasType proxy) :
    q.proxyEntries (q.type (ρ.type proxy))
      = (p.proxyEntries (p.type proxy)).map ρ.onEntry := by
  unfold Program.proxyEntries
  rw [h.typeMarks has, h.typeId has, h.before.typeId proxy has, h.isInsideIgnored has, h.key has,
    h.listed has]
  cases Mark.proxyOf? (p.type proxy).marks with
  | none => rfl
  | some pointer =>
      obtain ⟨targetKey, inheritable⟩ := pointer
      simp only
      split
      · rfl
      · rw [h.findType?]
        cases hfind : p.findType? targetKey with
        | none => rfl
        | some target =>
            have hasTarget := (h.before.findType?_eq_some_iff.mp hfind).1
            simp only [Option.map_some, List.map_cons, List.map_append]
            rw [ofMarks_onEntry, h.identityOfType hasTarget]
            congr 1
            split
            · rfl
            · rw [List.map_flatMap, List.flatMap_map]
              refine List.flatMap_congr fun id listed => ?_
              exact h.memberEntries has hasTarget (h.before.declares proxy has id listed).1

/-! ### Types in another order -/

/-- The types of the new order are those of the old one. -/
theorem types_perm (h : ρ.Carries p q) :
    q.types.toList.Perm (p.types.toList.map fun type => q.type (ρ.type type.id)) := by
  have nodup : q.types.toList.Nodup :=
    h.after.types_pairwise.imp fun hne heq => hne (congrArg LoadedType.key heq)
  have nodupMap : (p.types.toList.map fun type => q.type (ρ.type type.id)).Nodup := by
    refine List.pairwise_map.mpr (h.before.types_pairwise.imp_of_mem fun {a b} ha hb hne heq => ?_)
    obtain ⟨hasA, readA⟩ := h.before.mem_types_iff.mp ha
    obtain ⟨hasB, readB⟩ := h.before.mem_types_iff.mp hb
    have hkey := congrArg LoadedType.key heq
    rw [h.key hasA, h.key hasB, readA, readB] at hkey
    exact hne hkey
  refine (List.perm_ext_iff_of_nodup nodup nodupMap).mpr fun type => ?_
  rw [h.after.mem_types_iff, List.mem_map]
  refine ⟨?_, ?_⟩
  · intro given
    obtain ⟨has, hread⟩ := given
    obtain ⟨id, hid⟩ := ρ.type.surjective type.id
    rw [← hid] at has hread
    have hasOld := (h.hasType id).mp has
    refine ⟨p.type id, h.before.mem_types_iff.mpr ?_, ?_⟩
    · rw [h.before.typeId id hasOld]
      exact ⟨hasOld, rfl⟩
    · rw [h.before.typeId id hasOld]
      exact hread
  · intro given
    obtain ⟨old, hold, rfl⟩ := given
    have has := (h.before.mem_types_iff.mp hold).1
    rw [h.typeId has]
    exact ⟨(h.hasType _).mpr has, rfl⟩

theorem filter_types_perm (h : ρ.Carries p q) {sort : LoadedType → Bool}
    (same : ∀ id, p.HasType id → sort (q.type (ρ.type id)) = sort (p.type id)) :
    (q.types.toList.filter sort).Perm
      ((p.types.toList.filter sort).map fun type => q.type (ρ.type type.id)) := by
  have hfilter : (p.types.toList.filter sort).map (fun type => q.type (ρ.type type.id))
      = (p.types.toList.map fun type => q.type (ρ.type type.id)).filter sort := by
    rw [List.filter_map]
    congr 1
    refine List.filter_congr fun type hmem => ?_
    obtain ⟨has, hread⟩ := h.before.mem_types_iff.mp hmem
    show sort type = sort (q.type (ρ.type type.id))
    rw [same _ has, hread]
  rw [hfilter]
  exact h.types_perm.filter sort

/-- **The order of the proxies does not change.** -/
theorem orderedProxies (h : ρ.Carries p q) :
    q.orderedProxies = p.orderedProxies.map fun proxy => q.type (ρ.type proxy.id) := by
  have perm : q.orderedProxies.Perm
      (p.orderedProxies.map fun proxy => q.type (ρ.type proxy.id)) :=
    q.orderedProxies_perm.trans ((h.filter_types_perm fun _ has => h.isProxy has).trans
      (p.orderedProxies_perm.map _).symm)
  have sorted : (p.orderedProxies.map fun proxy => q.type (ρ.type proxy.id)).Pairwise
      fun a b => a.key.text < b.key.text := by
    refine List.pairwise_map.mpr (h.before.orderedProxies_strict.imp_of_mem ?_)
    intro a b ha hb hlt
    obtain ⟨hasA, readA, -⟩ := (Program.mem_orderedProxies h.before).mp ha
    obtain ⟨hasB, readB, -⟩ := (Program.mem_orderedProxies h.before).mp hb
    rw [h.key hasA, h.key hasB, readA, readB]
    exact hlt
  exact h.after.orderedProxies_eq_of_perm perm sorted

/-- Whatever is selected of the proxies is selected of the old ones, renumbered. -/
theorem flatMap_orderedProxies (h : ρ.Carries p q) {β : Type} (select : StoreEntry → Option β) :
    (q.orderedProxies.flatMap fun proxy => (q.proxyEntries proxy).filterMap select)
      = p.orderedProxies.flatMap fun proxy =>
          (p.proxyEntries proxy).filterMap (select ∘ ρ.onEntry) := by
  rw [h.orderedProxies, List.flatMap_map]
  refine List.flatMap_congr fun proxy hproxy => ?_
  obtain ⟨has, hread, -⟩ := (Program.mem_orderedProxies h.before).mp hproxy
  rw [h.proxyEntries has, hread, List.filterMap_map]

/-! ### Directives -/

/-- The order of a sum does not matter if all entries that contribute are one. -/
theorem flatMap_eq_of_perm {α β : Type} {f : α → List β} {first second : List α}
    (perm : first.Perm second)
    (single : ∀ a ∈ first, ∀ b ∈ first, f a ≠ [] → f b ≠ [] → a = b) :
    first.flatMap f = second.flatMap f := by
  induction perm with
  | nil => rfl
  | cons a _ ih =>
      rw [List.flatMap_cons, List.flatMap_cons, ih fun b hb c hc =>
        single b (List.mem_cons_of_mem _ hb) c (List.mem_cons_of_mem _ hc)]
  | swap a b rest =>
      simp only [List.flatMap_cons]
      by_cases ha : f a = []
      · rw [ha, List.nil_append, List.nil_append]
      · by_cases hb : f b = []
        · rw [hb, List.nil_append, List.nil_append]
        · rw [single a (by simp) b (by simp) ha hb]
  | trans forward _ ihFirst ihSecond =>
      rw [ihFirst single]
      exact ihSecond fun a ha b hb =>
        single a (forward.mem_iff.mpr ha) b (forward.mem_iff.mpr hb)

/-- No two types enter anything for one symbol. -/
theorem ownEntries_single {program : Program} (h : program.WellFormed) {symbol : Identity}
    {a b : LoadedType} (ha : a ∈ program.types.toList) (hb : b ∈ program.types.toList)
    (fromA : (program.ownEntries a).filterMap (StoreEntry.directive? symbol) ≠ [])
    (fromB : (program.ownEntries b).filterMap (StoreEntry.directive? symbol) ≠ []) : a = b := by
  -- What a type enters something for is itself or a member it declares.
  have about : ∀ type ∈ program.types.toList,
      (program.ownEntries type).filterMap (StoreEntry.directive? symbol) ≠ [] →
        program.identityOfType type.id = symbol
          ∨ ∃ id, program.HasMember id ∧ program.identityOfMember id = symbol
              ∧ (program.member id).declaringType = type.id := by
    intro type hmem hne
    obtain ⟨has, hread⟩ := h.mem_types_iff.mp hmem
    by_cases htype : program.identityOfType type.id = symbol
    · exact .inl htype
    · refine .inr ?_
      rw [Program.ownEntries_directives, if_neg htype, List.nil_append, ne_eq,
        List.flatMap_eq_nil_iff] at hne
      obtain ⟨id, hid⟩ := not_forall.mp hne
      obtain ⟨listed, hid⟩ := Classical.not_imp.mp hid
      rw [← hread] at listed
      obtain ⟨hasMember, hdeclaring⟩ := (h.mem_members_iff has).mp listed
      refine ⟨id, hasMember, ?_, hdeclaring⟩
      by_contra hidentity
      exact hid (if_neg hidentity)
  obtain ⟨hasA, readA⟩ := h.mem_types_iff.mp ha
  obtain ⟨hasB, readB⟩ := h.mem_types_iff.mp hb
  have same : a.id = b.id := by
    rcases about a ha fromA with htypeA | ⟨idA, hasIdA, hidentityA, hdeclaringA⟩
    · rcases about b hb fromB with htypeB | ⟨idB, -, hidentityB, -⟩
      · exact h.identityOfType_injective hasA hasB (htypeA.trans htypeB.symm)
      · exact absurd (hidentityB.trans htypeA.symm)
          (Program.identityOfMember_ne_identityOfType program idB a.id)
    · rcases about b hb fromB with htypeB | ⟨idB, hasIdB, hidentityB, hdeclaringB⟩
      · exact absurd (hidentityA.trans htypeB.symm)
          (Program.identityOfMember_ne_identityOfType program idA b.id)
      · rw [← hdeclaringA, ← hdeclaringB,
          h.identities idA idB hasIdA hasIdB (hidentityA.trans hidentityB.symm)]
  rw [← readA, ← readB, same]

/-- **Every symbol has the same directives.** -/
theorem directivesFor (h : ρ.Carries p q) (symbol : Identity) :
    (Store.ofProgram q).directivesFor symbol = (Store.ofProgram p).directivesFor symbol := by
  have own : (q.plainTypes.flatMap fun type =>
        (q.ownEntries type).filterMap (StoreEntry.directive? symbol))
      = p.plainTypes.flatMap fun type =>
        (p.ownEntries type).filterMap (StoreEntry.directive? symbol) := by
    have perm : q.plainTypes.Perm (p.plainTypes.map fun type => q.type (ρ.type type.id)) :=
      h.filter_types_perm fun _ has => congrArg not (h.isProxy has)
    rw [flatMap_eq_of_perm perm, List.flatMap_map]
    · refine List.flatMap_congr fun type hmem => ?_
      obtain ⟨has, hread⟩ := h.before.mem_types_iff.mp (List.mem_filter.mp hmem).1
      rw [h.ownEntries has, hread]
    · intro a ha b hb fromA fromB
      exact ownEntries_single h.after (List.mem_filter.mp ha).1 (List.mem_filter.mp hb).1
        fromA fromB
  have select : StoreEntry.directive? symbol ∘ ρ.onEntry = StoreEntry.directive? symbol := by
    funext entry
    cases entry <;> rfl
  rw [Store.directivesFor_eq, Store.directivesFor_eq, Store.filterMap_ofProgram,
    Store.filterMap_ofProgram, own, h.flatMap_orderedProxies, select]

/-! ### Candidates, proxies and faults -/

/-- A question to the part of the log that is renumbered entry by entry. -/
theorem select_ofProgram (h : ρ.Carries p q) {β : Type} {select old : StoreEntry → Option β}
    {change : β → β} (none : ∀ symbol given, select (.directive symbol given) = none)
    (noneOld : ∀ symbol given, old (.directive symbol given) = .none)
    (renumbered : ∀ entry, select (ρ.onEntry entry) = (old entry).map change) :
    (Store.ofProgram q).entries.filterMap select
      = ((Store.ofProgram p).entries.filterMap old).map change := by
  have compose : select ∘ ρ.onEntry = fun entry => (old entry).map change := funext renumbered
  rw [Program.filterMap_ofProgram_proxies none, Program.filterMap_ofProgram_proxies noneOld,
    h.flatMap_orderedProxies, compose, List.map_flatMap]
  refine List.flatMap_congr fun proxy _ => ?_
  rw [List.map_filterMap]

theorem candidatesFor (h : ρ.Carries p q) (target : Identity) :
    (Store.ofProgram q).candidatesFor target
      = ((Store.ofProgram p).candidatesFor target).map ρ.onCandidate := by
  rw [Store.candidatesFor_eq, Store.candidatesFor_eq]
  refine h.select_ofProgram (fun _ _ => rfl) (fun _ _ => rfl) fun entry => ?_
  cases entry with
  | candidate identity given =>
      by_cases heq : identity = target <;> simp [onEntry, StoreEntry.candidate?, heq]
  | _ => rfl

theorem proxiesOf (h : ρ.Carries p q) (type : TypeId) :
    (Store.ofProgram q).proxiesOf (ρ.type type)
      = ((Store.ofProgram p).proxiesOf type).map ρ.type := by
  rw [Store.proxiesOf_eq, Store.proxiesOf_eq]
  refine h.select_ofProgram (fun _ _ => rfl) (fun _ _ => rfl) fun entry => ?_
  cases entry with
  | proxy target given =>
      by_cases heq : target = type <;> simp [onEntry, StoreEntry.proxy?, heq]
  | _ => rfl

theorem faults (h : ρ.Carries p q) :
    (Store.ofProgram q).faults = (Store.ofProgram p).faults.map ρ.onFault := by
  rw [Store.faults_eq, Store.faults_eq]
  refine h.select_ofProgram (fun _ _ => rfl) (fun _ _ => rfl) fun entry => ?_
  cases entry <;> rfl

/-- Two faults are kept in one place after renumbering just if they were before. -/
theorem onFault_place_eq_iff (ρ : Renumbering) {fault : Fault} {place : Option (TypeId × String)} :
    (ρ.onFault fault).place = place.map (fun (type, name) => (ρ.type type, name))
      ↔ fault.place = place := by
  refine (Option.map_injective fun a b heq => ?_).eq_iff
  obtain ⟨htype, hname⟩ := Prod.mk.inj heq
  exact Prod.ext (ρ.type.injective htype) hname

theorem errorFor? (h : ρ.Carries p q) (type : TypeId) (name : String) :
    (Store.ofProgram q).errorFor? (ρ.type type) name
      = (Store.ofProgram p).errorFor? type name := by
  have compose : (fun fault : Fault => decide (fault.place = some (ρ.type type, name))) ∘ ρ.onFault
      = fun fault => decide (fault.place = some (type, name)) := by
    funext fault
    have hplace : (ρ.onFault fault).place = some (ρ.type type, name)
        ↔ fault.place = some (type, name) :=
      @onFault_place_eq_iff ρ fault (some (type, name))
    exact decide_eq_decide.mpr hplace
  unfold Store.errorFor?
  rw [h.faults, List.find?_map, compose, Option.map_map]
  rfl

theorem distinctFaults_map (ρ : Renumbering) (faults : List Fault) :
    Store.distinctFaults (faults.map ρ.onFault)
      = (Store.distinctFaults faults).map ρ.onFault := by
  induction faults with
  | nil => rfl
  | cons fault rest ih =>
      rw [List.map_cons, Store.distinctFaults, Store.distinctFaults, List.map_cons, ih,
        List.filter_map]
      congr 3
      funext later
      have hplace : ((ρ.onFault later).place != (ρ.onFault fault).place)
          = (later.place != fault.place) := by
        rw [Bool.eq_iff_iff, bne_iff_ne, bne_iff_ne]
        exact not_congr (onFault_place_eq_iff ρ)
      show ((ρ.onFault fault).place.isNone || _) = _
      rw [hplace]
      cases hfault : fault.place <;> simp [onFault, hfault]

/-- **The configuration errors are the same, in the same order.** -/
theorem configurationErrors (h : ρ.Carries p q) :
    (Store.ofProgram q).configurationErrors = (Store.ofProgram p).configurationErrors := by
  unfold Store.configurationErrors
  rw [h.faults, distinctFaults_map, List.map_map]
  rfl

end Carries

end Renumbering

end MemberResolution
