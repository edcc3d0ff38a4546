/-
Effective marks.

What a symbol carries in effect can be read off the loaded program without a store: its
own marks, unless it belongs to a proxy type, and then the marks of all that are
proxies for it, in the order of proxy names and declaration.  The definitions here say
this in terms of raw marks alone.  How far out an ignored type silences the proxies
inside it is their one parameter, a number of levels.

The lemmas say that the store, whose walk outward has a limit, answers every question
with what is in effect when that many levels count.  The log holds the entries of all
symbols in one list, so each of them comes down to this: of all that enter something,
only few enter it for the symbol in question.
-/
import Mathlib.Data.List.Sort
import MemberResolution.Proofs.Registration
import MemberResolution.Resolver

namespace MemberResolution

namespace Program

/-! ### Marks in effect -/

/-- The types around a type, innermost first, at most so many. -/
def typesAround (program : Program) (levels : Nat) (id : TypeId) : List TypeId :=
  (program.enclosingUpTo (levels + 1) id).tail

/-- How many types around a type the walks outward visit. -/
def levelsVisited : Nat := maxNestingDepth - 1

/-- Whether a proxy type does not stand inside an ignored type. -/
def isLive (program : Program) (levels : Nat) (proxy : LoadedType) : Bool :=
  (program.typesAround levels proxy.id).all fun outer =>
    !Mark.isIgnored (program.type outer).marks

/-- Whether the first proxy mark of a type names a target. -/
def pointsAt (program : Program) (proxy : LoadedType) (target : TypeId) : Bool :=
  (Mark.proxyOf? proxy.marks).any fun pointer => pointer.1 = (program.type target).key

/-- Whether a proxy type supplies derived types as well. -/
def isInheritable (proxy : LoadedType) : Bool :=
  (Mark.proxyOf? proxy.marks).any (·.2)

/-- The live proxy types of a type, by full name. -/
def proxiesFor (program : Program) (levels : Nat) (target : TypeId) : List LoadedType :=
  (program.proxyTypes.insertionSort fun a b => a.key.text ≤ b.key.text).filter fun proxy =>
    program.pointsAt proxy target && program.isLive levels proxy

instance (program : Program) (member : LoadedMember) (target : TypeId) (supplied : MemberId) :
    Decidable (program.Supplies member target supplied) :=
  match h : Mark.proxyTarget? member.marks with
  | none => decidable_of_iff
      (supplied ∈ (program.type target).members
        ∧ (program.identityOfMember supplied).sameSignature (program.identityOf member) = true)
      (by unfold Supplies; rw [h])
  | some name => decidable_of_iff
      (((program.namesakes member target name).filter fun id =>
            (program.member id).paramTypes = member.paramTypes).head? = some supplied
        ∨ ((program.namesakes member target name).filter fun id =>
              (program.member id).paramTypes = member.paramTypes) = []
          ∧ program.namesakes member target name = [supplied])
      (by unfold Supplies; rw [h])

/-- The members of a proxy type that take part and supply a member of its target. -/
def suppliersIn (program : Program) (proxy : LoadedType) (id : MemberId) : List MemberId :=
  if Mark.isIgnored proxy.marks then []
  else proxy.members.filter fun supplier =>
    !program.isInert (program.member supplier)
      && decide (program.Supplies (program.member supplier) (program.member id).declaringType id)

/-- The proxy members that supply a member, by proxy name and declaration. -/
def suppliers (program : Program) (levels : Nat) (id : MemberId) : List MemberId :=
  (program.proxiesFor levels (program.member id).declaringType).flatMap fun proxy =>
    program.suppliersIn proxy id

/-- The marks a type has in effect. -/
def effectiveOnType (program : Program) (levels : Nat) (id : TypeId) : List Mark :=
  (if (program.type id).isProxy then [] else (program.type id).marks)
    ++ (program.proxiesFor levels id).flatMap (·.marks)

/-- The marks a member has in effect. -/
def effectiveOnMember (program : Program) (levels : Nat) (id : MemberId) : List Mark :=
  (if (program.type (program.member id).declaringType).isProxy then []
    else (program.member id).marks)
    ++ (program.suppliers levels id).flatMap fun supplier => (program.member supplier).marks

/-! ### The live proxies of a type -/

variable {program : Program}

theorem isLive_eq (program : Program) (proxy : LoadedType) :
    program.isLive levelsVisited proxy = !program.isInsideIgnored proxy.id := by
  unfold isLive isInsideIgnored
  rw [List.not_any_eq_all_not]
  rfl

/-- The live proxies of a type are those the store registers for it. -/
theorem WellFormed.mem_proxiesFor_iff (h : program.WellFormed) {target : TypeId}
    (has : program.HasType target) {proxy : LoadedType} :
    proxy ∈ program.proxiesFor levelsVisited target
      ↔ proxy ∈ program.orderedProxies
        ∧ program.liveTarget? proxy = some (target, isInheritable proxy) := by
  unfold proxiesFor
  rw [← orderedProxies_eq, List.mem_filter, isLive_eq]
  refine and_congr_right fun _ => ?_
  rw [h.liveTarget?_eq_some_iff]
  unfold pointsAt isInheritable
  cases Mark.proxyOf? proxy.marks with
  | none => simp
  | some pointer =>
      obtain ⟨key, inheritable⟩ := pointer
      simp [has]

/-- A sum over a list to which only some entries contribute. -/
theorem flatMap_eq_filter {α β : Type} {list : List α} {f : α → List β} (counts : α → Bool)
    (rest : ∀ a ∈ list, counts a = false → f a = []) :
    list.flatMap f = (list.filter counts).flatMap f := by
  induction list with
  | nil => rfl
  | cons a others ih =>
      have hothers := ih fun b hmem => rest b (List.mem_cons_of_mem _ hmem)
      cases hcounts : counts a with
      | true => rw [List.filter_cons_of_pos hcounts, List.flatMap_cons, List.flatMap_cons, hothers]
      | false =>
          rw [List.filter_cons_of_neg (by simp [hcounts]), List.flatMap_cons,
            rest a List.mem_cons_self hcounts, hothers, List.nil_append]

/-- A sum over a list to which only one entry contributes. -/
theorem flatMap_eq_single {α β : Type} {list : List α} {f : α → List β} (nodup : list.Nodup)
    {a : α} (hmem : a ∈ list) (rest : ∀ b ∈ list, b ≠ a → f b = []) : list.flatMap f = f a := by
  induction list with
  | nil => cases hmem
  | cons head others ih =>
      obtain ⟨fresh, nodup⟩ := List.nodup_cons.mp nodup
      rw [List.flatMap_cons]
      rcases List.mem_cons.mp hmem with rfl | hothers
      · have nothing : others.flatMap f = [] := List.flatMap_eq_nil_iff.mpr fun b hb =>
          rest b (List.mem_cons_of_mem _ hb) fun heq => fresh (heq ▸ hb)
        rw [nothing, List.append_nil]
      · rw [rest head List.mem_cons_self fun heq => fresh (heq ▸ hothers), List.nil_append]
        exact ih nodup hothers fun b hb => rest b (List.mem_cons_of_mem _ hb)

/-- Of all proxies only those of a type register what is selected, if nothing is
selected for any other target. -/
theorem WellFormed.flatMap_orderedProxies (h : program.WellFormed) {β : Type} {target : TypeId}
    (has : program.HasType target) {select : StoreEntry → Option β}
    (faultless : ∀ fault, select (.fault fault) = none)
    (others : ∀ proxy ∈ program.orderedProxies, ∀ other inheritable, other ≠ target →
      program.liveTarget? proxy = some (other, inheritable) →
        (program.proxyEntries proxy).filterMap select = []) :
    (program.orderedProxies.flatMap fun proxy => (program.proxyEntries proxy).filterMap select)
      = (program.proxiesFor levelsVisited target).flatMap fun proxy =>
          (program.proxyEntries proxy).filterMap select := by
  have hfilter : program.proxiesFor levelsVisited target
      = program.orderedProxies.filter fun proxy =>
          program.pointsAt proxy target && program.isLive levelsVisited proxy := by
    rw [orderedProxies_eq]
    rfl
  rw [hfilter]
  refine flatMap_eq_filter _ fun proxy hproxy hcounts => ?_
  cases hlive : program.liveTarget? proxy with
  | none =>
      refine List.filterMap_eq_nil_iff.mpr fun entry hmem => ?_
      obtain ⟨fault, rfl⟩ := proxyEntries_of_not_live hlive entry hmem
      exact faultless fault
  | some live =>
      obtain ⟨other, inheritable⟩ := live
      refine others proxy hproxy other inheritable (fun heq => ?_) hlive
      subst heq
      have hinheritable : inheritable = isInheritable proxy := by
        unfold isInheritable
        rw [(h.liveTarget?_eq_some_iff.mp hlive).2.1]
        rfl
      have hmem : proxy ∈ program.proxiesFor levelsVisited other :=
        (h.mem_proxiesFor_iff has).mpr ⟨hproxy, by rw [hlive, hinheritable]⟩
      rw [hfilter, List.mem_filter, hcounts] at hmem
      exact absurd hmem.2 Bool.false_ne_true

/-! ### Directives of types -/

theorem identityOfMember_ne_identityOfType (program : Program) (id : MemberId) (type : TypeId) :
    program.identityOfMember id ≠ program.identityOfType type := by
  intro heq
  have hkind := congrArg Identity.kind heq
  rw [identityOfMember, kind_identityOf] at hkind
  revert hkind
  cases (program.member id).kind <;> simp [MemberKind.symbolKind, identityOfType, Identity.ofType]

theorem WellFormed.identityOfType_injective (h : program.WellFormed) {a b : TypeId}
    (ha : program.HasType a) (hb : program.HasType b)
    (heq : program.identityOfType a = program.identityOfType b) : a = b :=
  h.keys a b ha hb (key_eq_of_identityOfType heq)

@[simp] theorem ofMarks_directives (symbol other : Identity) (marks : List Mark) :
    (StoreEntry.ofMarks symbol marks).filterMap (StoreEntry.directive? other)
      = if symbol = other then Directive.ofMarks marks else [] := by
  unfold StoreEntry.ofMarks
  rw [List.filterMap_map]
  by_cases h : symbol = other <;> simp [h, Function.comp_def, StoreEntry.directive?]

theorem memberEntries_directives (program : Program) (proxy : LoadedType) (inheritable : Bool)
    (target : TypeId) (id : MemberId) (symbol : Identity) :
    (program.memberEntries proxy inheritable target id).filterMap (StoreEntry.directive? symbol)
      = if program.isInert (program.member id) then []
        else match program.suppliedMember (program.member id) target with
          | .error _ => []
          | .ok (supplied, how) =>
            (if program.identityOfMember supplied = symbol then
                Directive.ofMarks (program.member id).marks
              else [])
            ++ if offersBody (program.member id) = true ∧ program.identityOfMember id = symbol then
                [.proxySource ⟨how, proxyMode (program.member id), inheritable⟩]
              else [] := by
  unfold memberEntries offersBody proxyMode
  by_cases inert : program.isInert (program.member id) = true
  · simp [inert]
  · simp only [inert]
    cases program.suppliedMember (program.member id) target with
    | error fault => simp [StoreEntry.directive?]
    | ok found =>
        obtain ⟨supplied, how⟩ := found
        cases (program.member id).kind.isCallable <;>
          cases Mark.isIgnored (program.member id).marks <;>
          by_cases hidentity : program.identityOfMember id = symbol <;>
          simp [hidentity, List.filterMap_cons, StoreEntry.directive?]

theorem memberEntries_directives_type (program : Program) (proxy : LoadedType)
    (inheritable : Bool) (target : TypeId) (id : MemberId) (type : TypeId) :
    (program.memberEntries proxy inheritable target id).filterMap
        (StoreEntry.directive? (program.identityOfType type)) = [] := by
  rw [memberEntries_directives]
  split
  · rfl
  · split
    · rfl
    · rw [if_neg (identityOfMember_ne_identityOfType program _ _),
        if_neg fun hc => identityOfMember_ne_identityOfType program _ _ hc.2]
      rfl

theorem WellFormed.plainTypes_flatMap (h : program.WellFormed) {β : Type} {id : TypeId}
    (has : program.HasType id) {f : LoadedType → List β}
    (rest : ∀ type, program.HasType type → type ≠ id → f (program.type type) = []) :
    program.plainTypes.flatMap f
      = if (program.type id).isProxy then [] else f (program.type id) := by
  have nothing : ∀ type ∈ program.plainTypes, type ≠ program.type id → f type = [] := by
    intro type htype hne
    obtain ⟨hasType, hread, -⟩ := (mem_plainTypes h).mp htype
    rw [← hread]
    refine rest type.id hasType fun heq => hne ?_
    rw [← hread, heq]
  cases hproxy : (program.type id).isProxy with
  | true =>
      refine List.flatMap_eq_nil_iff.mpr fun type htype => nothing type htype fun heq => ?_
      obtain ⟨-, -, hplain⟩ := (mem_plainTypes h).mp htype
      rw [heq, hproxy] at hplain
      cases hplain
  | false =>
      have nodup : program.plainTypes.Nodup :=
        (h.types_pairwise.imp fun hne heq => hne (congrArg LoadedType.key heq)).sublist
          List.filter_sublist
      refine flatMap_eq_single nodup ((mem_plainTypes h).mpr ⟨?_, ?_, hproxy⟩) nothing
      · rw [h.typeId id has]
        exact has
      · rw [h.typeId id has]

/-- What a type and its members enter for a symbol by themselves. -/
theorem ownEntries_directives (program : Program) (type : LoadedType) (symbol : Identity) :
    (program.ownEntries type).filterMap (StoreEntry.directive? symbol)
      = (if program.identityOfType type.id = symbol then
            (if program.inStubAssembly type.id then [.stubAssembly] else [])
              ++ Directive.ofMarks type.marks
          else [])
        ++ type.members.flatMap fun member =>
            if program.identityOfMember member = symbol then
              Directive.ofMarks (program.member member).marks
            else [] := by
  unfold ownEntries
  rw [List.filterMap_append, List.filterMap_append, List.filterMap_flatMap]
  simp only [ofMarks_directives]
  congr 1
  by_cases hsymbol : program.identityOfType type.id = symbol <;>
    cases program.inStubAssembly type.id <;> simp [hsymbol, StoreEntry.directive?]

theorem ownEntries_directives_type (program : Program) (type : LoadedType) (id : TypeId) :
    (program.ownEntries type).filterMap (StoreEntry.directive? (program.identityOfType id))
      = if program.identityOfType type.id = program.identityOfType id then
          (if program.inStubAssembly type.id then [.stubAssembly] else [])
            ++ Directive.ofMarks type.marks
        else [] := by
  have members : (type.members.flatMap fun member =>
      if program.identityOfMember member = program.identityOfType id then
        Directive.ofMarks (program.member member).marks
      else []) = [] := List.flatMap_eq_nil_iff.mpr fun member _ =>
    if_neg (identityOfMember_ne_identityOfType program member id)
  rw [ownEntries_directives, members, List.append_nil]

theorem proxyEntries_directives {proxy : LoadedType} {target : TypeId} {inheritable : Bool}
    (live : program.liveTarget? proxy = some (target, inheritable)) (symbol : Identity) :
    (program.proxyEntries proxy).filterMap (StoreEntry.directive? symbol)
      = (if program.identityOfType target = symbol then Directive.ofMarks proxy.marks else [])
        ++ if Mark.isIgnored proxy.marks then []
          else proxy.members.flatMap fun id =>
            (program.memberEntries proxy inheritable target id).filterMap
              (StoreEntry.directive? symbol) := by
  rw [proxyEntries_of_live live, List.cons_append, List.filterMap_cons_none rfl,
    List.filterMap_append, ofMarks_directives]
  congr 1
  split
  · rfl
  · exact List.filterMap_flatMap

theorem proxyEntries_directives_type {proxy : LoadedType} {target : TypeId} {inheritable : Bool}
    (live : program.liveTarget? proxy = some (target, inheritable)) (type : TypeId) :
    (program.proxyEntries proxy).filterMap (StoreEntry.directive? (program.identityOfType type))
      = if program.identityOfType target = program.identityOfType type then
          Directive.ofMarks proxy.marks
        else [] := by
  rw [proxyEntries_directives live]
  simp [memberEntries_directives_type]

theorem ofMarks_append (a b : List Mark) :
    Directive.ofMarks (a ++ b) = Directive.ofMarks a ++ Directive.ofMarks b :=
  List.filterMap_append

theorem ofMarks_flatMap {α : Type} (list : List α) (marks : α → List Mark) :
    Directive.ofMarks (list.flatMap marks) = list.flatMap fun a => Directive.ofMarks (marks a) :=
  List.filterMap_flatMap

/-- **The directives of a type are the marks it has in effect**, after the word that its
assembly is a stub. -/
theorem WellFormed.directivesFor_type (h : program.WellFormed) {id : TypeId}
    (has : program.HasType id) :
    (Store.ofProgram program).directivesFor (program.identityOfType id)
      = (if !(program.type id).isProxy && program.inStubAssembly id then [.stubAssembly] else [])
        ++ Directive.ofMarks (program.effectiveOnType levelsVisited id) := by
  have own : (program.plainTypes.flatMap fun type => (program.ownEntries type).filterMap
        (StoreEntry.directive? (program.identityOfType id)))
      = if (program.type id).isProxy then []
        else (if program.inStubAssembly id then [.stubAssembly] else [])
          ++ Directive.ofMarks (program.type id).marks := by
    rw [h.plainTypes_flatMap has]
    · rw [ownEntries_directives_type, h.typeId id has, if_pos rfl]
    · intro type hasType hne
      rw [ownEntries_directives_type, h.typeId type hasType,
        if_neg fun heq => hne (h.identityOfType_injective hasType has heq)]
  have brought : (program.orderedProxies.flatMap fun proxy => (program.proxyEntries proxy).filterMap
        (StoreEntry.directive? (program.identityOfType id)))
      = (program.proxiesFor levelsVisited id).flatMap fun proxy =>
          Directive.ofMarks proxy.marks := by
    rw [h.flatMap_orderedProxies has fun _ => rfl]
    · refine List.flatMap_congr fun proxy hproxy => ?_
      rw [proxyEntries_directives_type ((h.mem_proxiesFor_iff has).mp hproxy).2, if_pos rfl]
    · intro proxy _ other inheritable hne live
      have hasOther := (h.liveTarget?_eq_some_iff.mp live).1
      rw [proxyEntries_directives_type live,
        if_neg fun heq => hne (h.identityOfType_injective hasOther has heq)]
  rw [Store.directivesFor_eq, Store.filterMap_ofProgram, own, brought, effectiveOnType,
    ofMarks_append, ofMarks_flatMap, ← List.append_assoc]
  congr 1
  cases (program.type id).isProxy <;> rfl

/-! ### Directives of members -/

theorem flatMap_if {α β : Type} (list : List α) (counts : α → Bool) (f : α → List β) :
    (list.flatMap fun a => if counts a then f a else []) = (list.filter counts).flatMap f := by
  rw [flatMap_eq_filter (f := fun a => if counts a then f a else []) counts
    fun a _ hcounts => if_neg (by simp [hcounts])]
  exact List.flatMap_congr fun a hmem => if_pos (List.mem_filter.mp hmem).2

theorem WellFormed.memberEntries_directives_member (h : program.WellFormed) {proxy : LoadedType}
    (hproxy : proxy ∈ program.orderedProxies) {inheritable : Bool} {target : TypeId}
    (hasTarget : program.HasType target) {supplier : MemberId} (listed : supplier ∈ proxy.members)
    {id : MemberId} (has : program.HasMember id)
    (plain : (program.type (program.member id).declaringType).isProxy = false) :
    (program.memberEntries proxy inheritable target supplier).filterMap
        (StoreEntry.directive? (program.identityOfMember id))
      = if !program.isInert (program.member supplier)
            && decide (program.Supplies (program.member supplier) target id) then
          Directive.ofMarks (program.member supplier).marks
        else [] := by
  obtain ⟨hasProxy, hread, isProxy⟩ := (mem_orderedProxies h).mp hproxy
  rw [memberEntries_directives]
  cases program.isInert (program.member supplier) with
  | true => rfl
  | false =>
      have supplies : (∃ how, program.suppliedMember (program.member supplier) target
            = .ok (id, how)) ↔ program.Supplies (program.member supplier) target id :=
        h.suppliedMember_eq_ok_iff hasTarget
      cases hfound : program.suppliedMember (program.member supplier) target with
      | error fault =>
          rw [hfound] at supplies
          simp [← supplies]
      | ok found =>
          obtain ⟨supplied, how⟩ := found
          rw [hfound] at supplies
          have suppliedMem := (h.suppliedMember_eq_ok_iff hasTarget).mp ⟨how, hfound⟩ |>.mem
          have hasSupplied := ((h.mem_members_iff hasTarget).mp suppliedMem).1
          have hidentity : program.identityOfMember supplied = program.identityOfMember id
              ↔ program.Supplies (program.member supplier) target id := by
            rw [← supplies]
            refine ⟨?_, ?_⟩
            · intro heq
              rw [h.identities _ _ hasSupplied has heq]
              exact ⟨how, rfl⟩
            · intro given
              obtain ⟨_, heq⟩ := given
              cases heq
              rfl
          -- The member itself stands in a proxy type, so it is not the one in question.
          have apart : program.identityOfMember supplier ≠ program.identityOfMember id := by
            intro heq
            rw [← hread] at listed
            obtain ⟨hasSupplier, hdeclaring⟩ := (h.mem_members_iff hasProxy).mp listed
            rw [← h.identities _ _ hasSupplier has heq, hdeclaring, hread, isProxy] at plain
            cases plain
          simp [hidentity, apart]

theorem WellFormed.proxyEntries_directives_member (h : program.WellFormed) {proxy : LoadedType}
    (hproxy : proxy ∈ program.orderedProxies) {target : TypeId} {inheritable : Bool}
    (live : program.liveTarget? proxy = some (target, inheritable)) {id : MemberId}
    (has : program.HasMember id)
    (plain : (program.type (program.member id).declaringType).isProxy = false) :
    (program.proxyEntries proxy).filterMap (StoreEntry.directive? (program.identityOfMember id))
      = if Mark.isIgnored proxy.marks then []
        else (proxy.members.filter fun supplier =>
            !program.isInert (program.member supplier)
              && decide (program.Supplies (program.member supplier) target id)).flatMap
          fun supplier => Directive.ofMarks (program.member supplier).marks := by
  have hasTarget := (h.liveTarget?_eq_some_iff.mp live).1
  rw [proxyEntries_directives live,
    if_neg (Ne.symm (identityOfMember_ne_identityOfType program id target)), List.nil_append,
    ← flatMap_if]
  congr 1
  exact List.flatMap_congr fun supplier listed =>
    h.memberEntries_directives_member hproxy hasTarget listed has plain

/-- **The directives of a member of a plain type are the marks it has in effect.** -/
theorem WellFormed.directivesFor_member (h : program.WellFormed) {id : MemberId}
    (has : program.HasMember id)
    (plain : (program.type (program.member id).declaringType).isProxy = false) :
    (Store.ofProgram program).directivesFor (program.identityOfMember id)
      = Directive.ofMarks (program.effectiveOnMember levelsVisited id) := by
  have hasType := h.declaringType id has
  have members : ∀ type, program.HasType type → ∀ member ∈ (program.type type).members,
      program.identityOfMember member = program.identityOfMember id → member = id := by
    intro type hasType member listed heq
    exact h.identities _ _ ((h.mem_members_iff hasType).mp listed).1 has heq
  have own : (program.plainTypes.flatMap fun type => (program.ownEntries type).filterMap
        (StoreEntry.directive? (program.identityOfMember id)))
      = Directive.ofMarks (program.member id).marks := by
    rw [h.plainTypes_flatMap hasType]
    · rw [plain, if_neg Bool.false_ne_true, ownEntries_directives,
        if_neg (Ne.symm (identityOfMember_ne_identityOfType program id _)), List.nil_append,
        flatMap_eq_single (h.members_nodup hasType) (h.listed id has), if_pos rfl]
      intro member listed hne
      exact if_neg fun heq => hne (members _ hasType member listed heq)
    · intro type hasOther hne
      rw [ownEntries_directives,
        if_neg (Ne.symm (identityOfMember_ne_identityOfType program id _)), List.nil_append]
      refine List.flatMap_eq_nil_iff.mpr fun member listed => if_neg fun heq => hne ?_
      rw [← ((h.mem_members_iff hasOther).mp listed).2, members _ hasOther member listed heq]
  have brought : (program.orderedProxies.flatMap fun proxy => (program.proxyEntries proxy).filterMap
        (StoreEntry.directive? (program.identityOfMember id)))
      = (program.suppliers levelsVisited id).flatMap fun supplier =>
          Directive.ofMarks (program.member supplier).marks := by
    rw [h.flatMap_orderedProxies hasType fun _ => rfl, suppliers, List.flatMap_assoc]
    · refine List.flatMap_congr fun proxy hproxy => ?_
      obtain ⟨hmem, live⟩ := (h.mem_proxiesFor_iff hasType).mp hproxy
      rw [h.proxyEntries_directives_member hmem live has plain, suppliersIn]
      split <;> rfl
    · intro proxy hproxy other inheritable hne live
      have hasOther := (h.liveTarget?_eq_some_iff.mp live).1
      have nobody : (proxy.members.filter fun supplier =>
          !program.isInert (program.member supplier)
            && decide (program.Supplies (program.member supplier) other id)) = [] := by
        refine List.filter_eq_nil_iff.mpr fun supplier _ hsupplies => hne ?_
        simp only [Bool.and_eq_true, decide_eq_true_eq] at hsupplies
        exact ((h.mem_members_iff hasOther).mp hsupplies.2.mem).2.symm
      rw [h.proxyEntries_directives_member hproxy live has plain, nobody]
      split <;> rfl
  rw [Store.directivesFor_eq, Store.filterMap_ofProgram, own, brought, effectiveOnMember, plain,
    ofMarks_append, ofMarks_flatMap, if_neg Bool.false_ne_true]

/-! ### Candidates for members, proxies of types -/

/-- What a proxy member is to a member it supplies. -/
def candidacy (program : Program) (id supplier : MemberId) : ProxyCandidate :=
  program.candidateOf (program.member supplier).declaringType
    (isInheritable (program.type (program.member supplier).declaringType)) supplier id

/-- A selection that says for each entry whether it counts and what it becomes. -/
theorem filterMap_if {α β : Type} (list : List α) (counts : α → Bool) (f : α → β) :
    (list.filterMap fun a => if counts a then some (f a) else none)
      = (list.filter counts).map f := by
  induction list with
  | nil => rfl
  | cons a rest ih =>
      cases hcounts : counts a with
      | true =>
          rw [List.filter_cons_of_pos hcounts, List.map_cons, ← ih, List.filterMap_cons, hcounts]
          rfl
      | false =>
          rw [List.filter_cons_of_neg (by simp [hcounts]), ← ih, List.filterMap_cons, hcounts]
          rfl

theorem WellFormed.offer?_member (h : program.WellFormed) {proxy target : TypeId}
    (hasTarget : program.HasType target) {inheritable : Bool} {id supplier : MemberId}
    (has : program.HasMember id) :
    program.offer? proxy inheritable target (program.identityOfMember id) supplier
      = if (offersBody (program.member supplier) && (!program.isInert (program.member supplier)
            && decide (program.Supplies (program.member supplier) target id))) = true then
          some (program.candidateOf proxy inheritable supplier id)
        else none := by
  refine Option.ext fun candidate => ?_
  rw [h.offer?_eq_some_iff hasTarget]
  refine ⟨?_, ?_⟩
  · intro given
    obtain ⟨active, body, supplied, supplies, hidentity, rfl⟩ := given
    have hasSupplied := ((h.mem_members_iff hasTarget).mp supplies.mem).1
    obtain rfl := h.identities _ _ hasSupplied has hidentity
    simp [active, body, supplies]
  · intro hsome
    by_cases hcounts : (offersBody (program.member supplier)
        && (!program.isInert (program.member supplier)
          && decide (program.Supplies (program.member supplier) target id))) = true
    · rw [if_pos hcounts, Option.some.injEq] at hsome
      simp only [Bool.and_eq_true, Bool.not_eq_true', decide_eq_true_eq] at hcounts
      obtain ⟨body, active, supplies⟩ := hcounts
      exact ⟨active, body, id, supplies, rfl, hsome.symm⟩
    · rw [if_neg hcounts] at hsome
      cases hsome

/-- **The candidates for a member are the proxy members that supply it and offer a
body.** -/
theorem WellFormed.candidatesFor_member (h : program.WellFormed) {id : MemberId}
    (has : program.HasMember id) :
    (Store.ofProgram program).candidatesFor (program.identityOfMember id)
      = ((program.suppliers levelsVisited id).filter fun supplier =>
          offersBody (program.member supplier)).map (program.candidacy id) := by
  have hasType := h.declaringType id has
  rw [candidatesFor_ofProgram, h.flatMap_orderedProxies hasType fun _ => rfl, suppliers,
    List.filter_flatMap, List.map_flatMap]
  · refine List.flatMap_congr fun proxy hproxy => ?_
    obtain ⟨hmem, live⟩ := (h.mem_proxiesFor_iff hasType).mp hproxy
    obtain ⟨hasProxy, hread, -⟩ := (mem_orderedProxies h).mp hmem
    rw [proxyEntries_candidates, live, suppliersIn]
    simp only [h.offer?_member hasType has, filterMap_if]
    split
    · rfl
    · rw [List.filter_filter]
      refine List.map_congr_left fun supplier hsupplier => ?_
      have listed := (List.mem_filter.mp hsupplier).1
      rw [← hread] at listed
      unfold candidacy
      rw [((h.mem_members_iff hasProxy).mp listed).2, hread]
  · intro proxy hproxy other inheritable hne live
    have hasOther := (h.liveTarget?_eq_some_iff.mp live).1
    rw [proxyEntries_candidates, live]
    simp only [h.offer?_member hasOther has]
    split
    · rfl
    · refine List.filterMap_eq_nil_iff.mpr fun supplier _ => if_neg fun hcounts => hne ?_
      simp only [Bool.and_eq_true, decide_eq_true_eq] at hcounts
      exact ((h.mem_members_iff hasOther).mp hcounts.2.2.mem).2.symm

theorem memberEntries_proxies (program : Program) (proxy : LoadedType) (inheritable : Bool)
    (target : TypeId) (id : MemberId) (type : TypeId) :
    (program.memberEntries proxy inheritable target id).filterMap (StoreEntry.proxy? type)
      = [] := by
  unfold memberEntries
  simp only
  split
  · rfl
  · split
    · rfl
    · rw [List.filterMap_append, StoreEntry.ofMarks_filterMap fun _ _ => rfl]
      split <;> rfl

theorem proxyEntries_proxies {proxy : LoadedType} {target : TypeId} {inheritable : Bool}
    (live : program.liveTarget? proxy = some (target, inheritable)) (type : TypeId) :
    (program.proxyEntries proxy).filterMap (StoreEntry.proxy? type)
      = if target = type then [proxy.id] else [] := by
  have others : (StoreEntry.ofMarks (program.identityOfType target) proxy.marks
      ++ if Mark.isIgnored proxy.marks then []
        else proxy.members.flatMap (program.memberEntries proxy inheritable target)).filterMap
          (StoreEntry.proxy? type) = [] := by
    rw [List.filterMap_append, StoreEntry.ofMarks_filterMap fun _ _ => rfl, List.nil_append]
    split
    · rfl
    · rw [List.filterMap_flatMap]
      exact List.flatMap_eq_nil_iff.mpr fun id _ => memberEntries_proxies program _ _ _ id type
  rw [proxyEntries_of_live live, List.cons_append, List.filterMap_cons, others]
  by_cases heq : target = type <;> simp [StoreEntry.proxy?, heq]

/-- The proxy types of a type are its live proxies. -/
theorem WellFormed.proxiesOf_type (h : program.WellFormed) {id : TypeId}
    (has : program.HasType id) :
    (Store.ofProgram program).proxiesOf id
      = (program.proxiesFor levelsVisited id).map (·.id) := by
  rw [Store.proxiesOf_eq, filterMap_ofProgram_proxies fun _ _ => rfl,
    h.flatMap_orderedProxies has fun _ => rfl, List.map_eq_flatMap]
  · refine List.flatMap_congr fun proxy hproxy => ?_
    rw [proxyEntries_proxies ((h.mem_proxiesFor_iff has).mp hproxy).2, if_pos rfl]
  · intro proxy _ other inheritable hne live
    rw [proxyEntries_proxies live, if_neg hne]

end Program

end MemberResolution
