/-
The proxy that is found is the least one.

The search for a proxy is a walk: up a chain of base types, and on each type along the
candidates registered for one member.  What it finds has a description without any
walk.  `Eligible` says of a proxy member, in terms of the program alone, that it may
supply a signature as an ancestor declares it; `proxyRank` orders all of these, over
the whole program, by the place of the ancestor in the chain, then by the name of the
proxy type, then by the place of the member in it.  The search finds the least of them,
and nothing only where there is none.

The walk is first written as the head of one list, the contenders.  That list is sorted
by rank and holds just what is eligible, so its head is the least.
-/
import Mathlib.Data.Prod.Lex
import Mathlib.Data.String.Basic
import MemberResolution.Proofs.Buildable
import MemberResolution.Proofs.Lineage
import MemberResolution.Proofs.Registration
import MemberResolution.Resolver

namespace MemberResolution

/-! ### What is looked for -/

namespace Program

/-- A proxy member may supply the signature, looked for from a start type upward, as an
ancestor declares it. -/
structure Eligible (program : Program) (start : TypeId) (signature : Identity)
    (ancestor : TypeId) (body : ProxyBody) : Prop where
  known : program.HasType body.proxyType
  /-- The first proxy mark of the proxy type names the ancestor, and lets it supply
  derived types or the ancestor is the start. -/
  pointsAt : ∃ inheritable, Mark.proxyOf? (program.type body.proxyType).marks
      = some ((program.type ancestor).key, inheritable)
    ∧ (inheritable = true ∨ ancestor = start)
  proxyKept : Mark.isIgnored (program.type body.proxyType).marks = false
  /-- No type around the proxy type, within the nesting limit, is ignored. -/
  aroundKept : ∀ outer ∈ (program.enclosingChain body.proxyType).tail,
    Mark.isIgnored (program.type outer).marks = false
  declared : body.member ∈ (program.type body.proxyType).members
  notBackingField : (program.member body.member).isBackingField = false
  replaces : Mark.isNeverReplaced (program.member body.member).marks = false
  /-- Neither does the property or event it belongs to never replace anything. -/
  ownerReplaces : ∀ owner, (program.member body.member).owner? = some owner →
    Mark.isNeverReplaced (program.member owner).marks = false
  kept : Mark.isIgnored (program.member body.member).marks = false
  notExternal : Mark.isExternal (program.member body.member).marks = false
  present : (program.member body.member).body = .present
  supplies : program.Supplies (program.member body.member) ancestor body.target
  /-- What it supplies has the signature. -/
  signature : (program.identityOfMember body.target).sameSignature signature = true
  mode : body.mode = proxyMode (program.member body.member)

/-- Where a proxy member stands among all that supply a signature along a chain. -/
def proxyRank (program : Program) (chain : List TypeId) (ancestor : TypeId) (body : ProxyBody) :
    ℕ ×ₗ String ×ₗ ℕ :=
  toLex (chain.idxOf ancestor, toLex ((program.type body.proxyType).key.text,
    (program.type body.proxyType).members.idxOf body.member))

/-- What is found is the eligible body that comes first, or nothing if none is eligible. -/
structure IsLeastEligible (program : Program) (start : TypeId) (chain : List TypeId)
    (signature : Identity) (found : Option ProxyBody) : Prop where
  none_iff : found = none
    ↔ ∀ ancestor ∈ chain, ∀ body, ¬ program.Eligible start signature ancestor body
  some_iff : ∀ body, found = some body ↔ ∃ ancestor ∈ chain,
    program.Eligible start signature ancestor body
      ∧ ∀ other ∈ chain, ∀ otherBody, program.Eligible start signature other otherBody →
          program.proxyRank chain ancestor body ≤ program.proxyRank chain other otherBody

end Program

/-! ### No faults, no errors -/

namespace Store

theorem faults_eq_nil {store : Store} (clean : store.configurationErrors = []) :
    store.faults = [] := by
  unfold configurationErrors at clean
  cases hfaults : store.faults with
  | nil => rfl
  | cons fault rest =>
      rw [hfaults, List.map_eq_nil_iff] at clean
      cases clean

theorem errorFor?_eq_none {store : Store} (clean : store.configurationErrors = [])
    (type : TypeId) (name : String) : store.errorFor? type name = none := by
  unfold errorFor?
  rw [faults_eq_nil clean]
  rfl

end Store

/-! ### The search as a list -/

namespace Resolver

/-- Whether a candidate on a type of a chain counts for a search from a start type. -/
def counts (start type : TypeId) (candidate : ProxyCandidate) : Bool :=
  (candidate.inheritable || decide (type = start)) && candidate.hasBody

/-- All that count, each with the type it was found at, in the order of the walk. -/
def contenders (resolver : Resolver) (start : TypeId) (signature : Identity)
    (chain : List TypeId) : List (TypeId × ProxyCandidate) :=
  chain.flatMap fun type =>
    ((resolver.store.candidatesFor
        (signature.declaredBy (resolver.program.type type).key)).filter
      (counts start type)).map fun candidate => (type, candidate)

theorem supplierAt?_eq (resolver : Resolver) {atStart : Bool} {start type : TypeId}
    (hstart : atStart = decide (type = start)) (signature : Identity) :
    resolver.supplierAt? atStart signature type
      = ((resolver.store.candidatesFor
          (signature.declaredBy (resolver.program.type type).key)).filter
        (counts start type)).head? := by
  unfold supplierAt?
  rw [List.head?_filter, hstart]
  congr 1
  funext candidate
  unfold counts
  rw [Bool.or_comm]

/-- Without errors in the way a walk finds the first contender. -/
theorem findProxyAlong_eq (resolver : Resolver) {start : TypeId} {signature : Identity}
    (clean : resolver.store.configurationErrors = []) {atStart : Bool} {chain : List TypeId}
    (first : ∀ type rest, chain = type :: rest → atStart = decide (type = start))
    (later : ∀ type ∈ chain.tail, type ≠ start) :
    resolver.findProxyAlong signature atStart chain
      = .ok ((resolver.contenders start signature chain).head?.map (·.2.proxyBody)) := by
  induction chain generalizing atStart with
  | nil => rfl
  | cons type rest ih =>
      rw [findProxyAlong, Store.errorFor?_eq_none clean,
        resolver.supplierAt?_eq (first type rest rfl)]
      simp only [contenders, List.flatMap_cons]
      cases (resolver.store.candidatesFor
          (signature.declaredBy (resolver.program.type type).key)).filter (counts start type) with
      | cons candidate others => rfl
      | nil =>
          refine ih ?_ fun other hmem => later other (List.mem_of_mem_tail hmem)
          rintro next rest' rfl
          exact (decide_eq_false (later next List.mem_cons_self)).symm

theorem findProxy_eq_head? {resolver : Resolver} {start : TypeId} {signature : Identity}
    (clean : resolver.store.configurationErrors = []) {chain : List TypeId}
    (lineage : resolver.program.Lineage start chain) (chained : resolver.chain start = .ok chain) :
    resolver.findProxy start signature
      = .ok ((resolver.contenders start signature chain).head?.map (·.2.proxyBody)) := by
  have nodup := lineage.nodup
  obtain ⟨rest, rfl⟩ := lineage.start_eq
  unfold findProxy
  rw [chained]
  refine resolver.findProxyAlong_eq clean ?_ ?_
  · rintro _ _ ⟨rfl, rfl⟩
    exact (decide_eq_true rfl).symm
  · rintro other hmem rfl
    exact (List.nodup_cons.mp nodup).1 hmem

/-! ### The contenders are sorted -/

theorem contenders_ordered (resolver : Resolver) (h : resolver.program.WellFormed)
    {start : TypeId} {signature : Identity} {chain : List TypeId} (nodup : chain.Nodup) :
    (resolver.contenders start signature chain).Pairwise fun a b =>
      resolver.program.proxyRank chain a.1 a.2.proxyBody
        < resolver.program.proxyRank chain b.1 b.2.proxyBody := by
  refine List.pairwise_flatMap.mpr ⟨fun type _ => ?_, ?_⟩
  -- On one type: as registered.
  · refine List.pairwise_map.mpr (List.Pairwise.filter _ ?_)
    rw [resolver.store_eq]
    refine (h.candidatesFor_ordered _).imp fun {a b} before => ?_
    refine Prod.Lex.toLex_lt_toLex.mpr (.inr ⟨rfl, Prod.Lex.toLex_lt_toLex.mpr ?_⟩)
    rcases before with name | ⟨same, declaration⟩
    · exact .inl name
    · refine .inr ⟨?_, ?_⟩
      · show (resolver.program.type a.proxyType).key.text
          = (resolver.program.type b.proxyType).key.text
        rw [same]
      · show (resolver.program.type a.proxyType).members.idxOf a.member
          < (resolver.program.type b.proxyType).members.idxOf b.member
        rw [← same]
        exact declaration
  -- On two: as in the chain.
  · refine (Program.pairwise_idxOf nodup).imp fun {first later} hlt a ha b hb => ?_
    obtain ⟨_, -, rfl⟩ := List.mem_map.mp ha
    obtain ⟨_, -, rfl⟩ := List.mem_map.mp hb
    exact Prod.Lex.toLex_lt_toLex.mpr (.inl hlt)

/-! ### The contenders are what is eligible -/

theorem mem_contenders_iff {resolver : Resolver} {start type : TypeId} {signature : Identity}
    {chain : List TypeId} {candidate : ProxyCandidate} :
    (type, candidate) ∈ resolver.contenders start signature chain
      ↔ type ∈ chain
        ∧ candidate ∈ resolver.store.candidatesFor
            (signature.declaredBy (resolver.program.type type).key)
        ∧ counts start type candidate = true := by
  unfold contenders
  simp only [List.mem_flatMap, List.mem_map, List.mem_filter, Prod.mk.injEq]
  refine ⟨?_, ?_⟩
  · intro given
    obtain ⟨_, hchain, _, ⟨hmem, hcounts⟩, rfl, rfl⟩ := given
    exact ⟨hchain, hmem, hcounts⟩
  · intro given
    obtain ⟨hchain, hmem, hcounts⟩ := given
    exact ⟨type, hchain, candidate, ⟨hmem, hcounts⟩, rfl, rfl⟩

end Resolver

namespace Program

variable {program : Program}

theorem isInert_eq_false_iff {member : LoadedMember} :
    program.isInert member = false
      ↔ member.isBackingField = false ∧ Mark.isNeverReplaced member.marks = false
        ∧ ∀ owner, member.owner? = some owner →
            Mark.isNeverReplaced (program.member owner).marks = false := by
  unfold isInert
  cases member.owner? <;> simp [and_assoc]

theorem isInsideIgnored_eq_false_iff {type : TypeId} :
    program.isInsideIgnored type = false
      ↔ ∀ outer ∈ (program.enclosingChain type).tail,
          Mark.isIgnored (program.type outer).marks = false := by
  unfold isInsideIgnored
  simp only [List.any_eq_false, Bool.not_eq_true]

/-- **What is eligible is what is registered and counts.** -/
theorem WellFormed.eligible_iff (h : program.WellFormed) {start ancestor : TypeId}
    {signature : Identity} (has : program.HasType ancestor)
    (callable : signature.kind.hasSignature = true) {body : ProxyBody} :
    program.Eligible start signature ancestor body
      ↔ ∃ candidate ∈ (Store.ofProgram program).candidatesFor
            (signature.declaredBy (program.type ancestor).key),
          Resolver.counts start ancestor candidate = true ∧ candidate.proxyBody = body := by
  refine ⟨?_, ?_⟩
  · intro eligible
    obtain ⟨inheritable, points, reaches⟩ := eligible.pointsAt
    obtain ⟨-, hidentity⟩ :=
      (h.eq_declaredBy_iff has).mpr ⟨eligible.supplies.mem, eligible.signature⟩
    have offers : offersBody (program.member body.member) = true := by
      have hkind := congrArg Identity.kind hidentity
      rw [identityOfMember, kind_identityOf, eligible.supplies.kind] at hkind
      have hcallable : (program.member body.member).kind.isCallable = true := by
        rw [← MemberKind.hasSignature_symbolKind, hkind]
        exact callable
      simp [offersBody, hcallable, eligible.kept]
    have takesPart := isInert_eq_false_iff.mpr
      ⟨eligible.notBackingField, eligible.replaces, eligible.ownerReplaces⟩
    have live := isInsideIgnored_eq_false_iff.mpr eligible.aroundKept
    refine ⟨program.candidateOf body.proxyType inheritable body.member body.target,
      h.mem_candidatesFor_iff.mpr ⟨hidentity, ancestor, ?_⟩, ?_, ?_⟩
    · exact ⟨eligible.known, has, points, live, eligible.proxyKept, eligible.declared, takesPart,
        offers, eligible.supplies, rfl⟩
    · simpa [Resolver.counts, candidateOf, hasProxyBody, eligible.present, eligible.notExternal]
        using reaches
    · unfold ProxyCandidate.proxyBody candidateOf
      rw [← eligible.mode]
  · intro given
    obtain ⟨candidate, hmem, hcounts, rfl⟩ := given
    obtain ⟨hidentity, target, candidacy⟩ := h.mem_candidatesFor_iff.mp hmem
    obtain rfl : target = ancestor := by
      obtain ⟨hasSupplied, hdeclaring⟩ :=
        (h.mem_members_iff candidacy.targetKnown).mp candidacy.supplies.mem
      have hmember := ((h.eq_declaredBy_iff has).mp ⟨hasSupplied, hidentity⟩).1
      rw [← hdeclaring, ((h.mem_members_iff has).mp hmember).2]
    have hbody := congrArg ProxyCandidate.hasBody candidacy.made
    simp only [Resolver.counts, Bool.and_eq_true, Bool.or_eq_true, decide_eq_true_eq] at hcounts
    obtain ⟨reaches, hcount⟩ := hcounts
    simp only [hcount, candidateOf, hasProxyBody, Bool.true_eq, Bool.and_eq_true,
      decide_eq_true_eq, Bool.not_eq_true'] at hbody
    have hoffers := candidacy.offers
    simp only [offersBody, Bool.and_eq_true, Bool.not_eq_true'] at hoffers
    obtain ⟨notField, replaces, ownerReplaces⟩ := isInert_eq_false_iff.mp candidacy.takesPart
    exact {
      known := candidacy.known
      pointsAt := ⟨candidate.inheritable, candidacy.pointsAt, reaches⟩
      proxyKept := candidacy.kept
      aroundKept := isInsideIgnored_eq_false_iff.mp candidacy.live
      declared := candidacy.listed
      notBackingField := notField
      replaces := replaces
      ownerReplaces := ownerReplaces
      kept := hoffers.2
      notExternal := hbody.2
      present := hbody.1
      supplies := candidacy.supplies
      signature := ((h.eq_declaredBy_iff has).mp
        ⟨((h.mem_members_iff has).mp candidacy.supplies.mem).1, hidentity⟩).2
      mode := congrArg ProxyCandidate.mode candidacy.made }

end Program

/-! ### The least one is found -/

namespace Resolver

/-- The head of a list that is sorted by a rank is the least of the list. -/
theorem head?_eq_some_iff_least {α ρ : Type} [LinearOrder ρ] {rank : α → ρ} {list : List α}
    (sorted : list.Pairwise fun a b => rank a < rank b) {a : α} :
    list.head? = some a ↔ a ∈ list ∧ ∀ b ∈ list, rank a ≤ rank b := by
  cases list with
  | nil => simp
  | cons head rest =>
      obtain ⟨least, -⟩ := List.pairwise_cons.mp sorted
      rw [List.head?_cons, Option.some.injEq]
      refine ⟨?_, ?_⟩
      · rintro rfl
        refine ⟨List.mem_cons_self, fun b hmem => ?_⟩
        rcases List.mem_cons.mp hmem with rfl | hrest
        · exact le_refl _
        · exact le_of_lt (least b hrest)
      · intro given
        obtain ⟨hmem, hle⟩ := given
        rcases List.mem_cons.mp hmem with rfl | hrest
        · rfl
        · exact absurd (least a hrest) (not_lt_of_ge (hle head List.mem_cons_self))

/-- **The search for a proxy finds the least member that is eligible**, in the order of
the ancestor's place in the chain, the name of the proxy type and the place of the
member in it, and it finds nothing only if no member is. -/
theorem findProxy_least (resolver : Resolver) (buildable : resolver.program.Buildable)
    (clean : resolver.store.configurationErrors = []) {start : TypeId}
    (has : resolver.program.HasType start) {chain : List TypeId}
    (chained : resolver.chain start = .ok chain) {signature : Identity}
    (callable : signature.kind.hasSignature = true) :
    ∃ found, resolver.findProxy start signature = .ok found
      ∧ resolver.program.IsLeastEligible start chain signature found := by
  have h := buildable.wellFormed
  obtain ⟨lineage, -⟩ := Program.chain_eq_ok_iff.mp chained
  have nodup := lineage.nodup
  have hasAll := lineage.hasType h has
  have eligible : ∀ ancestor ∈ chain, ∀ body,
      resolver.program.Eligible start signature ancestor body
        ↔ ∃ candidate, (ancestor, candidate) ∈ resolver.contenders start signature chain
            ∧ candidate.proxyBody = body := by
    intro ancestor hmem body
    rw [h.eligible_iff (hasAll ancestor hmem) callable, ← resolver.store_eq]
    simp only [mem_contenders_iff, hmem, true_and, and_assoc]
  have sorted : (resolver.contenders start signature chain).Pairwise fun a b =>
      resolver.program.proxyRank chain a.1 a.2.proxyBody
        < resolver.program.proxyRank chain b.1 b.2.proxyBody :=
    resolver.contenders_ordered h nodup
  refine ⟨_, findProxy_eq_head? clean lineage chained, ?_, fun body => ?_⟩
  · rw [Option.map_eq_none_iff, List.head?_eq_none_iff, List.eq_nil_iff_forall_not_mem]
    refine ⟨?_, ?_⟩
    · intro hnone ancestor hmem body heligible
      obtain ⟨candidate, hcontends, -⟩ := (eligible ancestor hmem body).mp heligible
      exact hnone _ hcontends
    · rintro hnone ⟨ancestor, candidate⟩ hcontends
      have hmem := (mem_contenders_iff.mp hcontends).1
      exact hnone ancestor hmem _ ((eligible ancestor hmem _).mpr ⟨candidate, hcontends, rfl⟩)
  · rw [Option.map_eq_some_iff]
    refine ⟨?_, ?_⟩
    · intro given
      obtain ⟨⟨ancestor, candidate⟩, hhead, rfl⟩ := given
      obtain ⟨hcontends, least⟩ := (head?_eq_some_iff_least sorted).mp hhead
      have hmem := (mem_contenders_iff.mp hcontends).1
      refine ⟨ancestor, hmem, (eligible ancestor hmem _).mpr ⟨candidate, hcontends, rfl⟩, ?_⟩
      intro other hother otherBody heligible
      obtain ⟨otherCandidate, hother', rfl⟩ := (eligible other hother otherBody).mp heligible
      exact least _ hother'
    · intro given
      obtain ⟨ancestor, hmem, heligible, least⟩ := given
      obtain ⟨candidate, hcontends, rfl⟩ := (eligible ancestor hmem body).mp heligible
      refine ⟨(ancestor, candidate), (head?_eq_some_iff_least sorted).mpr ⟨hcontends, ?_⟩, rfl⟩
      rintro ⟨other, otherCandidate⟩ hother
      have hotherMem := (mem_contenders_iff.mp hother).1
      exact least other hotherMem _
        ((eligible other hotherMem _).mpr ⟨otherCandidate, hother, rfl⟩)

/-- A type, one derived from it, and two proxies of the base: the one that comes first by
name does not reach derived types, and the other supplies under a target name. -/
def rivalProxies : List Edit :=
  [.addAssembly "Lib",
   .addType ⟨0⟩ { name := "Base", kind := .classType },
   .addMember ⟨0⟩ (.method "M"),
   .addType ⟨0⟩ { name := "Derived", kind := .classType, base := some ⟨"Base"⟩ },
   .addType ⟨0⟩ { name := "Second", kind := .classType, marks := [.proxy ⟨"Base"⟩ true] },
   .addMember ⟨2⟩ { MemberDecl.method "N" with marks := [.proxyTarget "M"] },
   .addType ⟨0⟩ { name := "First", kind := .classType, marks := [.proxy ⟨"Base"⟩ false] },
   .addMember ⟨3⟩ (.method "M")]

/-- From the derived type the inheritable proxy is found, although it comes second. -/
theorem findProxy_least_rivalProxies :
    let resolver : Resolver := { program := Program.afterEdits {} rivalProxies, maxDepth := 8 }
    let start : TypeId := ⟨1⟩
    let chain : List TypeId := [⟨1⟩, ⟨0⟩]
    let signature := Identity.ofMember .method ⟨"Derived"⟩ (.named "M") []
    (resolver.program.Buildable ∧ resolver.store.configurationErrors = []
        ∧ resolver.program.HasType start ∧ resolver.chain start = .ok chain
        ∧ signature.kind.hasSignature = true)
      ∧ (∃ found, resolver.findProxy start signature = .ok found
        ∧ resolver.program.IsLeastEligible start chain signature found)
      ∧ resolver.findProxy start signature
          = .ok (some ⟨⟨1⟩, ⟨2⟩, ⟨0⟩, .replaceBody⟩) := by
  have built : (Program.afterEdits {} rivalProxies).Buildable :=
    Program.Buildable.empty.afterEdits (by decide)
  refine ⟨⟨built, by decide +kernel, by decide +kernel, by decide +kernel, rfl⟩,
    findProxy_least { program := Program.afterEdits {} rivalProxies, maxDepth := 8 } built
      (by decide +kernel) (by decide +kernel) (by decide +kernel) rfl, ?_⟩
  decide +kernel

end Resolver

end MemberResolution
