/-
The body that is chosen.

Where the outcome of a member is a proxy, a search found the body in it, and whatever a
search finds is eligible.  Nothing has to be right with the program for that: a fault ends
a search, it never leads one astray.  So what is asked of an eligible proxy member holds
of every body that is emitted in place of another.

Two things one would like to know of such a body are asked only in part.

  * Neither the proxy type nor a type around it carries the mark to be ignored.  Whether
    one of them is ignored in effect is not asked: a further proxy, itself ignored, may
    bring the mark to it.  `isTypeIgnored_of_chosen_iff` says that this is the only way.
  * The body was loaded and its member is not marked as external.  Whether the property or
    event of an accessor is, or whether the assembly is a stub, is not asked, though it is
    of the member's own body.  `isAvailable_of_chosen_iff` says that nothing else is missing.
-/
import MemberResolution.Proofs.DecisionTable
import MemberResolution.Proofs.Except

namespace MemberResolution

open Program (levelsVisited)

namespace Resolver

variable {resolver : Resolver}

/-! ### What is found is eligible -/

theorem eligible_of_findProxyAlong (h : resolver.program.WellFormed) {start : TypeId}
    {signature : Identity} (callable : signature.kind.hasSignature = true) {body : ProxyBody}
    {chain : List TypeId} (hasAll : ∀ ancestor ∈ chain, resolver.program.HasType ancestor) :
    ∀ {atStart : Bool}, (∀ type rest, chain = type :: rest → atStart = true → type = start) →
      resolver.findProxyAlong signature atStart chain = .ok (some body) →
      ∃ ancestor ∈ chain, resolver.program.Eligible start signature ancestor body := by
  induction chain with
  | nil => intro atStart _ found; cases found
  | cons type rest ih =>
      intro atStart first found
      unfold findProxyAlong at found
      split at found
      · cases found
      · split at found
        · rename_i candidate hfound
          cases found
          have mem := List.mem_of_find?_eq_some hfound
          have suits := List.find?_some hfound
          simp only [Bool.and_eq_true, Bool.or_eq_true] at suits
          obtain ⟨reaches, hasBody⟩ := suits
          have hcounts : counts start type candidate = true := by
            unfold counts
            simp only [hasBody, Bool.and_true, Bool.or_eq_true, decide_eq_true_eq]
            exact reaches.symm.imp_right fun atStart => first type rest rfl atStart
          rw [resolver.store_eq] at mem
          exact ⟨type, List.mem_cons_self, (h.eligible_iff (hasAll type List.mem_cons_self)
            callable).mpr ⟨candidate, mem, hcounts, rfl⟩⟩
        -- Further up no search starts.
        · obtain ⟨ancestor, hmem, eligible⟩ :=
            ih (fun ancestor hmem => hasAll ancestor (List.mem_cons_of_mem _ hmem))
              (by intro _ _ _ atStart; cases atStart) found
          exact ⟨ancestor, List.mem_cons_of_mem _ hmem, eligible⟩

/-- **Whatever the search for a proxy finds is eligible**, whether or not the
configuration of the program is in order. -/
theorem eligible_of_findProxy (h : resolver.program.WellFormed) {start : TypeId}
    (has : resolver.program.HasType start) {signature : Identity}
    (callable : signature.kind.hasSignature = true) {body : ProxyBody}
    (found : resolver.findProxy start signature = .ok (some body)) :
    ∃ ancestor, resolver.program.HasType ancestor
      ∧ resolver.program.Eligible start signature ancestor body := by
  obtain ⟨chain, hchain, hfound⟩ := bind_eq_ok_iff.mp found
  obtain ⟨lineage, -⟩ := Program.chain_eq_ok_iff.mp hchain
  have hasAll := lineage.hasType h has
  obtain ⟨rest, rfl⟩ := lineage.start_eq
  obtain ⟨ancestor, hmem, eligible⟩ := eligible_of_findProxyAlong h callable hasAll
    (by rintro _ _ ⟨rfl, rfl⟩ _; rfl) hfound
  exact ⟨ancestor, hasAll ancestor hmem, eligible⟩

/-! ### What is chosen was found -/

theorem firstUnimplemented_ne_proxy {accessors : List MemberId} {body : ProxyBody} :
    resolver.firstUnimplemented accessors ≠ .ok (.proxy body) := by
  induction accessors with
  | nil => intro h; cases h
  | cons accessor rest ih =>
      intro h
      unfold firstUnimplemented at h
      split at h
      · cases h
      · cases h
      · exact ih h

theorem ownerOutcome_ne_proxy {id : MemberId} {body : ProxyBody} :
    resolver.ownerOutcome id ≠ .ok (.proxy body) := by
  intro h
  unfold ownerOutcome at h
  split at h
  · exact firstUnimplemented_ne_proxy h
  · cases h

theorem findProxy_of_implementation {id : MemberId} {body : ProxyBody}
    (chosen : resolver.implementation id = .ok (.proxy body)) :
    resolver.findProxy (resolver.program.member id).declaringType
      (resolver.program.identityOfMember id) = .ok (some body) := by
  obtain ⟨found, hfind, hfound⟩ := bind_eq_ok_iff.mp chosen
  rw [hfind]
  cases found with
  | some supplied => cases hfound; rfl
  | none =>
      have own : resolver.ownOutcome id = .proxy body := Except.ok.inj hfound
      unfold ownOutcome at own
      split at own
      · cases own
      · cases own

theorem findProxy_of_classifyMember {id : MemberId} {body : ProxyBody}
    (chosen : resolver.classifyMember id = .ok (.proxy body)) :
    (resolver.program.member id).kind.isCallable = true
      ∧ resolver.findProxy (resolver.program.member id).declaringType
        (resolver.program.identityOfMember id) = .ok (some body) := by
  unfold classifyMember unlessOverridden at chosen
  split at chosen
  · cases chosen
  · split at chosen
    · cases chosen
    · cases hkind : (resolver.program.member id).kind <;> simp only [hkind] at chosen
      case field => cases chosen
      case property => exact absurd chosen ownerOutcome_ne_proxy
      case event => exact absurd chosen ownerOutcome_ne_proxy
      all_goals exact ⟨rfl, findProxy_of_implementation chosen⟩

/-- **The body in an outcome is eligible**, as some type in the chain of the member's own
type declares the signature. -/
theorem eligible_of_classifyMember (h : resolver.program.WellFormed) {id : MemberId}
    (has : resolver.program.HasMember id) {body : ProxyBody}
    (chosen : resolver.classifyMember id = .ok (.proxy body)) :
    ∃ ancestor, resolver.program.HasType ancestor
      ∧ resolver.program.Eligible (resolver.program.member id).declaringType
        (resolver.program.identityOfMember id) ancestor body := by
  obtain ⟨callable, found⟩ := findProxy_of_classifyMember chosen
  refine eligible_of_findProxy h (h.declaringType id has) ?_ found
  rw [Program.identityOfMember, Program.kind_identityOf, MemberKind.hasSignature_symbolKind]
  exact callable

/-! ### Ignored proxy types -/

/-- A type whose own mark does not ignore it is ignored exactly if a live proxy brings it
the mark. -/
theorem isIgnored_typeDirectives_iff (h : resolver.program.WellFormed) {type : TypeId}
    (has : resolver.program.HasType type)
    (kept : Mark.isIgnored (resolver.program.type type).marks = false) :
    Directive.isIgnored (resolver.typeDirectives type) = true
      ↔ ∃ proxy ∈ resolver.program.proxiesFor levelsVisited type,
          Mark.isIgnored proxy.marks = true := by
  rw [isIgnored_typeDirectives h has, Program.effectiveOnType]
  unfold Mark.isIgnored at kept ⊢
  have own : Mark.ignore ∉ if (resolver.program.type type).isProxy then []
      else (resolver.program.type type).marks := by
    split
    · exact List.not_mem_nil
    · rw [← List.contains_iff_mem, kept]
      exact Bool.false_ne_true
  simp only [List.contains_iff_mem, List.mem_append, own, false_or, List.mem_flatMap]

/-- **A chosen body is of an ignored proxy type only through a further proxy.**  Neither the
proxy type nor a type around it, as far as a walk outward goes, is marked to be ignored; and
one of them is ignored in effect exactly if a live proxy of it is so marked. -/
theorem isTypeIgnored_of_chosen_iff (resolver : Resolver) (buildable : resolver.program.Buildable)
    {id : MemberId} (has : resolver.program.HasMember id) {body : ProxyBody}
    (chosen : resolver.classifyMember id = .ok (.proxy body)) :
    (∀ outer ∈ resolver.program.enclosingChain body.proxyType,
        Mark.isIgnored (resolver.program.type outer).marks = false)
      ∧ (resolver.isTypeIgnored body.proxyType = true
        ↔ ∃ outer ∈ resolver.program.enclosingChain body.proxyType,
            ∃ proxy ∈ resolver.program.proxiesFor levelsVisited outer,
              Mark.isIgnored proxy.marks = true) := by
  have h := buildable.wellFormed
  obtain ⟨ancestor, -, eligible⟩ := eligible_of_classifyMember h has chosen
  have kept : ∀ outer ∈ resolver.program.enclosingChain body.proxyType,
      Mark.isIgnored (resolver.program.type outer).marks = false := by
    intro outer hmem
    rcases List.mem_cons.mp hmem with rfl | hrest
    · exact eligible.proxyKept
    · exact eligible.aroundKept outer hrest
  refine ⟨kept, ?_⟩
  unfold isTypeIgnored
  rw [List.any_eq_true]
  refine exists_congr fun outer => and_congr_right fun hmem => ?_
  exact isIgnored_typeDirectives_iff h
    (h.hasType_of_mem_enclosingUpTo eligible.known outer hmem) (kept outer hmem)

/-- A proxy inside a type, and a proxy of that type that is not ignored. -/
def externalOuter : List Edit :=
  [.addAssembly "Lib",
   .addType ⟨0⟩ { name := "T", kind := .classType },
   .addMember ⟨0⟩ (.method "M"),
   .addType ⟨0⟩ { name := "Outer", kind := .classType },
   .addNestedType ⟨1⟩ { name := "P", kind := .classType, marks := [.proxy ⟨"T"⟩ true] },
   .addMember ⟨2⟩ (.method "M"),
   .addType ⟨0⟩ { name := "Q", kind := .classType, marks := [.external, .proxy ⟨"Outer"⟩ true] }]

/-- The inner proxy supplies the method, and nothing brings it the mark. -/
theorem isTypeIgnored_of_chosen_iff_externalOuter :
    let resolver : Resolver := { program := Program.afterEdits {} externalOuter, maxDepth := 8 }
    let body : ProxyBody := ⟨⟨1⟩, ⟨2⟩, ⟨0⟩, .replaceBody⟩
    (resolver.program.Buildable ∧ resolver.program.HasMember ⟨0⟩
        ∧ resolver.classifyMember ⟨0⟩ = .ok (.proxy body))
      ∧ ((∀ outer ∈ resolver.program.enclosingChain body.proxyType,
            Mark.isIgnored (resolver.program.type outer).marks = false)
        ∧ (resolver.isTypeIgnored body.proxyType = true
          ↔ ∃ outer ∈ resolver.program.enclosingChain body.proxyType,
              ∃ proxy ∈ resolver.program.proxiesFor levelsVisited outer,
                Mark.isIgnored proxy.marks = true))
      ∧ resolver.isTypeIgnored body.proxyType = false := by
  have built : (Program.afterEdits {} externalOuter).Buildable :=
    Program.Buildable.empty.afterEdits (by decide +kernel)
  have has : (Program.afterEdits {} externalOuter).HasMember ⟨0⟩ := by decide +kernel
  have chosen : Resolver.classifyMember
      { program := Program.afterEdits {} externalOuter, maxDepth := 8 } ⟨0⟩
        = .ok (.proxy ⟨⟨1⟩, ⟨2⟩, ⟨0⟩, .replaceBody⟩) := by
    decide +kernel
  refine ⟨⟨built, has, chosen⟩, isTypeIgnored_of_chosen_iff _ built has chosen, ?_⟩
  decide +kernel

/-- A proxy inside a type and a proxy outside, and ignored proxies of that type and of the
outer proxy. -/
def ignoredElsewhere : List Edit :=
  [.addAssembly "Lib",
   .addType ⟨0⟩ { name := "T", kind := .classType },
   .addMember ⟨0⟩ (.method "M"),
   .addType ⟨0⟩ { name := "Outer", kind := .classType },
   .addNestedType ⟨1⟩ { name := "P", kind := .classType, marks := [.proxy ⟨"T"⟩ true] },
   .addMember ⟨2⟩ (.method "M"),
   .addType ⟨0⟩ { name := "Q", kind := .classType, marks := [.ignore, .proxy ⟨"Outer"⟩ true] },
   .addType ⟨0⟩ { name := "U", kind := .classType },
   .addMember ⟨4⟩ (.method "M"),
   .addType ⟨0⟩ { name := "R", kind := .classType, marks := [.proxy ⟨"U"⟩ true] },
   .addMember ⟨5⟩ (.method "M"),
   .addType ⟨0⟩ { name := "S", kind := .classType, marks := [.ignore, .proxy ⟨"R"⟩ true] }]

/-- Of one proxy the type around it is ignored, the other is ignored itself, and still both
supply their methods. -/
theorem classifyMember_eq_proxy_ignoredElsewhere :
    let program := Program.afterEdits {} ignoredElsewhere
    let resolver : Resolver := { program := program, maxDepth := 64 }
    program.Buildable ∧ program.HasMember ⟨0⟩ ∧ program.HasMember ⟨2⟩
      ∧ resolver.classifyMember ⟨0⟩ = .ok (.proxy ⟨⟨1⟩, ⟨2⟩, ⟨0⟩, .replaceBody⟩)
      ∧ resolver.isTypeIgnored ⟨2⟩ = true
      ∧ resolver.classifyMember ⟨2⟩ = .ok (.proxy ⟨⟨3⟩, ⟨5⟩, ⟨2⟩, .replaceBody⟩)
      ∧ resolver.isTypeIgnored ⟨5⟩ = true := by
  have built : (Program.afterEdits {} ignoredElsewhere).Buildable :=
    Program.Buildable.empty.afterEdits (by decide +kernel)
  refine ⟨built, ?_⟩
  decide +kernel

end Resolver

/-! ### Available bodies -/

namespace Program

/-- Whether the property or event a member is an accessor of is marked as external. -/
def isOwnerExternal (program : Program) (id : MemberId) : Bool :=
  (program.member id).owner?.any fun owner => Mark.isExternal (program.member owner).marks

/-- Whether a member stands in a stub assembly and cannot be made without its loaded body. -/
def isStubbed (program : Program) (id : MemberId) : Bool :=
  program.inStubAssembly (program.member id).declaringType
    && !((program.member id).isGenerated || (program.member id).kind = .constructor)

/-- Whether the body of a member can be had: it was loaded, nothing says that it comes from
outside, and its assembly is no stub or does not matter. -/
def isAvailable (program : Program) (id : MemberId) : Bool :=
  (program.member id).body = .present && !Mark.isExternal (program.member id).marks
    && !program.isOwnerExternal id && !program.isStubbed id

end Program

namespace Resolver

/-- **A chosen body was loaded and its member is not external.**  It is available in full
exactly if besides the property or event of the member is not external, and the member is
no ordinary one in a stub assembly. -/
theorem isAvailable_of_chosen_iff (resolver : Resolver) (buildable : resolver.program.Buildable)
    {id : MemberId} (has : resolver.program.HasMember id) {body : ProxyBody}
    (chosen : resolver.classifyMember id = .ok (.proxy body)) :
    (resolver.program.member body.member).body = .present
      ∧ Mark.isExternal (resolver.program.member body.member).marks = false
      ∧ (resolver.program.isAvailable body.member = true
        ↔ resolver.program.isOwnerExternal body.member = false
          ∧ resolver.program.isStubbed body.member = false) := by
  obtain ⟨ancestor, -, eligible⟩ := eligible_of_classifyMember buildable.wellFormed has chosen
  refine ⟨eligible.present, eligible.notExternal, ?_⟩
  simp [Program.isAvailable, eligible.present, eligible.notExternal]

/-- A type with a constructor, and a proxy of it in a stub assembly. -/
def stubConstructor : List Edit :=
  [.addAssembly "Lib",
   .addAssembly "Stub",
   .markAssembly ⟨1⟩ .stubAssembly,
   .addType ⟨0⟩ { name := "T", kind := .classType },
   .addMember ⟨0⟩ .instanceConstructor,
   .addType ⟨1⟩ { name := "P", kind := .classType, marks := [.proxy ⟨"T"⟩ true] },
   .addMember ⟨1⟩ .instanceConstructor]

/-- The constructor of the proxy is chosen, and it can be made in a stub too. -/
theorem isAvailable_of_chosen_iff_stubConstructor :
    let resolver : Resolver := { program := Program.afterEdits {} stubConstructor, maxDepth := 8 }
    let body : ProxyBody := ⟨⟨1⟩, ⟨1⟩, ⟨0⟩, .replaceBody⟩
    (resolver.program.Buildable ∧ resolver.program.HasMember ⟨0⟩
        ∧ resolver.classifyMember ⟨0⟩ = .ok (.proxy body))
      ∧ ((resolver.program.member body.member).body = .present
        ∧ Mark.isExternal (resolver.program.member body.member).marks = false
        ∧ (resolver.program.isAvailable body.member = true
          ↔ resolver.program.isOwnerExternal body.member = false
            ∧ resolver.program.isStubbed body.member = false))
      ∧ resolver.program.inStubAssembly body.proxyType = true
      ∧ resolver.program.isAvailable body.member = true := by
  have built : (Program.afterEdits {} stubConstructor).Buildable :=
    Program.Buildable.empty.afterEdits (by decide +kernel)
  have has : (Program.afterEdits {} stubConstructor).HasMember ⟨0⟩ := by decide +kernel
  have chosen : Resolver.classifyMember
      { program := Program.afterEdits {} stubConstructor, maxDepth := 8 } ⟨0⟩
        = .ok (.proxy ⟨⟨1⟩, ⟨1⟩, ⟨0⟩, .replaceBody⟩) := by
    decide +kernel
  refine ⟨⟨built, has, chosen⟩, isAvailable_of_chosen_iff _ built has chosen, ?_⟩
  decide +kernel

/-- A type with a method and a property, a proxy of it with the property, which is
external, and a proxy of it in a stub assembly with the method. -/
def unavailableBodies : List Edit :=
  [.addAssembly "Lib",
   .addAssembly "Stub",
   .markAssembly ⟨1⟩ .stubAssembly,
   .addType ⟨0⟩ { name := "T", kind := .classType },
   .addMember ⟨0⟩ (.method "M"),
   .addProperty ⟨0⟩ { name := "V", type := ⟨"System.Int32"⟩, getter := some {} },
   .addType ⟨0⟩ { name := "P", kind := .classType, marks := [.proxy ⟨"T"⟩ true] },
   .addProperty ⟨1⟩
     { name := "V", type := ⟨"System.Int32"⟩, getter := some {}, marks := [.external] },
   .addType ⟨1⟩ { name := "S", kind := .classType, marks := [.proxy ⟨"T"⟩ true] },
   .addMember ⟨2⟩ (.method "M")]

/-- Both proxies supply a body, and neither body is available. -/
theorem classifyMember_eq_proxy_unavailableBodies :
    let program := Program.afterEdits {} unavailableBodies
    let resolver : Resolver := { program := program, maxDepth := 64 }
    program.Buildable ∧ program.HasMember ⟨0⟩ ∧ program.HasMember ⟨2⟩
      ∧ resolver.classifyMember ⟨0⟩ = .ok (.proxy ⟨⟨5⟩, ⟨2⟩, ⟨0⟩, .replaceBody⟩)
      ∧ program.isStubbed ⟨5⟩ = true
      ∧ program.isAvailable ⟨5⟩ = false
      ∧ resolver.classifyMember ⟨2⟩ = .ok (.proxy ⟨⟨4⟩, ⟨1⟩, ⟨2⟩, .replaceBody⟩)
      ∧ program.isOwnerExternal ⟨4⟩ = true
      ∧ program.isAvailable ⟨4⟩ = false := by
  have built : (Program.afterEdits {} unavailableBodies).Buildable :=
    Program.Buildable.empty.afterEdits (by decide +kernel)
  refine ⟨built, ?_⟩
  decide +kernel

end Resolver

end MemberResolution
