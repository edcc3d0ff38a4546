/-
Which conversion a proxy member supplies.

One type may convert to many, so the result type of a conversion belongs to its identity.
A proxy member without a target name is compared by its identity, and then the result type
counts.  With a target name only names, kinds and parameter types are compared.  The
conversions of a type into others have all these in common, so the one declared first is
taken, and it need not be the one with the result type of the proxy member.
-/
import MemberResolution.Proofs.Dispatch
import MemberResolution.Proofs.LeastProxy

namespace MemberResolution

/-- A member is a conversion operator. -/
def LoadedMember.IsConversion (member : LoadedMember) : Prop :=
  member.kind = .operator ∧ member.name.isConversion = true

instance (member : LoadedMember) : Decidable member.IsConversion :=
  inferInstanceAs (Decidable (_ ∧ _))

namespace Program

variable {program : Program}

/-! ### Identities of conversions -/

theorem identityOf_of_isConversion (program : Program) {member : LoadedMember}
    (conversion : member.IsConversion) :
    program.identityOf member
      = ⟨.operator, some (program.type member.declaringType).key, member.name, member.paramTypes,
          some member.type⟩ := by
  obtain ⟨kind, name⟩ := conversion
  unfold identityOf identityIn Identity.ofMember Identity.returning
  rw [kind]
  exact if_pos ⟨rfl, name⟩

theorem eq_of_sameSignature_conversion {member conversion : LoadedMember}
    (isConversion : conversion.IsConversion)
    (same : (program.identityOf conversion).sameSignature (program.identityOf member) = true) :
    member.IsConversion ∧ member.name = conversion.name
      ∧ member.paramTypes = conversion.paramTypes ∧ member.type = conversion.type := by
  obtain ⟨hkind, hname, hparams, hreturns⟩ := Identity.sameSignature_iff.mp same
  rw [kind_identityOf, kind_identityOf] at hkind
  rw [name_identityOf, name_identityOf] at hname
  have memberConverts : member.IsConversion :=
    ⟨(MemberKind.symbolKind_injective hkind).symm.trans isConversion.1, hname ▸ isConversion.2⟩
  rw [identityOf_of_isConversion program isConversion,
    identityOf_of_isConversion program memberConverts] at hparams hreturns
  exact ⟨memberConverts, hname.symm, hparams.symm, (Option.some.inj hreturns).symm⟩

theorem WellFormed.eq_of_parts (h : program.WellFormed) {type : TypeId}
    (has : program.HasType type) {a b : MemberId} (ha : a ∈ (program.type type).members)
    (hb : b ∈ (program.type type).members) (kind : (program.member a).kind = (program.member b).kind)
    (name : (program.member a).name = (program.member b).name)
    (params : (program.member a).paramTypes = (program.member b).paramTypes)
    (result : (program.member a).type = (program.member b).type) : a = b := by
  obtain ⟨hasA, declaresA⟩ := h.declares type has a ha
  obtain ⟨hasB, declaresB⟩ := h.declares type has b hb
  refine h.identities a b hasA hasB ?_
  unfold LoadedMember.paramTypes at params
  unfold identityOfMember identityOf identityIn
  rw [declaresA, declaresB, kind, name, params, result]

/-! ### What a target name means -/

/-- What a target name means to a proxy member: of the members of the target type with this
name and its kind, the one declared first of those with its parameter types, or else the only
one. -/
structure MeantByName (program : Program) (member : LoadedMember) (target : TypeId) (name : String)
    (meant : MemberId) : Prop where
  named : meant ∈ program.namesakes member target name
  chosen : (program.member meant).paramTypes = member.paramTypes
        ∧ (∀ other ∈ program.namesakes member target name,
          (program.member other).paramTypes = member.paramTypes → meant.index ≤ other.index)
      ∨ ∀ other ∈ program.namesakes member target name, other = meant

theorem Supplies.meantByName (h : program.WellFormed) {member : LoadedMember} {target : TypeId}
    (has : program.HasType target) {supplied : MemberId} {name : String}
    (supplies : program.Supplies member target supplied)
    (sought : Mark.proxyTarget? member.marks = some name) :
    program.MeantByName member target name supplied where
  named := supplies.mem_namesakes sought
  chosen := by
    have ordered : (program.namesakes member target name).Pairwise fun a b => a.index < b.index :=
      (h.ordered target has).filter _
    unfold Supplies at supplies
    rw [sought] at supplies
    rcases supplies with first | ⟨-, only⟩
    · obtain ⟨hmem, least⟩ :=
        (Resolver.head?_eq_some_iff_least (ordered.filter _)).mp first
      obtain ⟨-, hparams⟩ := List.mem_filter.mp hmem
      refine Or.inl ⟨of_decide_eq_true hparams, fun other hother params => ?_⟩
      exact least other (List.mem_filter.mpr ⟨hother, decide_eq_true params⟩)
    · refine Or.inr fun other hother => ?_
      rw [only] at hother
      exact List.mem_singleton.mp hother

/-- The conversion that a proxy member spells: it has the kind, the parameter types and the
result type of the proxy member, and a name. -/
structure Spells (program : Program) (member : LoadedMember) (target : TypeId) (name : SymbolName)
    (spelled : MemberId) : Prop where
  listed : spelled ∈ (program.type target).members
  kind : (program.member spelled).kind = member.kind
  named : (program.member spelled).name = name
  params : (program.member spelled).paramTypes = member.paramTypes
  result : (program.member spelled).type = member.type

/-- What a target name means has the result type of the proxy member if and only if nothing
with the same name, kind and parameter types is declared before what the proxy member spells. -/
theorem MeantByName.type_eq_iff (h : program.WellFormed) {member : LoadedMember} {target : TypeId}
    (has : program.HasType target) {name : String} {meant spelled : MemberId}
    (means : program.MeantByName member target name meant)
    (spells : program.Spells member target (program.member meant).name spelled) :
    (program.member meant).type = member.type
      ↔ ∀ other ∈ program.namesakes member target name,
          (program.member other).paramTypes = member.paramTypes → spelled.index ≤ other.index := by
  obtain ⟨meantListed, hmeant⟩ := List.mem_filter.mp means.named
  simp only [Bool.and_eq_true, decide_eq_true_eq] at hmeant
  obtain ⟨meantNamed, meantKind⟩ := hmeant
  have spelledNamed : spelled ∈ program.namesakes member target name := by
    refine List.mem_filter.mpr ⟨spells.listed, ?_⟩
    rw [spells.named, spells.kind, meantNamed]
    simp
  rcases means.chosen with ⟨meantParams, first⟩ | only
  · refine ⟨fun result => ?_, fun before => ?_⟩
    · have same : meant = spelled :=
        h.eq_of_parts has meantListed spells.listed (meantKind.trans spells.kind.symm)
          spells.named.symm (meantParams.trans spells.params.symm)
          (result.trans spells.result.symm)
      exact same ▸ first
    · have hindex : spelled.index = meant.index :=
        Nat.le_antisymm (before meant means.named meantParams)
          (first spelled spelledNamed spells.params)
      have same : spelled = meant := by
        cases spelled
        cases meant
        exact congrArg MemberId.mk hindex
      exact same ▸ spells.result
  · obtain rfl := only spelled spelledNamed
    refine iff_of_true spells.result fun other hother _ => ?_
    rw [only other hother]

/-! ### Candidates for conversions -/

/-- **A proxy member supplies a conversion** by its own signature, which tells the result type,
or by a target name, which does not. -/
structure SuppliesConversion (program : Program) (member : LoadedMember) (target : TypeId)
    (conversion : MemberId) : Prop where
  /-- Without a target name it is the same conversion, and returns the same. -/
  bySignature : Mark.proxyTarget? member.marks = none →
    member.name = (program.member conversion).name
      ∧ member.paramTypes = (program.member conversion).paramTypes
      ∧ member.type = (program.member conversion).type
  /-- With a target name it is what the name means, whatever that returns. -/
  byName : ∀ name, Mark.proxyTarget? member.marks = some name →
    program.MeantByName member target name conversion
  /-- If the target declares the conversion that the proxy member spells, the result types
  agree if and only if no operator of this name and with these parameter types stands before
  it. -/
  agrees : ∀ name, Mark.proxyTarget? member.marks = some name → ∀ spelled,
    program.Spells member target (program.member conversion).name spelled →
      ((program.member conversion).type = member.type
        ↔ ∀ other ∈ program.namesakes member target name,
          (program.member other).paramTypes = member.paramTypes → spelled.index ≤ other.index)

/--
**What a candidate for a conversion returns.**  In every program, whatever is registered as a
candidate for a conversion operator is an operator too.  Found by its signature, it has the
result type of the conversion.  Found by a target name, it supplies the first operator of that
name with its parameter types, or the only operator of the name, and the result types differ
whenever the conversion it spells is declared but not the first.
-/
theorem conversionCandidate_supplies {program : Program} (built : program.Buildable)
    {identity : Identity} {candidate : ProxyCandidate}
    (registered : candidate ∈ (Store.ofProgram program).candidatesFor identity)
    (conversion : (program.member candidate.target).IsConversion) :
    (program.member candidate.member).kind = .operator
      ∧ program.SuppliesConversion (program.member candidate.member)
        (program.member candidate.target).declaringType candidate.target := by
  have h := built.wellFormed
  obtain ⟨-, target, candidacy⟩ := h.mem_candidatesFor_iff.mp registered
  have has := candidacy.targetKnown
  have supplies := candidacy.supplies
  obtain ⟨-, declared⟩ := h.declares target has _ supplies.mem
  rw [declared]
  refine ⟨supplies.kind.symm.trans conversion.1, ?_, ?_, ?_⟩
  · intro unnamed
    exact (eq_of_sameSignature_conversion conversion (supplies.sameSignature unnamed).2).2
  · intro name sought
    exact supplies.meantByName h has sought
  · intro name sought spelled spells
    exact (supplies.meantByName h has sought).type_eq_iff h has spells

/-- A type that converts to a number and to a text, and a proxy of it with the conversion to a
text, with some marks. -/
def moneyConversions (marks : List Mark) : List Edit :=
  [.addAssembly "Lib",
   .addType ⟨0⟩ { name := "Money", kind := .structType },
   .addMember ⟨0⟩
     ((MemberDecl.operator .implicitConversion ⟨"System.Int32"⟩).taking ⟨"value", ⟨"Money"⟩⟩),
   .addMember ⟨0⟩
     ((MemberDecl.operator .implicitConversion ⟨"System.String"⟩).taking ⟨"value", ⟨"Money"⟩⟩),
   .addType ⟨0⟩ { name := "MoneyProxy", kind := .classType, marks := [.proxy ⟨"Money"⟩ true] },
   .addMember ⟨1⟩
     { (MemberDecl.operator .implicitConversion ⟨"System.String"⟩).taking ⟨"value", ⟨"Money"⟩⟩ with
       marks := marks }]

/-- Without a target name the proxy supplies the conversion to a text, and no other. -/
theorem conversionCandidate_supplies_money :
    let program := Program.afterEdits {} (moneyConversions [])
    let candidate : ProxyCandidate := ⟨⟨2⟩, ⟨1⟩, ⟨1⟩, .replaceBody, true, true⟩
    (program.Buildable
        ∧ candidate ∈ (Store.ofProgram program).candidatesFor (program.identityOfMember ⟨1⟩)
        ∧ (program.member candidate.target).IsConversion)
      ∧ ((program.member candidate.member).kind = .operator
        ∧ program.SuppliesConversion (program.member candidate.member)
          (program.member candidate.target).declaringType candidate.target)
      ∧ (Store.ofProgram program).candidatesFor (program.identityOfMember ⟨0⟩) = [] := by
  have built : (Program.afterEdits {} (moneyConversions [])).Buildable :=
    Program.Buildable.empty.afterEdits (by decide +kernel)
  have registered : (⟨⟨2⟩, ⟨1⟩, ⟨1⟩, .replaceBody, true, true⟩ : ProxyCandidate)
      ∈ (Store.ofProgram (Program.afterEdits {} (moneyConversions []))).candidatesFor
        ((Program.afterEdits {} (moneyConversions [])).identityOfMember ⟨1⟩) := by
    decide +kernel
  have conversion : ((Program.afterEdits {} (moneyConversions [])).member ⟨1⟩).IsConversion := by
    decide +kernel
  refine ⟨⟨built, registered, conversion⟩,
    conversionCandidate_supplies built registered conversion, ?_⟩
  decide +kernel

/-- With the target name the same proxy member supplies the conversion to a number, and the
one to a text has no candidate. -/
theorem conversionCandidate_returns_other :
    let program := Program.afterEdits {} (moneyConversions [.proxyTarget "op_Implicit"])
    let candidate : ProxyCandidate := ⟨⟨2⟩, ⟨1⟩, ⟨0⟩, .replaceBody, true, true⟩
    program.Buildable
      ∧ candidate ∈ (Store.ofProgram program).candidatesFor (program.identityOfMember ⟨0⟩)
      ∧ (program.member candidate.target).IsConversion
      ∧ (program.member candidate.member).type = ⟨"System.String"⟩
      ∧ (program.member candidate.target).type = ⟨"System.Int32"⟩
      ∧ (Store.ofProgram program).candidatesFor (program.identityOfMember ⟨1⟩) = [] := by
  refine ⟨Program.Buildable.empty.afterEdits (by decide +kernel), ?_⟩
  decide +kernel

end Program

end MemberResolution
