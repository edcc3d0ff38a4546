/-
The names of accessors and generated fields.

An accessor is named after its property or event and a generated field after its type and its
property, each by the name that is emitted and not by the one that was declared, unless the
member has a new name of its own.  For an owner with a new name this is the rule; for one
without it is how members are declared in the first place.

The name of a generated field asks for the name of its property, which might be asked for the
next one.  `memberNameWithin` is this recursion with a limit on the calls.  A property is
declared as such, so the second call is the last.
-/
import MemberResolution.Naming
import MemberResolution.Proofs.Owners

namespace MemberResolution

namespace Resolver

/-! ### The recursion -/

/-- The name of a member, if it is found by no more than so many calls. -/
def memberNameWithin (resolver : Resolver) : Nat → MemberId → Option String
  | 0, _ => none
  | calls + 1, id =>
    let member := resolver.program.member id
    match Directive.rename? (resolver.memberDirectives id), member.origin with
    | some name, _ => some name
    | none, .accessor kind owner _ =>
      match Directive.rename? (resolver.memberDirectives owner) with
      | some name => some (kind.lead ++ name)
      | none => some member.name.text
    | none, .backingField property =>
      (resolver.memberNameWithin calls property).map fun name =>
        resolver.typeName member.declaringType ++ "$" ++ name ++ "$value"
    | none, .declared => some member.name.text

variable {resolver : Resolver} {id : MemberId}

theorem memberName_of_declared (declared : (resolver.program.member id).origin = .declared) :
    resolver.memberName id = resolver.ownName id := by
  simp only [memberName, ownName, declared]
  cases Directive.rename? (resolver.memberDirectives id) <;> rfl

/-- The first call finds every name but that of a generated field. -/
theorem memberNameWithin_of_not_backingField
    (other : ∀ property, (resolver.program.member id).origin ≠ .backingField property)
    (calls : Nat) : resolver.memberNameWithin (calls + 1) id = some (resolver.memberName id) := by
  rw [memberNameWithin]
  cases named : Directive.rename? (resolver.memberDirectives id) with
  | some name => simp only [memberName, named]
  | none =>
      cases origin : (resolver.program.member id).origin with
      | declared => simp only [memberName, named, origin]
      | backingField property => exact absurd origin (other property)
      | accessor kind owner generated =>
          simp only [memberName, named, origin]
          cases Directive.rename? (resolver.memberDirectives owner) <;> rfl

theorem memberNameWithin_eq (heads : resolver.program.HeadsDeclared)
    (has : resolver.program.HasMember id) (calls : Nat) :
    resolver.memberNameWithin (calls + 2) id = some (resolver.memberName id) := by
  cases origin : (resolver.program.member id).origin with
  | declared | accessor _ _ _ =>
      exact memberNameWithin_of_not_backingField (by rw [origin]; exact nofun) (calls + 1)
  | backingField property =>
      have declared := (heads id has property (by rw [origin]; rfl)).2
      have found : resolver.memberNameWithin (calls + 1) property
          = some (resolver.ownName property) := by
        rw [← memberName_of_declared declared]
        exact memberNameWithin_of_not_backingField (by rw [declared]; exact nofun) calls
      rw [memberNameWithin]
      cases named : Directive.rename? (resolver.memberDirectives id) with
      | some name => simp only [memberName, named]
      | none => simp only [memberName, named, origin, found, Option.map_some]

/-! ### Following the owner -/

theorem memberName_accessor (wellFormed : resolver.program.WellFormed)
    (heads : resolver.program.HeadsDeclared) (has : resolver.program.HasMember id)
    {kind : AccessorKind} {owner : MemberId} {generated : Bool}
    (origin : (resolver.program.member id).origin = .accessor kind owner generated)
    (unnamed : Directive.rename? (resolver.memberDirectives id) = none) :
    resolver.memberName id = kind.lead ++ resolver.memberName owner := by
  have declared := (heads id has owner (by rw [origin]; rfl)).2
  have fits := wellFormed.origins id has
  rw [origin] at fits
  rw [memberName_of_declared declared]
  simp only [memberName, ownName, unnamed, origin]
  cases Directive.rename? (resolver.memberDirectives owner) with
  | some name => rfl
  -- An owner without a new name shares its name with the accessor from the start.
  | none => exact congrArg SymbolName.text fits.2.2.2

theorem memberName_backingField (heads : resolver.program.HeadsDeclared)
    (has : resolver.program.HasMember id) {property : MemberId}
    (origin : (resolver.program.member id).origin = .backingField property)
    (unnamed : Directive.rename? (resolver.memberDirectives id) = none) :
    resolver.memberName id
      = resolver.typeName (resolver.program.member id).declaringType ++ "$"
        ++ resolver.memberName property ++ "$value" := by
  have declared := (heads id has property (by rw [origin]; rfl)).2
  rw [memberName_of_declared declared]
  simp only [memberName, unnamed, origin]

/--
**What belongs to a property or event follows the name it is emitted under.**  The name of
a member is found by two calls.  If it has no new name of its own, an accessor is called by
what it does and its owner, and a generated field by its type and its property, wherever these
have their names from.
-/
theorem memberName_follows_owner (built : resolver.program.Buildable)
    (has : resolver.program.HasMember id) :
    (∀ calls, 2 ≤ calls →
        resolver.memberNameWithin calls id = some (resolver.memberName id))
      ∧ (Directive.rename? (resolver.memberDirectives id) = none →
        (∀ kind owner generated,
            (resolver.program.member id).origin = .accessor kind owner generated →
            resolver.memberName id = kind.lead ++ resolver.memberName owner)
          ∧ ∀ property, (resolver.program.member id).origin = .backingField property →
            resolver.memberName id
              = resolver.typeName (resolver.program.member id).declaringType ++ "$"
                ++ resolver.memberName property ++ "$value") := by
  have heads := built.headsDeclared
  refine ⟨fun calls enough => ?_, fun unnamed => ⟨fun kind owner generated origin => ?_,
    fun property origin => ?_⟩⟩
  · obtain ⟨more, rfl⟩ := Nat.exists_eq_add_of_le' enough
    exact memberNameWithin_eq heads has more
  · exact memberName_accessor built.wellFormed heads has origin unnamed
  · exact memberName_backingField heads has origin unnamed

/-- A type with a new name of its own, and in it a property that a proxy gives a new name, an
event with a new name of its own and a property that keeps its name. -/
def renamedGauge : List Edit :=
  [.addAssembly "Lib",
   .addType ⟨0⟩ { name := "Lib.Gauge", kind := .classType, marks := [.rename "Meter"] },
   .addProperty ⟨0⟩ (PropertyDecl.auto { name := "Level", type := ⟨"System.Int32"⟩ }),
   .addEvent ⟨0⟩ { name := "Turned", type := ⟨"System.Action"⟩, marks := [.rename "Moved"] },
   .addProperty ⟨0⟩ (PropertyDecl.auto { name := "Limit", type := ⟨"System.Int32"⟩ }),
   .addType ⟨0⟩ { name := "Proxy", kind := .classType, marks := [.proxy ⟨"Lib.Gauge"⟩ true] },
   .addProperty ⟨1⟩ { name := "Level", type := ⟨"System.Int32"⟩, marks := [.rename "Height"] }]

/-- The field of the first property, and an accessor of the event. -/
theorem memberName_follows_owner_renamedGauge :
    let program := Program.afterEdits {} renamedGauge
    let resolver : Resolver := { program := program, maxDepth := 64 }
    program.Buildable ∧ program.HasMember ⟨3⟩ ∧ program.HasMember ⟨5⟩
      ∧ (program.member ⟨3⟩).origin = .backingField ⟨0⟩
      ∧ (program.member ⟨5⟩).origin = .accessor .add ⟨4⟩ false
      ∧ (resolver.memberNameWithin 2 ⟨3⟩ = some (resolver.memberName ⟨3⟩)
        ∧ resolver.memberName ⟨3⟩
          = resolver.typeName ⟨0⟩ ++ "$" ++ resolver.memberName ⟨0⟩ ++ "$value"
        ∧ resolver.memberName ⟨5⟩ = "add_" ++ resolver.memberName ⟨4⟩)
      ∧ (List.range 11).map (fun i => resolver.memberName ⟨i⟩)
        = ["Height", "get_Height", "set_Height", "Meter$Height$value",
           "Moved", "add_Moved", "remove_Moved",
           "Limit", "get_Limit", "set_Limit", "Meter$Limit$value"] := by
  intro program resolver
  have built : program.Buildable := Program.Buildable.empty.afterEdits (by decide +kernel)
  have field : program.HasMember ⟨3⟩ ∧ (program.member ⟨3⟩).origin = .backingField ⟨0⟩
      ∧ (program.member ⟨3⟩).declaringType = ⟨0⟩
      ∧ Directive.rename? (resolver.memberDirectives ⟨3⟩) = none := by
    decide +kernel
  have adder : program.HasMember ⟨5⟩ ∧ (program.member ⟨5⟩).origin = .accessor .add ⟨4⟩ false
      ∧ Directive.rename? (resolver.memberDirectives ⟨5⟩) = none := by
    decide +kernel
  obtain ⟨hasField, fieldOrigin, fieldType, fieldUnnamed⟩ := field
  obtain ⟨hasAdder, adderOrigin, adderUnnamed⟩ := adder
  obtain ⟨found, fieldName⟩ :=
    memberName_follows_owner (show resolver.program.Buildable from built) hasField
  obtain ⟨-, adderName⟩ :=
    memberName_follows_owner (show resolver.program.Buildable from built) hasAdder
  refine ⟨built, hasField, hasAdder, fieldOrigin, adderOrigin,
    ⟨found 2 (Nat.le_refl 2), ?_, (adderName adderUnnamed).1 _ _ _ adderOrigin⟩, ?_⟩
  · have named := (fieldName fieldUnnamed).2 _ fieldOrigin
    rwa [show (resolver.program.member ⟨3⟩).declaringType = ⟨0⟩ from fieldType] at named
  · decide +kernel

end Resolver

end MemberResolution
