/-
Arrays, references and pointers.

What is decided about a field or a local asks for the type it is made of, not for the
decorations that a use of the type adds.  They are taken off from the right as long as there
are any, and since no two of them end alike it is always clear which one is next.  So it does
not matter how many there are or in what order (`element_decorated`), and what is left has none
(`isUndecorated_element`).

A field of a decorated type is then declared as one of the type itself.  It cannot fail: nobody
but the field is asked to implement it, and no accessor is a field, so what is external is the
field or its type.
-/
import MemberResolution.Proofs.IgnoredOwner

namespace MemberResolution

/-! ### Keys -/

/-- What a use of a type may add to its name. -/
inductive Decoration where
  | array
  | reference
  | pointer
  deriving DecidableEq, Repr

/-- The text of a decoration. -/
def Decoration.text : Decoration → String
  | .array => "[]"
  | .reference => "&"
  | .pointer => "*"

namespace TypeKey

/-- The key with one more decoration. -/
def decorate (key : TypeKey) (decoration : Decoration) : TypeKey :=
  ⟨key.text ++ decoration.text⟩

/-- The key with decorations added from left to right. -/
def decorated (key : TypeKey) (decorations : List Decoration) : TypeKey :=
  decorations.foldl decorate key

/-- The key ends in none of the decorations. -/
def IsUndecorated (key : TypeKey) : Prop :=
  ∀ decoration : Decoration, ¬decoration.text.toList <:+ key.text.toList

theorem stripReversed_append (decoration : Decoration) (name : List Char) :
    stripReversed (decoration.text.toList.reverse ++ name) = stripReversed name := by
  cases decoration <;> rfl

/-- What is taken off is a decoration. -/
theorem stripReversed_eq_self {name : List Char}
    (bare : ∀ decoration : Decoration, ¬decoration.text.toList.reverse <+: name) :
    stripReversed name = name := by
  have array := bare .array
  have reference := bare .reference
  have pointer := bare .pointer
  unfold stripReversed
  split
  · exact absurd ⟨_, rfl⟩ array
  · exact absurd ⟨_, rfl⟩ reference
  · exact absurd ⟨_, rfl⟩ pointer
  · rfl

theorem not_prefix_stripReversed (decoration : Decoration) (name : List Char) :
    ¬decoration.text.toList.reverse <+: stripReversed name := by
  fun_induction stripReversed name with
  | case1 rest ih => exact ih
  | case2 rest ih => exact ih
  | case3 rest ih => exact ih
  | case4 name noArray noReference noPointer =>
      rintro ⟨rest, rfl⟩
      cases decoration with
      | array => exact noArray rest rfl
      | reference => exact noReference rest rfl
      | pointer => exact noPointer rest rfl

theorem toList_element (key : TypeKey) :
    key.element.text.toList = (stripReversed key.text.toList.reverse).reverse :=
  String.toList_ofList

theorem element_decorate (key : TypeKey) (decoration : Decoration) :
    (key.decorate decoration).element = key.element := by
  unfold element decorate
  rw [String.toList_append, List.reverse_append, stripReversed_append]

/-- **A decorated key has the element of the key**, whatever the decorations are. -/
theorem element_decorated (decorations : List Decoration) :
    ∀ key : TypeKey, (key.decorated decorations).element = key.element := by
  induction decorations with
  | nil => intro key; rfl
  | cons decoration rest ih => intro key; exact (ih _).trans (key.element_decorate decoration)

theorem isUndecorated_element (key : TypeKey) : key.element.IsUndecorated := by
  intro decoration ends
  rw [toList_element] at ends
  have starts := List.reverse_prefix.mpr ends
  rw [List.reverse_reverse] at starts
  exact not_prefix_stripReversed decoration _ starts

theorem IsUndecorated.element_eq {key : TypeKey} (bare : key.IsUndecorated) :
    key.element = key := by
  have kept : stripReversed key.text.toList.reverse = key.text.toList.reverse := by
    refine stripReversed_eq_self fun decoration starts => bare decoration ?_
    exact List.reverse_prefix.mp starts
  unfold element
  rw [kept, List.reverse_reverse, String.ofList_toList]

end TypeKey

/-! ### Fields -/

namespace Resolver

variable {resolver : Resolver}

theorem shouldDeclareLocal_decorated (resolver : Resolver) (key : TypeKey)
    (decorations : List Decoration) :
    resolver.shouldDeclareLocal (key.decorated decorations) = resolver.shouldDeclareLocal key := by
  unfold shouldDeclareLocal
  rw [key.element_decorated decorations]

/-- What is of a loaded type may be declared if the type is not ignored. -/
theorem shouldDeclareLocal_of_isUndecorated (h : resolver.program.WellFormed) {type : TypeId}
    (has : resolver.program.HasType type)
    (bare : (resolver.program.type type).key.IsUndecorated) :
    resolver.shouldDeclareLocal (resolver.program.type type).key
      = !resolver.isTypeIgnored type := by
  unfold shouldDeclareLocal
  rw [bare.element_eq, h.findType?_eq_some_iff.mpr ⟨has, rfl⟩]

theorem label_fieldOutcome_iff {id : MemberId} :
    (resolver.fieldOutcome id).label = .refused ∨ (resolver.fieldOutcome id).label = .replaced
      ↔ resolver.isMemberIgnored id = true
        ∨ (Directive.replacement? (resolver.memberDirectives id)).isSome = true := by
  unfold fieldOutcome
  split
  · simp [*, Outcome.label]
  · cases Directive.replacement? (resolver.memberDirectives id) <;> simp [*, Outcome.label]

theorem fieldEmission_eq_declaredOnly_iff {id : MemberId} {outcome : Outcome}
    (declared : resolver.fieldEmission id outcome ≠ .omitted) :
    resolver.fieldEmission id outcome = .declaredOnly
      ↔ resolver.isMemberExternal id = true := by
  unfold fieldEmission at declared ⊢
  split
  · exact absurd rfl declared
  · exact absurd rfl declared
  · split
    · simp_all
    · split <;> simp [*]

theorem isMemberExternal_of_field (h : resolver.program.WellFormed) {id : MemberId}
    (has : resolver.program.HasMember id) (field : (resolver.program.member id).kind = .field) :
    resolver.isMemberExternal id = true
      ↔ Directive.isExternal (resolver.memberDirectives id) = true
        ∨ resolver.isTypeExternal (resolver.program.member id).declaringType = true := by
  have alone : resolver.ownerHas Directive.isExternal id = false := by
    have origin := h.origins id has
    unfold ownerHas LoadedMember.owner?
    cases horigin : (resolver.program.member id).origin with
    | declared => rfl
    | backingField property => rfl
    | accessor role owner generated =>
        -- An accessor is a method.
        rw [horigin, field] at origin
        cases origin.2.2.1
  unfold isMemberExternal
  rw [alone, Bool.or_false, Bool.or_eq_true]

/-- Resolving a field cannot fail: nobody is asked for a body. -/
theorem resolveMember_of_field {id : MemberId}
    (field : (resolver.program.member id).kind = .field) :
    resolver.resolveMember id
      = .ok { member := id
              identity := resolver.program.identityOfMember id
              identifier := resolver.memberName id
              outcome := resolver.fieldOutcome id } := by
  unfold resolveMember
  rw [classifyMember_of_field field]
  rfl

/-- **A field of a decorated type is left out exactly if one of the type would be.** -/
theorem fieldEmission_decorated_eq_omitted_iff (h : resolver.program.WellFormed) {id : MemberId}
    {type : TypeId} (hasType : resolver.program.HasType type)
    (bare : (resolver.program.type type).key.IsUndecorated) {decorations : List Decoration}
    (decorated : (resolver.program.member id).type
      = (resolver.program.type type).key.decorated decorations) :
    resolver.fieldEmission id (resolver.fieldOutcome id) = .omitted
      ↔ ((resolver.fieldOutcome id).label = .refused
          ∨ (resolver.fieldOutcome id).label = .replaced)
        ∨ resolver.isTypeIgnored type = true := by
  rw [fieldEmission_eq_omitted_iff, label_fieldOutcome_iff, or_assoc, decorated,
    shouldDeclareLocal_decorated, shouldDeclareLocal_of_isUndecorated h hasType bare,
    Bool.not_eq_false']

end Resolver

namespace Session

/--
**What is decorated is treated as what it is made of.**  Decorations in any number and order
leave the element of a key as it is; the element ends in no decoration and is its own element.
So a local of a decorated type may be declared exactly if one of the type may be.  A field of a
loaded type, decorated or not, always has an answer how it is declared: it is left out exactly
if it is refused or replaced or the type is ignored, and otherwise it is declared without a
value exactly if it or its declaring type is external.
-/
theorem decorated_as_element {program : Program} (built : program.Buildable) (options : Options)
    {asked : List Query} (fits : ∀ query ∈ asked, query.Fits program) :
    let live := (start program options).after asked
    let resolver := live.resolver
    (∀ (key : TypeKey) decorations, (key.decorated decorations).element = key.element
        ∧ key.element.element = key.element ∧ key.element.IsUndecorated)
      ∧ (∀ key decorations, resolver.shouldDeclareLocal (key.decorated decorations)
          = resolver.shouldDeclareLocal key)
      ∧ ∀ field type decorations, program.HasMember field →
          (program.member field).kind = .field → program.HasType type →
          (program.type type).key.IsUndecorated →
          (program.member field).type = (program.type type).key.decorated decorations →
          ∃ resolved emission, (live.answer (Ask.resolveMember field)).1 = .ok resolved
            ∧ (live.answer (Ask.fieldEmission field)).1 = .ok emission
            ∧ (emission = .omitted
              ↔ (resolved.outcome.label = .refused ∨ resolved.outcome.label = .replaced)
                ∨ resolver.isTypeIgnored type = true)
            ∧ (emission ≠ .omitted →
              (emission = .declaredOnly
                ↔ Directive.isExternal (resolver.memberDirectives field) = true
                  ∨ resolver.isTypeExternal (program.member field).declaringType = true)) := by
  intro live resolver
  have h := built.wellFormed
  -- A conversation leaves the resolver as it is.
  have same : resolver = (start program options).resolver :=
    (advances_after (sound_start h options) fits).resolver
  refine ⟨fun key decorations => ⟨key.element_decorated decorations,
      key.isUndecorated_element.element_eq, key.isUndecorated_element⟩,
    resolver.shouldDeclareLocal_decorated, ?_⟩
  intro field type decorations has kind hasType bare decorated
  rw [same]
  have resolves : (start program options).resolver.resolveMember field = _ :=
    Resolver.resolveMember_of_field kind
  refine ⟨_, (start program options).resolver.fieldEmission field
      ((start program options).resolver.fieldOutcome field),
    (answer_resolveMember_after h options fits has).trans resolves, ?_, ?_, fun kept => ?_⟩
  · rw [answer_fieldEmission_after h options fits has, resolves]
    rfl
  · exact Resolver.fieldEmission_decorated_eq_omitted_iff h hasType bare decorated
  · rw [Resolver.fieldEmission_eq_declaredOnly_iff kept]
    exact Resolver.isMemberExternal_of_field h has kind

/-- A house with doors of an ignored shed and with rooms that come from outside. -/
def houseOfArrays : List Edit :=
  [.addAssembly "Lib",
   .addType ⟨0⟩ { name := "Lib.Shed", kind := .classType, marks := [.ignore] },
   .addNestedType ⟨0⟩ { name := "Door", kind := .classType },
   .addType ⟨0⟩ { name := "Lib.Room", kind := .classType },
   .addType ⟨0⟩ { name := "Lib.House", kind := .classType },
   .addMember ⟨3⟩ (.field "doors" ⟨"Lib.Shed+Door[]*[]&"⟩),
   .addMember ⟨3⟩ { MemberDecl.field "rooms" ⟨"Lib.Room*[]"⟩ with marks := [.external] }]

/-- The doors are left out, and the rooms are declared without a value. -/
theorem decorated_as_element_houseOfArrays :
    let program := Program.afterEdits {} houseOfArrays
    let options : Options := {}
    let asked : List Query := [.fieldEmission ⟨0⟩, .member ⟨1⟩]
    let live := (start program options).after asked
    (program.Buildable ∧ (∀ query ∈ asked, query.Fits program)
        ∧ (program.HasMember ⟨0⟩ ∧ (program.member ⟨0⟩).kind = .field ∧ program.HasType ⟨1⟩
          ∧ (program.type ⟨1⟩).key.IsUndecorated ∧ (program.member ⟨0⟩).type
            = (program.type ⟨1⟩).key.decorated [.array, .pointer, .array, .reference])
        ∧ program.HasMember ⟨1⟩ ∧ (program.member ⟨1⟩).kind = .field ∧ program.HasType ⟨2⟩
        ∧ (program.type ⟨2⟩).key.IsUndecorated
        ∧ (program.member ⟨1⟩).type = (program.type ⟨2⟩).key.decorated [.pointer, .array])
      ∧ (live.answer (Ask.fieldEmission ⟨0⟩)).1 = .ok .omitted
      ∧ (live.answer (Ask.fieldEmission ⟨1⟩)).1 = .ok .declaredOnly := by
  intro program options asked live
  have built : program.Buildable := Program.Buildable.empty.afterEdits (by decide +kernel)
  have fits : ∀ query ∈ asked, query.Fits program := by decide +kernel
  have doors : program.HasMember ⟨0⟩ ∧ (program.member ⟨0⟩).kind = .field
      ∧ program.HasType ⟨1⟩ := by decide +kernel
  have rooms : program.HasMember ⟨1⟩ ∧ (program.member ⟨1⟩).kind = .field
      ∧ program.HasType ⟨2⟩ := by decide +kernel
  have door : (program.type ⟨1⟩).key.IsUndecorated := by
    intro decoration
    cases decoration <;> decide +kernel
  have room : (program.type ⟨2⟩).key.IsUndecorated := by
    intro decoration
    cases decoration <;> decide +kernel
  have ofDoors : (program.member ⟨0⟩).type
      = (program.type ⟨1⟩).key.decorated [.array, .pointer, .array, .reference] := by
    decide +kernel
  have ofRooms : (program.member ⟨1⟩).type
      = (program.type ⟨2⟩).key.decorated [.pointer, .array] := by
    decide +kernel
  have ignored : live.resolver.isTypeIgnored ⟨1⟩ = true := by decide +kernel
  have external : Directive.isExternal (live.resolver.memberDirectives ⟨1⟩) = true := by
    decide +kernel
  have shown : (live.answer (Ask.fieldEmission ⟨1⟩)).1.toOption ≠ some .omitted := by
    decide +kernel
  obtain ⟨-, -, emits⟩ := decorated_as_element built options fits
  obtain ⟨_, first, -, answered, omitted, -⟩ :=
    emits ⟨0⟩ ⟨1⟩ _ doors.1 doors.2.1 doors.2.2 door ofDoors
  obtain ⟨_, second, -, answeredNext, omittedNext, only⟩ :=
    emits ⟨1⟩ ⟨2⟩ _ rooms.1 rooms.2.1 rooms.2.2 room ofRooms
  refine ⟨⟨built, fits, ⟨doors.1, doors.2.1, doors.2.2, door, ofDoors⟩, rooms.1, rooms.2.1,
    rooms.2.2, room, ofRooms⟩, ?_, ?_⟩
  · rw [answered, omitted.mpr (.inr ignored)]
  · have kept : second ≠ .omitted := by
      rintro rfl
      exact shown (by rw [answeredNext]; rfl)
    rw [answeredNext, (only kept).mpr (.inl external)]

end Session

end MemberResolution
