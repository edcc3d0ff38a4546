/-
Adding a type at the end.

A history that adds a type at the top level, and from then on only members of this type and
marks of it and of what it got, leaves every entry that was there before as it was.  An
addition may fail on the way, and a property or event may get stuck half-way; what was added
by then stands at the end as well.

So what a change must keep is said of the program after it, whether the change fails or
not.  Accessors are linked to their property or event by changing an entry, and it is a new
entry because it came with the change: that is why a change also tells of what sort the
things are that it hands back.
-/
import MemberResolution.Proofs.Layout

namespace MemberResolution

namespace Program

/-- One program is another with a top-level type and members of it at the end. -/
structure AppendsType (p q : Program) (type : TypeId) : Prop where
  position : type = ⟨p.types.size⟩
  typeCount : q.types.size = p.types.size + 1
  memberCount : p.members.size ≤ q.members.size
  types : ∀ id, p.HasType id → q.type id = p.type id
  members : ∀ id, p.HasMember id → q.member id = p.member id
  assemblies : ∀ id, p.HasAssembly id →
    q.assembly id = { p.assembly id with types := (q.assembly id).types }
  topLevel : (q.type type).enclosing = none

namespace AppendsType

variable {p q : Program} {type : TypeId}

/-- The new type may change, but for what is around it. -/
theorem modifyType (h : p.AppendsType q type) {change : LoadedType → LoadedType}
    (keeps : ∀ entry, (change entry).enclosing = entry.enclosing) :
    p.AppendsType { q with types := q.types.modify type.index change } type where
  position := h.position
  typeCount := Array.size_modify.trans h.typeCount
  memberCount := h.memberCount
  types id has := by
    have other : type.index ≠ id.index := by
      rw [h.position]
      exact Nat.ne_of_gt has
    show (q.types.modify type.index change).getD id.index default = _
    rw [getD_modify, if_neg fun same => other same.1]
    exact h.types id has
  members := h.members
  assemblies := h.assemblies
  topLevel := (read_getD_modify q.types (·.enclosing) keeps _ _).trans h.topLevel

theorem pushMember (h : p.AppendsType q type) (member : LoadedMember)
    (memberByIdentity : Memo Identity MemberId) :
    p.AppendsType
      { q with members := q.members.push member, memberByIdentity := memberByIdentity } type where
  position := h.position
  typeCount := h.typeCount
  memberCount := by
    show p.members.size ≤ (q.members.push member).size
    rw [Array.size_push]
    exact Nat.le_succ_of_le h.memberCount
  types := h.types
  members id has := by
    show (q.members.push member).getD id.index default = _
    rw [getD_push, if_neg (Nat.ne_of_lt (Nat.lt_of_lt_of_le has h.memberCount))]
    exact h.members id has
  assemblies := h.assemblies
  topLevel := h.topLevel

theorem modifyMember (h : p.AppendsType q type) {id : MemberId} (fresh : ¬p.HasMember id)
    (change : LoadedMember → LoadedMember) :
    p.AppendsType { q with members := q.members.modify id.index change } type where
  position := h.position
  typeCount := h.typeCount
  memberCount := Nat.le_trans h.memberCount (Nat.le_of_eq Array.size_modify.symm)
  types := h.types
  members other has := by
    have distinct : id.index ≠ other.index := fun same => fresh (by
      unfold HasMember
      rw [same]
      exact has)
    show (q.members.modify id.index change).getD other.index default = _
    rw [getD_modify, if_neg fun same => distinct same.1]
    exact h.members other has
  assemblies := h.assemblies
  topLevel := h.topLevel

theorem withMember (h : p.AppendsType q type) (decl : MemberDecl) (origin : Origin) :
    p.AppendsType (q.withMember type decl origin) type :=
  (h.pushMember _ _).modifyType fun _ => rfl

end AppendsType

/-- A type that is added at the top level stands at the end. -/
theorem appendsType_withTypeListed (p : Program) (assembly : AssemblyId) (key : TypeKey)
    (decl : TypeDecl) :
    p.AppendsType (p.withTypeListed assembly key none decl) ⟨p.types.size⟩ where
  position := rfl
  typeCount := Array.size_push _
  memberCount := Nat.le_refl _
  types _ has := withType_type_old has
  members _ _ := rfl
  assemblies id _ := by
    unfold withTypeListed withType Program.assembly
    simp only [getD_modify]
    split <;> rfl
  topLevel := by
    show ((p.withType assembly key none decl).type ⟨p.types.size⟩).enclosing = none
    rw [withType_type_new]

end Program

namespace Build

/-! ### Changes of the type at the end -/

variable {p : Program} {type : TypeId}

theorem keeps_insertMember (decl : MemberDecl) (origin : Origin) :
    Keeps (p.AppendsType · type) (insertMember type decl origin) fun id => ¬p.HasMember id := by
  intro q h
  rw [insertMember_on]
  split
  · exact ⟨h, fun result hresult => by cases hresult⟩
  · refine ⟨h.withMember decl origin, ?_⟩
    rintro id ⟨⟩
    exact Nat.not_lt.mpr h.memberCount

theorem keeps_linkAccessors (owner : MemberId) (accessors : List MemberId)
    (fresh : ¬p.HasMember owner) :
    Keeps (p.AppendsType · type) (linkAccessors owner accessors) fun _ => True :=
  fun _ h => ⟨h.modifyMember fresh _, fun _ _ => trivial⟩

end Build

/-! ### Histories of the type at the end -/

/-- Whether an addition speaks of the type and of members that the program does not have. -/
def Edit.IsAbout (p : Program) (type : TypeId) : Edit → Prop
  | .markType id _ | .addMember id _ | .addProperty id _ | .addEvent id _ => id = type
  | .markMember id _ => ¬p.HasMember id
  | .addAssembly _ | .markAssembly _ _ | .addType _ _ | .addNestedType _ _ => False

instance (p : Program) (type : TypeId) : (edit : Edit) → Decidable (edit.IsAbout p type)
  | .markType _ _ | .addMember _ _ | .addProperty _ _ | .addEvent _ _ =>
    inferInstanceAs (Decidable (_ = _))
  | .markMember _ _ => inferInstanceAs (Decidable (¬_))
  | .addAssembly _ | .markAssembly _ _ | .addType _ _ | .addNestedType _ _ =>
    inferInstanceAs (Decidable False)

/-- An addition that speaks of the new type leaves it at the end, whether it fails or not. -/
theorem Edit.appendsType_perform {p q : Program} {type : TypeId} (h : p.AppendsType q type)
    {edit : Edit} (about : edit.IsAbout p type) :
    p.AppendsType (edit.perform.on q).2 type := by
  cases edit with
  | markType id mark =>
      subst about
      exact h.modifyType fun _ => rfl
  | addMember id decl =>
      subst about
      exact ((Build.keeps_insertMember decl .declared).map _ q h).1
  | addProperty id decl =>
      subst about
      exact ((Build.keeps_addProperty Build.keeps_insertMember Build.keeps_linkAccessors
        decl).map _ q h).1
  | addEvent id decl =>
      subst about
      exact ((Build.keeps_addEvent Build.keeps_insertMember Build.keeps_linkAccessors
        decl).map _ q h).1
  | markMember id mark => exact h.modifyMember about _
  | addAssembly _ | markAssembly _ _ | addType _ _ | addNestedType _ _ => exact about.elim

theorem Program.AppendsType.afterEdits {p : Program} {type : TypeId} {edits : List Edit}
    (about : ∀ edit ∈ edits, edit.IsAbout p type) :
    ∀ {q : Program}, p.AppendsType q type → p.AppendsType (q.afterEdits edits) type := by
  induction edits with
  | nil => intro q h; exact h
  | cons edit rest ih =>
      intro q h
      exact ih (fun other hmem => about other (List.mem_cons_of_mem _ hmem))
        (Edit.appendsType_perform h (about edit List.mem_cons_self))

/-- **A history that adds a type and then speaks of nothing else leaves the rest of the
program as it was.** -/
theorem Program.appendsType_afterEdits (p : Program) {assembly : AssemblyId} {decl : TypeDecl}
    (free : p.findType? ⟨decl.name⟩ = none) {edits : List Edit}
    (about : ∀ edit ∈ edits, edit.IsAbout p ⟨p.types.size⟩) :
    p.AppendsType (p.afterEdits (.addType assembly decl :: edits)) ⟨p.types.size⟩ := by
  have added : ((Edit.addType assembly decl).perform.on p).2
      = p.withTypeListed assembly ⟨decl.name⟩ none decl := by
    unfold Edit.perform
    rw [Build.map_on, Build.addType_on, free]
    rfl
  refine AppendsType.afterEdits (q := ((Edit.addType assembly decl).perform.on p).2) about ?_
  rw [added]
  exact p.appendsType_withTypeListed assembly _ decl

end MemberResolution
