/-
What accessors and generated fields belong to.

An accessor belongs to a property or event and a generated field to a property, and this was
declared as such: it is neither an accessor itself nor the field of a property.  So whatever
a program says of a member and of what it belongs to, two steps up there is nothing.

Only the addition of a property or event adds members that belong to another, and at that
moment the other has just been declared.  Everything else keeps the origins of the members
there are.
-/
import MemberResolution.Proofs.Layout

namespace MemberResolution

namespace Program

/-- The member is loaded and declared as such. -/
def IsDeclared (program : Program) (id : MemberId) : Prop :=
  program.HasMember id ∧ (program.member id).origin = .declared

/-- Whatever members belong to is declared as such. -/
def HeadsDeclared (program : Program) : Prop :=
  ∀ id, program.HasMember id → ∀ owner, (program.member id).origin.BelongsTo owner →
    program.IsDeclared owner

/-- Whatever members are accessors of is declared as such. -/
def OwnersDeclared (program : Program) : Prop :=
  ∀ id, program.HasMember id → ∀ owner, (program.member id).owner? = some owner →
    program.IsDeclared owner

variable {program before after : Program}

theorem HeadsDeclared.ownersDeclared (h : program.HeadsDeclared) : program.OwnersDeclared := by
  intro id has owner howner
  refine h id has owner ?_
  unfold LoadedMember.owner? at howner
  cases horigin : (program.member id).origin with
  | declared => rw [horigin] at howner; cases howner
  | backingField _ => rw [horigin] at howner; cases howner
  | accessor _ _ _ => rw [horigin] at howner; exact Option.some.inj howner

theorem IsDeclared.grows (grows : Grows before after) {id : MemberId}
    (h : before.IsDeclared id) : after.IsDeclared id := by
  obtain ⟨has, shape⟩ := grows.members id h.1
  exact ⟨has, (LoadedMember.read_eq shape (·.origin) fun _ => rfl).trans h.2⟩

theorem HeadsDeclared.of_grows (h : before.HeadsDeclared) (grows : Grows before after)
    (old : ∀ id, after.HasMember id → before.HasMember id) : after.HeadsDeclared := by
  intro id has owner howner
  have shape := (grows.members id (old id has)).2
  have same : (after.member id).origin = (before.member id).origin :=
    LoadedMember.read_eq shape (·.origin) fun _ => rfl
  exact (h id (old id has) owner (same ▸ howner)).grows grows

theorem HeadsDeclared.of_members (h : before.HeadsDeclared)
    (same : after.members = before.members) : after.HeadsDeclared := by
  unfold HeadsDeclared IsDeclared HasMember member at *
  rw [same]
  exact h

theorem isDeclared_new {type : TypeId} {decl : MemberDecl} :
    (program.withMember type decl .declared).IsDeclared ⟨program.members.size⟩ := by
  refine ⟨withMember_hasMember.mpr (.inr rfl), ?_⟩
  rw [withMember_member_new]

/-- A new member may belong to one that is declared. -/
theorem HeadsDeclared.withMember (h : program.HeadsDeclared) {type : TypeId} {decl : MemberDecl}
    {origin : Origin} (fits : ∀ owner, origin.BelongsTo owner → program.IsDeclared owner) :
    (program.withMember type decl origin).HeadsDeclared := by
  intro id has owner howner
  refine IsDeclared.grows withMember_grows ?_
  rcases withMember_hasMember.mp has with old | rfl
  · rw [withMember_member_old old] at howner
    exact h id old owner howner
  · rw [withMember_member_new] at howner
    exact fits owner howner

end Program

namespace Build

open Program

variable {type : TypeId} {owner : MemberId}

theorem headsDeclared_addMember {program : Program} (h : program.HeadsDeclared)
    (decl : MemberDecl) :
    ((insertMember type decl .declared).on program).2.HeadsDeclared := by
  rw [insertMember_on]
  split
  · exact h
  · exact h.withMember fun _ belongs => belongs.elim

/-- Once a property or event is declared, what belongs to it may be added. -/
theorem keeps_insertPart (decl : MemberDecl) (origin : Origin) (belongs : origin.BelongsTo owner) :
    Keeps (fun program => program.HeadsDeclared ∧ program.IsDeclared owner)
      (insertMember type decl origin) fun _ => True := by
  intro program h
  refine ⟨?_, fun _ _ => trivial⟩
  rw [insertMember_on]
  split
  · exact h
  · refine ⟨h.1.withMember fun other hother => ?_, h.2.grows withMember_grows⟩
    have same : other = owner := by
      cases origin with
      | declared => exact belongs.elim
      | accessor _ _ _ | backingField _ => exact hother.symm.trans belongs
    rw [same]
    exact h.2

theorem keeps_linkParts (accessors : List MemberId) :
    Keeps (fun program => program.HeadsDeclared ∧ program.IsDeclared owner)
      (linkAccessors owner accessors) fun _ => True := by
  intro program h
  have same : SameShape program ((linkAccessors owner accessors).on program).2 :=
    sameShape_modifyMember program _ fun _ => rfl
  exact ⟨⟨h.1.of_grows same.grows fun _ => same.hasMember, h.2.grows same.grows⟩,
    fun _ _ => trivial⟩

/-- A property or event is declared first, and then its parts are added. -/
theorem headsDeclared_addWithParts {α : Type} {program : Program} (h : program.HeadsDeclared)
    (decl : MemberDecl) {parts : MemberId → Build α}
    (keeps : ∀ owner, Keeps (fun program => program.HeadsDeclared ∧ program.IsDeclared owner)
      (parts owner) fun _ => True) :
    ((insertMember type decl .declared >>= parts).on program).2.HeadsDeclared := by
  rw [on_bind, insertMember_on]
  by_cases taken : (program.findMember? (identityIn (program.type type).key decl.kind decl.name
      decl.params decl.type)).isSome = true
  · rw [if_pos taken]
    exact h
  · rw [if_neg taken]
    have declared : (program.withMember type decl .declared).HeadsDeclared :=
      h.withMember fun _ belongs => belongs.elim
    exact (keeps _ _ ⟨declared, isDeclared_new⟩).1.1

end Build

/-- Every addition keeps it so, whether it fails or not. -/
theorem Edit.headsDeclared_perform {program : Program} (edit : Edit)
    (h : program.HeadsDeclared) : (edit.perform.on program).2.HeadsDeclared := by
  cases edit with
  | addAssembly name => exact h.of_members rfl
  | markAssembly id mark => exact h.of_members rfl
  | addType assembly decl =>
      unfold perform
      rw [Build.map_on, Build.addType_on]
      split
      · exact h
      · exact h.of_members rfl
  | addNestedType enclosing decl =>
      unfold perform
      rw [Build.map_on, Build.addNestedType_on]
      split
      · exact h
      · exact h.of_members rfl
  | markType id mark => exact h.of_members rfl
  | addMember type decl =>
      unfold perform
      rw [Build.map_on]
      exact Build.headsDeclared_addMember h decl
  | addProperty type decl =>
      unfold perform
      rw [Build.map_on, Build.addProperty_eq]
      exact Build.headsDeclared_addWithParts h decl.head fun _ =>
        Build.keeps_propertyParts Build.keeps_insertPart Build.keeps_linkParts decl
  | addEvent type decl =>
      unfold perform
      rw [Build.map_on, Build.addEvent_eq]
      exact Build.headsDeclared_addWithParts h decl.head fun _ =>
        Build.keeps_eventParts Build.keeps_insertPart Build.keeps_linkParts decl
  | markMember id mark =>
      have same : Program.SameShape program ((Edit.markMember id mark).perform.on program).2 :=
        Build.sameShape_modifyMember program _ fun _ => rfl
      exact h.of_grows same.grows fun _ => same.hasMember

/-- **In every program that can be built members belong to what is declared.** -/
theorem Program.Buildable.headsDeclared {program : Program} (h : program.Buildable) :
    program.HeadsDeclared := by
  induction h with
  | empty => exact fun id has => absurd has (Nat.not_lt_zero _)
  | edit edit _ _ ih => exact edit.headsDeclared_perform ih

theorem Program.Buildable.ownersDeclared {program : Program} (h : program.Buildable) :
    program.OwnersDeclared :=
  h.headsDeclared.ownersDeclared

end MemberResolution
