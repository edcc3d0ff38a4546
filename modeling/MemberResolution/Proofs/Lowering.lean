/-
A manifest describes a program that can be built.

Lowering a manifest makes additions and nothing else, in an order in which each speaks of what
was added before it: a type goes to an assembly that is there, a member to a type that is
there.  An addition takes no assembly and no type away, so what is there stays there, and this
is all that has to be carried through the tree of a manifest.

So whatever holds of every program that can be built holds of the program of a manifest.
-/
import MemberResolution.Program.Manifest
import MemberResolution.Proofs.Layout

namespace MemberResolution

/-! ### Additions take nothing away -/

/-- At least so many assemblies and types are loaded. -/
structure Program.Holds (assemblies types : Nat) (program : Program) : Prop where
  assemblies : assemblies ≤ program.assemblies.size
  types : types ≤ program.types.size

namespace Program.Holds

variable {assemblies types : Nat} {program : Program}

theorem of_sizes (h : program.Holds assemblies types) {after : Program}
    (moreAssemblies : program.assemblies.size ≤ after.assemblies.size)
    (moreTypes : program.types.size ≤ after.types.size) : after.Holds assemblies types :=
  ⟨Nat.le_trans h.assemblies moreAssemblies, Nat.le_trans h.types moreTypes⟩

theorem withTypeListed (h : program.Holds assemblies types) (assembly : AssemblyId) (key : TypeKey)
    (around : Option TypeId) (decl : TypeDecl) :
    (program.withTypeListed assembly key around decl).Holds assemblies types := by
  refine h.of_sizes ?_ ?_
  · cases around <;> simp [Program.withTypeListed, Program.withType]
  · cases around <;> simp [Program.withTypeListed, Program.withType]

end Program.Holds

/-- An addition takes no assembly and no type away, whether it fails or not. -/
theorem Edit.keeps_holds (edit : Edit) {assemblies types : Nat} :
    edit.perform.Keeps (Program.Holds assemblies types) fun _ => True := by
  have insert : ∀ {type : TypeId} decl origin, Build.Keeps (Program.Holds assemblies types)
      (Build.insertMember type decl origin) fun _ => True := by
    intro type decl origin program h
    refine ⟨?_, fun _ _ => trivial⟩
    rw [Build.insertMember_on]
    split
    · exact h
    · exact h.of_sizes (Nat.le_refl _) (by simp [Program.withMember])
  have link : ∀ owner accessors, True → Build.Keeps (Program.Holds assemblies types)
      (Build.linkAccessors owner accessors) fun _ => True :=
    fun owner accessors _ program h => ⟨⟨h.assemblies, h.types⟩, fun _ _ => trivial⟩
  cases edit with
  | addAssembly name =>
      refine fun program h => ⟨h.of_sizes ?_ (Nat.le_refl _), fun _ _ => trivial⟩
      exact Nat.le_trans (Nat.le_succ _) (Nat.le_of_eq (Array.size_push _).symm)
  | markAssembly id mark =>
      refine fun program h => ⟨h.of_sizes ?_ (Nat.le_refl _), fun _ _ => trivial⟩
      exact Nat.le_of_eq Array.size_modify.symm
  | addType assembly decl =>
      intro program h
      refine ⟨?_, fun _ _ => trivial⟩
      unfold perform
      rw [Build.map_on, Build.addType_on]
      split
      · exact h
      · exact h.withTypeListed ..
  | addNestedType enclosing decl =>
      intro program h
      refine ⟨?_, fun _ _ => trivial⟩
      unfold perform
      rw [Build.map_on, Build.addNestedType_on]
      split
      · exact h
      · exact h.withTypeListed ..
  | markType id mark =>
      refine fun program h => ⟨h.of_sizes (Nat.le_refl _) ?_, fun _ _ => trivial⟩
      exact Nat.le_of_eq Array.size_modify.symm
  | addMember type decl => exact (insert decl .declared).map _
  | addProperty type decl => exact (Build.keeps_addProperty insert link decl).map _
  | addEvent type decl => exact (Build.keeps_addEvent insert link decl).map _
  | markMember id mark => exact fun program h => ⟨⟨h.assemblies, h.types⟩, fun _ _ => trivial⟩

namespace Build

/-! ### Changes that are made of additions -/

/-- From a program that can be built and of which `before` holds, a change leads to one that
can be built and has lost no assembly and no type; where it does not fail, `after` holds of its
result and the program. -/
def Extends {α : Type} (before : Program → Prop) (change : Build α)
    (after : α → Program → Prop) : Prop :=
  ∀ program : Program, program.Buildable → before program →
    (change.on program).2.Buildable
      ∧ (change.on program).2.Holds program.assemblies.size program.types.size
      ∧ ∀ result, (change.on program).1 = .ok result → after result (change.on program).2

/-- What still holds of a program that has lost no assembly and no type. -/
def Lasting (known : Program → Prop) : Prop :=
  ∀ program after : Program, after.Holds program.assemblies.size program.types.size →
    known program → known after

theorem lasting_hasAssembly (id : AssemblyId) : Lasting (·.HasAssembly id) :=
  fun _ _ holds has => Nat.lt_of_lt_of_le has holds.assemblies

theorem lasting_hasType (id : TypeId) : Lasting (·.HasType id) :=
  fun _ _ holds has => Nat.lt_of_lt_of_le has holds.types

namespace Extends

variable {α β : Type} {before : Program → Prop} {after : α → Program → Prop}

theorem pure (result : α) (h : ∀ program, before program → after result program) :
    Extends before (pure result) after := by
  intro program built hbefore
  refine ⟨built, ⟨Nat.le_refl _, Nat.le_refl _⟩, ?_⟩
  rintro other ⟨⟩
  exact h program hbefore

theorem bind {first : Build α} {next : α → Build β} {final : β → Program → Prop}
    (hfirst : Extends before first after)
    (hnext : ∀ result, Extends (after result) (next result) final) :
    Extends before (first >>= next) final := by
  intro program built hbefore
  obtain ⟨kept, holds, known⟩ := hfirst program built hbefore
  rw [on_bind]
  cases hon : first.on program with
  | mk outcome middle =>
      rw [hon] at kept holds known
      cases outcome with
      | error error => exact ⟨kept, holds, fun result hresult => by cases hresult⟩
      | ok result =>
          obtain ⟨kept', holds', known'⟩ := hnext result middle kept (known result rfl)
          exact ⟨kept', holds.of_sizes holds'.assemblies holds'.types, known'⟩

theorem anything {change : Build α} (h : Extends before change after) :
    Extends before change fun _ _ => True :=
  fun program built hbefore =>
    ⟨(h program built hbefore).1, (h program built hbefore).2.1, fun _ _ => trivial⟩

/-- A change that needs only what lasts can be made again. -/
theorem again {change : Build α} (h : Extends before change fun _ _ => True)
    (lasting : Lasting before) : Extends before change fun _ => before := by
  intro program built hbefore
  obtain ⟨kept, holds, -⟩ := h program built hbefore
  exact ⟨kept, holds, fun _ _ => lasting _ _ holds hbefore⟩

/-- A change for each item of a list, if each may be made again. -/
theorem forM {items : List β} {change : β → Build PUnit}
    (each : ∀ item ∈ items, Extends before (change item) fun _ => before) :
    Extends before (items.forM change) fun _ => before := by
  induction items with
  | nil => exact .pure _ fun _ h => h
  | cons item rest ih =>
      show Extends before (change item >>= fun _ => rest.forM change) _
      refine (each item List.mem_cons_self).bind fun _ => ?_
      exact ih fun other hmem => each other (List.mem_cons_of_mem _ hmem)

theorem dropped {change : Build α} (h : Extends before change after) :
    Extends before (discard change) fun _ _ => True := by
  have ignored : discard change = change >>= fun _ => Pure.pure () := map_eq_pure_bind _ change
  rw [ignored]
  exact h.bind fun _ => .pure _ fun _ _ => trivial

/-- A change whose result an addition hands back. -/
theorem of_edit {change : Build α} {make : α → Receipt} (edit : Edit)
    (same : edit.perform = make <$> change) : Extends (edit.Fits ·) change fun _ _ => True := by
  intro program built fits
  rw [← map_on change make, ← same]
  exact ⟨.edit edit built fits, (edit.keeps_holds program ⟨Nat.le_refl _, Nat.le_refl _⟩).1,
    fun _ _ => trivial⟩

end Extends

/-! ### The additions -/

theorem extends_addAssembly (name : String) :
    Extends (fun _ => True) (addAssembly name) fun id program => program.HasAssembly id := by
  intro program built _
  obtain ⟨kept, holds, -⟩ := Extends.of_edit (.addAssembly name) rfl program built trivial
  refine ⟨kept, holds, ?_⟩
  rintro id ⟨⟩
  exact Nat.lt_of_lt_of_eq (Nat.lt_succ_self _) (Array.size_push _).symm

theorem extends_addType (assembly : AssemblyId) (decl : TypeDecl) :
    Extends (·.HasAssembly assembly) (addType assembly decl)
      fun id program => program.HasType id := by
  intro program built has
  obtain ⟨kept, holds, -⟩ := Extends.of_edit (.addType assembly decl) rfl program built has
  refine ⟨kept, holds, fun id made => ?_⟩
  by_cases taken : (program.findType? ⟨decl.name⟩).isSome = true
  · simp [addType, on_bind, insertType_on, taken] at made
  · have fresh : id = ⟨program.types.size⟩ := by
      unfold addType at made
      rw [on_bind, insertType_on, if_neg taken] at made
      cases made
      rfl
    rw [addType_on, if_neg taken]
    exact Program.withTypeListed_hasType.mpr (.inr fresh)

theorem extends_addNestedType (enclosing : TypeId) (decl : TypeDecl) :
    Extends (·.HasType enclosing) (addNestedType enclosing decl)
      fun id program => program.HasType id := by
  intro program built has
  obtain ⟨kept, holds, -⟩ := Extends.of_edit (.addNestedType enclosing decl) rfl program built has
  refine ⟨kept, holds, fun id made => ?_⟩
  unfold addNestedType at made
  rw [get_bind_on] at made
  simp only [on_bind, insertType_on] at made
  by_cases taken : (program.findType? ((program.type enclosing).key.nested decl.name)).isSome = true
  · simp [taken] at made
  · rw [if_neg taken] at made
    cases made
    rw [addNestedType_on, if_neg taken]
    exact Program.withTypeListed_hasType.mpr (.inr rfl)

theorem extends_markAssembly (id : AssemblyId) (mark : Mark) :
    Extends (·.HasAssembly id) (markAssembly id mark) fun _ => (·.HasAssembly id) := by
  have same : (Edit.markAssembly id mark).perform = (fun _ => .done) <$> markAssembly id mark :=
    (map_eq_pure_bind _ _).symm
  exact (Extends.of_edit (.markAssembly id mark) same).again (lasting_hasAssembly id)

end Build

open Build

/-! ### Manifests -/

theorem ManifestMember.extends_lower (type : TypeId) (member : ManifestMember) :
    Extends (·.HasType type) (member.lower type) fun _ => (·.HasType type) := by
  have method (decl : MemberDecl) :
      Extends (·.HasType type) (discard (addMember type decl)) fun _ _ => True :=
    (Extends.of_edit (.addMember type decl) rfl).dropped
  refine Extends.again ?_ (lasting_hasType type)
  cases member with
  | method | constructor | operator | field => exact method _
  | property => exact (Extends.of_edit (.addProperty type _) rfl).dropped
  | event => exact (Extends.of_edit (.addEvent type _) rfl).dropped

namespace ManifestType

mutual

/-- A type that is there gets the members and nested types it is described with. -/
theorem extends_lowerInto : ∀ (type : ManifestType) (id : TypeId),
    Extends (·.HasType id) (lowerInto id type) fun _ => (·.HasType id)
  | ⟨_, _, _, _, _, _, nested⟩, id =>
      (Extends.forM fun member _ => member.extends_lower id).bind fun _ =>
        extends_lowerNested nested id

theorem extends_lowerNested : ∀ (types : List ManifestType) (enclosing : TypeId),
    Extends (·.HasType enclosing) (lowerNested enclosing types) fun _ => (·.HasType enclosing)
  | [], _ => .pure _ fun _ has => has
  | type :: rest, enclosing => by
      have one : Extends (·.HasType enclosing)
          (addNestedType enclosing type.head >>= fun id => lowerInto id type)
          fun _ => (·.HasType enclosing) :=
        ((extends_addNestedType enclosing type.head).bind fun id =>
          (extends_lowerInto type id).anything).again (lasting_hasType enclosing)
      rw [lowerNested, ← bind_assoc]
      exact one.bind fun _ => extends_lowerNested rest enclosing

end

theorem extends_lower (assembly : AssemblyId) (type : ManifestType) :
    Extends (·.HasAssembly assembly) (type.lower assembly) fun _ => (·.HasAssembly assembly) :=
  ((extends_addType assembly type.head).bind fun id => (extends_lowerInto type id).anything).again
    (lasting_hasAssembly assembly)

end ManifestType

theorem ManifestAssembly.extends_lower (assembly : ManifestAssembly) :
    Extends (fun _ => True) assembly.lower fun _ _ => True := by
  refine (extends_addAssembly assembly.name).bind fun id => ?_
  refine (Extends.forM fun mark _ => extends_markAssembly id mark).bind fun _ => ?_
  exact (Extends.forM fun type _ => type.extends_lower id).anything

/-- **The program a manifest describes can be built.** -/
theorem Manifest.buildable_of_toProgram {manifest : Manifest} {program : Program}
    (lowered : manifest.toProgram = .ok program) : program.Buildable := by
  have whole : Extends (fun _ => True) manifest.lower fun _ _ => True :=
    Extends.forM fun assembly _ => assembly.extends_lower
  have built := (whole {} .empty trivial).1
  unfold toProgram at lowered
  cases hon : manifest.lower.on {} with
  | mk outcome left =>
      rw [hon] at lowered built
      cases outcome with
      | error error => cases lowered
      | ok _ => cases lowered; exact built

end MemberResolution
