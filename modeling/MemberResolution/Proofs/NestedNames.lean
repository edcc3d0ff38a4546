/-
The names of types inside types.

The key of a nested type is that of the type around it, a `+` and the name it was added with.
A qualified name is made alike from the names that are emitted, and so the two should go in
step: one more level, one more name at the end.

`qualifiedName_nested` says how far they do.  The types around are visited by a walk that ends
after so many, and where the walk from the type around is as long as that, the walk from the
nested type leaves the outermost one out, name and all.  The namespace is not lost with it:
every type around has the namespace of the nested type itself.

The name of a type alone is read back from its key.  `shortName_addNestedType` says which name
that is: the one the type was added with, unless a sign of generic arity stands in the key of
the type around.  Then what follows the sign is not read, and the nested type is called as the
type around is.
-/
import Mathlib.Data.List.TakeWhile
import MemberResolution.Naming
import MemberResolution.Proofs.DecisionTable
import MemberResolution.Proofs.Layout

namespace MemberResolution

/-! ### Keys of nested types -/

theorem takeWhile_append_stop {α : Type} {goesOn : α → Bool} (stop : α)
    (ends : goesOn stop = false) (entries rest : List α)
    (inside : stop ∈ entries ∨ ∃ other, rest = stop :: other) :
    (entries ++ rest).takeWhile goesOn = entries.takeWhile goesOn := by
  induction entries with
  | nil =>
      obtain ⟨other, rfl⟩ := inside.resolve_left List.not_mem_nil
      rw [List.nil_append, List.takeWhile_cons_of_neg (by simp [ends]), List.takeWhile_nil]
  | cons entry more ih =>
      rw [List.cons_append, List.takeWhile_cons, List.takeWhile_cons]
      by_cases h : goesOn entry = true
      · have later : stop ∈ more ∨ ∃ other, rest = stop :: other := by
          refine inside.imp_left fun hmem => (List.mem_cons.mp hmem).resolve_left ?_
          rintro rfl
          rw [ends] at h
          cases h
        rw [if_pos h, if_pos h, ih later]
      · rw [if_neg h, if_neg h]

namespace TypeKey

/-- Whether a sign of generic arity stands in a key. -/
def isGeneric (key : TypeKey) : Bool :=
  key.text.toList.contains '\x60'

/-- Whether nothing in a name is read as a part of a key. -/
def IsSimpleName (name : String) : Prop :=
  ∀ c ∈ name.toList, isSeparator c = false ∧ c ≠ '\x60'

instance (name : String) : Decidable (IsSimpleName name) :=
  List.decidableBAll (fun c => isSeparator c = false ∧ c ≠ '\x60') name.toList

theorem toList_nested (outer : TypeKey) (name : String) :
    (outer.nested name).text.toList = outer.text.toList ++ '+' :: name.toList := by
  simp [nested]

theorem space?_nested (outer : TypeKey) (name : String) :
    (outer.nested name).space? = outer.space? := by
  unfold space?
  rw [toList_nested, takeWhile_append_stop '+' (by decide) _ _ (.inr ⟨_, rfl⟩)]

theorem afterLastSeparator_append {outer name : List Char}
    (plain : ∀ c ∈ name, isSeparator c = false) :
    afterLastSeparator (outer ++ '+' :: name) = name := by
  unfold afterLastSeparator
  have reversed : ∀ c ∈ name.reverse, (!isSeparator c) = true := by
    intro c hc
    rw [plain c (List.mem_reverse.mp hc), Bool.not_false]
  rw [List.reverse_append, List.reverse_cons, List.append_assoc,
    List.takeWhile_append_of_pos reversed, List.singleton_append,
    List.takeWhile_cons_of_neg (by decide), List.append_nil, List.reverse_reverse]

/-- **The short name of a nested type is the name it was added with, unless the type around
it has a sign of generic arity.** -/
theorem shortName_nested (outer : TypeKey) {name : String} (simple : IsSimpleName name) :
    (outer.nested name).shortName = if outer.isGeneric then outer.shortName else name := by
  unfold shortName isGeneric
  rw [toList_nested]
  by_cases generic : '\x60' ∈ outer.text.toList
  · rw [if_pos (List.contains_iff_mem.mpr generic),
      takeWhile_append_stop '\x60' (by decide) _ _ (.inl generic)]
  · have whole : ∀ c ∈ outer.text.toList ++ '+' :: name.toList, (c != '\x60') = true := by
      intro c hc
      refine bne_iff_ne.mpr ?_
      rcases List.mem_append.mp hc with houter | hname
      · rintro rfl
        exact generic houter
      · rcases List.mem_cons.mp hname with rfl | hname
        · decide
        · exact (simple c hname).2
    rw [if_neg fun hc => generic (List.contains_iff_mem.mp hc),
      List.takeWhile_eq_self_iff.mpr whole,
      afterLastSeparator_append fun c hc => (simple c hc).1, String.ofList_toList]

end TypeKey

namespace Program

variable {program : Program} {id outer : TypeId}

/-! ### The walk outward -/

/-- How many types stand around a type. -/
def nestingDepth (program : Program) (id : TypeId) : Nat :=
  (program.typesAround program.types.size id).length

theorem enclosingUpTo_nested (nested : (program.type id).enclosing = some outer) (count : Nat) :
    program.enclosingUpTo (count + 1) id = id :: program.enclosingUpTo count outer := by
  rw [enclosingUpTo, nested]

theorem typesAround_nested (nested : (program.type id).enclosing = some outer) (levels : Nat) :
    program.typesAround levels id = program.enclosingUpTo levels outer := by
  rw [typesAround, enclosingUpTo_nested nested, List.tail_cons]

theorem mem_typesAround_of_enclosing (has : program.HasType id)
    (nested : (program.type id).enclosing = some outer) :
    outer ∈ program.typesAround program.types.size id := by
  have positive : 1 ≤ program.types.size := Nat.lt_of_le_of_lt (Nat.zero_le _) has
  obtain ⟨more, hsize⟩ := Nat.exists_eq_add_of_le' positive
  rw [typesAround_nested nested, hsize]
  exact List.mem_cons_self

theorem length_enclosingUpTo_le_count (count : Nat) :
    ∀ id, (program.enclosingUpTo count id).length ≤ count := by
  induction count with
  | zero => intro id; exact Nat.le_refl 0
  | succ count ih =>
      intro id
      rw [enclosingUpTo, List.length_cons]
      refine Nat.succ_le_succ ?_
      cases (program.type id).enclosing with
      | none => exact Nat.zero_le _
      | some outer => exact ih outer

/-- From the type around a nested type all types around the nested type are visited, as far as
the walk goes. -/
theorem WellFormed.enclosingChain_outer (h : program.WellFormed) (has : program.HasType id)
    (nested : (program.type id).enclosing = some outer) :
    program.enclosingChain outer
      = (program.typesAround program.types.size id).take maxNestingDepth := by
  by_cases few : (program.typesAround program.types.size id).length ≤ maxNestingDepth
  -- One step more than the walk from the outer type makes would visit no more.
  · have hall := h.enclosingUpTo_eq has (Nat.lt_succ_of_le few)
    rw [enclosingUpTo_nested nested] at hall
    rw [List.take_of_length_le few]
    exact (List.cons.inj hall).2
  · rw [typesAround_nested nested] at few ⊢
    have many : maxNestingDepth ≤ program.types.size :=
      Nat.le_trans (Nat.le_of_lt (Nat.lt_of_not_le few)) (length_enclosingUpTo_le_count _ _)
    exact (take_enclosingUpTo program many outer).symm

/-- One level further in, the walk visits one of them less. -/
theorem WellFormed.enclosingChain_nested (h : program.WellFormed) (has : program.HasType id)
    (nested : (program.type id).enclosing = some outer) :
    program.enclosingChain id
      = id :: (program.typesAround program.types.size id).take (maxNestingDepth - 1) := by
  have hwalk : program.enclosingChain id
      = id :: program.enclosingUpTo (maxNestingDepth - 1) outer :=
    enclosingUpTo_nested nested (maxNestingDepth - 1)
  have houter := h.enclosingChain_outer has nested
  rw [hwalk, ← take_enclosingUpTo program (Nat.sub_le maxNestingDepth 1) outer]
  unfold enclosingChain at houter
  rw [houter, List.take_take, Nat.min_eq_left (Nat.sub_le _ _)]

/-- Every type the walk visits has the namespace of the type it starts from. -/
theorem Filed.space?_of_mem_enclosingUpTo (filed : program.Filed) (h : program.WellFormed)
    {count : Nat} :
    ∀ {id}, program.HasType id → ∀ around ∈ program.enclosingUpTo count id,
      (program.type around).key.space? = (program.type id).key.space? := by
  induction count with
  | zero => intro id _ around hmem; cases hmem
  | succ count ih =>
      intro id has around hmem
      rw [enclosingUpTo] at hmem
      rcases List.mem_cons.mp hmem with rfl | hrest
      · rfl
      · cases nested : (program.type id).enclosing with
        | none => rw [nested] at hrest; cases hrest
        | some outer =>
            rw [nested] at hrest
            have hasOuter := Nat.lt_trans (h.enclosing id outer has nested) has
            obtain ⟨-, name, hkey⟩ := filed.inside id outer has nested
            rw [ih hasOuter around hrest, hkey, TypeKey.space?_nested]

end Program

namespace Resolver

variable {resolver : Resolver} {id outer : TypeId}

/-! ### Qualified names -/

/-- The names of types that are listed innermost first, joined by `+`. -/
def joinedNames (resolver : Resolver) (types : List TypeId) : String :=
  "+".intercalate (types.reverse.map resolver.typeName)

theorem joinedNames_cons (id : TypeId) {around : List TypeId} (nonempty : around ≠ []) :
    resolver.joinedNames (id :: around)
      = resolver.joinedNames around ++ "+" ++ resolver.typeName id := by
  unfold joinedNames
  rw [List.reverse_cons, List.map_append,
    String.intercalate_append_of_ne_nil (by simpa using nonempty) (by simp)]
  simp

theorem joinedNames_concat (outermost : TypeId) {inner : List TypeId} (nonempty : inner ≠ []) :
    resolver.joinedNames (inner ++ [outermost])
      = resolver.typeName outermost ++ "+" ++ resolver.joinedNames inner := by
  unfold joinedNames
  rw [List.reverse_append, List.map_append,
    String.intercalate_append_of_ne_nil (by simp) (by simpa using nonempty)]
  simp

theorem qualifiedName_eq (resolver : Resolver) (id : TypeId) :
    resolver.qualifiedName id
      = resolver.spaceText id ++ resolver.joinedNames (resolver.program.enclosingChain id) :=
  rfl

/-- The namespace in a qualified name is that of the type itself. -/
theorem spaceText_eq (built : resolver.program.Buildable) (has : resolver.program.HasType id) :
    resolver.spaceText id = (resolver.program.type id).key.space?.elim "" (· ++ ".") := by
  have visited : (resolver.program.enclosingChain id).getLastD id
      ∈ resolver.program.enclosingChain id := by
    have nonempty : resolver.program.enclosingChain id ≠ [] := List.cons_ne_nil _ _
    rw [List.getLastD_eq_getLast?, List.getLast?_eq_some_getLast nonempty]
    exact List.getLast_mem nonempty
  unfold spaceText
  simp only [built.filed.space?_of_mem_enclosingUpTo built.wellFormed has _ visited]
  cases (resolver.program.type id).key.space? <;> rfl

theorem spaceText_nested (built : resolver.program.Buildable) (has : resolver.program.HasType id)
    (nested : (resolver.program.type id).enclosing = some outer) :
    resolver.spaceText id = resolver.spaceText outer := by
  have hasOuter := Nat.lt_trans (built.wellFormed.enclosing id outer has nested) has
  obtain ⟨-, name, hkey⟩ := built.filed.inside id outer has nested
  rw [spaceText_eq built has, spaceText_eq built hasOuter, hkey, TypeKey.space?_nested]

/-- Where the walk reaches all types around, a nested type adds its name to the qualified name
of the type around it. -/
theorem qualifiedName_of_near (built : resolver.program.Buildable)
    (has : resolver.program.HasType id)
    (nested : (resolver.program.type id).enclosing = some outer)
    (near : resolver.program.nestingDepth id < maxNestingDepth) :
    resolver.qualifiedName id = resolver.qualifiedName outer ++ "+" ++ resolver.typeName id := by
  have first := Program.mem_typesAround_of_enclosing has nested
  unfold Program.nestingDepth at near
  rw [qualifiedName_eq, qualifiedName_eq, spaceText_nested built has nested,
    built.wellFormed.enclosingChain_nested has nested,
    built.wellFormed.enclosingChain_outer has nested,
    List.take_of_length_le (Nat.le_sub_one_of_lt near), List.take_of_length_le near.le,
    joinedNames_cons id (List.ne_nil_of_mem first)]
  simp only [String.append_assoc]

/-- Where the walk from the type around still reaches another one last, that one is missing in
the qualified name of the nested type. -/
theorem qualifiedName_of_far (built : resolver.program.Buildable)
    (has : resolver.program.HasType id)
    (nested : (resolver.program.type id).enclosing = some outer) {around : List TypeId}
    (all : resolver.program.typesAround resolver.program.types.size id = around)
    {outermost : TypeId} (last : around[maxNestingDepth - 1]? = some outermost) :
    resolver.qualifiedName outer
        = resolver.spaceText outer ++ resolver.typeName outermost ++ "+"
          ++ resolver.joinedNames (around.take (maxNestingDepth - 1))
      ∧ resolver.qualifiedName id
        = resolver.spaceText outer ++ resolver.joinedNames (around.take (maxNestingDepth - 1))
          ++ "+" ++ resolver.typeName id := by
  obtain ⟨far, rfl⟩ := List.getElem?_eq_some_iff.mp last
  have inner : around.take (maxNestingDepth - 1) ≠ [] := by
    rw [← List.length_pos_iff, List.length_take_of_le far.le]
    decide
  have walkOuter : resolver.program.enclosingChain outer
      = around.take (maxNestingDepth - 1) ++ [around[maxNestingDepth - 1]] := by
    rw [built.wellFormed.enclosingChain_outer has nested, all]
    exact List.take_succ_eq_append_getElem far
  rw [qualifiedName_eq, qualifiedName_eq, spaceText_nested built has nested, walkOuter,
    built.wellFormed.enclosingChain_nested has nested, all, joinedNames_concat _ inner,
    joinedNames_cons id inner]
  simp only [String.append_assoc, and_self]

/--
**Qualified names go in step with nesting as far as the walk outward goes.**  A nested type
adds its name to the qualified name of the type around it exactly if fewer types stand around
it than that walk visits.  Otherwise the outermost name in the one is missing in the other.
-/
theorem qualifiedName_nested (built : resolver.program.Buildable)
    (has : resolver.program.HasType id)
    (nested : (resolver.program.type id).enclosing = some outer) :
    let around := resolver.program.typesAround resolver.program.types.size id
    (resolver.qualifiedName id = resolver.qualifiedName outer ++ "+" ++ resolver.typeName id
        ↔ resolver.program.nestingDepth id < maxNestingDepth)
      ∧ (maxNestingDepth ≤ resolver.program.nestingDepth id →
        ∃ outermost, around[maxNestingDepth - 1]? = some outermost
          ∧ resolver.qualifiedName outer
            = resolver.spaceText outer ++ resolver.typeName outermost ++ "+"
              ++ resolver.joinedNames (around.take (maxNestingDepth - 1))
          ∧ resolver.qualifiedName id
            = resolver.spaceText outer ++ resolver.joinedNames (around.take (maxNestingDepth - 1))
              ++ "+" ++ resolver.typeName id) := by
  intro around
  rcases Nat.lt_or_ge (resolver.program.nestingDepth id) maxNestingDepth with near | far
  · exact ⟨iff_of_true (qualifiedName_of_near built has nested near) near,
      fun far => absurd near (Nat.not_lt.mpr far)⟩
  · have last : maxNestingDepth - 1 < around.length := Nat.lt_of_lt_of_le (by decide) far
    obtain ⟨nameOuter, name⟩ :=
      qualifiedName_of_far built has nested rfl (List.getElem?_eq_getElem last)
    -- In step it would be longer by the outermost name and a sign.
    have outOfStep : resolver.qualifiedName id
        ≠ resolver.qualifiedName outer ++ "+" ++ resolver.typeName id := by
      intro same
      have lengths := congrArg String.length same
      rw [name, nameOuter] at lengths
      simp only [String.length_append] at lengths
      have plus : "+".length = 1 := rfl
      omega
    exact ⟨iff_of_false outOfStep (Nat.not_lt.mpr far),
      fun _ => ⟨_, List.getElem?_eq_getElem last, nameOuter, name⟩⟩

/-- A type with a new name of its own, one inside it, and inside that one a type that a proxy
gives a new name. -/
def renamedShell : List Edit :=
  [.addAssembly "Lib",
   .addType ⟨0⟩ { name := "Lib.Outer", kind := .classType, marks := [.rename "Shell"] },
   .addNestedType ⟨0⟩ { name := "Layer", kind := .classType },
   .addNestedType ⟨1⟩ { name := "Kernel", kind := .structType },
   .addType ⟨0⟩
     { name := "Proxy", kind := .classType,
       marks := [.proxy ⟨"Lib.Outer+Layer+Kernel"⟩ false, .rename "Core"] }]

theorem qualifiedName_nested_renamedShell :
    let program := Program.afterEdits {} renamedShell
    let resolver : Resolver := { program := program, maxDepth := 64 }
    program.Buildable ∧ program.HasType ⟨2⟩ ∧ (program.type ⟨2⟩).enclosing = some ⟨1⟩
      ∧ program.nestingDepth ⟨2⟩ < maxNestingDepth
      ∧ resolver.qualifiedName ⟨2⟩ = resolver.qualifiedName ⟨1⟩ ++ "+" ++ resolver.typeName ⟨2⟩
      ∧ resolver.qualifiedName ⟨1⟩ = "Lib.Shell+Layer" ∧ resolver.typeName ⟨2⟩ = "Core" := by
  intro program resolver
  have built : program.Buildable := Program.Buildable.empty.afterEdits (by decide +kernel)
  have inner : program.HasType ⟨2⟩ ∧ (program.type ⟨2⟩).enclosing = some ⟨1⟩
      ∧ program.nestingDepth ⟨2⟩ < maxNestingDepth := by
    decide +kernel
  obtain ⟨has, nested, near⟩ := inner
  have inStep := (qualifiedName_nested (show resolver.program.Buildable from built) has nested).1
  exact ⟨built, has, nested, near, inStep.mpr near, by decide +kernel, by decide +kernel⟩

/-- A type and so many types inside it, each inside the one before. -/
def deepNest (levels : Nat) : List Edit :=
  .addAssembly "Lib" :: .addType ⟨0⟩ { name := "Lib.Top", kind := .classType }
    :: (List.range levels).map fun level =>
      .addNestedType ⟨level⟩ { name := "Part", kind := .classType }

/-- A type with 32 types around it has a qualified name without the outermost of them. -/
theorem qualifiedName_beyond_deepNest :
    let program := Program.afterEdits {} (deepNest 32)
    let resolver : Resolver := { program := program, maxDepth := 64 }
    program.Buildable ∧ program.HasType ⟨32⟩ ∧ (program.type ⟨32⟩).enclosing = some ⟨31⟩
      ∧ resolver.qualifiedName ⟨32⟩
        ≠ resolver.qualifiedName ⟨31⟩ ++ "+" ++ resolver.typeName ⟨32⟩ := by
  intro program resolver
  refine ⟨Program.Buildable.empty.afterEdits (by decide +kernel), ?_⟩
  decide +kernel

end Resolver

/-! ### Short names -/

/-- Every addition keeps the types there are and their keys, whether it fails or not. -/
theorem Edit.key_perform (edit : Edit) {program : Program} {id : TypeId}
    (has : program.HasType id) :
    (edit.perform.on program).2.HasType id
      ∧ ((edit.perform.on program).2.type id).key = (program.type id).key := by
  have sameOutline : ∀ after, Program.SameOutline program after →
      after.HasType id ∧ (after.type id).key = (program.type id).key := by
    intro after same
    have key : (after.type id).outline.key = (program.type id).outline.key := by
      rw [same.types id]
    exact ⟨same.hasType.mpr has, key⟩
  have listed : ∀ assembly key around (decl : TypeDecl),
      (program.withTypeListed assembly key around decl).HasType id
        ∧ ((program.withTypeListed assembly key around decl).type id).key
          = (program.type id).key :=
    fun _ _ _ _ => ⟨Program.withTypeListed_hasType.mpr (.inl has),
      Program.withTypeListed_old (·.key) (fun _ _ => rfl) has⟩
  cases edit with
  | addType assembly decl =>
      unfold perform
      rw [Build.map_on, Build.addType_on]
      split
      · exact ⟨has, rfl⟩
      · exact listed _ _ _ _
  | addNestedType enclosing decl =>
      unfold perform
      rw [Build.map_on, Build.addNestedType_on]
      split
      · exact ⟨has, rfl⟩
      · exact listed _ _ _ _
  | addAssembly _ | markAssembly _ _ | markType _ _ | addMember _ _ | addProperty _ _
  | addEvent _ _ | markMember _ _ => exact sameOutline _ (sameOutline_perform rfl program)

theorem Program.key_afterEdits (edits : List Edit) :
    ∀ {program : Program} {id : TypeId}, program.HasType id →
      ((program.afterEdits edits).type id).key = (program.type id).key := by
  induction edits with
  | nil => intro program id _; rfl
  | cons edit rest ih =>
      intro program id has
      obtain ⟨kept, same⟩ := edit.key_perform has
      exact (ih kept).trans same

namespace Build

theorem addNestedType_of_free {program : Program} {outer : TypeId} {decl : TypeDecl}
    (free : program.findType? ((program.type outer).key.nested decl.name) = none) :
    (addNestedType outer decl).on program
      = (.ok ⟨program.types.size⟩,
          program.withTypeListed (program.type outer).assembly
            ((program.type outer).key.nested decl.name) (some outer) decl) := by
  unfold addNestedType
  rw [get_bind_on]
  simp only [on_bind, insertType_on, free, Option.isSome_none, Bool.false_eq_true, if_false]
  rfl

/--
**What a type that is added inside another is called.**  It is called by the name it was added
with, unless the type around it has a sign of generic arity in its key: then it has the short
name of that type.  Whatever is added later, it is so, and it is emitted under this name if
nothing renames it.
-/
theorem shortName_addNestedType (program : Program) (outer : TypeId) (decl : TypeDecl)
    (simple : TypeKey.IsSimpleName decl.name)
    (free : program.findType? ((program.type outer).key.nested decl.name) = none) :
    let around := (program.type outer).key
    let name := if around.isGeneric then around.shortName else decl.name
    let id : TypeId := ⟨program.types.size⟩
    ((addNestedType outer decl).on program).1 = .ok id
      ∧ ∀ (later : List Edit) (resolver : Resolver),
        resolver.program = ((addNestedType outer decl).on program).2.afterEdits later →
          (resolver.program.type id).key = around.nested decl.name
            ∧ (resolver.program.type id).key.shortName = name
            ∧ (Directive.rename? (resolver.typeDirectives id) = none →
              resolver.typeName id = name) := by
  intro around name id
  rw [addNestedType_of_free free]
  refine ⟨rfl, fun later resolver loaded => ?_⟩
  have key : (resolver.program.type id).key = around.nested decl.name := by
    rw [loaded, Program.key_afterEdits later (Program.withTypeListed_hasType.mpr (.inr rfl))]
    exact Program.withTypeListed_new.1
  have short : (resolver.program.type id).key.shortName = name := by
    rw [key, TypeKey.shortName_nested around simple]
  refine ⟨key, short, fun unnamed => ?_⟩
  unfold Resolver.typeName
  rw [unnamed, Option.getD_none, short]

/-- A plain type and a generic one. -/
def boxAndList : List Edit :=
  [.addAssembly "Lib",
   .addType ⟨0⟩ { name := "Lib.Box", kind := .classType },
   .addType ⟨0⟩ { name := "Lib.List`1", kind := .classType }]

/-- A type of the same name is added inside either, and the types around are renamed later. -/
theorem shortName_addNestedType_boxAndList :
    let program := Program.afterEdits {} boxAndList
    let decl : TypeDecl := { name := "Node", kind := .classType }
    let later : List Edit := [.markType ⟨0⟩ (.rename "Crate"), .markType ⟨1⟩ (.rename "Chain")]
    let inBox : Resolver :=
      { program := ((addNestedType ⟨0⟩ decl).on program).2.afterEdits later, maxDepth := 64 }
    let inList : Resolver :=
      { program := ((addNestedType ⟨1⟩ decl).on program).2.afterEdits later, maxDepth := 64 }
    TypeKey.IsSimpleName decl.name
      ∧ program.findType? ((program.type ⟨0⟩).key.nested decl.name) = none
      ∧ program.findType? ((program.type ⟨1⟩).key.nested decl.name) = none
      ∧ Directive.rename? (inBox.typeDirectives ⟨2⟩) = none
      ∧ Directive.rename? (inList.typeDirectives ⟨2⟩) = none
      ∧ inBox.typeName ⟨2⟩ = "Node" ∧ inList.typeName ⟨2⟩ = "List" := by
  intro program decl later inBox inList
  have simple : TypeKey.IsSimpleName decl.name := by decide +kernel
  have freeBox : program.findType? ((program.type ⟨0⟩).key.nested decl.name) = none := by
    decide +kernel
  have freeList : program.findType? ((program.type ⟨1⟩).key.nested decl.name) = none := by
    decide +kernel
  have unnamedBox : Directive.rename? (inBox.typeDirectives ⟨2⟩) = none := by decide +kernel
  have unnamedList : Directive.rename? (inList.typeDirectives ⟨2⟩) = none := by decide +kernel
  have box := (shortName_addNestedType program ⟨0⟩ decl simple freeBox).2 later inBox rfl
  have list := (shortName_addNestedType program ⟨1⟩ decl simple freeList).2 later inList rfl
  exact ⟨simple, freeBox, freeList, unnamedBox, unnamedList,
    (box.2.2 unnamedBox).trans (by decide +kernel),
    (list.2.2 unnamedList).trans (by decide +kernel)⟩

/-- A type inside a generic one is not called by its own name. -/
theorem shortName_inside_generic :
    let program := Program.afterEdits {}
      [.addAssembly "Lib", .addType ⟨0⟩ { name := "Outer`1", kind := .classType },
       .addNestedType ⟨0⟩ { name := "Inner", kind := .classType }]
    let resolver : Resolver := { program := program, maxDepth := 64 }
    program.Buildable ∧ TypeKey.IsSimpleName "Inner"
      ∧ (program.type ⟨1⟩).key = TypeKey.nested ⟨"Outer`1"⟩ "Inner"
      ∧ (program.type ⟨1⟩).key.shortName = "Outer"
      ∧ Directive.rename? (resolver.typeDirectives ⟨1⟩) = none
      ∧ resolver.typeName ⟨1⟩ = "Outer" ∧ resolver.qualifiedName ⟨1⟩ = "Outer+Outer" := by
  intro program resolver
  refine ⟨Program.Buildable.empty.afterEdits (by decide +kernel), ?_⟩
  decide +kernel

end Build

end MemberResolution
