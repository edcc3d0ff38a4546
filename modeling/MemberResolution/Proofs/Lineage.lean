/-
Chains of base types that end.

The model follows bases for a number of steps and looks whether they go on.  What a
chain means needs no number: `Lineage` says that a list leads from a type through its
bases to one that has none.  There is at most one such list, it holds no type twice,
and it is what `Program.chain` hands back, which fails exactly where the list is
longer than allowed or there is none.
-/
import MemberResolution.Ancestry
import MemberResolution.Proofs.WellFormed

namespace MemberResolution

namespace Program

variable {program : Program}

/-- The list leads from a type through all its bases, most derived first. -/
inductive Lineage (program : Program) : TypeId → List TypeId → Prop
  | root {id : TypeId} (top : program.baseOf? id = none) : Lineage program id [id]
  | derived {id base : TypeId} {rest : List TypeId} (up : program.baseOf? id = some base)
      (onward : Lineage program base rest) : Lineage program id (id :: rest)

namespace Lineage

theorem start_eq {id : TypeId} {chain : List TypeId} (h : program.Lineage id chain) :
    ∃ rest, chain = id :: rest := by
  cases h with
  | root _ => exact ⟨[], rfl⟩
  | derived _ _ => exact ⟨_, rfl⟩

/-- A type has at most one lineage. -/
theorem unique {id : TypeId} {a b : List TypeId} (ha : program.Lineage id a)
    (hb : program.Lineage id b) : a = b := by
  induction ha generalizing b with
  | root top =>
      cases hb with
      | root _ => rfl
      | derived up _ => rw [top] at up; cases up
  | derived up _ ih =>
      cases hb with
      | root top => rw [top] at up; cases up
      | derived up' onward' =>
          rw [up] at up'
          cases up'
          rw [ih onward']

/-- Whatever stands in a lineage has a lineage, and it is no longer. -/
theorem of_mem {id other : TypeId} {chain : List TypeId} (h : program.Lineage id chain)
    (hmem : other ∈ chain) :
    ∃ rest, program.Lineage other rest ∧ rest.length ≤ chain.length := by
  induction h with
  | root top =>
      rw [List.mem_singleton] at hmem
      subst hmem
      exact ⟨_, .root top, Nat.le_refl _⟩
  | derived up onward ih =>
      rcases List.mem_cons.mp hmem with rfl | hrest
      · exact ⟨_, .derived up onward, Nat.le_refl _⟩
      · obtain ⟨rest, hother, hle⟩ := ih hrest
        exact ⟨rest, hother, Nat.le_succ_of_le hle⟩

theorem of_append {id type : TypeId} {nearer further : List TypeId}
    (h : program.Lineage id (nearer ++ type :: further)) :
    program.Lineage type (type :: further) := by
  induction nearer generalizing id with
  | nil =>
      obtain ⟨rest, hstart⟩ := h.start_eq
      cases hstart
      exact h
  | cons closer nearer ih =>
      cases hrest : nearer ++ type :: further with
      | nil => simp at hrest
      | cons next rest =>
          rw [List.cons_append, hrest] at h
          cases h with
          | derived _ onward => exact ih (hrest ▸ onward)

/-- **No type stands in its lineage twice.** -/
theorem nodup {id : TypeId} {chain : List TypeId} (h : program.Lineage id chain) :
    chain.Nodup := by
  induction h with
  | root _ => simp
  | derived up onward ih =>
      refine List.nodup_cons.mpr ⟨fun hmem => ?_, ih⟩
      -- A second occurrence would start a lineage that is shorter than itself.
      obtain ⟨again, hagain, hle⟩ := onward.of_mem hmem
      rw [← (Lineage.derived up onward).unique hagain, List.length_cons] at hle
      exact Nat.not_succ_le_self _ hle

theorem hasType (h : program.WellFormed) {id : TypeId} {chain : List TypeId}
    (lineage : program.Lineage id chain) (has : program.HasType id) :
    ∀ ancestor ∈ chain, program.HasType ancestor := by
  induction lineage with
  | root _ =>
      intro ancestor hmem
      rw [List.mem_singleton.mp hmem]
      exact has
  | derived up _ ih =>
      intro ancestor hmem
      rcases List.mem_cons.mp hmem with rfl | hrest
      · exact has
      · exact ih (h.baseOf?_eq_some_iff.mp up).1 ancestor hrest

theorem ancestorsUpTo_eq {id : TypeId} {chain : List TypeId} (h : program.Lineage id chain)
    {count : Nat} (enough : chain.length ≤ count) : program.ancestorsUpTo count id = chain := by
  induction h generalizing count with
  | root top =>
      cases count with
      | zero => simp at enough
      | succ count => simp [ancestorsUpTo, top]
  | derived up _ ih =>
      cases count with
      | zero => simp at enough
      | succ count =>
          rw [ancestorsUpTo, up]
          exact congrArg _ (ih (Nat.le_of_succ_le_succ enough))

end Lineage

/-- A walk that stops before its last step has come to the end. -/
theorem lineage_ancestorsUpTo {count : Nat} {id : TypeId}
    (short : (program.ancestorsUpTo count id).length < count) :
    program.Lineage id (program.ancestorsUpTo count id) := by
  induction count generalizing id with
  | zero => exact absurd short (Nat.not_lt_zero _)
  | succ count ih =>
      unfold ancestorsUpTo at short ⊢
      cases hbase : program.baseOf? id with
      | none => exact .root hbase
      | some base =>
          simp only [hbase, List.length_cons] at short
          exact .derived hbase (ih (Nat.lt_of_succ_lt_succ short))

/-- **The chain of a type is its lineage, where that is no longer than the limit and
one entry more.** -/
theorem chain_eq_ok_iff {maxDepth : Nat} {id : TypeId} {chain : List TypeId} :
    program.chain maxDepth id = .ok chain
      ↔ program.Lineage id chain ∧ chain.length ≤ maxDepth + 1 := by
  unfold Program.chain isTooDeep keptChain
  refine ⟨?_, ?_⟩
  · intro h
    by_cases deep : maxDepth + 1 < (program.ancestorsUpTo (maxDepth + 2) id).length
    · simp [deep] at h
    · have short : (program.ancestorsUpTo (maxDepth + 2) id).length ≤ maxDepth + 1 :=
        Nat.le_of_not_lt deep
      have lineage : program.Lineage id (program.ancestorsUpTo (maxDepth + 2) id) :=
        lineage_ancestorsUpTo (Nat.lt_succ_of_le short)
      have kept := lineage.ancestorsUpTo_eq short
      simp only [decide_eq_true_eq, deep, if_false, Except.ok.injEq] at h
      rw [← h, kept]
      exact ⟨lineage, short⟩
  · intro given
    obtain ⟨lineage, short⟩ := given
    rw [lineage.ancestorsUpTo_eq short, lineage.ancestorsUpTo_eq (Nat.le_succ_of_le short)]
    simp [Nat.not_lt.mpr short]

end Program

end MemberResolution
