/-
Lists in order, and memos.

A memo keeps values under keys.  The programs keep in memos what is found by name, and the
sessions what was found before.
-/
namespace MemberResolution

/-! ### Lists in order -/

/-- Puts an item before the first one that it may stand before. -/
def insertInOrder {α : Type} (before : α → α → Bool) (item : α) : List α → List α
  | [] => [item]
  | head :: rest =>
    if before item head then item :: head :: rest else head :: insertInOrder before item rest

/-- Puts items in order.  Those that may stand before each other stay as they are. -/
def inOrder {α : Type} (before : α → α → Bool) (items : List α) : List α :=
  items.foldr (insertInOrder before) []

/-! ### Memos -/

/-- Values under keys, one for each key. -/
structure Memo (κ ν : Type) where
  entries : List (κ × ν) := []
  deriving DecidableEq, Inhabited, Repr

namespace Memo

variable {κ ν : Type} [DecidableEq κ]

/-- The value under a key. -/
def find? (memo : Memo κ ν) (key : κ) : Option ν :=
  (memo.entries.find? fun entry => entry.1 = key).map (·.2)

/-- Puts a value under a key, in place of the one that was there. -/
def insert (memo : Memo κ ν) (key : κ) (value : ν) : Memo κ ν :=
  ⟨(key, value) :: memo.entries.filter fun entry => entry.1 ≠ key⟩

/-- How many keys there are. -/
def size (memo : Memo κ ν) : Nat :=
  memo.entries.length

@[simp] theorem find?_empty (key : κ) : ({} : Memo κ ν).find? key = none :=
  rfl

theorem find?_insert (memo : Memo κ ν) (key other : κ) (value : ν) :
    (memo.insert key value).find? other = if key = other then some value else memo.find? other := by
  unfold Memo.find? Memo.insert
  by_cases h : key = other
  · simp [h]
  · rw [if_neg h, List.find?_cons_of_neg (by simpa using h), List.find?_filter]
    congr 2
    funext entry
    by_cases hentry : entry.1 = other
    · have hne : other ≠ key := fun hc => h hc.symm
      simp [hentry, hne]
    · simp [hentry]

end Memo

end MemberResolution
