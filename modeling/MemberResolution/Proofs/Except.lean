/-
Computations that can fail.

A computation in sequence fails with the first of its parts that fails, and so does one that
goes over a list.  Here this is said as equivalences, one for each way of putting parts
together, so that a proof about a search or a pass can go through it part by part.

Of two computations one can succeed wherever the other does, and with the same result.
`Lasts` says so, and it goes through the same ways of putting parts together.
-/
import Mathlib.Data.List.Forall2

namespace MemberResolution

variable {α β ε : Type} {error : ε}

/-! ### Sequences -/

theorem bind_eq_ok_iff {first : Except ε α} {next : α → Except ε β} {result : β} :
    (first >>= next) = .ok result ↔ ∃ found, first = .ok found ∧ next found = .ok result := by
  cases first <;> simp [bind, Except.bind]

theorem bind_eq_error_iff {first : Except ε α} {next : α → Except ε β} :
    (first >>= next) = .error error
      ↔ first = .error error ∨ ∃ found, first = .ok found ∧ next found = .error error := by
  cases first <;> simp [bind, Except.bind]

theorem map_eq_error_iff {form : α → β} {value : Except ε α} :
    form <$> value = .error error ↔ value = .error error := by
  cases value <;> simp

/-! ### Searches -/

/-- Some item of a list has one property, and every item before it has another. -/
def Reaches (passes stops : α → Prop) (items : List α) : Prop :=
  ∃ earlier item later, items = earlier ++ item :: later
    ∧ (∀ other ∈ earlier, passes other) ∧ stops item

theorem not_reaches_nil {passes stops : α → Prop} : ¬ Reaches passes stops [] := by
  rintro ⟨earlier, item, later, hitems, -⟩
  simp at hitems

/-- Such an item is the first of the list, or the first passes and it is one of the rest. -/
theorem reaches_cons_iff {passes stops : α → Prop} {first : α} {rest : List α} :
    Reaches passes stops (first :: rest)
      ↔ stops first ∨ passes first ∧ Reaches passes stops rest := by
  refine ⟨?_, ?_⟩
  · rintro ⟨earlier, item, later, hitems, hpass, hstop⟩
    cases earlier with
    | nil =>
        obtain ⟨rfl, -⟩ := List.cons.inj hitems
        exact .inl hstop
    | cons head earlier =>
        obtain ⟨rfl, hrest⟩ := List.cons.inj hitems
        obtain ⟨hhead, hearlier⟩ := List.forall_mem_cons.mp hpass
        exact .inr ⟨hhead, earlier, item, later, hrest, hearlier, hstop⟩
  · rintro (hstop | ⟨hpass, earlier, item, later, rfl, hearlier, hstop⟩)
    · exact ⟨[], first, rest, rfl, List.forall_mem_nil _, hstop⟩
    · exact ⟨first :: earlier, item, later, rfl, List.forall_mem_cons.mpr ⟨hpass, hearlier⟩, hstop⟩

theorem reaches_congr {passes stops passes' stops' : α → Prop} {items : List α}
    (samePass : ∀ item ∈ items, passes item ↔ passes' item)
    (sameStop : ∀ item ∈ items, stops item ↔ stops' item) :
    Reaches passes stops items ↔ Reaches passes' stops' items := by
  induction items with
  | nil => exact iff_of_false not_reaches_nil not_reaches_nil
  | cons first rest ih =>
      obtain ⟨passFirst, passRest⟩ := List.forall_mem_cons.mp samePass
      obtain ⟨stopFirst, stopRest⟩ := List.forall_mem_cons.mp sameStop
      rw [reaches_cons_iff, reaches_cons_iff, passFirst, stopFirst, ih passRest stopRest]

/-! ### Lists -/

theorem exists_of_mem_forall₂ {related : α → β → Prop} {items : List α} {results : List β}
    (all : List.Forall₂ related items results) {item : α} (hmem : item ∈ items) :
    ∃ result ∈ results, related item result := by
  induction all with
  | nil => cases hmem
  | cons hfirst _ ih =>
      rcases List.mem_cons.mp hmem with rfl | hrest
      · exact ⟨_, List.mem_cons_self, hfirst⟩
      · obtain ⟨result, hresult, hrelated⟩ := ih hrest
        exact ⟨result, List.mem_cons_of_mem _ hresult, hrelated⟩

/-- All items have a property if all that is related to them has one that comes to the same. -/
theorem forall_mem_iff_of_forall₂ {related : α → β → Prop} {items : List α} {results : List β}
    (all : List.Forall₂ related items results) {p : α → Prop} {q : β → Prop}
    (same : ∀ item result, related item result → (p item ↔ q result)) :
    (∀ item ∈ items, p item) ↔ ∀ result ∈ results, q result := by
  induction all with
  | nil => simp
  | cons hfirst _ ih => rw [List.forall_mem_cons, List.forall_mem_cons, same _ _ hfirst, ih]

theorem mapM_eq_some_of_forall₂ {find : α → Option β} {items : List α} {results : List β}
    (all : List.Forall₂ (fun item result => find item = some result) items results) :
    items.mapM find = some results := by
  induction all with
  | nil => rfl
  | cons hfirst _ ih => rw [List.mapM_cons, hfirst, ih]; rfl

variable {f : α → Except ε β}

theorem forall₂_of_mapM_eq_ok {items : List α} :
    ∀ {results : List β}, items.mapM f = .ok results →
      List.Forall₂ (fun item result => f item = .ok result) items results := by
  induction items with
  | nil => intro results h; cases h; exact .nil
  | cons item rest ih =>
      intro results h
      rw [List.mapM_cons, bind_eq_ok_iff] at h
      obtain ⟨first, hfirst, h⟩ := h
      obtain ⟨others, hothers, ⟨⟩⟩ := bind_eq_ok_iff.mp h
      exact .cons hfirst (ih hothers)

/-- What a pass makes of a list, it makes of the first item and of the rest. -/
theorem map_mapM_cons {γ : Type} (f : α → Except ε β) (form : β → γ) (item : α) (rest : List α) :
    List.map form <$> (item :: rest).mapM f = (do
      let first ← form <$> f item
      let others ← List.map form <$> rest.mapM f
      pure (first :: others)) := by
  rw [List.mapM_cons]
  cases f item with
  | error _ => rfl
  | ok _ => cases rest.mapM f <;> rfl

/-- Two passes come to the same forms if they do item by item. -/
theorem map_mapM_congr {γ δ : Type} {g : α → Except ε γ} {form : β → δ} {other : γ → δ}
    {items : List α} (same : ∀ item ∈ items, form <$> f item = other <$> g item) :
    List.map form <$> items.mapM f = List.map other <$> items.mapM g := by
  induction items with
  | nil => rfl
  | cons item rest ih =>
      rw [map_mapM_cons, map_mapM_cons, same item List.mem_cons_self,
        ih fun later hmem => same later (List.mem_cons_of_mem _ hmem)]

theorem exists_of_mapM_eq_error {items : List α} (fails : items.mapM f = .error error) :
    ∃ item ∈ items, f item = .error error := by
  induction items with
  | nil => cases fails
  | cons first rest ih =>
      rw [List.mapM_cons, bind_eq_error_iff] at fails
      rcases fails with hfirst | ⟨_, -, fails⟩
      · exact ⟨first, List.mem_cons_self, hfirst⟩
      · obtain hrest | ⟨_, -, ⟨⟩⟩ := bind_eq_error_iff.mp fails
        obtain ⟨item, hmem, hitem⟩ := ih hrest
        exact ⟨item, List.mem_cons_of_mem _ hmem, hitem⟩

/-- **A pass fails with the first item that fails**, where a test tells which items do. -/
theorem mapM_eq_error_iff {fails : α → Bool} {problem : α → ε} {items : List α}
    (decides : ∀ item ∈ items, ∀ error,
      f item = .error error ↔ fails item = true ∧ problem item = error) :
    items.mapM f = .error error
      ↔ ∃ item, items.find? fails = some item ∧ problem item = error := by
  induction items with
  | nil => exact ⟨nofun, by simp⟩
  | cons first rest ih =>
      have hfirst := decides first List.mem_cons_self
      have hrest := ih fun item hmem => decides item (List.mem_cons_of_mem _ hmem)
      rw [List.mapM_cons, bind_eq_error_iff]
      cases htest : fails first with
      | true =>
          rw [List.find?_cons_of_pos htest]
          refine ⟨?_, ?_⟩
          · rintro (hfails | ⟨result, hok, -⟩)
            · exact ⟨first, rfl, ((hfirst error).mp hfails).2⟩
            · rw [(hfirst _).mpr ⟨htest, rfl⟩] at hok
              cases hok
          · rintro ⟨_, ⟨⟩, hproblem⟩
            exact .inl ((hfirst error).mpr ⟨htest, hproblem⟩)
      | false =>
          rw [List.find?_cons_of_neg (by simp [htest]), ← hrest]
          refine ⟨?_, ?_⟩
          · rintro (hfails | ⟨result, -, hfails⟩)
            · have := ((hfirst error).mp hfails).1
              simp [htest] at this
            · obtain hlater | ⟨_, -, ⟨⟩⟩ := bind_eq_error_iff.mp hfails
              exact hlater
          · intro hfails
            cases hok : f first with
            | error found =>
                have := ((hfirst found).mp hok).1
                simp [htest] at this
            | ok result => exact .inr ⟨result, rfl, bind_eq_error_iff.mpr (.inl hfails)⟩

/-! ### Successes that last -/

/-- What the first computation comes to, the second comes to as well; where the first fails,
the second may do anything. -/
def Lasts (first second : Except ε α) : Prop :=
  ∀ result, first = .ok result → second = .ok result

namespace Lasts

theorem refl (value : Except ε α) : Lasts value value :=
  fun _ found => found

theorem bind {first second : Except ε α} {next after : α → Except ε β}
    (start : Lasts first second) (onward : ∀ found, Lasts (next found) (after found)) :
    Lasts (first >>= next) (second >>= after) := by
  intro result h
  obtain ⟨found, hfound, hresult⟩ := bind_eq_ok_iff.mp h
  exact bind_eq_ok_iff.mpr ⟨found, start found hfound, onward found result hresult⟩

theorem map {first second : Except ε α} (form : α → β) (start : Lasts first second) :
    Lasts (form <$> first) (form <$> second) := by
  rw [map_eq_pure_bind, map_eq_pure_bind]
  exact start.bind fun found => refl _

theorem mapM {f g : α → Except ε β} {items : List α}
    (each : ∀ item ∈ items, Lasts (f item) (g item)) : Lasts (items.mapM f) (items.mapM g) := by
  induction items with
  | nil => exact refl _
  | cons item rest ih =>
      rw [List.mapM_cons, List.mapM_cons]
      refine (each item List.mem_cons_self).bind fun first => ?_
      exact (ih fun other hmem => each other (List.mem_cons_of_mem _ hmem)).bind fun _ => refl _

end Lasts

end MemberResolution
