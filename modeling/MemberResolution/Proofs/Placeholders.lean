/-
Placeholders in a text.

A message is made by replacing placeholders, `{0}`, `{1}` and so on, in a template.  To say
what comes of that one has to know where they stand, and there is one way only to read them:
a placeholder starts with a brace and ends with the next one, so two of them never overlap.
A template is then a row of plain characters and of holes.  Reading it loses nothing
(`written_piecesOf`) and misses no placeholder (`count_hole_piecesOf`).

`fillAtOnce` puts into each hole the argument with its number, whatever that is.  It is what
one expects of a message; `Proofs/Filling.lean` says when it is what one gets.
-/
import MemberResolution.Message

namespace MemberResolution

/-! ### Replacing a pattern -/

section Replacing

variable {pattern replacement : List Char}

theorem replaceFrom_nil (pattern replacement : List Char) (passed : Nat) :
    replaceFrom pattern replacement passed [] = [] := by
  cases passed <;> rfl

theorem replaceFrom_eq_drop (pattern replacement : List Char) :
    ∀ (passed : Nat) (text : List Char), replaceFrom pattern replacement passed text
      = replaceFrom pattern replacement 0 (text.drop passed) := by
  intro passed
  induction passed with
  | zero => intro text; rfl
  | succ passed ih =>
      intro text
      cases text with
      | nil => rfl
      | cons c rest => exact ih rest

/-- Where the pattern stands, the replacement is put. -/
theorem replaceFrom_append_pattern (nonempty : pattern ≠ []) (rest : List Char) :
    replaceFrom pattern replacement 0 (pattern ++ rest)
      = replacement ++ replaceFrom pattern replacement 0 rest := by
  obtain ⟨c, others, rfl⟩ := List.exists_cons_of_ne_nil nonempty
  have starts : (c :: others).isPrefixOf (c :: (others ++ rest)) = true :=
    List.isPrefixOf_iff_prefix.mpr (List.prefix_append (c :: others) rest)
  rw [List.cons_append, replaceFrom, if_pos starts, replaceFrom_eq_drop]
  simp

theorem replaceFrom_pattern (nonempty : pattern ≠ []) :
    replaceFrom pattern replacement 0 pattern = replacement := by
  have whole : replaceFrom pattern replacement 0 (pattern ++ [])
      = replacement ++ replaceFrom pattern replacement 0 [] :=
    replaceFrom_append_pattern nonempty []
  rwa [replaceFrom_nil, List.append_nil, List.append_nil] at whole

theorem replaceFrom_cons {c : Char} {rest : List Char} (absent : ¬pattern <+: c :: rest) :
    replaceFrom pattern replacement 0 (c :: rest)
      = c :: replaceFrom pattern replacement 0 rest := by
  rw [replaceFrom, if_neg (mt List.isPrefixOf_iff_prefix.mp absent)]

/-- The pattern does not reach across a character it does not have. -/
theorem prefix_of_prefix_append {c : Char} (foreign : c ∉ pattern) {text rest : List Char}
    (found : pattern <+: text ++ c :: rest) : pattern <+: text := by
  have upTo : text ++ [c] <+: text ++ c :: rest := ⟨rest, by simp⟩
  rcases List.prefix_or_prefix_of_prefix found upTo with short | long
  · rcases List.prefix_concat_iff.mp short with rfl | inside
    · simp at foreign
    · exact inside
  · exact absurd (long.subset (by simp)) foreign

/-- **Before and after a character the pattern does not have, all is replaced apart.** -/
theorem replaceFrom_append_foreign {c : Char} (foreign : c ∉ pattern) (nonempty : pattern ≠ [])
    (rest : List Char) :
    ∀ (text : List Char) (passed : Nat), passed ≤ text.length →
      replaceFrom pattern replacement passed (text ++ c :: rest)
        = replaceFrom pattern replacement passed text
          ++ c :: replaceFrom pattern replacement 0 rest := by
  intro text
  induction text with
  | nil =>
      intro passed short
      obtain rfl := Nat.le_zero.mp short
      refine replaceFrom_cons fun found => ?_
      have inside : pattern <+: [] := prefix_of_prefix_append foreign found
      exact nonempty (List.prefix_nil.mp inside)
  | cons d text ih =>
      intro passed short
      cases passed with
      | succ passed => exact ih passed (Nat.le_of_succ_le_succ short)
      | zero =>
          rw [List.cons_append]
          by_cases found : pattern <+: d :: text
          · have further : pattern <+: d :: (text ++ c :: rest) :=
              found.trans (List.prefix_append (d :: text) (c :: rest))
            have fits : pattern.length - 1 ≤ text.length :=
              Nat.sub_le_of_le_add found.length_le
            rw [replaceFrom, replaceFrom, if_pos (List.isPrefixOf_iff_prefix.mpr found),
              if_pos (List.isPrefixOf_iff_prefix.mpr further), ih _ fits, List.append_assoc]
          · have nowhere : ¬pattern <+: d :: (text ++ c :: rest) :=
              fun further => found (prefix_of_prefix_append foreign further)
            rw [replaceFrom_cons found, replaceFrom_cons nowhere, ih 0 (Nat.zero_le _),
              List.cons_append]

end Replacing

/-! ### Counting a pattern -/

/-- How often a pattern stands in a text. -/
def occurrences (pattern : List Char) : List Char → Nat
  | [] => 0
  | c :: rest => occurrences pattern rest + if pattern.isPrefixOf (c :: rest) then 1 else 0

section Counting

variable {pattern replacement : List Char}

theorem occurrences_cons (pattern : List Char) (c : Char) (rest : List Char) :
    occurrences pattern (c :: rest)
      = occurrences pattern rest + if pattern <+: c :: rest then 1 else 0 := by
  rw [occurrences]
  simp only [List.isPrefixOf_iff_prefix]

theorem occurrences_le_append (pattern before rest : List Char) :
    occurrences pattern rest ≤ occurrences pattern (before ++ rest) := by
  induction before with
  | nil => exact Nat.le_refl _
  | cons c before ih =>
      rw [List.cons_append, occurrences_cons]
      omega

theorem replaceFrom_append_of_occurrences {before rest : List Char}
    (none : occurrences pattern (before ++ rest) = occurrences pattern rest) :
    replaceFrom pattern replacement 0 (before ++ rest)
      = before ++ replaceFrom pattern replacement 0 rest := by
  induction before with
  | nil => rfl
  | cons c before ih =>
      have atLeast := occurrences_le_append pattern before rest
      rw [List.cons_append, occurrences_cons] at none
      have absent : ¬pattern <+: c :: (before ++ rest) := by
        intro found
        rw [if_pos found] at none
        omega
      rw [if_neg absent] at none
      rw [List.cons_append, replaceFrom_cons absent, ih none, List.cons_append]

/-- A text without the pattern is left as it is. -/
theorem replaceFrom_of_occurrences {text : List Char}
    (none : occurrences pattern text = 0) : replaceFrom pattern replacement 0 text = text := by
  have nowhere : occurrences pattern (text ++ []) = occurrences pattern [] := by
    rw [List.append_nil, none]
    rfl
  have kept : replaceFrom pattern replacement 0 (text ++ [])
      = text ++ replaceFrom pattern replacement 0 [] :=
    replaceFrom_append_of_occurrences nowhere
  rwa [replaceFrom_nil, List.append_nil] at kept

theorem replaceFrom_self (nonempty : pattern ≠ []) (text : List Char) :
    ∀ passed, replaceFrom pattern pattern passed text = text.drop passed := by
  obtain ⟨d, others, rfl⟩ := List.exists_cons_of_ne_nil nonempty
  induction text with
  | nil => intro passed; cases passed <;> rfl
  | cons c rest ih =>
      intro passed
      cases passed with
      | succ passed => exact ih passed
      | zero =>
          by_cases starts : d :: others <+: c :: rest
          · rw [replaceFrom, if_pos (List.isPrefixOf_iff_prefix.mpr starts), ih]
            obtain ⟨after, htext⟩ := starts
            obtain ⟨rfl, rfl⟩ := List.cons.inj htext
            simp
          · rw [replaceFrom_cons starts, ih]
            rfl

/-- The text changes in length by the replacements made, and none is made only where the pattern
does not stand. -/
theorem exists_length_replaceFrom (nonempty : pattern ≠ []) (replacement text : List Char) :
    ∃ times, (times = 0 → occurrences pattern text = 0)
      ∧ (replaceFrom pattern replacement 0 text).length + times * pattern.length
        = text.length + times * replacement.length := by
  by_cases starts : pattern <+: text
  · obtain ⟨rest, htext⟩ := starts
    have shorter : rest.length < text.length := by
      rw [← htext, List.length_append]
      exact Nat.lt_add_of_pos_left (List.length_pos_iff.mpr nonempty)
    obtain ⟨times, -, counted⟩ := exists_length_replaceFrom nonempty replacement rest
    refine ⟨times + 1, nofun, ?_⟩
    rw [← htext, replaceFrom_append_pattern nonempty, List.length_append, List.length_append,
      Nat.succ_mul, Nat.succ_mul]
    omega
  · cases text with
    | nil => exact ⟨0, fun _ => rfl, by rw [replaceFrom_nil, Nat.zero_mul, Nat.zero_mul]⟩
    | cons c rest =>
        obtain ⟨times, absent, counted⟩ := exists_length_replaceFrom nonempty replacement rest
        refine ⟨times, fun none => ?_, ?_⟩
        · rw [occurrences_cons, if_neg starts, absent none]
        · rw [replaceFrom_cons starts, List.length_cons, List.length_cons]
          omega
termination_by text.length

/-- A replacement of the same length is seen where it is made. -/
theorem eq_of_replaceFrom_eq_self (nonempty : pattern ≠ [])
    (same : replacement.length = pattern.length) {text : List Char}
    (kept : replaceFrom pattern replacement 0 text = text) :
    occurrences pattern text = 0 ∨ replacement = pattern := by
  induction text with
  | nil => exact .inl rfl
  | cons c rest ih =>
      by_cases starts : pattern <+: c :: rest
      · obtain ⟨after, htext⟩ := starts
        rw [← htext, replaceFrom_append_pattern nonempty] at kept
        exact .inr (List.append_inj_left kept same)
      · rw [replaceFrom_cons starts] at kept
        refine (ih (List.cons.inj kept).2).imp_left fun none => ?_
        rw [occurrences_cons, if_neg starts, none]

/-- **A text is left as it is exactly if the pattern does not stand in it**, or is replaced by
itself. -/
theorem replaceFrom_eq_self_iff (nonempty : pattern ≠ []) {text : List Char} :
    replaceFrom pattern replacement 0 text = text
      ↔ occurrences pattern text = 0 ∨ replacement = pattern := by
  refine ⟨fun kept => ?_, ?_⟩
  · obtain ⟨times, absent, counted⟩ := exists_length_replaceFrom nonempty replacement text
    rw [kept, Nat.add_left_cancel_iff] at counted
    rcases Nat.eq_zero_or_pos times with none | some
    · exact .inl (absent none)
    · exact eq_of_replaceFrom_eq_self nonempty (Nat.eq_of_mul_eq_mul_left some counted.symm) kept
  · rintro (none | rfl)
    · exact replaceFrom_of_occurrences none
    · exact replaceFrom_self nonempty text 0

/-- No pattern starts in a text without its first character. -/
theorem occurrences_append_of_notMem {lead : Char} {others before : List Char}
    (absent : lead ∉ before) (rest : List Char) :
    occurrences (lead :: others) (before ++ rest) = occurrences (lead :: others) rest := by
  induction before with
  | nil => rfl
  | cons c before ih =>
      obtain ⟨other, absentRest⟩ := not_or.mp (mt List.mem_cons.mpr absent)
      have nowhere : ¬lead :: others <+: c :: (before ++ rest) :=
        fun found => other (List.cons_prefix_cons.mp found).1
      rw [List.cons_append, occurrences_cons, if_neg nowhere, Nat.add_zero, ih absentRest]

end Counting

/-! ### Placeholders -/

theorem placeholder_eq (number : Nat) :
    placeholder number = '\x7b' :: (Nat.toDigits 10 number ++ ['\x7d']) := by
  rw [placeholder, Nat.toString_eq_repr, Nat.toList_repr, List.cons_append]

theorem placeholder_ne_nil (number : Nat) : placeholder number ≠ [] := by
  rw [placeholder_eq]
  exact List.cons_ne_nil _ _

theorem isDigit_of_mem_toDigits {number : Nat} {c : Char} (inside : c ∈ Nat.toDigits 10 number) :
    c.isDigit = true :=
  Nat.isDigit_of_mem_toDigits (by decide) (by decide) inside

/-- The number of the placeholder that a text starts with. -/
def leadingHole? : List Char → Option Nat
  | [] => none
  | c :: rest =>
    let number := Nat.ofDigitChars 10 (rest.takeWhile Char.isDigit) 0
    if (placeholder number).isPrefixOf (c :: rest) then some number else none

theorem leadingHole?_eq_some_iff {text : List Char} {number : Nat} :
    leadingHole? text = some number ↔ placeholder number <+: text := by
  cases text with
  | nil => simp [leadingHole?, placeholder_ne_nil]
  | cons c rest =>
      rw [leadingHole?]
      refine ⟨fun found => ?_, fun starts => ?_⟩
      · obtain ⟨starts, same⟩ := Option.ite_none_right_eq_some.mp found
        rw [Option.some.inj same] at starts
        exact List.isPrefixOf_iff_prefix.mp starts
      · have same : Nat.ofDigitChars 10 (rest.takeWhile Char.isDigit) 0 = number := by
          obtain ⟨after, htext⟩ := starts
          rw [placeholder_eq, List.cons_append] at htext
          obtain ⟨-, rfl⟩ := List.cons.inj htext
          rw [List.append_assoc, List.takeWhile_append_of_pos fun _ => isDigit_of_mem_toDigits,
            List.singleton_append, List.takeWhile_cons_of_neg (by decide), List.append_nil]
          exact Nat.ofDigitChars_toDigits (by decide) (by decide)
        simp only [same]
        exact if_pos (List.isPrefixOf_iff_prefix.mpr starts)

/-- A text starts with one placeholder at most. -/
theorem prefix_placeholder_iff {number other : Nat} {rest : List Char} :
    placeholder number <+: placeholder other ++ rest ↔ other = number := by
  rw [← leadingHole?_eq_some_iff,
    leadingHole?_eq_some_iff.mpr (List.prefix_append (placeholder other) rest), Option.some.injEq]

/-- A placeholder stands in another one only if it is the same. -/
theorem occurrences_placeholder_append (number other : Nat) (rest : List Char) :
    occurrences (placeholder number) (placeholder other ++ rest)
      = occurrences (placeholder number) rest + if other = number then 1 else 0 := by
  have starts : placeholder number <+: placeholder other ++ rest ↔ other = number :=
    prefix_placeholder_iff
  have inside : '\x7b' ∉ Nat.toDigits 10 other ++ ['\x7d'] := by
    intro hmem
    rcases List.mem_append.mp hmem with hdigit | hlast
    · exact absurd (isDigit_of_mem_toDigits hdigit) (by decide)
    · exact absurd (List.mem_singleton.mp hlast) (by decide)
  rw [placeholder_eq other, List.cons_append] at starts ⊢
  rw [occurrences_cons]
  simp only [starts]
  rw [placeholder_eq number, occurrences_append_of_notMem inside]

theorem replaceFrom_placeholder {number other : Nat} (apart : other ≠ number)
    (replacement : List Char) :
    replaceFrom (placeholder number) replacement 0 (placeholder other) = placeholder other := by
  have none := occurrences_placeholder_append number other []
  rw [List.append_nil, if_neg apart] at none
  exact replaceFrom_of_occurrences none

/-! ### Templates as rows of pieces -/

/-- A piece of a template. -/
inductive Piece where
  | plain (c : Char)
  /-- The placeholder of the argument with a number. -/
  | hole (number : Nat)
  deriving DecidableEq, Repr

/-- The text of a piece, by what stands in the holes. -/
def Piece.text (standing : Nat → List Char) : Piece → List Char
  | .plain c => [c]
  | .hole number => standing number

/-- The text of a row of pieces, by what stands in the holes. -/
def written (standing : Nat → List Char) (pieces : List Piece) : List Char :=
  pieces.flatMap (·.text standing)

/-- Reads a text into pieces.  The counter says how many characters of the last placeholder
are still to be passed over. -/
def piecesFrom : Nat → List Char → List Piece
  | _, [] => []
  | passed + 1, _ :: rest => piecesFrom passed rest
  | 0, c :: rest =>
    match leadingHole? (c :: rest) with
    | some number => .hole number :: piecesFrom ((placeholder number).length - 1) rest
    | none => .plain c :: piecesFrom 0 rest

/-- The pieces of a template: each placeholder in it is a hole, and all else is plain. -/
def piecesOf (template : String) : List Piece :=
  piecesFrom 0 template.toList

/-- What stands in a hole when some arguments are given: the argument with its number, or
the placeholder itself where there is none. -/
def filling (arguments : List String) (number : Nat) : List Char :=
  match arguments[number]? with
  | some argument => argument.toList
  | none => placeholder number

/-- The template with the arguments put in, all at once. -/
def fillAtOnce (template : String) (arguments : List String) : String :=
  String.ofList (written (filling arguments) (piecesOf template))

@[simp] theorem written_nil (standing : Nat → List Char) : written standing [] = [] :=
  rfl

@[simp] theorem written_cons (standing : Nat → List Char) (piece : Piece) (rest : List Piece) :
    written standing (piece :: rest) = piece.text standing ++ written standing rest :=
  rfl

theorem written_append (standing : Nat → List Char) (front back : List Piece) :
    written standing (front ++ back) = written standing front ++ written standing back :=
  List.flatMap_append

theorem drop_of_leadingHole? {c : Char} {rest : List Char} {number : Nat}
    (found : leadingHole? (c :: rest) = some number) :
    c :: rest = placeholder number ++ rest.drop ((placeholder number).length - 1) := by
  obtain ⟨after, htext⟩ := leadingHole?_eq_some_iff.mp found
  obtain ⟨d, others, hplaceholder⟩ := List.exists_cons_of_ne_nil (placeholder_ne_nil number)
  rw [hplaceholder, List.cons_append] at htext
  obtain ⟨rfl, rfl⟩ := List.cons.inj htext
  simp [hplaceholder]

/-- **Reading loses nothing.** -/
theorem written_piecesFrom (text : List Char) :
    ∀ passed, written placeholder (piecesFrom passed text) = text.drop passed := by
  induction text with
  | nil => intro passed; cases passed <;> rfl
  | cons c rest ih =>
      intro passed
      cases passed with
      | succ passed => exact ih passed
      | zero =>
          rw [piecesFrom]
          cases found : leadingHole? (c :: rest) with
          | none => exact congrArg (c :: ·) (ih 0)
          | some number =>
              rw [written_cons, ih, List.drop_zero, drop_of_leadingHole? found]
              rfl

/-- **Each placeholder in a template is read as a hole.** -/
theorem count_hole_piecesFrom (number : Nat) (text : List Char) :
    ∀ passed, (piecesFrom passed text).count (.hole number)
      = occurrences (placeholder number) (text.drop passed) := by
  induction text with
  | nil =>
      intro passed
      cases passed <;> rfl
  | cons c rest ih =>
      intro passed
      cases passed with
      | succ passed => exact ih passed
      | zero =>
          rw [piecesFrom, List.drop_zero]
          cases found : leadingHole? (c :: rest) with
          | none =>
              have absent : ¬placeholder number <+: c :: rest := by
                rw [← leadingHole?_eq_some_iff, found]
                exact (Option.some_ne_none number).symm
              rw [occurrences_cons, if_neg absent]
              exact (List.count_cons_of_ne (fun same => Piece.noConfusion same)).trans (ih 0)
          | some other =>
              rw [drop_of_leadingHole? found, occurrences_placeholder_append, List.count_cons, ih]
              simp

theorem written_piecesOf (template : String) :
    written placeholder (piecesOf template) = template.toList := by
  rw [piecesOf, written_piecesFrom, List.drop_zero]

theorem count_hole_piecesOf (number : Nat) (template : String) :
    (piecesOf template).count (.hole number)
      = occurrences (placeholder number) template.toList := by
  rw [piecesOf, count_hole_piecesFrom, List.drop_zero]

end MemberResolution
