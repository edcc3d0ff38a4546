/-
Filling placeholders one after another and all at once.

A message is made by replacing `{0}` in its template, then `{1}` in what has come of it, and
so on.  That fills each hole of the template with the argument it is for, as long as filling
in an argument brings no placeholder of a later one into the text, be it inside the argument
or where it meets the text around it.  The invariant of the walk through the arguments is
that the text is the template with the arguments so far filled in at once; what carries it on
is that the next placeholder stands as often in the text as the template has holes for it.

In a template whose holes stand apart, between characters that belong to no placeholder,
nothing can meet.  There it is known without any condition what a message says:
`formatMessage_of_standsApart` puts into each hole its argument, in which the placeholders
of the later arguments are filled.  Whether this makes a difference can be read off the text
(`written_eq_written_iff`), and for two arguments it is told by the first one
(`formatMessage_pair_iff`).
-/
import MemberResolution.Proofs.Placeholders
import Mathlib.Logic.Function.Basic

namespace MemberResolution

/-! ### One after another, where nothing is brought in -/

/-- A piece that is no hole with a number does not tell apart what stands in these holes. -/
theorem Piece.text_of_ne {number : Nat} {standing other : Nat → List Char}
    (same : ∀ hole, hole ≠ number → standing hole = other hole) {piece : Piece}
    (foreign : piece ≠ .hole number) : piece.text standing = piece.text other := by
  cases piece with
  | plain c => rfl
  | hole hole => exact same hole fun hsame => foreign (congrArg Piece.hole hsame)

section Counted

variable {number : Nat} {standing : Nat → List Char}

theorem count_hole_le_occurrences (own : standing number = placeholder number)
    (pieces : List Piece) :
    pieces.count (.hole number) ≤ occurrences (placeholder number) (written standing pieces) := by
  induction pieces with
  | nil => exact Nat.zero_le _
  | cons piece rest ih =>
      rw [written_cons]
      by_cases same : piece = .hole number
      · subst same
        rw [List.count_cons_self, Piece.text, own, occurrences_placeholder_append, if_pos rfl]
        exact Nat.succ_le_succ ih
      · rw [List.count_cons_of_ne same]
        exact Nat.le_trans ih (occurrences_le_append _ _ _)

/-- **Where a placeholder stands in its holes only, replacing it fills them** and changes
nothing else. -/
theorem replaceFrom_written (own : standing number = placeholder number)
    (argument : List Char) {pieces : List Piece}
    (only : occurrences (placeholder number) (written standing pieces)
      = pieces.count (.hole number)) :
    replaceFrom (placeholder number) argument 0 (written standing pieces)
      = written (Function.update standing number argument) pieces := by
  induction pieces with
  | nil => rfl
  | cons piece rest ih =>
      rw [written_cons] at only
      rw [written_cons, written_cons]
      by_cases same : piece = .hole number
      · subst same
        rw [List.count_cons_self, Piece.text, own, occurrences_placeholder_append, if_pos rfl]
          at only
        rw [Piece.text, Piece.text, own, Function.update_self,
          replaceFrom_append_pattern (placeholder_ne_nil number), ih (Nat.succ.inj only)]
      · have atLeast := count_hole_le_occurrences own rest
        have further := occurrences_le_append (placeholder number) (piece.text standing)
          (written standing rest)
        rw [List.count_cons_of_ne same] at only
        have kept : piece.text (Function.update standing number argument)
            = piece.text standing :=
          Piece.text_of_ne (fun _ different => Function.update_of_ne different _ _) same
        rw [replaceFrom_append_of_occurrences (by omega), ih (by omega), kept]

end Counted

/-- Filling in the arguments before it brings in no placeholder of an argument that the
template does not have. -/
def BringsNothingIn (template : String) (arguments : List String) : Prop :=
  ∀ number < arguments.length,
    occurrences (placeholder number) (fillAtOnce template (arguments.take number)).toList
      = occurrences (placeholder number) template.toList

instance (template : String) (arguments : List String) :
    Decidable (BringsNothingIn template arguments) :=
  inferInstanceAs (Decidable (∀ number < arguments.length, _))

/-- One more argument fills the holes with its number. -/
theorem filling_concat (earlier : List String) (argument : String) :
    filling (earlier ++ [argument])
      = Function.update (filling earlier) earlier.length argument.toList := by
  funext number
  unfold filling
  rcases Nat.lt_trichotomy number earlier.length with before | rfl | after
  · rw [Function.update_of_ne (Nat.ne_of_lt before), List.getElem?_append_left before]
  · rw [Function.update_self, List.getElem?_concat_length]
  · have beyond : (earlier ++ [argument]).length ≤ number := by
      rw [List.length_append, List.length_singleton]
      exact after
    rw [Function.update_of_ne (Nat.ne_of_gt after), List.getElem?_eq_none beyond,
      List.getElem?_eq_none (Nat.le_of_lt after)]

theorem filling_length (earlier : List String) :
    filling earlier earlier.length = placeholder earlier.length := by
  unfold filling
  rw [List.getElem?_eq_none (Nat.le_refl _)]

/-- **Filling one argument after another is filling them all at once**, as long as each finds
its placeholder in its holes only. -/
theorem fillFrom_written (pieces : List Piece) :
    ∀ later earlier : List String,
      (∀ front rest, later = front ++ rest → rest ≠ [] →
        occurrences (placeholder (earlier ++ front).length)
            (written (filling (earlier ++ front)) pieces)
          = pieces.count (.hole (earlier ++ front).length)) →
      fillFrom earlier.length (written (filling earlier) pieces) later
        = written (filling (earlier ++ later)) pieces := by
  intro later
  induction later with
  | nil =>
      intro earlier _
      rw [List.append_nil]
      rfl
  | cons argument later ih =>
      intro earlier only
      have first := only [] (argument :: later) rfl (List.cons_ne_nil _ _)
      rw [List.append_nil] at first
      have next := ih (earlier ++ [argument]) fun front rest split nonempty => by
        rw [List.append_assoc]
        exact only (argument :: front) rest (congrArg (argument :: ·) split) nonempty
      rw [List.length_append, List.length_singleton, List.append_assoc] at next
      rw [fillFrom, replaceFrom_written (filling_length earlier) _ first, ← filling_concat]
      exact next

theorem formatMessage_eq_fillAtOnce {template : String} {arguments : List String}
    (nothing : BringsNothingIn template arguments) :
    formatMessage template arguments = fillAtOnce template arguments := by
  have whole : written (filling []) (piecesOf template) = template.toList :=
    written_piecesOf template
  unfold formatMessage fillAtOnce
  rw [← whole]
  refine congrArg String.ofList (fillFrom_written _ arguments [] fun front rest split nonempty => ?_)
  subst split
  have counted := nothing front.length (by
    rw [List.length_append]
    exact Nat.lt_add_of_pos_right (List.length_pos_iff.mpr nonempty))
  rw [List.take_left, fillAtOnce, String.toList_ofList] at counted
  rw [List.nil_append, counted, count_hole_piecesOf]

/-! ### One after another, where holes stand apart -/

/-- Whether a character may stand in a placeholder. -/
def isPartOfPlaceholder (c : Char) : Bool :=
  c == '\x7b' || c == '\x7d' || c.isDigit

/-- No plain character may stand in a placeholder, and of two holes next to each other there
are none. -/
def standsApart : List Piece → Bool
  | [] => true
  | .plain c :: rest => !isPartOfPlaceholder c && standsApart rest
  | [.hole _] => true
  | .hole _ :: .plain c :: rest => !isPartOfPlaceholder c && standsApart rest
  | .hole _ :: .hole _ :: _ => false

theorem notMem_placeholder {c : Char} (foreign : isPartOfPlaceholder c = false) (number : Nat) :
    c ∉ placeholder number := by
  unfold isPartOfPlaceholder at foreign
  simp only [Bool.or_eq_false_iff, beq_eq_false_iff_ne] at foreign
  obtain ⟨⟨notOpening, notClosing⟩, notDigit⟩ := foreign
  rw [placeholder_eq, List.mem_cons, List.mem_append, List.mem_singleton, not_or, not_or]
  refine ⟨notOpening, fun inside => ?_, notClosing⟩
  rw [isDigit_of_mem_toDigits inside] at notDigit
  cases notDigit

/-- **A placeholder is replaced in each hole apart.** -/
theorem replaceFrom_of_standsApart (number : Nat) (argument : List Char)
    (standing : Nat → List Char) {pieces : List Piece} (apart : standsApart pieces = true) :
    replaceFrom (placeholder number) argument 0 (written standing pieces)
      = written (fun hole => replaceFrom (placeholder number) argument 0 (standing hole))
          pieces := by
  have plainFirst : ∀ {c : Char}, isPartOfPlaceholder c = false → ∀ text rest : List Char,
      replaceFrom (placeholder number) argument 0 (text ++ c :: rest)
        = replaceFrom (placeholder number) argument 0 text
          ++ c :: replaceFrom (placeholder number) argument 0 rest :=
    fun foreign text rest => replaceFrom_append_foreign (notMem_placeholder foreign number)
      (placeholder_ne_nil number) rest text 0 (Nat.zero_le _)
  fun_induction standsApart pieces with
  | case1 => rfl
  | case2 c rest ih =>
      obtain ⟨foreign, apartRest⟩ := Bool.and_eq_true_iff.mp apart
      rw [Bool.not_eq_true'] at foreign
      exact (plainFirst foreign [] _).trans (congrArg (c :: ·) (ih apartRest))
  | case3 hole => simp [Piece.text]
  | case4 hole c rest ih =>
      obtain ⟨foreign, apartRest⟩ := Bool.and_eq_true_iff.mp apart
      rw [Bool.not_eq_true'] at foreign
      simp only [written_cons, Piece.text, List.singleton_append]
      rw [plainFirst foreign, ih apartRest]
  | case5 => cases apart

theorem fillFrom_of_standsApart {pieces : List Piece} (apart : standsApart pieces = true) :
    ∀ (arguments : List String) (number : Nat) (standing : Nat → List Char),
      fillFrom number (written standing pieces) arguments
        = written (fun hole => fillFrom number (standing hole) arguments) pieces := by
  intro arguments
  induction arguments with
  | nil => intro number standing; rfl
  | cons argument rest ih =>
      intro number standing
      rw [fillFrom, replaceFrom_of_standsApart number _ standing apart, ih]
      rfl

/-- Arguments from a number on, in each of which the placeholders of those after it are
filled. -/
def settledFrom (number : Nat) : List String → List String
  | [] => []
  | argument :: rest =>
    String.ofList (fillFrom (number + 1) argument.toList rest) :: settledFrom (number + 1) rest

/-- The arguments, in each of which the placeholders of the later ones are filled. -/
def settled (arguments : List String) : List String :=
  settledFrom 0 arguments

theorem fillFrom_placeholder : ∀ (arguments : List String) (number place : Nat),
    fillFrom number (placeholder (number + place)) arguments
      = match (settledFrom number arguments)[place]? with
        | some argument => argument.toList
        | none => placeholder (number + place) := by
  intro arguments
  induction arguments with
  | nil => intro number place; rfl
  | cons argument rest ih =>
      intro number place
      rw [fillFrom, settledFrom]
      cases place with
      | zero =>
          simp only [Nat.add_zero, replaceFrom_pattern (placeholder_ne_nil number),
            List.getElem?_cons_zero, String.toList_ofList]
      | succ place =>
          rw [replaceFrom_placeholder (by omega), List.getElem?_cons_succ,
            show number + (place + 1) = number + 1 + place by omega]
          exact ih (number + 1) place

/-- **Where holes stand apart, a message has in each hole the settled argument.** -/
theorem formatMessage_of_standsApart {template : String}
    (apart : standsApart (piecesOf template) = true) (arguments : List String) :
    formatMessage template arguments = fillAtOnce template (settled arguments) := by
  have holes : (fun hole => fillFrom 0 (placeholder hole) arguments)
      = filling (settled arguments) := by
    funext hole
    have filled := fillFrom_placeholder arguments 0 hole
    rw [Nat.zero_add] at filled
    exact filled
  unfold formatMessage fillAtOnce
  rw [← written_piecesOf, fillFrom_of_standsApart apart, holes]

/-- No argument holds the placeholder of a later one. -/
def HoldsNoLater (arguments : List String) : Prop :=
  ∀ later < arguments.length, ∀ argument ∈ arguments.take later,
    occurrences (placeholder later) argument.toList = 0

instance (arguments : List String) : Decidable (HoldsNoLater arguments) :=
  inferInstanceAs (Decidable (∀ later < arguments.length, _))

theorem fillFrom_of_occurrences {text : List Char} :
    ∀ (arguments : List String) (number : Nat),
      (∀ place < arguments.length, occurrences (placeholder (number + place)) text = 0) →
      fillFrom number text arguments = text := by
  intro arguments
  induction arguments with
  | nil => intro number _; rfl
  | cons argument rest ih =>
      intro number none
      have first : occurrences (placeholder number) text = 0 := none 0 (Nat.succ_pos _)
      rw [fillFrom, replaceFrom_of_occurrences first]
      refine ih (number + 1) fun place short => ?_
      rw [Nat.add_right_comm]
      exact none (place + 1) (Nat.succ_lt_succ short)

theorem settledFrom_eq_self : ∀ (arguments : List String) (number : Nat),
    (∀ later < arguments.length, ∀ argument ∈ arguments.take later,
      occurrences (placeholder (number + later)) argument.toList = 0) →
    settledFrom number arguments = arguments := by
  intro arguments
  induction arguments with
  | nil => intro number _; rfl
  | cons argument rest ih =>
      intro number none
      have first : fillFrom (number + 1) argument.toList rest = argument.toList := by
        refine fillFrom_of_occurrences rest (number + 1) fun place short => ?_
        rw [Nat.add_right_comm]
        exact none (place + 1) (Nat.succ_lt_succ short) argument List.mem_cons_self
      rw [settledFrom, first, String.ofList_toList, ih (number + 1) fun later short other hmem => ?_]
      rw [Nat.add_right_comm]
      exact none (later + 1) (Nat.succ_lt_succ short) other (List.mem_cons_of_mem _ hmem)

/-- Arguments without placeholders of later ones are settled. -/
theorem HoldsNoLater.settled_eq {arguments : List String} (none : HoldsNoLater arguments) :
    settled arguments = arguments := by
  refine settledFrom_eq_self arguments 0 fun later short argument hmem => ?_
  rw [Nat.zero_add]
  exact none later short argument hmem

/-! ### When two arguments are put in all at once -/

section Compared

variable {number : Nat} {standing other : Nat → List Char}

/-- What is written changes in length as often as a hole has the number. -/
theorem length_written (same : ∀ hole, hole ≠ number → standing hole = other hole)
    (pieces : List Piece) :
    (written standing pieces).length + pieces.count (.hole number) * (other number).length
      = (written other pieces).length + pieces.count (.hole number) * (standing number).length := by
  induction pieces with
  | nil => simp
  | cons piece rest ih =>
      rw [written_cons, written_cons, List.length_append, List.length_append]
      by_cases own : piece = .hole number
      · subst own
        rw [List.count_cons_self, Nat.succ_mul, Nat.succ_mul, Piece.text, Piece.text]
        omega
      · rw [List.count_cons_of_ne own, Piece.text_of_ne same own]
        omega

/-- **What is put into one hole can be read back** from what is written. -/
theorem written_eq_written_iff (same : ∀ hole, hole ≠ number → standing hole = other hole)
    {pieces : List Piece} (has : .hole number ∈ pieces) :
    written standing pieces = written other pieces ↔ standing number = other number := by
  refine ⟨fun whole => ?_, fun own => ?_⟩
  · have long : (standing number).length = (other number).length := by
      have counted := length_written same pieces
      rw [whole, Nat.add_left_cancel_iff] at counted
      exact (Nat.eq_of_mul_eq_mul_left (List.count_pos_iff.mpr has) counted).symm
    have piecewise : ∀ piece : Piece,
        (piece.text standing).length = (piece.text other).length := by
      intro piece
      by_cases own : piece = .hole number
      · subst own
        exact long
      · exact congrArg List.length (Piece.text_of_ne same own)
    induction pieces with
    | nil => cases has
    | cons piece rest ih =>
        obtain ⟨here, further⟩ := List.append_inj whole (piecewise piece)
        rcases List.mem_cons.mp has with rfl | later
        · exact here
        · exact ih later further
  · have all : standing = other := by
      funext hole
      by_cases hsame : hole = number
      · subst hsame
        exact own
      · exact same hole hsame
    rw [all]

end Compared

/-- **Two arguments are put in all at once exactly if the first does not hold the placeholder of
the second**, or the second is this placeholder. -/
theorem formatMessage_pair_iff {template : String}
    (apart : standsApart (piecesOf template) = true) (has : .hole 0 ∈ piecesOf template)
    (first second : String) :
    formatMessage template [first, second] = fillAtOnce template [first, second]
      ↔ occurrences (placeholder 1) first.toList = 0 ∨ second.toList = placeholder 1 := by
  have others : ∀ hole, hole ≠ 0 →
      filling (settled [first, second]) hole = filling [first, second] hole := by
    rintro (_ | _ | hole) later
    · exact absurd rfl later
    · exact String.toList_ofList
    · rfl
  have own : filling (settled [first, second]) 0
      = replaceFrom (placeholder 1) second.toList 0 first.toList :=
    String.toList_ofList
  rw [formatMessage_of_standsApart apart]
  unfold fillAtOnce
  rw [String.ofList_inj, written_eq_written_iff others has, own]
  exact replaceFrom_eq_self_iff (placeholder_ne_nil 1)

end MemberResolution
