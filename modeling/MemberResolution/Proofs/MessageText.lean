/-
What the texts of diagnostics and errors say.

In the templates of all messages the holes stand apart, so a message says in each hole what
its argument becomes once the placeholders of later arguments are filled in it
(`render_eq_fillAtOnce`).  An argument that holds no such placeholder is told as it is; one
that does is not, and `formatMessage_rescans_slotName` shows a signature that is garbled in
this way.

The short form of a message ends at the last place where its stem stands.  That place is in
the template and not in a name, for nothing comes after the holes but the end of the
sentence.  So the short form lacks this end and nothing else, whatever the names are.
-/
import MemberResolution.ConfigurationError
import MemberResolution.Proofs.Buildable
import MemberResolution.Proofs.Filling
import MemberResolution.Session
import Mathlib.Data.List.Basic

namespace MemberResolution

/-! ### All at once -/

/-- How many arguments a message takes. -/
def Message.arity : Message → Nat
  | .memberRefused | .externalTypeMissing | .untranslatable => 1
  | .externalMethodMissing | .proxyTargetTypeMissing | .inheritanceTooDeep => 2
  | .proxyTargetMemberMissing | .proxyTargetAmbiguous => 3

theorem Message.arity_pos (message : Message) : 0 < message.arity := by
  cases message <;> decide

/-- In every template the holes stand apart, and there is one for each argument. -/
theorem Message.pieces_template (message : Message) :
    standsApart (piecesOf message.template) = true
      ∧ ∀ place < message.arity, .hole place ∈ piecesOf message.template := by
  cases message <;> decide +kernel

/-- **A message says in each hole the settled argument.** -/
theorem Message.render_eq_fillAtOnce (message : Message) (arguments : List String) :
    message.render arguments = fillAtOnce message.template (settled arguments) :=
  formatMessage_of_standsApart message.pieces_template.1 arguments

theorem ReferenceDiagnostic.length_arguments (diagnostic : ReferenceDiagnostic) :
    diagnostic.arguments.length = diagnostic.message.arity := by
  cases diagnostic <;> rfl

theorem ConfigurationError.length_arguments (error : ConfigurationError) :
    error.arguments.length = error.message.arity := by
  cases error <;> rfl

theorem length_settledFrom (number : Nat) (arguments : List String) :
    (settledFrom number arguments).length = arguments.length := by
  induction arguments generalizing number with
  | nil => rfl
  | cons argument rest ih => exact congrArg (· + 1) (ih (number + 1))

theorem length_settled (arguments : List String) :
    (settled arguments).length = arguments.length :=
  length_settledFrom 0 arguments

theorem infix_written {arguments : List String} {pieces : List Piece}
    (holes : ∀ place < arguments.length, .hole place ∈ pieces) {name : String}
    (hmem : name ∈ arguments) : name.toList <:+: written (filling arguments) pieces := by
  obtain ⟨place, short, found⟩ := List.mem_iff_getElem.mp hmem
  have told : filling arguments place = name.toList := by
    unfold filling
    rw [List.getElem?_eq_getElem short, found]
  rw [← told]
  unfold written
  rw [List.flatMap_def]
  exact List.infix_of_mem_flatten (List.mem_map_of_mem (holes place short))

theorem Message.infix_render (message : Message) {arguments : List String}
    (all : arguments.length = message.arity) :
    ∀ name ∈ settled arguments, name.toList <:+: (message.render arguments).toList := by
  intro name hmem
  rw [render_eq_fillAtOnce, fillAtOnce, String.toList_ofList]
  refine infix_written (fun place short => message.pieces_template.2 place ?_) hmem
  rwa [length_settled, all] at short

/-! ### The short form -/

/-- The text up to the end of the last stem is what stands before it with the stem, if what
comes after has no other. -/
theorem throughLast?_append {stem back : List Char} (nonempty : stem ≠ [])
    (last : throughLast? stem (stem ++ back).tail = none) (front : List Char) :
    throughLast? stem (front ++ (stem ++ back)) = some (front ++ stem) := by
  induction front with
  | nil =>
      obtain ⟨c, others, rfl⟩ := List.exists_cons_of_ne_nil nonempty
      rw [List.cons_append, List.tail_cons] at last
      rw [List.nil_append, List.cons_append, throughLast?, last]
      exact if_pos (List.isPrefixOf_iff_prefix.mpr (List.prefix_append (c :: others) back))
  | cons c front ih => rw [List.cons_append, throughLast?, ih]; rfl

/-- How a message goes on after its stem. -/
def tailOfMissing : String := " been implemented."

theorem cutAtStem_append (front : List Char) :
    cutAtStem (String.ofList (front ++ (unimplementedStem.toList ++ tailOfMissing.toList)))
      = String.ofList (front ++ unimplementedStem.toList) := by
  unfold cutAtStem
  rw [String.toList_ofList, throughLast?_append (by decide) (by decide +kernel)]

/-- A text without placeholders, as a row of pieces. -/
def plainPieces (text : String) : List Piece :=
  text.toList.map .plain

theorem written_plainPieces (standing : Nat → List Char) (text : String) :
    written standing (plainPieces text) = text.toList := by
  unfold written plainPieces
  rw [List.flatMap_map]
  exact List.flatMap_singleton' _

/-- A template that says what is missing ends with the stem and the tail, after its holes. -/
theorem Message.exists_pieces_of_missing {message : Message}
    (missing : message = .externalMethodMissing ∨ message = .externalTypeMissing) :
    ∃ front, piecesOf message.template
        = front ++ (plainPieces unimplementedStem ++ plainPieces tailOfMissing)
      ∧ ∀ place < message.arity, .hole place ∈ front := by
  rcases missing with rfl | rfl
  · refine ⟨piecesOf "The external method '\x7b0\x7d' of type '\x7b1\x7d' ", ?_⟩
    decide +kernel
  · refine ⟨piecesOf "The external type '\x7b0\x7d' ", ?_⟩
    decide +kernel

namespace ReferenceDiagnostic

theorem message_of_hasShortForm {diagnostic : ReferenceDiagnostic}
    (short : diagnostic.hasShortForm = true) :
    diagnostic.message = .externalMethodMissing ∨ diagnostic.message = .externalTypeMissing := by
  cases diagnostic with
  | refused signature => cases short
  | untranslatable signature => cases short
  | externalMethod signature typeName => exact .inl rfl
  | externalType typeName => exact .inr rfl

/-- **The whole text and the short form have one beginning**, which shows all names. -/
theorem exists_front_of_hasShortForm {diagnostic : ReferenceDiagnostic}
    (short : diagnostic.hasShortForm = true) :
    ∃ front : List Char,
      diagnostic.render true
          = String.ofList (front ++ (unimplementedStem.toList ++ tailOfMissing.toList))
        ∧ diagnostic.render false = String.ofList (front ++ unimplementedStem.toList)
        ∧ ∀ name ∈ settled diagnostic.arguments, name.toList <:+: front := by
  obtain ⟨front, hpieces, holes⟩ := Message.exists_pieces_of_missing (message_of_hasShortForm short)
  have whole : diagnostic.message.render diagnostic.arguments
      = String.ofList (written (filling (settled diagnostic.arguments)) front
          ++ (unimplementedStem.toList ++ tailOfMissing.toList)) := by
    rw [Message.render_eq_fillAtOnce, fillAtOnce, hpieces, written_append, written_append,
      written_plainPieces, written_plainPieces]
  refine ⟨written (filling (settled diagnostic.arguments)) front, ?_, ?_, fun name hmem => ?_⟩
  · unfold render
    rw [short, whole]
    rfl
  · unfold render
    rw [short, whole]
    exact cutAtStem_append _
  · refine infix_written (fun place hplace => holes place ?_) hmem
    rwa [length_settled, length_arguments] at hplace

theorem render_of_not_hasShortForm {diagnostic : ReferenceDiagnostic}
    (long : diagnostic.hasShortForm = false) (complete : Bool) :
    diagnostic.render complete = diagnostic.message.render diagnostic.arguments := by
  unfold render
  rw [long]
  rfl

theorem render_true_of_hasShortForm {diagnostic : ReferenceDiagnostic}
    (short : diagnostic.hasShortForm = true) :
    diagnostic.render true = diagnostic.render false ++ tailOfMissing
      ∧ unimplementedStem.toList <:+ (diagnostic.render false).toList := by
  obtain ⟨front, whole, cut, -⟩ := exists_front_of_hasShortForm short
  rw [whole, cut]
  refine ⟨String.toList_inj.mp ?_, ?_⟩
  · simp only [String.toList_append, String.toList_ofList, List.append_assoc]
  · rw [String.toList_ofList]
    exact List.suffix_append _ _

/--
**The short form lacks the end of the sentence and nothing else.**  A diagnostic that
something has not been implemented ends with the stem in its short form, whatever the names
in it are, and goes on from there in its whole form.  Any other diagnostic has one form.
-/
theorem render_short :
    (∀ signature typeName, let diagnostic := externalMethod signature typeName
        diagnostic.render true = diagnostic.render false ++ " been implemented."
          ∧ "has not".toList <:+ (diagnostic.render false).toList)
      ∧ (∀ typeName, let diagnostic := externalType typeName
        diagnostic.render true = diagnostic.render false ++ " been implemented."
          ∧ "has not".toList <:+ (diagnostic.render false).toList)
      ∧ (∀ signature, (refused signature).render false = (refused signature).render true)
      ∧ ∀ signature, (untranslatable signature).render false
          = (untranslatable signature).render true :=
  ⟨fun _ _ => render_true_of_hasShortForm rfl, fun _ => render_true_of_hasShortForm rfl,
    fun _ => rfl, fun _ => rfl⟩

/-! ### Names -/

/-- **A rendered diagnostic shows every name in it**, settled. -/
theorem infix_render (diagnostic : ReferenceDiagnostic) (complete : Bool) :
    ∀ name ∈ settled diagnostic.arguments, name.toList <:+: (diagnostic.render complete).toList := by
  intro name hmem
  cases short : diagnostic.hasShortForm with
  | true =>
      obtain ⟨front, whole, cut, shown⟩ := exists_front_of_hasShortForm short
      cases complete with
      | true =>
          rw [whole, String.toList_ofList]
          exact (shown name hmem).trans (List.prefix_append _ _).isInfix
      | false =>
          rw [cut, String.toList_ofList]
          exact (shown name hmem).trans (List.prefix_append _ _).isInfix
  | false =>
      rw [render_of_not_hasShortForm short]
      exact diagnostic.message.infix_render diagnostic.length_arguments name hmem

end ReferenceDiagnostic

/-- **A rendered configuration error shows every name in it**, settled. -/
theorem ConfigurationError.infix_render (error : ConfigurationError) :
    ∀ name ∈ settled error.arguments, name.toList <:+: error.render.toList :=
  error.message.infix_render error.length_arguments

/--
**When a message has its arguments put in all at once.**  It does if filling in an argument
brings in no placeholder of a later one.  Without this condition the messages there are say in
each hole the settled argument, and two arguments are put in all at once exactly if the first
does not hold the placeholder of the second, or the second is this placeholder.  So every
rendered diagnostic and every configuration error shows its names, settled, and where none of
them holds the placeholder of a later one, as they are.
-/
theorem formatMessage_fills_at_once (template : String) (arguments : List String) :
    (BringsNothingIn template arguments →
        formatMessage template arguments = fillAtOnce template arguments)
      ∧ (∀ message : Message, message.template = template →
        formatMessage template arguments = fillAtOnce template (settled arguments)
          ∧ ∀ first second, arguments = [first, second] →
            (formatMessage template arguments = fillAtOnce template arguments
              ↔ occurrences (placeholder 1) first.toList = 0 ∨ second.toList = placeholder 1))
      ∧ (HoldsNoLater arguments → settled arguments = arguments)
      ∧ (∀ (diagnostic : ReferenceDiagnostic) complete, diagnostic.arguments = arguments →
        ∀ name ∈ settled arguments, name.toList <:+: (diagnostic.render complete).toList)
      ∧ ∀ error : ConfigurationError, error.arguments = arguments →
        ∀ name ∈ settled arguments, name.toList <:+: error.render.toList := by
  refine ⟨formatMessage_eq_fillAtOnce, ?_, (·.settled_eq), ?_, ?_⟩
  · rintro message rfl
    refine ⟨message.render_eq_fillAtOnce arguments, ?_⟩
    rintro first second rfl
    obtain ⟨apart, holes⟩ := message.pieces_template
    exact formatMessage_pair_iff apart (holes 0 message.arity_pos) first second
  · rintro diagnostic complete rfl
    exact diagnostic.infix_render complete
  · rintro error rfl
    exact error.infix_render

/-- Braces, placeholders of arguments before and of arguments that are not there do no harm. -/
theorem formatMessage_fills_at_once_braces :
    let template := Message.externalMethodMissing.template
    let signature := "void Fill(Lib.Slot\x7b2\x7d)"
    let typeName := "\x7bLib.Box\x7b0\x7d"
    let diagnostic := ReferenceDiagnostic.externalMethod signature typeName
    (BringsNothingIn template [signature, typeName] ∧ HoldsNoLater [signature, typeName]
        ∧ diagnostic.arguments = [signature, typeName])
      ∧ formatMessage template [signature, typeName] = fillAtOnce template [signature, typeName]
      ∧ settled [signature, typeName] = [signature, typeName]
      ∧ signature.toList <:+: (diagnostic.render false).toList
      ∧ typeName.toList <:+: (diagnostic.render false).toList := by
  intro template signature typeName diagnostic
  have brings : BringsNothingIn template [signature, typeName] := by decide +kernel
  have holds : HoldsNoLater [signature, typeName] := by decide +kernel
  obtain ⟨filled, -, kept, shown, -⟩ := formatMessage_fills_at_once template [signature, typeName]
  have told := shown diagnostic false rfl
  rw [kept holds] at told
  exact ⟨⟨brings, holds, rfl⟩, filled brings, kept holds, told _ (by simp), told _ (by simp)⟩

/-- A box with a method that nothing implements.  What it takes is of a type whose name holds
a placeholder. -/
def slotName : List Edit :=
  [.addAssembly "Lib",
   .addType ⟨0⟩ { name := "Lib.Box", kind := .classType },
   .addMember ⟨0⟩ (.taking ((MemberDecl.method "Fill").withBody .absent)
    { name := "content", type := ⟨"Lib.Slot\x7b1\x7d"⟩ })]

/-- The name of the box is put into the name of the type. -/
theorem formatMessage_rescans_slotName :
    let program := Program.afterEdits {} slotName
    let live := Session.start program {}
    let signature := "void Fill(Lib.Slot\x7b1\x7d)"
    let template := Message.externalMethodMissing.template
    let text := "The external method 'void Fill(Lib.SlotLib.Box)' of type 'Lib.Box' "
      ++ "has not been implemented."
    program.Buildable
      ∧ program.externalMethod ⟨0⟩ = .externalMethod signature "Lib.Box"
      ∧ (live.answer (Ask.checkInvocation ⟨0⟩)).1
        = .ok (.rejected ((Diagnostic.error .externalMethodMissing text).about signature))
      ∧ formatMessage template [signature, "Lib.Box"] = text
      ∧ fillAtOnce template [signature, "Lib.Box"] ≠ text
      ∧ ¬signature.toList <:+: text.toList := by
  refine ⟨Program.Buildable.empty.afterEdits (by decide +kernel), ?_⟩
  decide +kernel

end MemberResolution
