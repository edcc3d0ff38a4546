/-
Finding a member in a report.

A report is asked for a member by text, the text of the identity.  There is a record for each
plain member, and a look-up finds the first that has the text.  `member?_finds_first_alike`
says what this comes to: a member is found unless one before it has the same text.

Which members have the same text is a matter of what is printed.  The kind is not, so a field,
a property and an event of one name look alike, and so do a method and an operator.  All else
can be read back where the parts of a text keep clear of the separators between them: a
separator is then found first where it was put, and the parts are taken off one by one.
-/
import MemberResolution.Proofs.FrozenTable

namespace MemberResolution

/-! ### Separators -/

/-- Whether a separator that is put after a text is found there and nowhere before. -/
def endsAtFirst (separator : List Char) : List Char → Bool
  | [] => true
  | c :: rest => !separator.isPrefixOf (c :: rest ++ separator) && endsAtFirst separator rest

theorem endsAtFirst_cons {separator : List Char} {c : Char} {rest : List Char} :
    endsAtFirst separator (c :: rest) = true
      ↔ ¬separator <+: c :: rest ++ separator ∧ endsAtFirst separator rest = true := by
  rw [endsAtFirst, Bool.and_eq_true, Bool.not_eq_true', ← List.isPrefixOf_iff_prefix,
    Bool.not_eq_true]

/-- Whatever comes after it, a separator is not found before its place. -/
theorem not_prefix_of_endsAtFirst {separator : List Char} {c : Char} {rest : List Char}
    (clear : endsAtFirst separator (c :: rest) = true) (after : List Char) :
    ¬separator <+: c :: rest ++ separator ++ after := by
  intro found
  refine (endsAtFirst_cons.mp clear).1 ?_
  refine List.prefix_of_prefix_length_le found (List.prefix_append _ _) ?_
  rw [List.length_append]
  exact Nat.le_add_left _ _

/-- What a separator parts can be told apart. -/
theorem append_separator_inj {separator after after' : List Char} :
    ∀ {text text' : List Char}, endsAtFirst separator text = true →
      endsAtFirst separator text' = true →
      text ++ separator ++ after = text' ++ separator ++ after' →
      text = text' ∧ after = after' := by
  intro text
  induction text with
  | nil =>
      intro text' _ clear' same
      cases text' with
      | nil => exact ⟨rfl, List.append_cancel_left same⟩
      | cons c rest =>
          exact absurd (same ▸ List.prefix_append _ _) (not_prefix_of_endsAtFirst clear' after')
  | cons c rest ih =>
      intro text' clear clear' same
      cases text' with
      | nil =>
          exact absurd (same.symm ▸ List.prefix_append _ _) (not_prefix_of_endsAtFirst clear after)
      | cons c' rest' =>
          obtain ⟨rfl, others⟩ := List.cons.inj same
          obtain ⟨rfl, hafter⟩ :=
            ih (endsAtFirst_cons.mp clear).2 (endsAtFirst_cons.mp clear').2 others
          exact ⟨rfl, hafter⟩

theorem endsAtFirst_append {separator : List Char} (nonempty : separator ≠ [])
    (text after : List Char) : endsAtFirst separator (text ++ separator ++ after) = false := by
  induction text with
  | nil =>
      obtain ⟨c, rest, rfl⟩ := List.exists_cons_of_ne_nil nonempty
      refine Bool.eq_false_iff.mpr fun clear => ?_
      exact (endsAtFirst_cons.mp clear).1 ⟨after ++ c :: rest, by simp⟩
  | cons c rest ih =>
      refine Bool.eq_false_iff.mpr fun clear => ?_
      exact Bool.false_ne_true (ih.symm.trans (endsAtFirst_cons.mp clear).2)

/-- A text keeps clear of a separator that is put after it. -/
def IsClearOf (separator text : String) : Prop :=
  endsAtFirst separator.toList text.toList = true

instance (separator text : String) : Decidable (IsClearOf separator text) :=
  inferInstanceAs (Decidable (_ = true))

namespace IsClearOf

variable {separator text text' : String}

theorem append_inj (clear : IsClearOf separator text) (clear' : IsClearOf separator text')
    {after after' : String} (same : text ++ separator ++ after = text' ++ separator ++ after') :
    text = text' ∧ after = after' := by
  have lists := congrArg String.toList same
  simp only [String.toList_append] at lists
  obtain ⟨htext, hafter⟩ := append_separator_inj clear clear' lists
  exact ⟨String.toList_inj.mp htext, String.toList_inj.mp hafter⟩

theorem ne_append (clear : IsClearOf separator text) (nonempty : separator ≠ "")
    (before after : String) : text ≠ before ++ separator ++ after := by
  rintro rfl
  unfold IsClearOf at clear
  rw [String.toList_append, String.toList_append,
    endsAtFirst_append (mt String.toList_eq_nil_iff.mp nonempty)] at clear
  cases clear

end IsClearOf

theorem intercalate_ne_empty {separator text : String} (nonempty : text ≠ "")
    (rest : List String) : separator.intercalate (text :: rest) ≠ "" := by
  cases rest with
  | nil => rwa [String.intercalate_singleton]
  | cons next others =>
      rw [String.intercalate_cons_cons, ne_eq, String.append_eq_empty_iff,
        String.append_eq_empty_iff]
      exact fun hempty => nonempty hempty.1.1

/-- Texts that are not empty and keep clear of the separator can be read back from what they
are joined to. -/
theorem intercalate_inj {separator : String} (nonempty : separator ≠ "") :
    ∀ {texts texts' : List String}, (∀ text ∈ texts, text ≠ "" ∧ IsClearOf separator text) →
      (∀ text ∈ texts', text ≠ "" ∧ IsClearOf separator text) →
      separator.intercalate texts = separator.intercalate texts' → texts = texts' := by
  intro texts
  induction texts with
  | nil =>
      intro texts' _ clear' same
      cases texts' with
      | nil => rfl
      | cons text' rest' =>
          rw [String.intercalate_nil] at same
          exact absurd same.symm (intercalate_ne_empty (clear' text' List.mem_cons_self).1 rest')
  | cons text rest ih =>
      intro texts' clear clear' same
      obtain ⟨⟨htext, hclear⟩, clearRest⟩ := List.forall_mem_cons.mp clear
      cases texts' with
      | nil =>
          rw [String.intercalate_nil] at same
          exact absurd same (intercalate_ne_empty htext rest)
      | cons text' rest' =>
          obtain ⟨⟨-, hclear'⟩, clearRest'⟩ := List.forall_mem_cons.mp clear'
          cases rest with
          | nil =>
              cases rest' with
              | nil =>
                  rw [String.intercalate_singleton, String.intercalate_singleton] at same
                  rw [same]
              | cons next' others' =>
                  rw [String.intercalate_singleton, String.intercalate_cons_cons] at same
                  exact absurd same (hclear.ne_append nonempty _ _)
          | cons next others =>
              cases rest' with
              | nil =>
                  rw [String.intercalate_singleton, String.intercalate_cons_cons] at same
                  exact absurd same.symm (hclear'.ne_append nonempty _ _)
              | cons next' others' =>
                  rw [String.intercalate_cons_cons, String.intercalate_cons_cons] at same
                  obtain ⟨rfl, hrest⟩ := hclear.append_inj hclear' same
                  rw [ih clearRest clearRest' hrest]

/-! ### Texts of identities -/

namespace Identity

/-- What the text of an identity puts between the parentheses. -/
def paramText (identity : Identity) : String :=
  ", ".intercalate (identity.params.map (·.text))

/-- What the text of an identity has at its end if there is a result type. -/
def returnsText (identity : Identity) : String :=
  match identity.returns with
  | some key => " : " ++ key.text
  | none => ""

/-- What the text of the identity of a member has after the name. -/
def signatureText (identity : Identity) : String :=
  if identity.kind.hasSignature then
    "(" ++ (identity.paramText ++ (")" ++ identity.returnsText))
  else ""

/-- Whether the parts of the text keep clear of the separators that follow them. -/
def IsLegible (identity : Identity) : Prop :=
  (∀ key ∈ identity.declaringType, IsClearOf "::" key.text)
    ∧ IsClearOf "(" identity.name.text
    ∧ (∀ key ∈ identity.params, key.text ≠ "" ∧ IsClearOf ", " key.text)
    ∧ IsClearOf ") : " identity.paramText

instance (identity : Identity) : Decidable identity.IsLegible :=
  inferInstanceAs (Decidable (_ ∧ _ ∧ _ ∧ _))

/-- Two identities agree in all that is printed. -/
structure PrintsLike (a b : Identity) : Prop where
  declaringType : a.declaringType = b.declaringType
  name : a.name.text = b.name.text
  hasSignature : a.kind.hasSignature = b.kind.hasSignature
  params : a.params = b.params
  returns : a.returns = b.returns

/-- The identity of a member: nothing is kept of a signature if the kind has none. -/
structure NamesMember (identity : Identity) (key : TypeKey) : Prop where
  declaringType : identity.declaringType = some key
  unsigned : identity.kind.hasSignature = false → identity.params = [] ∧ identity.returns = none

variable {a b : Identity} {key key' : TypeKey}

theorem PrintsLike.display_eq (h : a.PrintsLike b) : a.display = b.display := by
  unfold display
  rw [h.declaringType, h.name, h.hasSignature, h.params, h.returns]

theorem PrintsLike.eq (h : a.PrintsLike b) (kind : a.kind = b.kind) (name : a.name = b.name) :
    a = b := by
  obtain ⟨_, _, _, _, _⟩ := a
  obtain ⟨_, _, _, _, _⟩ := b
  obtain ⟨rfl, -, -, rfl, rfl⟩ := h
  obtain rfl := kind
  obtain rfl := name
  rfl

theorem NamesMember.display_eq (h : a.NamesMember key) :
    a.display = key.text ++ "::" ++ (a.name.text ++ a.signatureText) := by
  unfold display signatureText
  rw [h.declaringType]
  cases signed : a.kind.hasSignature with
  | false =>
      rw [(h.unsigned signed).2]
      simp only [Bool.false_eq_true, if_false, String.append_empty]
  | true =>
      simp only [if_true, String.append_assoc]
      rfl

theorem append_parenthesis_ne {text : String} (clear : IsClearOf ") : " text)
    (before after : String) : text ++ ")" ≠ before ++ ") : " ++ after := by
  intro same
  have lists := congrArg String.toList same
  simp only [String.toList_append] at lists
  rcases List.eq_nil_or_concat after.toList with hempty | ⟨init, last, hlast⟩
  · rw [hempty, List.append_nil] at lists
    have ends := congrArg List.getLast? lists
    simp at ends
  · rw [hlast, List.concat_eq_append, ← List.append_assoc] at lists
    have inside := List.append_inj_left' lists rfl
    refine clear.ne_append (by decide) before (String.ofList init) (String.toList_inj.mp ?_)
    simp only [inside, String.toList_append, String.toList_ofList]

/-- The result type can be told from the parameter types before it. -/
theorem paramText_returnsText_inj (clear : IsClearOf ") : " a.paramText)
    (clear' : IsClearOf ") : " b.paramText)
    (same : a.paramText ++ (")" ++ a.returnsText) = b.paramText ++ (")" ++ b.returnsText)) :
    a.paramText = b.paramText ∧ a.returns = b.returns := by
  have shape : ∀ text after : String,
      text ++ (")" ++ (" : " ++ after)) = text ++ ") : " ++ after := by
    intro text after
    rw [show ") : " = ")" ++ " : " from rfl]
    simp only [String.append_assoc]
  unfold returnsText at same
  cases ha : a.returns with
  | none =>
      cases hb : b.returns with
      | none =>
          simp only [ha, hb, String.append_empty] at same
          exact ⟨(String.append_left_inj _).mp same, rfl⟩
      | some key =>
          simp only [ha, hb, String.append_empty, shape] at same
          exact absurd same (append_parenthesis_ne clear _ _)
  | some key =>
      cases hb : b.returns with
      | none =>
          simp only [ha, hb, String.append_empty, shape] at same
          exact absurd same.symm (append_parenthesis_ne clear' _ _)
      | some key' =>
          simp only [ha, hb, shape] at same
          obtain ⟨hparams, hkeys⟩ := clear.append_inj clear' same
          exact ⟨hparams, congrArg (fun text => some (TypeKey.mk text)) hkeys⟩

/-- **Legible members have the same text exactly if they agree in all that is printed.** -/
theorem display_eq_iff (h : a.NamesMember key) (h' : b.NamesMember key') (legible : a.IsLegible)
    (legible' : b.IsLegible) : a.display = b.display ↔ a.PrintsLike b := by
  refine ⟨fun same => ?_, PrintsLike.display_eq⟩
  obtain ⟨clearKey, clearName, clearParams, clearSignature⟩ := legible
  obtain ⟨clearKey', clearName', clearParams', clearSignature'⟩ := legible'
  rw [h.display_eq, h'.display_eq] at same
  obtain ⟨hkey, hrest⟩ :=
    (clearKey key h.declaringType).append_inj (clearKey' key' h'.declaringType) same
  have declaringType : a.declaringType = b.declaringType := by
    rw [h.declaringType, h'.declaringType]
    exact congrArg (fun text => some (TypeKey.mk text)) hkey
  have shape : ∀ name after : String, name ++ ("(" ++ after) = name ++ "(" ++ after :=
    fun _ _ => String.append_assoc.symm
  unfold signatureText at hrest
  cases signed : a.kind.hasSignature with
  | false =>
      cases signed' : b.kind.hasSignature with
      | false =>
          simp only [signed, signed', Bool.false_eq_true, if_false, String.append_empty] at hrest
          obtain ⟨hparams, hreturns⟩ := h.unsigned signed
          obtain ⟨hparams', hreturns'⟩ := h'.unsigned signed'
          exact ⟨declaringType, hrest, signed.trans signed'.symm,
            hparams.trans hparams'.symm, hreturns.trans hreturns'.symm⟩
      | true =>
          simp only [signed, signed', Bool.false_eq_true, if_false, if_true, String.append_empty,
            shape] at hrest
          exact absurd hrest (clearName.ne_append (by decide) _ _)
  | true =>
      cases signed' : b.kind.hasSignature with
      | false =>
          simp only [signed, signed', Bool.false_eq_true, if_false, if_true, String.append_empty,
            shape] at hrest
          exact absurd hrest.symm (clearName'.ne_append (by decide) _ _)
      | true =>
          simp only [signed, signed', if_true, shape] at hrest
          obtain ⟨hname, hsignature⟩ := clearName.append_inj clearName' hrest
          obtain ⟨hparams, hreturns⟩ :=
            paramText_returnsText_inj clearSignature clearSignature' hsignature
          have texts : a.params.map (·.text) = b.params.map (·.text) :=
            intercalate_inj (by decide) (List.forall_mem_map.mpr clearParams)
              (List.forall_mem_map.mpr clearParams') hparams
          have injective : Function.Injective TypeKey.text := by
            rintro ⟨_⟩ ⟨_⟩ rfl
            rfl
          exact ⟨declaringType, hname, signed.trans signed'.symm,
            List.map_injective_iff.mpr injective texts, hreturns⟩

end Identity

namespace Program

variable {program : Program}

theorem namesMember_identityOfMember (program : Program) (id : MemberId) :
    (program.identityOfMember id).NamesMember
      (program.type (program.member id).declaringType).key := by
  have parts : ∀ key kind name params type,
      (identityIn key kind name params type).NamesMember key := by
    intro key kind name params type
    unfold identityIn Identity.returning
    split
    · rename_i conversion
      have operator : kind.symbolKind = .operator := conversion.1
      refine ⟨rfl, fun unsigned => ?_⟩
      change kind.symbolKind.hasSignature = false at unsigned
      rw [operator] at unsigned
      cases unsigned
    · exact ⟨rfl, fun unsigned => ⟨if_neg (Bool.eq_false_iff.mp unsigned), rfl⟩⟩
  exact parts _ _ _ _ _

/-- What a report has a record for, in order: the members of each type that is no proxy. -/
def reportedMembers (program : Program) : List MemberId :=
  program.plainTypes.flatMap (·.members)

/-- The text a report has for a member. -/
def memberText (program : Program) (id : MemberId) : String :=
  (program.identityOfMember id).display

end Program

/-! ### The records of a report -/

/-- The record of a member. -/
def Resolver.recordOf (resolver : Resolver) (complete : Bool) (id : MemberId) :
    Except ConfigurationError MemberRecord := do
  return MemberRecord.ofResolved resolver.program complete (← resolver.resolveMember id)

namespace Resolver

variable {resolver : Resolver} {complete : Bool}

theorem recordOf_of_resolveMember {id : MemberId} {resolved : ResolvedMember}
    (found : resolver.resolveMember id = .ok resolved) :
    resolver.recordOf complete id
      = .ok (MemberRecord.ofResolved resolver.program complete resolved) :=
  bind_eq_ok_iff.mpr ⟨resolved, found, rfl⟩

theorem signature_of_recordOf {id : MemberId} {record : MemberRecord}
    (found : resolver.recordOf complete id = .ok record) :
    record.signature = resolver.program.memberText id := by
  obtain ⟨resolved, hresolved, ⟨⟩⟩ := bind_eq_ok_iff.mp found
  obtain ⟨outcome, -, ⟨⟩⟩ := bind_eq_ok_iff.mp hresolved
  rfl

variable {types : List LoadedType} {rows : List (ResolvedType × List ResolvedMember)}

theorem records_ofRows (all : List.Forall₂ resolver.IsRow types rows) (complete : Bool)
    (stats : CacheStats) :
    List.Forall₂ (fun id record => resolver.recordOf complete id = .ok record)
      (types.flatMap (·.members))
      ((Report.ofRows resolver.program complete stats rows).types.flatMap (·.members)) := by
  unfold Report.ofRows
  rw [List.flatMap_map]
  induction all with
  | nil => exact .nil
  | cons hrow _ ih =>
      simp only [List.flatMap_cons]
      refine List.rel_append ?_ ih
      exact List.forall₂_map_right_iff.mpr
        (hrow.members.imp fun _ _ => recordOf_of_resolveMember)

end Resolver

/-- Where items and results have a property together, the first to have it are related. -/
theorem rel_find?_of_forall₂ {α β : Type} {related : α → β → Prop} {items : List α}
    {results : List β} (all : List.Forall₂ related items results) {p : α → Bool} {q : β → Bool}
    (same : ∀ item result, related item result → p item = q result) :
    Option.Rel related (items.find? p) (results.find? q) := by
  induction all with
  | nil => exact .none
  | @cons item result _ _ hfirst _ ih =>
      rw [List.find?_cons, List.find?_cons, same item result hfirst]
      cases q result with
      | true => exact .some hfirst
      | false => exact ih

namespace Program

variable {program : Program}

/-- **A look-up finds the record of the first member with the text**, and nothing if no
reported member has it. -/
theorem rel_member? (built : program.Buildable) (options : Options) {report : Report}
    (resolved : program.resolve options = .ok report) (text : String) :
    Option.Rel (fun id record =>
        (Session.start program options).resolver.recordOf options.completeMessages id = .ok record)
      (program.reportedMembers.find? fun id => program.memberText id == text)
      (report.member? text) := by
  have hreport := Session.answer_report (Session.sound_start built.wellFormed options)
  change program.resolve options = _ at hreport
  rw [resolved] at hreport
  cases hall : (Session.start program options).resolver.resolveAll with
  | error error => rw [hall] at hreport; cases hreport
  | ok rows =>
      rw [hall] at hreport
      obtain rfl := Except.ok.inj hreport
      refine rel_find?_of_forall₂
        (Resolver.records_ofRows (Resolver.rows_of_resolveAll hall) options.completeMessages _) ?_
      intro id record found
      rw [Resolver.signature_of_recordOf found]
      rfl

theorem WellFormed.eq_of_printsLike (h : program.WellFormed) {id other : MemberId}
    (has : program.HasMember id) (hasOther : program.HasMember other)
    (alike : (program.identityOfMember other).PrintsLike (program.identityOfMember id))
    (kind : (program.member other).kind = (program.member id).kind)
    (name : (program.member other).name = (program.member id).name) : other = id := by
  refine h.identities other id hasOther has (alike.eq ?_ ?_)
  · rw [identityOfMember, identityOfMember, kind_identityOf, kind_identityOf, kind]
  · rw [identityOfMember, identityOfMember, name_identityOf, name_identityOf, name]

/-- For a plain member one is found, if not itself then another plain one with its text. -/
theorem exists_first_alike (built : program.Buildable) (options : Options) {report : Report}
    (resolved : program.resolve options = .ok report) {id : MemberId}
    (plain : program.IsPlain id) :
    ∃ first found,
      program.reportedMembers.find? (program.memberText · == program.memberText id) = some first
        ∧ program.IsPlain first ∧ program.memberText first = program.memberText id
        ∧ (Session.start program options).resolver.recordOf options.completeMessages first
          = .ok found
        ∧ report.member? (program.memberText id) = some found := by
  have related := rel_member? built options resolved (program.memberText id)
  have reported : id ∈ program.reportedMembers :=
    built.wellFormed.mem_plainTypes_members.mpr plain
  cases hfirst : program.reportedMembers.find? (program.memberText · == program.memberText id) with
  | none =>
      exact absurd (beq_self_eq_true (program.memberText id))
        (List.find?_eq_none.mp hfirst id reported)
  | some first =>
      rw [hfirst] at related
      have text := List.find?_some hfirst
      have plainFirst := built.wellFormed.mem_plainTypes_members.mp
        (List.mem_of_find?_eq_some hfirst)
      cases hfound : report.member? (program.memberText id) with
      | none => rw [hfound] at related; cases related
      | some found =>
          rw [hfound] at related
          have hrecord := Option.rel_some_some.mp related
          exact ⟨first, found, rfl, plainFirst, beq_iff_eq.mp text, hrecord, rfl⟩

/--
**What the look-up of a member by its text finds.**  It finds the record of the first reported
member with the text, and so the own record of a member if no other plain member has its text.
Legible members have one text exactly if they agree in all that is printed, and then they differ
in kind or in the sort of their name.
-/
theorem member?_finds_first_alike (built : program.Buildable) (options : Options)
    {report : Report} (resolved : program.resolve options = .ok report) {id : MemberId}
    (plain : program.IsPlain id) :
    let record := (Session.start program options).resolver.recordOf options.completeMessages
    (∃ first found,
        program.reportedMembers.find? (program.memberText · == program.memberText id) = some first
          ∧ record first = .ok found ∧ report.member? (program.memberText id) = some found)
      ∧ ((∀ other, program.IsPlain other → program.memberText other = program.memberText id →
          other = id) →
        ∃ own, record id = .ok own ∧ report.member? (program.memberText id) = some own)
      ∧ ∀ other, program.HasMember other →
        ((program.identityOfMember other).IsLegible → (program.identityOfMember id).IsLegible →
          (program.memberText other = program.memberText id
            ↔ (program.identityOfMember other).PrintsLike (program.identityOfMember id)))
        ∧ ((program.identityOfMember other).PrintsLike (program.identityOfMember id) →
          (program.member other).kind = (program.member id).kind →
          (program.member other).name = (program.member id).name → other = id) := by
  intro record
  obtain ⟨first, found, hfirst, plainFirst, text, hfound, hlookup⟩ :=
    exists_first_alike built options resolved plain
  refine ⟨⟨first, found, hfirst, hfound, hlookup⟩, fun alone => ?_, fun other hasOther =>
    ⟨fun legible legible' => ?_, ?_⟩⟩
  · obtain rfl := alone first plainFirst text
    exact ⟨found, hfound, hlookup⟩
  · exact Identity.display_eq_iff (namesMember_identityOfMember program other)
      (namesMember_identityOfMember program id) legible legible'
  · exact built.wellFormed.eq_of_printsLike plain.known hasOther

/-- A type with a field and an event of one name, of which the event has a new name, and a method
that calls it. -/
def changedTwice : List Edit :=
  [.addAssembly "Lib",
   .addType ⟨0⟩ { name := "Lib.Gauge", kind := .classType },
   .addMember ⟨0⟩ (.field "Changed" ⟨"System.Action"⟩),
   .addEvent ⟨0⟩ { name := "Changed", type := ⟨"System.Action"⟩, marks := [.rename "Moved"] },
   .addMember ⟨0⟩ (.taking (.method "Notify") { name := "level", type := ⟨"System.Int32"⟩ })]

/-- The look-up of the event finds the record of the field, that of the method finds its own. -/
theorem member?_finds_first_alike_changedTwice :
    let program := Program.afterEdits {} changedTwice
    let record := (Session.start program {}).resolver.recordOf true
    program.Buildable ∧ program.IsPlain ⟨1⟩ ∧ program.IsPlain ⟨4⟩
      ∧ (program.identityOfMember ⟨0⟩).IsLegible ∧ (program.identityOfMember ⟨1⟩).IsLegible
      ∧ (program.identityOfMember ⟨0⟩).PrintsLike (program.identityOfMember ⟨1⟩)
      ∧ ∃ report, program.resolve {} = .ok report
        ∧ (∃ found, record ⟨0⟩ = .ok found ∧ report.member? (program.memberText ⟨1⟩) = some found)
        ∧ ∃ own, record ⟨4⟩ = .ok own ∧ report.member? (program.memberText ⟨4⟩) = some own := by
  intro program record
  have built : program.Buildable := Program.Buildable.empty.afterEdits (by decide +kernel)
  have event : program.IsPlain ⟨1⟩ := ⟨by decide +kernel, by decide +kernel⟩
  have method : program.IsPlain ⟨4⟩ := ⟨by decide +kernel, by decide +kernel⟩
  have hasField : program.HasMember ⟨0⟩ := by decide +kernel
  have legible : (program.identityOfMember ⟨0⟩).IsLegible
      ∧ (program.identityOfMember ⟨1⟩).IsLegible := by
    decide +kernel
  have texts : program.memberText ⟨0⟩ = program.memberText ⟨1⟩
      ∧ program.reportedMembers.find? (program.memberText · == program.memberText ⟨1⟩) = some ⟨0⟩
      ∧ ∀ i < 5, program.memberText ⟨i⟩ = program.memberText ⟨4⟩ → i = 4 := by
    decide +kernel
  obtain ⟨same, first, alone⟩ := texts
  have resolves : (program.resolve {}).isOk = true := by decide +kernel
  cases resolved : program.resolve {} with
  | error error => rw [resolved] at resolves; cases resolves
  | ok report =>
      obtain ⟨⟨_, found, hfirst, hfound, ofEvent⟩, -, alike⟩ :=
        member?_finds_first_alike built {} resolved event
      obtain rfl := Option.some.inj (first.symm.trans hfirst)
      have ofMethod := (member?_finds_first_alike built {} resolved method).2.1
        fun other plain text => congrArg MemberId.mk (alone other.index plain.known text)
      exact ⟨built, event, method, legible.1, legible.2,
        ((alike ⟨0⟩ hasField).1 legible.1 legible.2).mp same,
        report, rfl, ⟨found, hfound, ofEvent⟩, ofMethod⟩

/-- The event is not found by its text. -/
theorem member?_misses_event_changedTwice :
    let program := Program.afterEdits {} changedTwice
    program.Buildable ∧ program.IsPlain ⟨1⟩
      ∧ ∃ report own, program.resolve {} = .ok report
        ∧ (Session.start program {}).resolver.recordOf true ⟨1⟩ = .ok own
        ∧ report.member? (program.memberText ⟨1⟩) ≠ some own := by
  intro program
  refine ⟨Program.Buildable.empty.afterEdits (by decide +kernel),
    ⟨by decide +kernel, by decide +kernel⟩, ?_⟩
  have missed : (do
      let report ← program.resolve {}
      let own ← (Session.start program {}).resolver.recordOf true ⟨1⟩
      return decide (report.member? (program.memberText ⟨1⟩) = some own)) = .ok false := by
    decide +kernel
  obtain ⟨report, resolved, missed⟩ := bind_eq_ok_iff.mp missed
  obtain ⟨own, found, missed⟩ := bind_eq_ok_iff.mp missed
  exact ⟨report, own, resolved, found, of_decide_eq_false (Except.ok.inj missed)⟩

end Program

end MemberResolution
