/-
What is written as a document is read back.

Writing gives every field its own name, and each value in the form that its reader expects.
So the fields of a written object are all found, however many the structure has, and whether
a field could have been left out or be `null` does not matter.  What is left is to read each
value back, and values are made of parts: a reader of lists gives back a list if the reader of
its items gives back each item, a closed list of names gives back what it names, and types,
which hold types, go by recursion on the type that is written.

The document of a member has to be kept until its sort is known.  For that no part of it may be
unusable, and nothing that is written is.
-/
import Mathlib.Data.List.Nodup
import MemberResolution.Document.Manifest
import MemberResolution.Document.Options

namespace MemberResolution

/-! ### Fields and lists -/

namespace Document

@[simp] theorem text?_string (value : String) : text? (.string value) = some value :=
  rfl

@[simp] theorem flag?_bool (value : Bool) : flag? (.bool value) = some value :=
  rfl

@[simp] theorem bareName?_string (insideMember : Bool) (name : String) :
    bareName? insideMember (.string name) = some name :=
  rfl

namespace Fields

variable {α : Type} {entries : List (String × Json)} {name : String} {value? : Json → Option α}

/-- Where no name is repeated an object gives all its fields. -/
@[simp] theorem read?_object {names : List String} (distinct : (entries.map (·.1)).Nodup) :
    read? names (.object entries) = some ⟨true, entries⟩ := by
  have single (name : String) : ¬1 < entries.countP (·.1 == name) := by
    have once := List.nodup_iff_count_le_one.mp distinct name
    rw [List.count, List.countP_map] at once
    exact Nat.not_lt.mpr once
  simp [read?, single]

@[simp] theorem get?_mk : (⟨true, entries⟩ : Fields).get? name = entries.lookup name :=
  rfl

@[simp] theorem required?_mk :
    (⟨true, entries⟩ : Fields).required? name value? = (entries.lookup name).bind value? :=
  rfl

@[simp] theorem withDefault?_mk {default : α} :
    (⟨true, entries⟩ : Fields).withDefault? name default value?
      = (entries.lookup name).elim (some default) value? := by
  unfold withDefault?
  rw [get?_mk]
  cases entries.lookup name <;> rfl

/-- What is given for an optional field, `null` being nothing. -/
def orNull? (value? : Json → Option α) : Json → Option (Option α)
  | .null => some none
  | json => (value? json).map some

@[simp] theorem optional?_mk :
    (⟨true, entries⟩ : Fields).optional? name value?
      = (entries.lookup name).elim (some none) (orNull? value?) := by
  unfold optional?
  rw [get?_mk]
  cases entries.lookup name with
  | none => rfl
  | some json => cases json <;> rfl

@[simp] theorem nullable?_mk :
    (⟨true, entries⟩ : Fields).nullable? name value?
      = (⟨true, entries⟩ : Fields).optional? name value? := by
  simp [nullable?]

/-- An optional value is read back, unless values are written as `null`. -/
theorem orNull?_getD {write : α → Json} (reads : ∀ a, value? (write a) = some a)
    (solid : ∀ a, write a ≠ .null) (value : Option α) :
    orNull? value? ((value.map write).getD .null) = some value := by
  cases value with
  | none => rfl
  | some a =>
      show orNull? value? (write a) = _
      unfold orNull?
      split
      · rename_i h; exact absurd h (solid a)
      · rw [reads a]; rfl

end Fields

theorem listOf?_map {α : Type} {read : Json → Option α} {write : α → Json} {items : List α}
    (each : ∀ item ∈ items, read (write item) = some item) :
    listOf? read (.array (items.map write)) = some items := by
  show (items.map write).mapM read = _
  induction items with
  | nil => rfl
  | cons item rest ih =>
      rw [List.map_cons, List.mapM_cons, each item List.mem_cons_self,
        ih fun other hmem => each other (List.mem_cons_of_mem _ hmem)]
      rfl

/-- A value of a closed list is read back from its name, if no other has that name. -/
theorem oneOf?_documentName {α : Type} {all : List α} {documentName : α → String}
    (distinct : (all.map documentName).Nodup) {insideMember : Bool} {value : α}
    (listed : value ∈ all) :
    oneOf? all documentName insideMember (.string (documentName value)) = some value := by
  show all.find? (fun other => documentName other == documentName value) = _
  induction all with
  | nil => cases listed
  | cons first rest ih =>
      rw [List.map_cons, List.nodup_cons] at distinct
      rcases List.mem_cons.mp listed with rfl | later
      · exact List.find?_cons_of_pos (beq_self_eq_true _)
      · have other : (documentName first == documentName value) = false :=
          beq_eq_false_iff_ne.mpr fun same => distinct.1 (same ▸ List.mem_map_of_mem later)
        rw [List.find?_cons_of_neg (by simp [other])]
        exact ih distinct.2 later

end Document

open Document (Fields)

/-! ### Usable documents -/

namespace Json

@[simp] theorem isUsable_ofOptional (text : Option String) : (ofOptional text).isUsable = true := by
  cases text <;> rfl

theorem allUsable_map {α : Type} {write : α → Json} (usable : ∀ a, (write a).isUsable = true)
    (items : List α) : allUsable (items.map write) = true := by
  induction items with
  | nil => rfl
  | cons item rest ih => rw [List.map_cons, allUsable, usable, ih]; rfl

end Json

/-! ### Keys, names and identities -/

@[simp] theorem TypeKey.ofJson?_toJson (key : TypeKey) : TypeKey.ofJson? key.toJson = some key :=
  rfl

/-- An optional key is read back. -/
@[simp] theorem TypeKey.orNull?_ofOptional (key : Option TypeKey) :
    Fields.orNull? TypeKey.ofJson? (.ofOptional (key.map (·.text))) = some key := by
  cases key <;> rfl

@[simp] theorem TypeKey.orNull?_toJson (key : TypeKey) :
    Fields.orNull? TypeKey.ofJson? key.toJson = some (some key) :=
  rfl

@[simp] theorem Operator.ofJson?_toJson (insideMember : Bool) (op : Operator) :
    Operator.ofJson? insideMember op.toJson = some op :=
  Document.oneOf?_documentName (by decide +kernel) (by cases op <;> decide)

@[simp] theorem SymbolName.ofJson?_toJson (name : SymbolName) :
    SymbolName.ofJson? name.toJson = some name := by
  cases name with
  | named text => rfl
  | operator op => simp [SymbolName.toJson, SymbolName.ofJson?]

@[simp] theorem SymbolKind.ofJson?_documentName (kind : SymbolKind) :
    SymbolKind.ofJson? (.string kind.documentName) = some kind :=
  Document.oneOf?_documentName (by decide) (by cases kind <;> decide)

@[simp] theorem TypeKind.ofJson?_documentName (kind : TypeKind) :
    TypeKind.ofJson? (.string kind.documentName) = some kind :=
  Document.oneOf?_documentName (by decide) (by cases kind <;> decide)

@[simp] theorem BodyState.ofJson?_toJson (body : BodyState) :
    BodyState.ofJson? body.toJson = some body :=
  Document.oneOf?_documentName (by decide) (by cases body <;> decide)

/-- **An identity is read back**, whether or not its parts suit its kind. -/
theorem Identity.ofJson?_toJson (identity : Identity) :
    Identity.ofJson? identity.toJson = some identity := by
  obtain ⟨kind, declaringType, name, params, returns⟩ := identity
  have keys : Document.listOf? TypeKey.ofJson? (.array (params.map TypeKey.toJson)) = some params :=
    Document.listOf?_map fun key _ => key.ofJson?_toJson
  cases returns with
  | none => simp [toJson, ofJson?, List.lookup_cons, keys]
  | some key => simp [toJson, ofJson?, List.lookup_cons, keys]

/-! ### Marks -/

namespace Mark

/-- **A mark is read back**, alone and inside the value of a member. -/
@[simp] theorem ofJson?_toJson (insideMember : Bool) (mark : Mark) :
    ofJson? insideMember mark.toJson = some mark := by
  cases mark with
  | ignore | external | suppressBaseCall | neverReplace | stubAssembly =>
      simp [toJson, ofJson?, List.lookup_cons, valueComesFirst, ofKind?, unvalued?]
  | rename _ | replacement _ | proxyTarget _ =>
      simp [toJson, ofJson?, List.lookup_cons, valueComesFirst, ofKind?, texted?]
  | proxy target inheritable =>
      simp [toJson, ofJson?, List.lookup_cons, valueComesFirst, ofKind?, proxy?]

/-- **A list of marks is read back.** -/
@[simp] theorem listOfJson?_listToJson (insideMember : Bool) (marks : List Mark) :
    listOfJson? insideMember (listToJson marks) = some marks :=
  Document.listOf?_map fun mark _ => mark.ofJson?_toJson insideMember

theorem isUsable_toJson (mark : Mark) : mark.toJson.isUsable = true := by
  cases mark <;> rfl

@[simp] theorem isUsable_listToJson (marks : List Mark) : (listToJson marks).isUsable = true :=
  Json.allUsable_map isUsable_toJson marks

end Mark

/-! ### Options -/

/-- **Options are read back.** -/
theorem Options.ofJson?_toJson (options : Options) :
    Options.ofJson? options.toJson = some options := by
  obtain ⟨cacheResolutions, maxInheritanceDepth, completeMessages⟩ := options
  have depth : maxInheritanceDepth.toNat < UInt32.size := maxInheritanceDepth.toNat_lt
  simp [toJson, ofJson?, cacheSwitch?, List.lookup_cons, Document.word?, depth]

/-! ### Members -/

@[simp] theorem Param.ofJson?_toJson (param : Param) : Param.ofJson? param.toJson = some param := by
  simp [toJson, ofJson?, List.lookup_cons]

/-- A list of parameters is read back. -/
@[simp] theorem Param.listOf?_toJson (params : List Param) :
    Document.listOf? Param.ofJson? (.array (params.map Param.toJson)) = some params :=
  Document.listOf?_map fun param _ => param.ofJson?_toJson

@[simp] theorem Param.allUsable_toJson (params : List Param) :
    Json.allUsable (params.map Param.toJson) = true :=
  Json.allUsable_map (fun _ => rfl) params

@[simp] theorem AccessorDecl.ofJson?_toJson (accessor : AccessorDecl) :
    AccessorDecl.ofJson? accessor.toJson = some accessor := by
  simp [toJson, ofJson?, List.lookup_cons]

/-- An optional accessor is read back. -/
@[simp] theorem AccessorDecl.orNull?_toJson (accessor : Option AccessorDecl) :
    Fields.orNull? AccessorDecl.ofJson? ((accessor.map toJson).getD .null) = some accessor :=
  Fields.orNull?_getD AccessorDecl.ofJson?_toJson (fun _ => nofun) accessor

@[simp] theorem AccessorDecl.isUsable_toJson (accessor : AccessorDecl) :
    accessor.toJson.isUsable = true := by
  simp [toJson, Json.isUsable, Json.allFieldsUsable, BodyState.toJson]

@[simp] theorem AccessorDecl.isUsable_getD (accessor : Option AccessorDecl) :
    ((accessor.map toJson).getD .null).isUsable = true := by
  cases accessor with
  | none => rfl
  | some accessor => exact accessor.isUsable_toJson

namespace ManifestMember

theorem isUsable_toJson (member : ManifestMember) : member.toJson.isUsable = true := by
  cases member <;>
    simp [toJson, Json.isUsable, Json.allFieldsUsable, TypeKey.toJson, Operator.toJson,
      BodyState.toJson]

/-- A member that names its sort first is read as one of this sort. -/
theorem ofJson?_of_sort {sort : String} {others : List (String × Json)}
    (distinct : ("member" :: others.map (·.1)).Nodup)
    (usable : (Json.object (("member", .string sort) :: others)).isUsable = true) :
    ofJson? (.object (("member", .string sort) :: others)) = ofSort? sort (.object others) := by
  have rest : (("member", Json.string sort) :: others).filter (fun entry => entry.1 != "member")
      = others := by
    rw [List.filter_cons_of_neg (by simp), List.filter_eq_self]
    intro entry hmem
    have other : "member" ∉ others.map (·.1) := (List.nodup_cons.mp distinct).1
    exact bne_iff_ne.mpr fun same => other (same ▸ List.mem_map_of_mem hmem)
  have fields : Fields.read? ["member"] (.object (("member", .string sort) :: others))
      = some ⟨true, ("member", .string sort) :: others⟩ :=
    Fields.read?_object distinct
  simp only [Json.isUsable, Json.allFieldsUsable, Bool.true_and] at usable
  simp [ofJson?, fields, rest, usable]

/-- **A member is read back**, of whatever sort it is. -/
@[simp] theorem ofJson?_toJson (member : ManifestMember) :
    ofJson? member.toJson = some member := by
  have usable := member.isUsable_toJson
  cases member with
  | method name params returns body isStatic isVirtual marks =>
      refine (ofJson?_of_sort (by simp) usable).trans ?_
      simp [ofSort?, method?, marks?, switch?, List.lookup_cons]
  | constructor params body isStatic marks =>
      refine (ofJson?_of_sort (by simp) usable).trans ?_
      simp [ofSort?, constructor?, marks?, switch?, List.lookup_cons]
  | operator op params returns body marks =>
      refine (ofJson?_of_sort (by simp) usable).trans ?_
      simp [ofSort?, operator?, marks?, List.lookup_cons]
  | field name type isStatic marks =>
      refine (ofJson?_of_sort (by simp) usable).trans ?_
      simp [ofSort?, field?, marks?, switch?, List.lookup_cons]
  | property name type getter setter automatic isStatic marks =>
      refine (ofJson?_of_sort (by simp) usable).trans ?_
      simp [ofSort?, property?, marks?, switch?, List.lookup_cons]
  | event name type add remove automatic isStatic marks =>
      refine (ofJson?_of_sort (by simp) usable).trans ?_
      simp [ofSort?, event?, marks?, switch?, List.lookup_cons]

end ManifestMember

/-! ### Types -/

namespace ManifestType

/-- A document is read field by field, and the types nested in it one by one. -/
theorem ofJson?_of_read {json : Json} {fields : Fields}
    (given : Fields.read? fieldNames json = some fields) {items : List Json}
    (inner : fields.get? "nested" = some (.array items)) :
    ofJson? json = (do
      let name ← fields.required? "name" Document.text?
      let kind ← fields.withDefault? "kind" .classType TypeKind.ofJson?
      let base ← fields.optional? "base" TypeKey.ofJson?
      let isStatic ← fields.withDefault? "isStatic" false Document.flag?
      let marks ← fields.withDefault? "annotations" [] (Mark.listOfJson? false)
      let members ← fields.withDefault? "members" [] (Document.listOf? ManifestMember.ofJson?)
      let nested ← items.mapM ofJson?
      return ⟨name, kind, base, isStatic, marks, members, nested⟩) := by
  have each : items.attach.mapM (fun item => ofJson? item.1) = items.mapM ofJson? := by
    rw [List.mapM_subtype fun _ _ => rfl, List.unattach_attach]
  rw [ofJson?]
  split
  · rename_i missing; rw [given] at missing; cases missing
  · rename_i found hread
    rw [given] at hread
    cases hread
    -- The fields before the nested types are read alike on both sides.
    iterate 6 refine congrArg (bind _) (funext fun _ => ?_)
    split
    · rename_i missing; rw [inner] at missing; cases missing
    · rename_i hget
      rw [inner] at hget
      cases hget
      rw [← each]
    · rename_i other hget
      rw [inner] at hget
      exact absurd (Option.some.inj hget).symm (other items)

mutual

/-- **A type is read back**, with all that is nested in it. -/
theorem ofJson?_toJson : ∀ type : ManifestType, ofJson? type.toJson = some type
  | ⟨name, kind, base, isStatic, marks, members, nested⟩ => by
      have inner := mapM_allToJson nested
      have listed : Document.listOf? ManifestMember.ofJson?
          (.array (members.map ManifestMember.toJson)) = some members :=
        Document.listOf?_map fun member _ => member.ofJson?_toJson
      rw [toJson, ofJson?_of_read (Fields.read?_object (by simp)) rfl]
      simp [List.lookup_cons, listed, inner]

theorem mapM_allToJson : ∀ types : List ManifestType, (allToJson types).mapM ofJson? = some types
  | [] => rfl
  | type :: rest => by
      rw [allToJson, List.mapM_cons, ofJson?_toJson type, mapM_allToJson rest]
      rfl

end

end ManifestType

/-! ### Manifests -/

theorem ManifestAssembly.ofJson?_toJson (assembly : ManifestAssembly) :
    ofJson? assembly.toJson = some assembly := by
  have types : Document.listOf? ManifestType.ofJson?
      (.array (ManifestType.allToJson assembly.types)) = some assembly.types :=
    ManifestType.mapM_allToJson assembly.types
  simp [toJson, ofJson?, List.lookup_cons, types]

/-- **A manifest is read back.** -/
theorem Manifest.ofJson?_toJson (manifest : Manifest) :
    ofJson? manifest.toJson = some manifest := by
  have assemblies : Document.listOf? ManifestAssembly.ofJson?
      (.array (manifest.assemblies.map ManifestAssembly.toJson)) = some manifest.assemblies :=
    Document.listOf?_map fun assembly _ => assembly.ofJson?_toJson
  simp [toJson, ofJson?, assemblies]

/--
**Every document gives back what it was written from.**  This holds for manifests, however
their types are nested, for identities whose parts need not suit their kind, for lists of marks
wherever they stand, and for options.  So a manifest that was written and read again describes
the same program, or cannot be loaded for the same reason.
-/
theorem Document.read_written :
    (∀ manifest : Manifest, Manifest.ofJson? manifest.toJson = some manifest
        ∧ (Manifest.ofJson? manifest.toJson).map Manifest.toProgram = some manifest.toProgram)
      ∧ (∀ identity : Identity, Identity.ofJson? identity.toJson = some identity)
      ∧ (∀ (insideMember : Bool) (marks : List Mark),
          Mark.listOfJson? insideMember (Mark.listToJson marks) = some marks)
      ∧ ∀ options : Options, Options.ofJson? options.toJson = some options := by
  refine ⟨fun manifest => ⟨manifest.ofJson?_toJson, ?_⟩, Identity.ofJson?_toJson,
    Mark.listOfJson?_listToJson, Options.ofJson?_toJson⟩
  rw [manifest.ofJson?_toJson]
  rfl

end MemberResolution
