/-
Every program that can be built is well formed.

An addition is a run of a few steps, and it may fail between any two of them, so the
argument goes by steps: `Build.Ensures` says of a change that it ends in a well-formed
program whether it fails or not, and what else is known where it does not.  Two steps
need an argument, the one that inserts a type and the one that inserts a member; the
others keep the shape of every entry.
-/
import MemberResolution.Proofs.WellFormed

namespace MemberResolution

namespace Build

/-! ### Changes that keep the invariant -/

/-- From a well-formed program of which `before` holds, a change ends in a well-formed
program, and where it does not fail `after` holds of its result and the program. -/
def Ensures {α : Type} (before : Program → Prop) (change : Build α)
    (after : α → Program → Prop) : Prop :=
  ∀ program : Program, program.WellFormed → before program →
    (change.on program).2.WellFormed ∧
      ∀ result, (change.on program).1 = .ok result → after result (change.on program).2

theorem on_bind {α β : Type} (first : Build α) (next : α → Build β) (program : Program) :
    (first >>= next).on program
      = match first.on program with
        | (.ok result, between) => (next result).on between
        | (.error error, between) => (.error error, between) := by
  simp only [Build.on, ExceptT.run_bind, StateT.run_bind]
  cases h : (ExceptT.run first).run program with
  | mk outcome between => cases outcome <;> rfl

theorem get_bind_on {α : Type} (next : Program → Build α) (program : Program) :
    (get >>= next).on program = (next program).on program := by
  rw [on_bind]
  rfl

theorem Ensures.bind {α β : Type} {before : Program → Prop} {first : Build α}
    {between : α → Program → Prop} {next : α → Build β} {after : β → Program → Prop}
    (hfirst : Ensures before first between)
    (hnext : ∀ result, Ensures (between result) (next result) after) :
    Ensures before (first >>= next) after := by
  intro program wellFormed hbefore
  obtain ⟨kept, known⟩ := hfirst program wellFormed hbefore
  rw [on_bind]
  cases h : first.on program with
  | mk outcome middle =>
      rw [h] at kept known
      cases outcome with
      | error error => exact ⟨kept, fun result hresult => by cases hresult⟩
      | ok result => exact hnext result middle kept (known result rfl)

theorem Ensures.pure {α : Type} {before : Program → Prop} {after : α → Program → Prop}
    (result : α) (h : ∀ program, before program → after result program) :
    Ensures before (pure result) after := by
  intro program wellFormed hbefore
  refine ⟨wellFormed, ?_⟩
  intro other hother
  cases hother
  exact h program hbefore

/-- What a change does may depend on the program it finds. -/
theorem Ensures.get_bind {α : Type} {before : Program → Prop} {next : Program → Build α}
    {after : α → Program → Prop}
    (h : ∀ program, program.WellFormed → before program →
      Ensures (· = program) (next program) after) : Ensures before (get >>= next) after :=
  fun program wellFormed hbefore => h program wellFormed hbefore program wellFormed rfl

theorem Ensures.always {α : Type} {before : Program → Prop} {change : Build α}
    {after : α → Program → Prop} (h : Ensures (fun _ => True) change after) :
    Ensures before change after :=
  fun program wellFormed _ => h program wellFormed trivial

theorem Ensures.weaken {α : Type} {before : Program → Prop} {change : Build α}
    {known after : α → Program → Prop} (h : Ensures before change known)
    (forget : ∀ result program, known result program → after result program) :
    Ensures before change after := by
  intro program wellFormed hbefore
  obtain ⟨kept, hknown⟩ := h program wellFormed hbefore
  exact ⟨kept, fun result hresult => forget _ _ (hknown result hresult)⟩

theorem Ensures.map {α β : Type} {before : Program → Prop} {change : Build α}
    {known : α → Program → Prop} {after : β → Program → Prop} (make : α → β)
    (h : Ensures before change known)
    (hmake : ∀ result program, known result program → after (make result) program) :
    Ensures before (make <$> change) after := by
  rw [map_eq_pure_bind]
  exact h.bind fun result => .pure _ (hmake result)

theorem Ensures.receipt {α : Type} {before : Program → Prop} {change : Build α}
    {known : α → Program → Prop} (h : Ensures before change known) {make : α → Receipt} :
    Ensures before (make <$> change) fun _ _ => True :=
  h.map make fun _ _ _ => trivial

end Build

namespace Program

/-! ### Reading after a change of the arrays -/

theorem getD_push {α : Type} [Inhabited α] (entries : Array α) (entry : α) (i : Nat) :
    (entries.push entry).getD i default
      = if i = entries.size then entry else entries.getD i default := by
  rw [Array.getD_eq_getD_getElem?, Array.getElem?_push, Array.getD_eq_getD_getElem?]
  split <;> rfl

theorem getD_modify {α : Type} [Inhabited α] (entries : Array α) (change : α → α) (i j : Nat) :
    (entries.modify i change).getD j default
      = if i = j ∧ i < entries.size then change (entries.getD j default)
        else entries.getD j default := by
  rw [Array.getD_eq_getD_getElem?, Array.getElem?_modify, Array.getD_eq_getD_getElem?]
  by_cases hij : i = j
  · subst hij
    by_cases hi : i < entries.size
    · simp [hi]
    · simp [hi]
  · simp [hij]

/-- A change of an entry does not touch what it leaves alone. -/
theorem read_getD_modify {α β : Type} [Inhabited α] (entries : Array α) {change : α → α}
    (read : α → β) (same : ∀ entry, read (change entry) = read entry) (i j : Nat) :
    read ((entries.modify i change).getD j default) = read (entries.getD j default) := by
  rw [getD_modify]
  split
  · exact same _
  · rfl

/-! ### A new member -/

/-- The program with one more member in a type. -/
def withMember (program : Program) (type : TypeId) (decl : MemberDecl) (origin : Origin) :
    Program :=
  { program with
    memberByIdentity := program.memberByIdentity.insert
      (identityIn (program.type type).key decl.kind decl.name decl.params decl.type)
      ⟨program.members.size⟩
    members := program.members.push
      { id := ⟨program.members.size⟩, declaringType := type, kind := decl.kind, name := decl.name,
        params := decl.params, type := decl.type, flags := decl.flags, body := decl.body,
        origin := origin, marks := decl.marks }
    types := program.types.modify type.index fun type =>
      { type with members := type.members ++ [⟨program.members.size⟩] } }

section

variable {program : Program} {type : TypeId} {decl : MemberDecl} {origin : Origin}

theorem withMember_read_type {β : Type} (read : LoadedType → β)
    (same : ∀ (entry : LoadedType) members, read { entry with members := members } = read entry)
    (id : TypeId) : read ((program.withMember type decl origin).type id) = read (program.type id) :=
  read_getD_modify _ read (fun entry => same entry _) _ _

theorem withMember_members (has : program.HasType type) (id : TypeId) :
    ((program.withMember type decl origin).type id).members
      = if type = id then (program.type id).members ++ [⟨program.members.size⟩]
        else (program.type id).members := by
  unfold HasType at has
  unfold Program.type withMember
  rw [getD_modify]
  by_cases h : type = id
  · rw [if_pos ⟨congrArg TypeId.index h, has⟩, if_pos h]
  · have hindex : type.index ≠ id.index := fun hc => h (by cases type; cases id; simpa using hc)
    rw [if_neg (fun hc => hindex hc.1), if_neg h]

theorem withMember_hasType {id : TypeId} :
    (program.withMember type decl origin).HasType id ↔ program.HasType id := by
  unfold HasType withMember
  rw [Array.size_modify]

theorem withMember_hasMember {id : MemberId} :
    (program.withMember type decl origin).HasMember id
      ↔ program.HasMember id ∨ id = ⟨program.members.size⟩ := by
  unfold HasMember withMember
  rw [Array.size_push]
  refine ⟨?_, ?_⟩
  · intro h
    rcases Nat.lt_or_eq_of_le (Nat.le_of_lt_succ h) with hlt | heq
    · exact Or.inl hlt
    · exact Or.inr (by cases id; simpa using heq)
  · rintro (h | rfl)
    · exact Nat.lt_succ_of_lt h
    · exact Nat.lt_succ_self _

theorem withMember_member_old {id : MemberId} (has : program.HasMember id) :
    (program.withMember type decl origin).member id = program.member id := by
  unfold member withMember
  rw [getD_push, if_neg (Nat.ne_of_lt has)]

theorem withMember_member_new :
    (program.withMember type decl origin).member ⟨program.members.size⟩
      = { id := ⟨program.members.size⟩, declaringType := type, kind := decl.kind, name := decl.name,
          params := decl.params, type := decl.type, flags := decl.flags, body := decl.body,
          origin := origin, marks := decl.marks } := by
  unfold member withMember
  rw [getD_push, if_pos rfl]

theorem withMember_grows : Grows program (program.withMember type decl origin) where
  assemblies _ h := h
  types _ h := withMember_hasType.mpr h
  members _ h := ⟨withMember_hasMember.mpr (Or.inl h), by rw [withMember_member_old h]⟩

theorem withMember_identity_old {id : MemberId} (has : program.HasMember id) :
    (program.withMember type decl origin).identityOfMember id = program.identityOfMember id := by
  unfold identityOfMember identityOf
  rw [withMember_member_old has, withMember_read_type (·.key) (fun _ _ => rfl)]

theorem withMember_identity_new :
    (program.withMember type decl origin).identityOfMember ⟨program.members.size⟩
      = identityIn (program.type type).key decl.kind decl.name decl.params decl.type := by
  unfold identityOfMember identityOf
  rw [withMember_member_new, withMember_read_type (·.key) (fun _ _ => rfl)]

/-- A member with a free identity may be added to a loaded type. -/
theorem WellFormed.withMember (h : program.WellFormed) (has : program.HasType type)
    (fits : program.OriginFits type decl.kind decl.name origin)
    (free : ∀ id, program.HasMember id → program.identityOfMember id
      ≠ identityIn (program.type type).key decl.kind decl.name decl.params decl.type) :
    (program.withMember type decl origin).WellFormed := by
  refine ⟨?_, ?_, ?_, ?_, ?_, ?_, ?_, ?_, ?_, ?_, ?_, ?_⟩
  · intro id hid
    rw [withMember_read_type (·.id) (fun _ _ => rfl)]
    exact h.typeId id (withMember_hasType.mp hid)
  · intro id hid
    rcases withMember_hasMember.mp hid with old | rfl
    · rw [withMember_member_old old]
      exact h.memberId id old
    · rw [withMember_member_new]
  · exact h.typeByKey.congr (fun _ => withMember_hasType) fun id _ =>
      withMember_read_type (·.key) (fun _ _ => rfl) id
  · exact h.memberByIdentity.insert free (fun _ => withMember_hasMember)
      (fun _ => withMember_identity_old) withMember_identity_new
  · intro id hid
    rcases withMember_hasMember.mp hid with old | rfl
    · rw [withMember_member_old old]
      exact withMember_hasType.mpr (h.declaringType id old)
    · rw [withMember_member_new]
      exact withMember_hasType.mpr has
  · intro id hid
    rcases withMember_hasMember.mp hid with old | rfl
    · rw [withMember_member_old old, withMember_members has]
      split
      · exact List.mem_append_left _ (h.listed id old)
      · exact h.listed id old
    · rw [withMember_member_new, withMember_members has, if_pos rfl]
      simp
  · intro t ht id hid
    rw [withMember_members has] at hid
    have hold : ∀ id ∈ (program.type t).members,
        (program.withMember type decl origin).HasMember id ∧
          ((program.withMember type decl origin).member id).declaringType = t := by
      intro id hid
      obtain ⟨old, htype⟩ := h.declares t (withMember_hasType.mp ht) id hid
      rw [withMember_member_old old]
      exact ⟨withMember_hasMember.mpr (Or.inl old), htype⟩
    split at hid
    · rename_i heq
      rcases List.mem_append.mp hid with hid | hid
      · exact hold id hid
      · have hnew : id = ⟨program.members.size⟩ := by simpa using hid
        subst hnew
        rw [withMember_member_new]
        exact ⟨withMember_hasMember.mpr (Or.inr rfl), heq⟩
    · exact hold id hid
  · intro t ht
    have hold := h.ordered t (withMember_hasType.mp ht)
    rw [withMember_members has]
    split
    · refine List.pairwise_append.mpr ⟨hold, List.pairwise_singleton _ _, ?_⟩
      intro a ha b hb
      have hb' : b = ⟨program.members.size⟩ := by simpa using hb
      rw [hb']
      exact (h.declares t (withMember_hasType.mp ht) a ha).1
    · exact hold
  · intro t ht
    rw [withMember_read_type (·.assembly) (fun _ _ => rfl)]
    exact h.assembly t (withMember_hasType.mp ht)
  · intro t outer ht houter
    rw [withMember_read_type (·.enclosing) (fun _ _ => rfl)] at houter
    exact h.enclosing t outer (withMember_hasType.mp ht) houter
  · intro id hid
    rcases withMember_hasMember.mp hid with old | rfl
    · rw [withMember_member_old old]
      exact (h.origins id old).grows withMember_grows
    · rw [withMember_member_new]
      exact fits.grows withMember_grows
  · intro owner howner id hid
    rcases withMember_hasMember.mp howner with old | rfl
    · rw [withMember_member_old old] at hid
      exact (h.accessors owner old id hid).grows withMember_grows old
    · rw [withMember_member_new] at hid
      simp at hid

end

/-! ### A new type -/

/-- The program with one more type. -/
def withType (program : Program) (assembly : AssemblyId) (key : TypeKey) (enclosing : Option TypeId)
    (decl : TypeDecl) : Program :=
  { program with
    typeByKey := program.typeByKey.insert key ⟨program.types.size⟩
    types := program.types.push
      { id := ⟨program.types.size⟩, key := key, kind := decl.kind, flags := decl.flags,
        assembly := assembly, base := decl.base, enclosing := enclosing, marks := decl.marks } }

section

variable {program : Program} {assembly : AssemblyId} {key : TypeKey} {around : Option TypeId}
  {decl : TypeDecl}

theorem withType_hasType {id : TypeId} :
    (program.withType assembly key around decl).HasType id
      ↔ program.HasType id ∨ id = ⟨program.types.size⟩ := by
  unfold HasType withType
  rw [Array.size_push]
  refine ⟨?_, ?_⟩
  · intro h
    rcases Nat.lt_or_eq_of_le (Nat.le_of_lt_succ h) with hlt | heq
    · exact Or.inl hlt
    · exact Or.inr (by cases id; simpa using heq)
  · rintro (h | rfl)
    · exact Nat.lt_succ_of_lt h
    · exact Nat.lt_succ_self _

theorem withType_type_old {id : TypeId} (has : program.HasType id) :
    (program.withType assembly key around decl).type id = program.type id := by
  unfold type withType
  rw [getD_push, if_neg (Nat.ne_of_lt has)]

theorem withType_type_new :
    (program.withType assembly key around decl).type ⟨program.types.size⟩
      = { id := ⟨program.types.size⟩, key := key, kind := decl.kind, flags := decl.flags,
          assembly := assembly, base := decl.base, enclosing := around, marks := decl.marks } := by
  unfold type withType
  rw [getD_push, if_pos rfl]

theorem withType_member (id : MemberId) :
    (program.withType assembly key around decl).member id = program.member id :=
  rfl

theorem withType_grows : Grows program (program.withType assembly key around decl) where
  assemblies _ h := h
  types _ h := withType_hasType.mpr (Or.inl h)
  members _ h := ⟨h, rfl⟩

theorem WellFormed.withType_identity (h : program.WellFormed) {id : MemberId}
    (has : program.HasMember id) :
    (program.withType assembly key around decl).identityOfMember id
      = program.identityOfMember id := by
  unfold identityOfMember identityOf
  rw [withType_member, withType_type_old (h.declaringType id has)]

/-- A type with a free key may be added, inside a loaded type or by itself. -/
theorem WellFormed.withType (h : program.WellFormed) (has : program.HasAssembly assembly)
    (inside : ∀ outer, around = some outer → program.HasType outer)
    (free : ∀ id, program.HasType id → (program.type id).key ≠ key) :
    (program.withType assembly key around decl).WellFormed := by
  refine ⟨?_, h.memberId, ?_, ?_, ?_, ?_, ?_, ?_, ?_, ?_, ?_, ?_⟩
  · intro id hid
    rcases withType_hasType.mp hid with old | rfl
    · rw [withType_type_old old]
      exact h.typeId id old
    · rw [withType_type_new]
  · exact h.typeByKey.insert free (fun _ => withType_hasType)
      (fun _ has => congrArg LoadedType.key (withType_type_old has))
      (congrArg LoadedType.key withType_type_new)
  · exact h.memberByIdentity.congr (fun _ => Iff.rfl) fun _ => h.withType_identity
  · intro id hid
    exact withType_hasType.mpr (Or.inl (h.declaringType id hid))
  · intro id hid
    rw [withType_member, withType_type_old (h.declaringType id hid)]
    exact h.listed id hid
  · intro t ht id hid
    rcases withType_hasType.mp ht with old | rfl
    · rw [withType_type_old old] at hid
      exact h.declares t old id hid
    · rw [withType_type_new] at hid
      simp at hid
  · intro t ht
    rcases withType_hasType.mp ht with old | rfl
    · rw [withType_type_old old]
      exact h.ordered t old
    · rw [withType_type_new]
      exact List.Pairwise.nil
  · intro t ht
    rcases withType_hasType.mp ht with old | rfl
    · rw [withType_type_old old]
      exact h.assembly t old
    · rw [withType_type_new]
      exact has
  · intro t outer ht houter
    rcases withType_hasType.mp ht with old | rfl
    · rw [withType_type_old old] at houter
      exact h.enclosing t outer old houter
    · rw [withType_type_new] at houter
      exact inside outer houter
  · intro id hid
    exact OriginFits.grows withType_grows (h.origins id hid)
  · intro owner howner id hid
    exact (h.accessors owner howner id hid).grows withType_grows howner

end

end Program

namespace Build

/-! ### The steps an addition is made of -/

variable {known : Program → Prop}

/-- What a program keeps when it grows. -/
def Stable (known : Program → Prop) : Prop :=
  ∀ before after, Program.Grows before after → known before → known after

theorem stable_hasType (id : TypeId) : Stable (·.HasType id) :=
  fun _ _ grows h => grows.types id h

theorem insertMember_on (type : TypeId) (decl : MemberDecl) (origin : Origin) (program : Program) :
    (insertMember type decl origin).on program
      = if (program.findMember? (Program.identityIn (program.type type).key decl.kind decl.name
            decl.params decl.type)).isSome then
          (.error (.duplicateMember (Program.identityIn (program.type type).key decl.kind decl.name
            decl.params decl.type)), program)
        else (.ok ⟨program.members.size⟩, program.withMember type decl origin) := by
  unfold insertMember
  rw [on_bind]
  change ((if _ then _ else _ : Build MemberId).on program) = _
  split <;> rfl

theorem insertType_on (assembly : AssemblyId) (key : TypeKey) (around : Option TypeId)
    (decl : TypeDecl) (program : Program) :
    (insertType assembly key around decl).on program
      = if (program.findType? key).isSome then (.error (.duplicateType key), program)
        else (.ok ⟨program.types.size⟩, program.withType assembly key around decl) := by
  unfold insertType
  rw [on_bind]
  change ((if _ then _ else _ : Build TypeId).on program) = _
  split <;> rfl

theorem ensures_insertMember {type : TypeId} {decl : MemberDecl} {origin : Origin}
    (stable : Stable known) (has : ∀ program, known program → program.HasType type)
    (fits : ∀ program, known program → program.OriginFits type decl.kind decl.name origin) :
    Ensures known (insertMember type decl origin) fun id program =>
      known program ∧ program.HasMember id ∧ (program.member id).declaringType = type
        ∧ (program.member id).kind = decl.kind ∧ (program.member id).name = decl.name
        ∧ (program.member id).origin = origin := by
  intro program wellFormed hknown
  rw [insertMember_on]
  split
  · exact ⟨wellFormed, fun result hresult => by cases hresult⟩
  · rename_i hfree
    have free := wellFormed.findMember?_eq_none_iff.mp (by simpa using hfree)
    refine ⟨wellFormed.withMember (has program hknown) (fits program hknown) free, ?_⟩
    intro result hresult
    cases hresult
    refine ⟨stable _ _ Program.withMember_grows hknown,
      Program.withMember_hasMember.mpr (Or.inr rfl), ?_⟩
    rw [Program.withMember_member_new]
    exact ⟨rfl, rfl, rfl, rfl⟩

theorem ensures_insertType {assembly : AssemblyId} {key : TypeKey} {around : Option TypeId}
    {decl : TypeDecl} (has : ∀ program, known program → program.HasAssembly assembly)
    (inside : ∀ program, known program → ∀ outer, around = some outer → program.HasType outer) :
    Ensures known (insertType assembly key around decl) fun _ _ => True := by
  intro program wellFormed hknown
  rw [insertType_on]
  split
  · exact ⟨wellFormed, fun result hresult => by cases hresult⟩
  · rename_i hfree
    have free := wellFormed.findType?_eq_none_iff.mp (by simpa using hfree)
    refine ⟨wellFormed.withType (has program hknown) (inside program hknown) free, ?_⟩
    exact fun _ _ => trivial

/-- A change that cannot fail and keeps every shape. -/
theorem ensures_modify {change : Program → Program} (stable : Stable known)
    (same : ∀ program, Program.SameShape program (change program))
    (accessors : ∀ program, program.WellFormed → known program → ∀ owner,
      program.HasMember owner → ∀ id ∈ ((change program).member owner).accessors,
        program.IsAccessor owner id) :
    Ensures known (modify change) fun _ => known := by
  intro program wellFormed hknown
  refine ⟨wellFormed.of_sameShape (same program) ?_, ?_⟩
  · intro owner howner id hid
    have has := (same program).hasMember howner
    exact (accessors program wellFormed hknown owner has id hid).grows (same program).grows has
  · intro result _
    exact stable _ _ (same program).grows hknown

/-- A change that leaves the lists of accessors alone as well. -/
theorem ensures_modify_rest {change : Program → Program} (stable : Stable known)
    (same : ∀ program, Program.SameShape program (change program))
    (accessors : ∀ program id, ((change program).member id).accessors
      = (program.member id).accessors) :
    Ensures known (modify change) fun _ => known := by
  refine ensures_modify stable same ?_
  intro program wellFormed _ owner howner id hid
  rw [accessors] at hid
  exact wellFormed.accessors owner howner id hid

theorem sameShape_modifyType (program : Program) (i : Nat) {change : LoadedType → LoadedType}
    (keeps : ∀ type, (change type).shape = type.shape) :
    Program.SameShape program { program with types := program.types.modify i change } :=
  ⟨Nat.le_refl _, Array.size_modify, rfl,
    fun id => Program.read_getD_modify program.types LoadedType.shape keeps i id.index,
    fun _ => rfl, rfl, rfl⟩

theorem sameShape_modifyMember (program : Program) (i : Nat)
    {change : LoadedMember → LoadedMember}
    (keeps : ∀ member, (change member).shape = member.shape) :
    Program.SameShape program { program with members := program.members.modify i change } :=
  ⟨Nat.le_refl _, rfl, Array.size_modify, fun _ => rfl,
    fun id => Program.read_getD_modify program.members LoadedMember.shape keeps i id.index, rfl,
    rfl⟩

theorem sameShape_assemblies (program : Program) {assemblies : Array Assembly}
    (more : program.assemblies.size ≤ assemblies.size) :
    Program.SameShape program { program with assemblies := assemblies } :=
  ⟨more, rfl, rfl, fun _ => rfl, fun _ => rfl, rfl, rfl⟩

/-! ### The additions -/

theorem stable_true : Stable fun _ => True :=
  fun _ _ _ _ => trivial

theorem ensures_addAssembly (name : String) :
    Ensures (fun _ => True) (addAssembly name) fun _ _ => True := by
  intro program wellFormed _
  have same : Program.SameShape program ((addAssembly name).on program).2 :=
    sameShape_assemblies program (by simp)
  refine ⟨wellFormed.of_sameShape same ?_, fun _ _ => trivial⟩
  intro owner howner id hid
  exact (wellFormed.accessors owner howner id hid).grows same.grows howner

theorem ensures_addType (assembly : AssemblyId) (decl : TypeDecl) :
    Ensures (·.HasAssembly assembly) (addType assembly decl) fun _ _ => True := by
  unfold addType
  refine (ensures_insertType (fun _ h => h) (fun _ _ _ h => by cases h)).bind fun id => ?_
  refine (ensures_modify_rest stable_true ?_ ?_).bind fun _ => ?_
  · exact fun program => sameShape_assemblies program (by simp)
  · exact fun _ _ => rfl
  · exact .pure _ fun _ _ => trivial

theorem ensures_addNestedType (enclosing : TypeId) (decl : TypeDecl) :
    Ensures (·.HasType enclosing) (addNestedType enclosing decl) fun _ _ => True := by
  unfold addNestedType
  refine Ensures.get_bind fun program wellFormed has => ?_
  refine (ensures_insertType ?_ ?_).bind fun id => ?_
  · rintro _ rfl
    exact wellFormed.assembly enclosing has
  · rintro _ rfl outer ⟨⟩
    exact has
  · refine (ensures_modify_rest stable_true ?_ ?_).bind fun _ => ?_
    · exact fun program => sameShape_modifyType program _ fun _ => rfl
    · exact fun _ _ => rfl
    · exact .pure _ fun _ _ => trivial

theorem ensures_markAssembly (id : AssemblyId) (mark : Mark) :
    Ensures (fun _ => True) (markAssembly id mark) fun _ _ => True := by
  refine ensures_modify_rest stable_true ?_ ?_
  · exact fun program => sameShape_assemblies program (by simp)
  · exact fun _ _ => rfl

theorem ensures_markType (id : TypeId) (mark : Mark) :
    Ensures (fun _ => True) (markType id mark) fun _ _ => True := by
  refine ensures_modify_rest stable_true ?_ ?_
  · exact fun program => sameShape_modifyType program _ fun _ => rfl
  · exact fun _ _ => rfl

theorem ensures_markMember (id : MemberId) (mark : Mark) :
    Ensures (fun _ => True) (markMember id mark) fun _ _ => True := by
  refine ensures_modify_rest stable_true ?_ ?_
  · exact fun program => sameShape_modifyMember program _ fun _ => rfl
  · intro program other
    refine Program.read_getD_modify program.members (·.accessors) ?_ _ _
    exact fun _ => rfl

theorem ensures_addMember (type : TypeId) (decl : MemberDecl) :
    Ensures (·.HasType type) (addMember type decl) fun _ _ => True := by
  unfold addMember
  refine (ensures_insertMember (stable_hasType type) (fun _ h => h) ?_).weaken fun _ _ _ => trivial
  exact fun _ _ => trivial

/-! ### Properties and events

From its head to the linking of its accessors, what is known of a property or event
is that it stands in its type under its name and which of the members added since are
its accessors.
-/

/-- A property or event of some name in a type, and members that are its accessors. -/
structure Linkable (type : TypeId) (name : String) (owner : MemberId)
    (accessors : List MemberId) (program : Program) : Prop where
  hasType : program.HasType type
  hasOwner : program.HasMember owner
  declaringType : (program.member owner).declaringType = type
  named : (program.member owner).name = .named name
  areAccessors : ∀ id ∈ accessors, program.IsAccessor owner id

variable {type : TypeId} {name : String} {owner : MemberId} {accessors : List MemberId}

theorem stable_linkable : Stable (Linkable type name owner accessors) := by
  intro before after grows h
  obtain ⟨has, shape⟩ := grows.members owner h.hasOwner
  refine ⟨grows.types type h.hasType, has, ?_, ?_, ?_⟩
  · exact (LoadedMember.read_eq shape (·.declaringType) fun _ => rfl).trans h.declaringType
  · exact (LoadedMember.read_eq shape (·.name) fun _ => rfl).trans h.named
  · exact fun id hid => (h.areAccessors id hid).grows grows h.hasOwner

theorem ensures_insertHead (name : String) {decl : MemberDecl} (named : decl.name = .named name) :
    Ensures (·.HasType type) (insertMember type decl .declared)
      fun owner => Linkable type name owner [] := by
  refine (ensures_insertMember (stable_hasType type) (fun _ h => h) ?_).weaken ?_
  · exact fun _ _ => trivial
  · rintro owner program ⟨has, howner, htype, -, hname, -⟩
    exact ⟨has, howner, htype, hname.trans named, fun id hid => by cases hid⟩

theorem ensures_insertAccessor {decl : MemberDecl} (kind : AccessorKind) (generated : Bool)
    (method : decl.kind = .method) (named : decl.name = .named (kind.lead ++ name)) :
    Ensures (Linkable type name owner accessors)
      (insertMember type decl (.accessor kind owner generated))
      fun id => Linkable type name owner (accessors ++ [id]) := by
  refine (ensures_insertMember stable_linkable (fun _ h => h.hasType) ?_).weaken ?_
  · exact fun program h =>
      ⟨h.hasOwner, h.declaringType, method, by rw [h.named]; exact named⟩
  · rintro id program ⟨h, has, htype, hkind, -, horigin⟩
    refine ⟨h.hasType, h.hasOwner, h.declaringType, h.named, ?_⟩
    intro other hother
    rcases List.mem_append.mp hother with hold | hnew
    · exact h.areAccessors other hold
    · have hid : other = id := by simpa using hnew
      subst hid
      refine ⟨has, hkind.trans method, htype.trans h.declaringType.symm, ?_⟩
      unfold LoadedMember.owner?
      rw [horigin]

theorem ensures_insertAccessor? {make : AccessorDecl → MemberDecl} (kind : AccessorKind)
    (generated : Bool) (method : ∀ decl, (make decl).kind = .method)
    (named : ∀ decl, (make decl).name = .named (kind.lead ++ name)) (decl? : Option AccessorDecl) :
    Ensures (Linkable type name owner accessors)
      (decl?.mapM fun decl => insertMember type (make decl) (.accessor kind owner generated))
      fun id? => Linkable type name owner (accessors ++ id?.toList) := by
  cases decl? with
  | none => exact .pure _ fun program h => by simpa using h
  | some decl =>
      exact (ensures_insertAccessor kind generated (method decl) (named decl)).map some
        fun _ _ h => h

theorem ensures_insertBackingField {decl : MemberDecl} (field : decl.kind = .field) :
    Ensures (Linkable type name owner accessors) (insertMember type decl (.backingField owner))
      fun _ => Linkable type name owner accessors := by
  refine (ensures_insertMember stable_linkable (fun _ h => h.hasType) ?_).weaken fun _ _ h => h.1
  exact fun program h => ⟨h.hasOwner, h.declaringType, field⟩

theorem ensures_linkAccessors :
    Ensures (Linkable type name owner accessors) (linkAccessors owner accessors) fun _ _ => True := by
  refine (ensures_modify stable_linkable ?_ ?_).weaken fun _ _ _ => trivial
  · exact fun program => sameShape_modifyMember program _ fun _ => rfl
  · intro program wellFormed h other hother id hid
    unfold Program.member at hid
    rw [Program.getD_modify] at hid
    split at hid
    · rename_i hindex
      have hsame : other = owner := by
        cases other
        cases owner
        simpa using hindex.1.symm
      subst hsame
      rcases List.mem_append.mp hid with hold | hnew
      · exact wellFormed.accessors other hother id hold
      · exact h.areAccessors id hnew
    · exact wellFormed.accessors other hother id hid

theorem ensures_addProperty (type : TypeId) (decl : PropertyDecl) :
    Ensures (·.HasType type) (addProperty type decl) fun _ _ => True := by
  unfold addProperty
  refine (ensures_insertHead decl.name rfl).bind fun property => ?_
  refine (ensures_insertAccessor? .get decl.automatic (fun _ => rfl) (fun _ => rfl)
    decl.getter).bind fun getter => ?_
  refine (ensures_insertAccessor? .set decl.automatic (fun _ => rfl) (fun _ => rfl)
    decl.setter).bind fun setter => ?_
  have hlink : ∀ field, Ensures (Linkable type decl.name property (getter.toList ++ setter.toList))
      (do
        linkAccessors property (getter.toList ++ setter.toList)
        return (⟨property, getter, setter, field⟩ : PropertyIds)) fun _ _ => True :=
    fun _ => ensures_linkAccessors.bind fun _ => .pure _ fun _ _ => trivial
  by_cases hautomatic : decl.automatic = true
  · simp only [hautomatic, if_true]
    exact ((ensures_insertBackingField rfl).map some fun _ _ h => h).bind hlink
  · simp only [hautomatic]
    exact (Ensures.pure none fun _ h => h).bind hlink

theorem ensures_addEvent (type : TypeId) (decl : EventDecl) :
    Ensures (·.HasType type) (addEvent type decl) fun _ _ => True := by
  unfold addEvent
  refine (ensures_insertHead decl.name rfl).bind fun event => ?_
  refine (ensures_insertAccessor .add decl.automatic rfl rfl).bind fun add => ?_
  refine (ensures_insertAccessor .remove decl.automatic rfl rfl).bind fun remove => ?_
  exact ensures_linkAccessors.bind fun _ => .pure _ fun _ _ => trivial

end Build

/-! ### Histories -/

/-- **Every addition that speaks of what is there keeps a program well formed, whether
it fails or not.** -/
theorem Edit.ensures_perform (edit : Edit) :
    Build.Ensures (edit.Fits ·) edit.perform fun _ _ => True := by
  cases edit with
  | addAssembly name => exact (Build.ensures_addAssembly name).receipt
  | markAssembly id mark => exact (Build.ensures_markAssembly id mark).always.receipt
  | addType assembly decl => exact (Build.ensures_addType assembly decl).receipt
  | addNestedType enclosing decl => exact (Build.ensures_addNestedType enclosing decl).receipt
  | markType id mark => exact (Build.ensures_markType id mark).always.receipt
  | addMember type decl => exact (Build.ensures_addMember type decl).receipt
  | addProperty type decl => exact (Build.ensures_addProperty type decl).receipt
  | addEvent type decl => exact (Build.ensures_addEvent type decl).receipt
  | markMember id mark => exact (Build.ensures_markMember id mark).always.receipt

theorem Program.wellFormed_empty : ({} : Program).WellFormed := by
  have noType : ∀ id, ¬({} : Program).HasType id := fun id h => Nat.not_lt_zero _ h
  have noMember : ∀ id, ¬({} : Program).HasMember id := fun id h => Nat.not_lt_zero _ h
  exact
    { typeId := fun id h => absurd h (noType id)
      memberId := fun id h => absurd h (noMember id)
      typeByKey := fun _ id => iff_of_false nofun fun given => noType id given.1
      memberByIdentity := fun _ id => iff_of_false nofun fun given => noMember id given.1
      declaringType := fun id h => absurd h (noMember id)
      listed := fun id h => absurd h (noMember id)
      declares := fun type h => absurd h (noType type)
      ordered := fun type h => absurd h (noType type)
      assembly := fun type h => absurd h (noType type)
      enclosing := fun type _ h => absurd h (noType type)
      origins := fun id h => absurd h (noMember id)
      accessors := fun owner h => absurd h (noMember owner) }

/-- **Every program that can be built is well formed.** -/
theorem Program.Buildable.wellFormed {program : Program} (h : program.Buildable) :
    program.WellFormed := by
  induction h with
  | empty => exact Program.wellFormed_empty
  | edit edit _ fits ih => exact (edit.ensures_perform _ ih fits).1

instance (program : Program) : (edit : Edit) → Decidable (edit.Fits program)
  | .addAssembly _ => inferInstanceAs (Decidable True)
  | .markAssembly _ _ | .addType _ _ | .addNestedType _ _ | .markType _ _ | .addMember _ _
  | .addProperty _ _ | .addEvent _ _ | .markMember _ _ => inferInstanceAs (Decidable (_ < _))

/-- Whether each addition of a history speaks of what is there by then. -/
def Program.FitsAll (program : Program) : List Edit → Prop
  | [] => True
  | edit :: rest => edit.Fits program ∧ FitsAll (edit.perform.on program).2 rest

instance Program.decidableFitsAll : ∀ (edits : List Edit) (program : Program),
    Decidable (program.FitsAll edits)
  | [], _ => .isTrue trivial
  | edit :: rest, program =>
    have := decidableFitsAll rest (edit.perform.on program).2
    inferInstanceAs (Decidable (edit.Fits program ∧ _))

theorem Program.Buildable.afterEdits {edits : List Edit} :
    ∀ {program : Program}, program.Buildable → program.FitsAll edits →
      (program.afterEdits edits).Buildable := by
  induction edits with
  | nil => intro program h _; exact h
  | cons edit rest ih => intro program h fits; exact ih (.edit edit h fits.1) fits.2

end MemberResolution
