/-
Resolvers that give the same names.

A name is read off renames: that of the symbol itself, that of the property or event it
belongs to, and those of the types around a type.  Everything else in it is declared.  So
two resolvers that tell the same of these renames, the program of one extending that of the
other, emit a type and its members under the same names, whatever else they decide.

Where they also agree on what they decide, they resolve alike.
-/
import MemberResolution.Proofs.Agreement

namespace MemberResolution

namespace Resolver

/-- Two resolvers tell the same of the renames of a type and of the types around it. -/
structure NamesAround (r s : Resolver) (type : TypeId) : Prop where
  extend : r.program.Extends s.program
  known : r.program.HasType type
  around : ∀ outer ∈ r.program.enclosingChain type,
    Directive.rename? (s.typeDirectives outer) = Directive.rename? (r.typeDirectives outer)

/-- They tell the same of the renames of its members as well. -/
structure NamesOn (r s : Resolver) (type : TypeId) : Prop extends r.NamesAround s type where
  members : ∀ id ∈ (r.program.type type).members,
    Directive.rename? (s.memberDirectives id) = Directive.rename? (r.memberDirectives id)

variable {r s : Resolver} {type : TypeId}

namespace NamesAround

theorem typeName_of_mem (h : r.NamesAround s type) {outer : TypeId}
    (hmem : outer ∈ r.program.enclosingChain type) : s.typeName outer = r.typeName outer := by
  have has := h.extend.before.hasType_of_mem_enclosingUpTo h.known outer hmem
  unfold Resolver.typeName
  rw [h.around outer hmem, h.extend.key has]

theorem typeName (h : r.NamesAround s type) : s.typeName type = r.typeName type :=
  h.typeName_of_mem List.mem_cons_self

theorem qualifiedName (h : r.NamesAround s type) :
    s.qualifiedName type = r.qualifiedName type := by
  have outermost : (r.program.enclosingChain type).getLastD type
      ∈ r.program.enclosingChain type := by
    have nonempty : r.program.enclosingChain type ≠ [] := List.cons_ne_nil _ _
    rw [List.getLastD_eq_getLast?, List.getLast?_eq_some_getLast nonempty]
    exact List.getLast_mem nonempty
  have hasOutermost := h.extend.before.hasType_of_mem_enclosingUpTo h.known _ outermost
  unfold Resolver.qualifiedName Resolver.spaceText
  simp only
  rw [h.extend.enclosingChain h.known, h.extend.key hasOutermost,
    List.map_congr_left fun outer hmem => h.typeName_of_mem (List.mem_reverse.mp hmem)]

/-- **Where two resolvers agree on a type and its name, they resolve it alike.** -/
theorem resolveType (h : r.NamesAround s type) (agrees : r.AgreesAround s type) :
    s.resolveType type = r.resolveType type := by
  unfold Resolver.resolveType Resolver.typeReference
  rw [h.typeName, h.qualifiedName, agrees.directives.replacement?, agrees.classifyType]

end NamesAround

namespace NamesOn

variable {id : MemberId}

theorem memberName (h : r.NamesOn s type) (hmem : id ∈ (r.program.type type).members) :
    s.memberName id = r.memberName id := by
  obtain ⟨has, hdeclaring⟩ := h.extend.before.declares type h.known id hmem
  have origin : (s.program.member id).origin = (r.program.member id).origin :=
    h.extend.read_member has (·.origin) fun _ => rfl
  have listed : ∀ {other : MemberId}, r.program.HasMember other →
      (r.program.member other).declaringType = (r.program.member id).declaringType →
      other ∈ (r.program.type type).members := by
    intro other hasOther same
    rw [← hdeclaring, ← same]
    exact h.extend.before.listed other hasOther
  have fits := h.extend.before.origins id has
  unfold Resolver.memberName Resolver.ownName
  simp only
  rw [h.members id hmem, origin, h.extend.name has, h.extend.declaringType has, hdeclaring,
    h.typeName]
  cases Directive.rename? (r.memberDirectives id) with
  | some name => rfl
  | none =>
      cases horigin : (r.program.member id).origin with
      | declared => rfl
      | accessor kind owner generated =>
          rw [horigin] at fits
          simp only
          rw [h.members owner (listed fits.1 fits.2.1)]
      | backingField property =>
          rw [horigin] at fits
          simp only
          rw [h.members property (listed fits.1 fits.2.1), h.extend.name fits.1]

/-- **Where they agree on its members and their names as well, they resolve each of them
alike.** -/
theorem resolveMember (h : r.NamesOn s type) (agrees : r.AgreesOn s type)
    (hmem : id ∈ (r.program.type type).members)
    (params : (s.program.member id).params = (r.program.member id).params) :
    s.resolveMember id = r.resolveMember id := by
  have has := (h.extend.before.declares type h.known id hmem).1
  unfold Resolver.resolveMember
  rw [h.extend.identityOfMember has, h.memberName hmem,
    agrees.classifyMember hmem fun _ => h.extend.refusedMember has params]

end NamesOn

/-! ### The same directives -/

/-- Two resolvers give the same directives to everything that the program of the first has,
the program of the second extending it. -/
structure SameDirectives (r s : Resolver) : Prop where
  extend : r.program.Extends s.program
  types : ∀ id, r.program.HasType id → s.typeDirectives id = r.typeDirectives id
  members : ∀ id, r.program.HasMember id → s.memberDirectives id = r.memberDirectives id

namespace SameDirectives

theorem namesOn (h : r.SameDirectives s) (has : r.program.HasType type) : r.NamesOn s type where
  extend := h.extend
  known := has
  around outer hmem := by
    rw [h.types outer (h.extend.before.hasType_of_mem_enclosingUpTo has outer hmem)]
  members id hmem := by rw [h.members id (h.extend.before.declares type has id hmem).1]

/-- Two such resolvers tell the same of a type whose members have the same bodies in both. -/
theorem agreesInside (h : r.SameDirectives s) (has : r.program.HasType type)
    (bodies : ∀ id ∈ (r.program.type type).members,
      (s.program.member id).body = (r.program.member id).body) : r.AgreesInside s type where
  extend := h.extend
  known := has
  around outer hmem := by
    rw [h.types outer (h.extend.before.hasType_of_mem_enclosingUpTo has outer hmem)]
  directives := .of_eq (h.types type has)
  members id hmem := .of_eq (h.members id (h.extend.before.declares type has id hmem).1)
  bodies := bodies

end SameDirectives

/-! ### One log -/

/-- Two resolvers have one limit and one log, and the program of one extends that of the
other. -/
structure SameLog (r s : Resolver) : Prop where
  extend : r.program.Extends s.program
  maxDepth : s.maxDepth = r.maxDepth
  store : s.store = r.store

namespace SameLog

theorem sameDirectives (h : r.SameLog s) : r.SameDirectives s where
  extend := h.extend
  types id has := by
    unfold Resolver.typeDirectives
    rw [h.store, h.extend.identityOfType has]
  members id has := by
    unfold Resolver.memberDirectives
    rw [h.store, h.extend.identityOfMember has]

theorem validate (h : r.SameLog s) : s.validate = r.validate := by
  unfold Resolver.validate
  rw [h.store]

theorem namesOn (h : r.SameLog s) (has : r.program.HasType type) : r.NamesOn s type :=
  h.sameDirectives.namesOn has

/-- **They agree on a type whose members have the same bodies in both.** -/
theorem agreesOn (h : r.SameLog s) (has : r.program.HasType type)
    (bodies : ∀ id ∈ (r.program.type type).members,
      (s.program.member id).body = (r.program.member id).body) : r.AgreesOn s type where
  toAgreesInside := h.sameDirectives.agreesInside has bodies
  proxied := by rw [h.store]
  supplied id _ := by
    refine findProxy_eq_of_agree h.extend h.maxDepth has (fun ancestor _ _ => ?_)
      fun ancestor _ _ => ?_
    · rw [h.store]
    · rw [h.store]

end SameLog

end Resolver

end MemberResolution
