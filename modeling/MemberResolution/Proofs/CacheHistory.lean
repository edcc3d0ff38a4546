/-
What a cache tells is told by its history.

A history is the list of all calls made on a cache, in order.  What a look-up finds can
be said of the history alone: under its key, the value of the last insertion since
the cache was emptied last.  `Remembers` says so by splitting the history at this
insertion, without a memo.

Two inductions carry this over to the cache, and they go different ways.  What a memo
holds depends on the calls at the end of the history, so it is followed from one history
to the same with one more call at its end.  What is counted only grows, from whatever the
counts are, so it is followed call by call from the front, for any cache to start with;
that no count ever goes back is the same fact for the calls still to come.

A cache that is switched off goes through the same steps.  It only never remembers
anything, so that each of its look-ups counts as one that found nothing.
-/
import Mathlib.Data.Finset.Card
import Mathlib.Data.List.Induction
import MemberResolution.Proofs.Conversation

namespace MemberResolution

/-! ### Calls -/

/-- A call on a cache. -/
inductive CacheCall where
  | member (identity : Identity)
  | type (identity : Identity)
  | dispatch (receiver : TypeId) (signature : Identity)
  | insertMember (identity : Identity) (resolved : ResolvedMember)
  | insertType (identity : Identity) (resolved : ResolvedType)
  | insertDispatch (receiver : TypeId) (signature : Identity) (target : Option MemberId)
  | invalidate
  | size
  deriving DecidableEq, Repr

/-- What a call hands back. -/
inductive CacheAnswer where
  | member (found : Option ResolvedMember)
  | type (found : Option ResolvedType)
  | dispatch (found : Option (Option MemberId))
  | size (count : Nat)
  | done
  deriving DecidableEq, Repr

/-- Whether a look-up found something.  Other calls look nothing up. -/
def CacheAnswer.found? : CacheAnswer → Option Bool
  | .member found => some found.isSome
  | .type found => some found.isSome
  | .dispatch found => some found.isSome
  | .size _ | .done => none

namespace CacheCall

/-- Makes a call: its answer and the cache after it. -/
def perform (cache : Cache) : CacheCall → CacheAnswer × Cache
  | .member identity => (cache.member identity).map .member id
  | .type identity => (cache.type identity).map .type id
  | .dispatch receiver signature => (cache.dispatch receiver signature).map .dispatch id
  | .insertMember identity resolved => (.done, cache.insertMember identity resolved)
  | .insertType identity resolved => (.done, cache.insertType identity resolved)
  | .insertDispatch receiver signature target =>
    (.done, cache.insertDispatch receiver signature target)
  | .invalidate => (.done, cache.invalidate)
  | .size => (.size cache.size, cache)

/-- The insertion of a dispatch, with receiver and signature as one key. -/
@[simp]
def insertDispatchUnder (key : TypeId × Identity) (target : Option MemberId) : CacheCall :=
  .insertDispatch key.1 key.2 target

end CacheCall

namespace Cache

/-- What a cache becomes by a history. -/
def after (cache : Cache) (calls : List CacheCall) : Cache :=
  calls.foldl (fun cache call => (call.perform cache).2) cache

/-- What the calls of a history hand back, in order. -/
def answers (cache : Cache) : List CacheCall → List CacheAnswer
  | [] => []
  | call :: rest => (call.perform cache).1 :: answers (call.perform cache).2 rest

theorem after_append (cache : Cache) (first second : List CacheCall) :
    cache.after (first ++ second) = (cache.after first).after second :=
  List.foldl_append

end Cache

/-! ### What a history remembers -/

/-- The last insertion under a key, since the last time that everything was dropped, was of a
value. -/
def Remembers {κ ν : Type} (insertion : κ → ν → CacheCall) (calls : List CacheCall) (key : κ)
    (value : ν) : Prop :=
  ∃ earlier later, calls = earlier ++ insertion key value :: later
    ∧ ∀ call ∈ later, call ≠ .invalidate ∧ ∀ other, call ≠ insertion key other

variable {κ ν : Type} {insertion : κ → ν → CacheCall} {calls : List CacheCall}

theorem not_remembers_nil {key : κ} {value : ν} : ¬ Remembers insertion [] key value := by
  rintro ⟨earlier, later, split, -⟩
  simp at split

/-- One call more: it is the insertion, or it leaves the insertion the last one. -/
theorem remembers_concat_iff {last : CacheCall} {key : κ} {value : ν} :
    Remembers insertion (calls ++ [last]) key value
      ↔ last = insertion key value
        ∨ (last ≠ .invalidate ∧ ∀ other, last ≠ insertion key other)
          ∧ Remembers insertion calls key value := by
  refine ⟨?_, ?_⟩
  · rintro ⟨earlier, later, split, quiet⟩
    rcases List.eq_nil_or_concat later with rfl | ⟨before, call, rfl⟩
    · exact .inl (List.cons.inj (List.append_inj' split rfl).2).1
    · rw [List.concat_eq_append, ← List.cons_append, ← List.append_assoc] at split
      obtain ⟨front, back⟩ := List.append_inj' split rfl
      obtain rfl := (List.cons.inj back).1
      refine .inr ⟨quiet last (by simp), earlier, before, front, fun call hcall => ?_⟩
      exact quiet call (by simp [hcall])
  · rintro (rfl | ⟨quiet, earlier, later, rfl, others⟩)
    · exact ⟨calls, [], rfl, by simp⟩
    · refine ⟨earlier, later ++ [last], by simp, fun call hcall => ?_⟩
      rcases List.mem_append.mp hcall with hlater | hlast
      · exact others call hlater
      · obtain rfl := List.mem_singleton.mp hlast
        exact quiet

theorem not_remembers_invalidate (apart : ∀ key value, insertion key value ≠ .invalidate) {key : κ}
    {value : ν} : ¬ Remembers insertion (calls ++ [.invalidate]) key value := by
  rw [remembers_concat_iff]
  rintro (inserted | ⟨⟨dropped, -⟩, -⟩)
  · exact apart key value inserted.symm
  · exact dropped rfl

theorem remembers_concat_of_ne {last : CacheCall} (kept : last ≠ .invalidate)
    (apart : ∀ key value, last ≠ insertion key value) {key : κ} {value : ν} :
    Remembers insertion (calls ++ [last]) key value ↔ Remembers insertion calls key value := by
  rw [remembers_concat_iff]
  simp [kept, apart]

namespace Memo

variable [DecidableEq κ]

/-! ### Keys of a memo -/

/-- The keys that a memo keeps something under. -/
def keys (memo : Memo κ ν) : List κ :=
  memo.entries.map (·.1)

theorem mem_keys_iff {memo : Memo κ ν} {key : κ} :
    key ∈ memo.keys ↔ ∃ value, memo.find? key = some value := by
  rw [← Option.isSome_iff_exists]
  unfold keys find?
  simp

theorem nodup_keys_insert {memo : Memo κ ν} (nodup : memo.keys.Nodup) (key : κ) (value : ν) :
    (memo.insert key value).keys.Nodup := by
  unfold keys insert
  rw [List.map_cons, List.nodup_cons]
  refine ⟨?_, List.Nodup.sublist (List.filter_sublist.map _) nodup⟩
  simp

/-! ### A memo and a history -/

/-- A memo finds what a history remembers, if it is kept at all. -/
structure Recalls (memo : Memo κ ν) (insertion : κ → ν → CacheCall) (enabled : Bool)
    (calls : List CacheCall) : Prop where
  finds : ∀ key value, memo.find? key = some value
    ↔ enabled = true ∧ Remembers insertion calls key value
  nodup : memo.keys.Nodup

variable {memo : Memo κ ν} {enabled : Bool}

theorem Recalls.empty : ({} : Memo κ ν).Recalls insertion enabled [] :=
  ⟨fun _ _ => iff_of_false nofun fun given => not_remembers_nil given.2, List.nodup_nil⟩

theorem Recalls.dropped (apart : ∀ key value, insertion key value ≠ .invalidate) :
    ({} : Memo κ ν).Recalls insertion enabled (calls ++ [.invalidate]) :=
  ⟨fun _ _ => iff_of_false nofun fun given => not_remembers_invalidate apart given.2,
    List.nodup_nil⟩

theorem Recalls.unchanged (recalls : memo.Recalls insertion enabled calls) {last : CacheCall}
    (kept : last ≠ .invalidate) (apart : ∀ key value, last ≠ insertion key value) :
    memo.Recalls insertion enabled (calls ++ [last]) :=
  ⟨fun key value => by rw [remembers_concat_of_ne kept apart, recalls.finds], recalls.nodup⟩

/-- An insertion is remembered where it is kept. -/
theorem Recalls.inserted (recalls : memo.Recalls insertion enabled calls)
    (injective : ∀ key value key' value', insertion key value = insertion key' value' →
      key = key' ∧ value = value')
    (apart : ∀ key value, insertion key value ≠ .invalidate) (key : κ) (value : ν) :
    (if enabled then memo.insert key value else memo).Recalls insertion enabled
      (calls ++ [insertion key value]) := by
  cases enabled with
  | false =>
      refine ⟨fun other found => ?_, recalls.nodup⟩
      rw [if_neg Bool.false_ne_true, recalls.finds]
      simp
  | true =>
      rw [if_pos rfl]
      refine ⟨fun other found => ?_, nodup_keys_insert recalls.nodup key value⟩
      rw [find?_insert, remembers_concat_iff]
      by_cases same : key = other
      · subst same
        rw [if_pos rfl, Option.some.injEq]
        refine ⟨fun heq => ⟨rfl, .inl (congrArg _ heq)⟩, ?_⟩
        rintro ⟨-, heq | ⟨⟨-, overwritten⟩, -⟩⟩
        · exact (injective _ _ _ _ heq).2
        · exact absurd rfl (overwritten value)
      · have elsewhere : ∀ found, insertion key value ≠ insertion other found :=
          fun found heq => same (injective _ _ _ _ heq).1
        rw [if_neg same, recalls.finds]
        simp [elsewhere, apart]

/-- There are as many entries as keys under which the history remembers something. -/
theorem Recalls.size_eq_card (recalls : memo.Recalls insertion enabled calls) :
    ∃ live : Finset κ,
      (∀ key, key ∈ live ↔ enabled = true ∧ ∃ value, Remembers insertion calls key value)
        ∧ memo.size = live.card := by
  refine ⟨memo.keys.toFinset, fun key => ?_, ?_⟩
  · rw [List.mem_toFinset, mem_keys_iff]
    simp only [recalls.finds, exists_and_left]
  · rw [List.toFinset_card_of_nodup recalls.nodup, keys, List.length_map, size]

theorem Recalls.size_eq_zero (recalls : memo.Recalls insertion false calls) : memo.size = 0 := by
  obtain ⟨live, remembered, size⟩ := recalls.size_eq_card
  rw [size, Finset.card_eq_zero]
  refine Finset.eq_empty_of_forall_notMem fun key hkey => ?_
  exact Bool.false_ne_true ((remembered key).mp hkey).1

end Memo

/-! ### A cache and a history -/

namespace Cache

theorem insertMember_eq (cache : Cache) (identity : Identity) (resolved : ResolvedMember) :
    cache.insertMember identity resolved
      = { cache with members :=
            if cache.enabled then cache.members.insert identity resolved else cache.members } := by
  unfold insertMember
  split <;> rfl

theorem insertType_eq (cache : Cache) (identity : Identity) (resolved : ResolvedType) :
    cache.insertType identity resolved
      = { cache with types :=
            if cache.enabled then cache.types.insert identity resolved else cache.types } := by
  unfold insertType
  split <;> rfl

theorem insertDispatch_eq (cache : Cache) (receiver : TypeId) (signature : Identity)
    (target : Option MemberId) :
    cache.insertDispatch receiver signature target
      = { cache with dispatches :=
            if cache.enabled then cache.dispatches.insert (receiver, signature) target
            else cache.dispatches } := by
  unfold insertDispatch
  split <;> rfl

/-- Each memo of a cache finds what its own insertions left behind. -/
structure Recalls (cache : Cache) (enabled : Bool) (calls : List CacheCall) : Prop where
  switch : cache.enabled = enabled
  members : cache.members.Recalls .insertMember enabled calls
  types : cache.types.Recalls .insertType enabled calls
  dispatches : cache.dispatches.Recalls CacheCall.insertDispatchUnder enabled calls

theorem Recalls.start (enabled : Bool) : Recalls { enabled := enabled } enabled [] :=
  ⟨rfl, .empty, .empty, .empty⟩

/-- **One call more**: each memo sees its own insertions and the dropping of all answers, and
every other call leaves it as it was. -/
theorem Recalls.perform {cache : Cache} {enabled : Bool} {calls : List CacheCall}
    (recalls : cache.Recalls enabled calls) (call : CacheCall) :
    (call.perform cache).2.Recalls enabled (calls ++ [call]) := by
  obtain ⟨switch, members, types, dispatches⟩ := recalls
  cases call with
  | member | type | dispatch | size =>
      exact ⟨switch, members.unchanged (by simp) (by simp), types.unchanged (by simp) (by simp),
        dispatches.unchanged (by simp) (by simp)⟩
  | insertMember identity resolved =>
      show (cache.insertMember identity resolved).Recalls enabled _
      rw [insertMember_eq, switch]
      exact ⟨rfl, members.inserted (by simp) (by simp) identity resolved,
        types.unchanged (by simp) (by simp), dispatches.unchanged (by simp) (by simp)⟩
  | insertType identity resolved =>
      show (cache.insertType identity resolved).Recalls enabled _
      rw [insertType_eq, switch]
      exact ⟨rfl, members.unchanged (by simp) (by simp),
        types.inserted (by simp) (by simp) identity resolved,
        dispatches.unchanged (by simp) (by simp)⟩
  | insertDispatch receiver signature target =>
      show (cache.insertDispatch receiver signature target).Recalls enabled _
      rw [insertDispatch_eq, switch]
      have injective : ∀ key value key' value',
          CacheCall.insertDispatchUnder key value = CacheCall.insertDispatchUnder key' value' →
            key = key' ∧ value = value' := by
        simp only [CacheCall.insertDispatchUnder, CacheCall.insertDispatch.injEq, Prod.ext_iff]
        exact fun _ _ _ _ same => ⟨⟨same.1, same.2.1⟩, same.2.2⟩
      exact ⟨rfl, members.unchanged (by simp) (by simp), types.unchanged (by simp) (by simp),
        dispatches.inserted injective (by simp) (receiver, signature) target⟩
  | invalidate => exact ⟨switch, .dropped (by simp), .dropped (by simp), .dropped (by simp)⟩

/-- **A cache recalls its whole history.** -/
theorem recalls_after (enabled : Bool) (calls : List CacheCall) :
    (({ enabled := enabled } : Cache).after calls).Recalls enabled calls := by
  induction calls using List.reverseRecOn with
  | nil => exact .start enabled
  | append_singleton earlier last ih =>
      rw [after_append]
      exact ih.perform last

/-! ### What is counted -/

/-- How many answers say that a look-up did, or did not, find something. -/
def lookUpsThat (found : Bool) (answers : List CacheAnswer) : Nat :=
  answers.countP (·.found? = some found)

theorem stats_record (cache : Cache) {found : Bool} {answer : CacheAnswer}
    (told : answer.found? = some found) :
    (cache.record found).stats
      = ⟨cache.stats.hits + lookUpsThat true [answer],
         cache.stats.misses + lookUpsThat false [answer], cache.stats.invalidations⟩ := by
  unfold lookUpsThat record
  cases found <;> simp [told]

theorem stats_perform (cache : Cache) (call : CacheCall) :
    (call.perform cache).2.stats
      = ⟨cache.stats.hits + lookUpsThat true [(call.perform cache).1],
         cache.stats.misses + lookUpsThat false [(call.perform cache).1],
         cache.stats.invalidations + [call].count .invalidate⟩ := by
  cases call with
  | member | type | dispatch => exact stats_record cache rfl
  | insertMember identity resolved =>
      show (cache.insertMember identity resolved).stats = _
      rw [insertMember_eq]
      rfl
  | insertType identity resolved =>
      show (cache.insertType identity resolved).stats = _
      rw [insertType_eq]
      rfl
  | insertDispatch receiver signature target =>
      show (cache.insertDispatch receiver signature target).stats = _
      rw [insertDispatch_eq]
      rfl
  | invalidate | size => rfl

/-- **What a history counts**, whatever was counted before. -/
theorem stats_after (cache : Cache) (calls : List CacheCall) :
    (cache.after calls).stats
      = ⟨cache.stats.hits + lookUpsThat true (cache.answers calls),
         cache.stats.misses + lookUpsThat false (cache.answers calls),
         cache.stats.invalidations + calls.count .invalidate⟩ := by
  induction calls generalizing cache with
  | nil => rfl
  | cons call rest ih =>
      have split : ∀ found, lookUpsThat found (cache.answers (call :: rest))
          = lookUpsThat found [(call.perform cache).1]
            + lookUpsThat found ((call.perform cache).2.answers rest) := fun found => by
        unfold lookUpsThat
        rw [← List.countP_append]
        rfl
      have counted : (call :: rest).count .invalidate
          = [call].count .invalidate + rest.count .invalidate := by
        rw [← List.count_append, List.singleton_append]
      show ((call.perform cache).2.after rest).stats = _
      rw [ih, stats_perform, split, split, counted]
      simp only [Nat.add_assoc]

/-- No count ever goes back. -/
theorem stats_grow (cache : Cache) (calls : List CacheCall) :
    cache.stats.hits ≤ (cache.after calls).stats.hits
      ∧ cache.stats.misses ≤ (cache.after calls).stats.misses
      ∧ cache.stats.invalidations ≤ (cache.after calls).stats.invalidations := by
  rw [stats_after]
  exact ⟨Nat.le_add_right _ _, Nat.le_add_right _ _, Nat.le_add_right _ _⟩

/-! ### What a cache tells -/

/-- Everything that can be asked of a cache, told by the history. -/
structure ToldBy (cache : Cache) (enabled : Bool) (calls : List CacheCall) : Prop where
  /-- A look-up finds the last insertion of its kind under the key, if the cache is switched on,
  and nothing else. -/
  member : ∀ identity resolved, (cache.member identity).1 = some resolved
    ↔ enabled = true ∧ Remembers .insertMember calls identity resolved
  type : ∀ identity resolved, (cache.type identity).1 = some resolved
    ↔ enabled = true ∧ Remembers .insertType calls identity resolved
  /-- What is found may be that there is no declaration. -/
  dispatch : ∀ receiver signature target, (cache.dispatch receiver signature).1 = some target
    ↔ enabled = true
      ∧ Remembers CacheCall.insertDispatchUnder calls (receiver, signature) target
  /-- As many answers are kept as there are keys of members, of types and of dispatches under
  which something is remembered. -/
  size : ∃ (members types : Finset Identity) (dispatches : Finset (TypeId × Identity)),
    (∀ key, key ∈ members ↔ enabled = true ∧ ∃ resolved, Remembers .insertMember calls key resolved)
    ∧ (∀ key, key ∈ types ↔ enabled = true ∧ ∃ resolved, Remembers .insertType calls key resolved)
    ∧ (∀ key, key ∈ dispatches
        ↔ enabled = true ∧ ∃ target, Remembers CacheCall.insertDispatchUnder calls key target)
    ∧ cache.size = members.card + types.card + dispatches.card
  /-- A cache that is switched off keeps nothing. -/
  off : enabled = false → cache.size = 0

/-- What each memo recalls is all there is to tell. -/
theorem Recalls.toldBy {cache : Cache} {enabled : Bool} {calls : List CacheCall}
    (recalls : cache.Recalls enabled calls) : cache.ToldBy enabled calls where
  member := recalls.members.finds
  type := recalls.types.finds
  dispatch receiver signature := recalls.dispatches.finds (receiver, signature)
  size := by
    obtain ⟨members, ofMember, memberCount⟩ := recalls.members.size_eq_card
    obtain ⟨types, ofType, typeCount⟩ := recalls.types.size_eq_card
    obtain ⟨dispatches, ofDispatch, dispatchCount⟩ := recalls.dispatches.size_eq_card
    refine ⟨members, types, dispatches, ofMember, ofType, ofDispatch, ?_⟩
    rw [size, memberCount, typeCount, dispatchCount]
  off := by
    rintro rfl
    rw [size, recalls.members.size_eq_zero, recalls.types.size_eq_zero,
      recalls.dispatches.size_eq_zero]

/--
**A cache is three memos and three counts.**  After any history of calls, a look-up finds what
the last insertion of its kind under an equal key put there since the answers were dropped
last, or nothing; a cache that is switched off never finds anything.  Its size is the number of
keys that are alive.  Its counts are those of the look-ups that did and did not find something
and of the times the answers were dropped, and whatever is called next, none of them goes back.
-/
theorem toldBy_after (enabled : Bool) (calls : List CacheCall) :
    let start : Cache := { enabled := enabled }
    (start.after calls).ToldBy enabled calls
      ∧ (start.after calls).stats
        = ⟨lookUpsThat true (start.answers calls), lookUpsThat false (start.answers calls),
           calls.count .invalidate⟩
      ∧ ∀ more, (start.after calls).stats.hits ≤ (start.after (calls ++ more)).stats.hits
        ∧ (start.after calls).stats.misses ≤ (start.after (calls ++ more)).stats.misses
        ∧ (start.after calls).stats.invalidations
          ≤ (start.after (calls ++ more)).stats.invalidations := by
  intro start
  refine ⟨(recalls_after enabled calls).toldBy, ?_, fun more => ?_⟩
  · simpa [start] using start.stats_after calls
  · rw [after_append]
    exact stats_grow _ more

/-- That there is no declaration is found like any other answer, and is not the same as to find
nothing. -/
example :
    let signature := Identity.ofMember .method ⟨"T"⟩ (.named "M") []
    ({ enabled := true } : Cache).answers
        [.dispatch ⟨0⟩ signature, .insertDispatch ⟨0⟩ signature none, .dispatch ⟨0⟩ signature,
         .size, .invalidate, .dispatch ⟨0⟩ signature]
      = [.dispatch none, .done, .dispatch (some none), .size 1, .done, .dispatch none] := by
  decide +kernel

end Cache

end MemberResolution
