/-
What a command is given from outside.

A command reads the files that its arguments name and no other.  In a working directory a path
leads to a place, step by step, and what it finds there is the text that was written there last.
A file that is written into a folder which is there makes no new folder, so every path leads
where it led before, and only those that lead to the file read something else: a command that
has no such path comes to the same.

A setting may name the format of logged events; what names none means plain text.
-/
import Mathlib.Data.List.Infix
import MemberResolution.CommandLine.Directory
import MemberResolution.CommandLine.LogFormat
import MemberResolution.CommandLine.Run

namespace MemberResolution

namespace CommandLine

/-! ### Files by their paths -/

namespace Directory

variable {directory : Directory} {path text : String}

theorem isFolder_iff {place : List String} :
    directory.isFolder place = true
      ↔ place = [] ∨ ∃ file ∈ directory.files, place <+: file.1 ∧ place.length < file.1.length := by
  unfold isFolder
  simp only [Bool.or_eq_true, List.isEmpty_iff, List.any_eq_true, Bool.and_eq_true,
    List.isPrefixOf_iff_prefix, decide_eq_true_eq]

theorem isFolder_write_of_prefix {place : List String} (above : place <+: placeOf path)
    (shorter : place.length < (placeOf path).length) :
    (directory.write path text).isFolder place = true :=
  isFolder_iff.mpr (.inr ⟨_, List.mem_cons_self, above, shorter⟩)

theorem isFolder_write (inside : directory.isFolder (placeOf path).dropLast = true)
    (place : List String) :
    (directory.write path text).isFolder place = directory.isFolder place := by
  rw [Bool.eq_iff_iff, isFolder_iff, isFolder_iff]
  refine or_congr_right' fun inner => ⟨?_, ?_⟩
  · rintro ⟨file, hmem, above, shorter⟩
    rcases List.mem_cons.mp hmem with rfl | hmem
    · have within : place <+: (placeOf path).dropLast :=
        List.prefix_of_prefix_length_le above (List.dropLast_prefix _) (by
          rw [List.length_dropLast]
          exact Nat.le_sub_one_of_lt shorter)
      rcases isFolder_iff.mp inside with top | ⟨file, hfile, around, longer⟩
      · rw [top] at within
        exact absurd (List.prefix_nil.mp within) inner
      · exact ⟨file, hfile, within.trans around, Nat.lt_of_le_of_lt within.length_le longer⟩
    · exact ⟨file, hmem, above, shorter⟩
  · rintro ⟨file, hmem, above, shorter⟩
    exact ⟨file, List.mem_cons_of_mem _ hmem, above, shorter⟩

theorem leadsTo?_write (inside : directory.isFolder (placeOf path).dropLast = true)
    (other : String) : (directory.write path text).leadsTo? other = directory.leadsTo? other := by
  have follow : (directory.write path text).follow? = directory.follow? := by
    funext place step
    unfold follow?
    rw [isFolder_write inside]
  unfold leadsTo?
  rw [follow]

/-- **Writing a file changes what is read at the paths that lead to it, and nothing else.** -/
theorem read?_write (inside : directory.isFolder (placeOf path).dropLast = true)
    (other : String) :
    (directory.write path text).read? other
      = if directory.leadsTo? other = some (placeOf path) then some text
        else directory.read? other := by
  unfold read?
  rw [leadsTo?_write inside]
  cases directory.leadsTo? other with
  | none => rfl
  | some place =>
      show List.lookup place ((placeOf path, text) :: directory.files) = _
      rw [List.lookup_cons]
      by_cases here : place = placeOf path
      · simp [here]
      · have missed : (place == placeOf path) = false := beq_eq_false_iff_ne.mpr here
        simp [missed, here]

/-- Steps that do not go up lead on by the names among them, as long as the way there is through
folders and the last step is a name. -/
theorem foldlM_follow? {steps : List String} (down : ".." ∉ steps)
    (ends : ∀ h : steps ≠ [], staysInPlace (steps.getLast h) = false) :
    ∀ {place : List String},
      (∀ above, above <+: place ++ steps.filter (!staysInPlace ·) →
        above.length < (place ++ steps.filter (!staysInPlace ·)).length →
          directory.isFolder above = true) →
      steps.foldlM directory.follow? place = some (place ++ steps.filter (!staysInPlace ·)) := by
  induction steps with
  | nil => intro place _; simp
  | cons step rest ih =>
      intro place folders
      have named : (step :: rest).filter (!staysInPlace ·) ≠ [] := by
        have last := ends (List.cons_ne_nil _ _)
        refine List.ne_nil_of_mem
          (List.mem_filter.mpr ⟨List.getLast_mem (List.cons_ne_nil _ _), ?_⟩)
        rw [last]
        rfl
      have here : directory.isFolder place = true := by
        refine folders place (List.prefix_append _ _) ?_
        rw [List.length_append]
        exact Nat.lt_add_of_pos_right (List.length_pos_iff.mpr named)
      have further := @ih (fun hmem => down (List.mem_cons_of_mem _ hmem)) fun h => by
        have last := ends (List.cons_ne_nil _ _)
        rwa [List.getLast_cons h] at last
      have up : step ≠ ".." := fun same => down (same ▸ List.mem_cons_self)
      rw [List.foldlM_cons]
      cases stays : staysInPlace step with
      | true =>
          simp only [List.filter_cons, stays, Bool.not_true] at folders ⊢
          simp only [follow?, here, stays]
          exact further folders
      | false =>
          simp only [List.filter_cons, stays, Bool.not_false, if_true] at folders ⊢
          rw [List.append_cons] at folders ⊢
          simp only [follow?, here, stays, up]
          exact further folders

/-- **A file is read at the path it was written to**, unless the path goes up, or ends with a
slash or dot. -/
theorem read?_write_self (inner : path.toList.head? ≠ some '/') (down : ".." ∉ steps path)
    (ends : ∀ h : steps path ≠ [], staysInPlace ((steps path).getLast h) = false) :
    (directory.write path text).read? path = some text := by
  have leads : (directory.write path text).leadsTo? path = some (placeOf path) := by
    unfold leadsTo?
    rw [if_neg inner]
    exact foldlM_follow? down ends fun above around shorter =>
      isFolder_write_of_prefix around shorter
  unfold read?
  rw [leads]
  exact List.lookup_cons_self

end Directory

/-- The paths a command reads. -/
def Arguments.paths (arguments : Arguments) : List String :=
  arguments.manifest :: arguments.options.toList

/-- **A command is determined by what it reads.** -/
theorem run_congr {files otherFiles : Files} {arguments : Arguments}
    (same : ∀ path ∈ arguments.paths, otherFiles path = files path) :
    run otherFiles arguments = run files arguments := by
  have program : loadProgram otherFiles arguments.manifest
      = loadProgram files arguments.manifest := by
    unfold loadProgram
    rw [same _ List.mem_cons_self]
  have options : loadOptions otherFiles arguments = loadOptions files arguments := by
    unfold loadOptions
    cases given : arguments.options with
    | none => rfl
    | some path =>
        have read : otherFiles path = files path :=
          same path (List.mem_cons_of_mem _ (by rw [given]; exact List.mem_singleton_self _))
        simp only [read]
  unfold run
  rw [program, options]

/-- **A command comes to the same whatever is written to a file that none of its paths leads
to**, if the file lies in a folder that is there. -/
theorem run_write {directory : Directory} {path text : String}
    (inside : directory.isFolder (Directory.placeOf path).dropLast = true) {arguments : Arguments}
    (apart : ∀ used ∈ arguments.paths, directory.leadsTo? used ≠ some (Directory.placeOf path)) :
    run (directory.write path text).read? arguments = run directory.read? arguments :=
  run_congr fun used hmem => by rw [Directory.read?_write inside, if_neg (apart used hmem)]

/-! ### Settings -/

/-- **A setting names a format in letters of either case, or it means plain text.** -/
theorem LogFormat.ofSetting_eq_iff {setting : String} {format : LogFormat} :
    ofSetting setting = format
      ↔ setting.toList.map Char.toLower = format.name.toList
        ∨ format = .text
          ∧ ∀ other : LogFormat, setting.toList.map Char.toLower ≠ other.name.toList := by
  unfold ofSetting
  generalize setting.toList.map Char.toLower = letters
  have apart : ∀ {a b : LogFormat}, a.name.toList = b.name.toList → a = b := by
    intro a b
    cases a <;> cases b <;> decide
  simp only
  by_cases tree : letters = LogFormat.tree.name.toList
  · subst tree
    rw [if_pos rfl]
    refine ⟨fun same => .inl (congrArg (·.name.toList) same), ?_⟩
    rintro (same | ⟨-, none⟩)
    · exact apart same
    · exact absurd rfl (none .tree)
  · by_cases json : letters = LogFormat.json.name.toList
    · subst json
      rw [if_neg tree, if_pos rfl]
      refine ⟨fun same => .inl (congrArg (·.name.toList) same), ?_⟩
      rintro (same | ⟨-, none⟩)
      · exact apart same
      · exact absurd rfl (none .json)
    · rw [if_neg tree, if_neg json]
      cases format with
      | tree => simp [tree]
      | json => simp [json]
      | text =>
          by_cases text : letters = LogFormat.text.name.toList
          · simp [text]
          · refine iff_of_true rfl (.inr ⟨rfl, fun other => ?_⟩)
            cases other with
            | text => exact text
            | tree => exact tree
            | json => exact json

end CommandLine

end MemberResolution
