/-
The directives of a symbol, layer by layer.

The store is filled in two passes, over the plain types and over the proxies, and every
entry is filed under the identity of the symbol it is for.  What is filed for one symbol can
be read off the program in layers: first the marks of the symbol itself, then those of each
live proxy type that points at it, or of each member of such a type that supplies it, by the
name of the proxy and in the order of declaration.  Nothing else is filed for it, except that
a type of a stub assembly is known as one before all that.

Who renames or replaces a symbol follows from the order of the layers: the first layer with a
mark of that sort.
-/
import MemberResolution.Proofs.FrozenTable

namespace MemberResolution

open Program (levelsVisited)

/-- The name of the first renaming mark. -/
def Mark.rename? (marks : List Mark) : Option String :=
  marks.findSome? fun
    | .rename name => some name
    | _ => none

namespace Directive

/-! ### The first layer that says something -/

theorem findSome?_layers {β : Type} {read : Directive → Option β} {readMark : Mark → Option β}
    (reads : ∀ mark, (ofMark? mark).bind read = readMark mark) (layers : List (List Mark)) :
    (layers.flatMap ofMarks).findSome? read
      = layers.findSome? fun marks => marks.findSome? readMark := by
  have layer : ∀ marks : List Mark, (ofMarks marks).findSome? read = marks.findSome? readMark := by
    intro marks
    unfold ofMarks
    induction marks with
    | nil => rfl
    | cons mark rest ih =>
        rw [List.filterMap_cons, List.findSome?_cons, ← reads mark]
        cases ofMark? mark with
        | none => exact ih
        | some given =>
            rw [List.findSome?_cons, ih]
            rfl
  induction layers with
  | nil => rfl
  | cons marks rest ih =>
      rw [List.flatMap_cons, List.findSome?_append, List.findSome?_cons, layer marks, ih]
      cases marks.findSome? readMark <;> rfl

theorem rename?_layers (layers : List (List Mark)) :
    rename? (layers.flatMap ofMarks) = layers.findSome? Mark.rename? :=
  findSome?_layers (fun mark => by cases mark <;> rfl) layers

theorem replacement?_layers (layers : List (List Mark)) :
    replacement? (layers.flatMap ofMarks) = layers.findSome? Mark.replacement? :=
  findSome?_layers (fun mark => by cases mark <;> rfl) layers

end Directive

namespace Program

variable {program : Program}

/-! ### Layers -/

/-- The identity of a type or member. -/
def identityOfSymbol (program : Program) : SymbolId → Identity
  | .type id => program.identityOfType id
  | .member id => program.identityOfMember id

/-- A type that is no proxy, or a member of one. -/
def IsPlainSymbol (program : Program) : SymbolId → Prop
  | .type id => program.IsPlainType id
  | .member id => program.IsPlain id

/-- What tells of a type that its assembly is a stub. -/
def stubDirectives (program : Program) : SymbolId → List Directive
  | .type id => if program.inStubAssembly id then [.stubAssembly] else []
  | .member _ => []

/-- The marks that are put on a symbol, layer by layer: its own, then those of each live proxy
type of the type, by full name, or of each member of such a proxy that takes part and supplies
the member, in the order of declaration. -/
def layers (program : Program) : SymbolId → List (List Mark)
  | .type id => (program.type id).marks
      :: (program.proxiesFor levelsVisited id).map (·.marks)
  | .member id => (program.member id).marks
      :: (program.suppliers levelsVisited id).map fun supplier => (program.member supplier).marks

/-- What is said of stub assemblies is passed over by a question about something else. -/
theorem findSome?_stubDirectives {β : Type} {read : Directive → Option β}
    (silent : read .stubAssembly = none) (symbol : SymbolId) (rest : List Directive) :
    (program.stubDirectives symbol ++ rest).findSome? read = rest.findSome? read := by
  cases symbol with
  | member id => rfl
  | type id =>
      simp only [stubDirectives]
      split
      · rw [List.singleton_append, List.findSome?_cons, silent]
      · rfl

theorem WellFormed.directivesFor_symbol (h : program.WellFormed) {symbol : SymbolId}
    (plain : program.IsPlainSymbol symbol) :
    (Store.ofProgram program).directivesFor (program.identityOfSymbol symbol)
      = program.stubDirectives symbol ++ (program.layers symbol).flatMap Directive.ofMarks := by
  cases symbol with
  | type id =>
      obtain ⟨known, plain⟩ := plain
      unfold identityOfSymbol stubDirectives layers
      rw [h.directivesFor_type known, plain, effectiveOnType, plain, ofMarks_append,
        ofMarks_flatMap, List.flatMap_cons, List.flatMap_map]
      rfl
  | member id =>
      obtain ⟨known, plain⟩ := plain
      unfold identityOfSymbol stubDirectives layers
      rw [h.directivesFor_member known plain, effectiveOnMember, plain, ofMarks_append,
        ofMarks_flatMap, List.flatMap_cons, List.flatMap_map]
      rfl

/-- **Directives are layered.**  The directives of a plain type or member are, after the one
that tells of a stub assembly, those that its layers give: its own marks, and then what proxies
bring to it, by proxy name and declaration.  So its name and its replacement are those of the
first layer that has one, its own if it has one itself. -/
theorem directivesFor_eq_layers {program : Program} (built : program.Buildable)
    {symbol : SymbolId} (plain : program.IsPlainSymbol symbol) :
    let directives := (Store.ofProgram program).directivesFor (program.identityOfSymbol symbol)
    directives
        = program.stubDirectives symbol ++ (program.layers symbol).flatMap Directive.ofMarks
      ∧ Directive.rename? directives = (program.layers symbol).findSome? Mark.rename?
      ∧ Directive.replacement? directives
        = (program.layers symbol).findSome? Mark.replacement? := by
  intro directives
  have layered : directives
      = program.stubDirectives symbol ++ (program.layers symbol).flatMap Directive.ofMarks :=
    built.wellFormed.directivesFor_symbol plain
  refine ⟨layered, ?_, ?_⟩
  · rw [layered, ← Directive.rename?_layers]
    exact findSome?_stubDirectives rfl symbol _
  · rw [layered, ← Directive.replacement?_layers]
    exact findSome?_stubDirectives rfl symbol _

/-- A method in a stub assembly, and two proxies of its type.  The one that comes later by name
supplies the method by its signature, the other under a target name, twice; a member that is
never to replace anything stands between. -/
def renamedTwice : List Edit :=
  [.addAssembly "Stub",
   .markAssembly ⟨0⟩ .stubAssembly,
   .addType ⟨0⟩ { name := "T", kind := .classType },
   .addMember ⟨0⟩ { MemberDecl.method "M" with marks := [.external] },
   .addType ⟨0⟩ { name := "Second", kind := .classType, marks := [.proxy ⟨"T"⟩ true] },
   .addMember ⟨1⟩ { MemberDecl.method "M" with marks := [.replacement "m", .rename "second"] },
   .addType ⟨0⟩
     { name := "First", kind := .classType, marks := [.rename "Tee", .proxy ⟨"T"⟩ true] },
   .addMember ⟨2⟩ { MemberDecl.method "N" with marks := [.proxyTarget "M", .ignore] },
   .addMember ⟨2⟩ { MemberDecl.method "M" with marks := [.neverReplace, .rename "never"] },
   .addMember ⟨2⟩ { MemberDecl.method "O" with marks := [.rename "first", .proxyTarget "M"] }]

/-- The method is renamed by the proxy with the first name and replaced by the other one. -/
theorem directivesFor_eq_layers_renamedTwice :
    let program := Program.afterEdits {} renamedTwice
    let symbol : SymbolId := .member ⟨0⟩
    let directives := (Store.ofProgram program).directivesFor (program.identityOfSymbol symbol)
    (program.Buildable ∧ program.IsPlainSymbol symbol)
      ∧ (directives
          = program.stubDirectives symbol ++ (program.layers symbol).flatMap Directive.ofMarks
        ∧ Directive.rename? directives = (program.layers symbol).findSome? Mark.rename?
        ∧ Directive.replacement? directives
          = (program.layers symbol).findSome? Mark.replacement?)
      ∧ directives = [.external, .ignore, .rename "first", .replacement "m", .rename "second"] := by
  have built : (Program.afterEdits {} renamedTwice).Buildable :=
    Program.Buildable.empty.afterEdits (by decide +kernel)
  have plain : (Program.afterEdits {} renamedTwice).IsPlainSymbol (.member ⟨0⟩) :=
    ⟨by decide +kernel, by decide +kernel⟩
  refine ⟨⟨built, plain⟩, directivesFor_eq_layers built plain, ?_⟩
  decide +kernel

end Program

end MemberResolution
