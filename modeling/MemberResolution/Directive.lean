/-
Directives.

A directive is what the store makes of a mark: an instruction attached to the symbol
it applies to, whether the symbol carries it itself or a proxy brings it there.  The
directives of a symbol are ordered, its own first, and the first of a sort decides.
-/
import MemberResolution.Mark
import MemberResolution.Program.Basic

namespace MemberResolution

/-- How the body of a proxy member takes the place of its target's. -/
inductive ProxyMode where
  | replaceBody
  /-- The call of the base implementation goes as well. -/
  | replaceBodySuppressBaseCall
  deriving DecidableEq, Repr

/-- Where a proxy member points. -/
inductive ProxyTarget where
  /-- The member of the target type with the same signature. -/
  | symbol (identity : Identity)
  /-- A member that the target type itself declares under this name. -/
  | unqualified (targetType : TypeKey) (name : String)
  deriving DecidableEq, Repr

/-- What a proxy member is to its target. -/
structure ProxySource where
  target : ProxyTarget
  mode : ProxyMode
  inheritable : Bool
  deriving DecidableEq, Repr

/-- A proxy member that stands ready to supply its target.  One without a body of
its own is kept, and passed over when a body is looked for. -/
structure ProxyCandidate where
  member : MemberId
  proxyType : TypeId
  target : MemberId
  mode : ProxyMode
  inheritable : Bool
  hasBody : Bool
  deriving DecidableEq, Repr

/-- An instruction attached to a symbol. -/
inductive Directive where
  | ignore
  | rename (name : String)
  | external
  | replacement (expression : String)
  | proxySource (source : ProxySource)
  | stubAssembly
  deriving DecidableEq, Repr

namespace Directive

/-- The directive a mark gives to its symbol, if it gives one. -/
def ofMark? : Mark → Option Directive
  | .ignore => some .ignore
  | .rename name => some (.rename name)
  | .external => some .external
  | .replacement expression => some (.replacement expression)
  | .proxy _ _ | .proxyTarget _ | .suppressBaseCall | .neverReplace | .stubAssembly => none

/-- The directives that a list of marks gives, in order. -/
def ofMarks (marks : List Mark) : List Directive :=
  marks.filterMap ofMark?

/-! ### Asking a list of directives -/

/-- Whether the symbol is ignored. -/
def isIgnored (directives : List Directive) : Bool :=
  directives.contains .ignore

/-- Whether the implementation of the symbol comes from outside. -/
def isExternal (directives : List Directive) : Bool :=
  directives.contains .external

/-- Whether the symbol, a type, stands in a stub assembly. -/
def isStub (directives : List Directive) : Bool :=
  directives.contains .stubAssembly

/-- The name the first renaming gives. -/
def rename? (directives : List Directive) : Option String :=
  directives.findSome? fun
    | .rename name => some name
    | _ => none

/-- The expression the first replacement gives. -/
def replacement? (directives : List Directive) : Option String :=
  directives.findSome? fun
    | .replacement expression => some expression
    | _ => none

/-- What the symbol, a proxy member, is to its target. -/
def proxySource? (directives : List Directive) : Option ProxySource :=
  directives.findSome? fun
    | .proxySource source => some source
    | _ => none

end Directive

end MemberResolution
