/-
Marks.

A mark is a raw token that the loaded program carries on an assembly, a type or a
member; documents list the marks of a symbol as its annotations.  What marks come
to, once those of a symbol and those of its proxies are put together, is the matter
of the store.
-/
import MemberResolution.Symbol.TypeKey

namespace MemberResolution

/-- A token attached to an assembly, type or member. -/
inductive Mark where
  /-- Do not emit the symbol; on a type, nor anything inside it. -/
  | ignore
  /-- Emit the symbol under another name. -/
  | rename (name : String)
  /-- The implementation comes from outside. -/
  | external
  /-- Emit this expression in place of the symbol. -/
  | replacement (expression : String)
  /-- On a type: it is a proxy for the target, for derived types too if inheritable. -/
  | proxy (target : TypeKey) (inheritable : Bool)
  /-- On a proxy member: it supplies the target's member of this name. -/
  | proxyTarget (name : String)
  /-- On a proxy member: the replaced body must not call its base. -/
  | suppressBaseCall
  /-- On a proxy member: it supplies nothing. -/
  | neverReplace
  /-- On an assembly: bodies are not available. -/
  | stubAssembly
  deriving DecidableEq, Repr

namespace Mark

/-- Whether a list holds the mark to ignore the symbol. -/
def isIgnored (marks : List Mark) : Bool :=
  marks.contains .ignore

/-- Whether a list holds the mark of an implementation from outside. -/
def isExternal (marks : List Mark) : Bool :=
  marks.contains .external

/-- Whether a list holds the mark to supply nothing. -/
def isNeverReplaced (marks : List Mark) : Bool :=
  marks.contains .neverReplace

/-- Whether a list holds the mark that the base must not be called. -/
def suppressesBaseCall (marks : List Mark) : Bool :=
  marks.contains .suppressBaseCall

/-- Whether a list holds the mark of a stub assembly. -/
def isStub (marks : List Mark) : Bool :=
  marks.contains .stubAssembly

/-- The target and inheritability of the first proxy mark. -/
def proxyOf? (marks : List Mark) : Option (TypeKey × Bool) :=
  marks.findSome? fun
    | .proxy target inheritable => some (target, inheritable)
    | _ => none

/-- The name given by the first proxy target mark. -/
def proxyTarget? (marks : List Mark) : Option String :=
  marks.findSome? fun
    | .proxyTarget name => some name
    | _ => none

end Mark

end MemberResolution
