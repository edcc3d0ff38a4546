/-
A working directory that is held in memory.

A file lies at a place: the names of the folders that lead to it from the working
directory, and its own name at the end.  A path is walked one step after another,
and every step starts from a folder.  So a path that goes on behind a file, if only
by a slash, leads to nothing, and neither does one that starts at the root or leaves
the working directory, of which nothing is known.
-/
namespace MemberResolution

namespace CommandLine

/-- Files by their places; of two at one place the first counts. -/
structure Directory where
  files : List (List String × String) := []
  deriving DecidableEq, Repr

namespace Directory

/-- The steps of a path: what stands before, between and behind its slashes, after
the characters of a step that has begun, last first. -/
def stepsFrom (reversed : List Char) : List Char → List String
  | [] => [String.ofList reversed.reverse]
  | c :: rest =>
    if c = '/' then String.ofList reversed.reverse :: stepsFrom [] rest
    else stepsFrom (c :: reversed) rest

/-- The steps of a path. -/
def steps (path : String) : List String :=
  stepsFrom [] path.toList

/-- Whether a step stays where it is. -/
def staysInPlace (step : String) : Bool :=
  step == "" || step == "."

/-- The place of a file that is put at a path. -/
def placeOf (path : String) : List String :=
  (steps path).filter fun step => !staysInPlace step

/-- The directory with a file put at a path, in place of one that is already there. -/
def write (directory : Directory) (path text : String) : Directory :=
  ⟨(placeOf path, text) :: directory.files⟩

/-- The directory that holds these files, each given by its path and its text. -/
def ofFiles (files : List (String × String)) : Directory :=
  files.foldl (fun directory file => directory.write file.1 file.2) {}

/-- Whether a place is a folder: the working directory, or one on the way to a file. -/
def isFolder (directory : Directory) (place : List String) : Bool :=
  place.isEmpty || directory.files.any fun file =>
    place.isPrefixOf file.1 && decide (place.length < file.1.length)

/-- Where a step leads from a place. -/
def follow? (directory : Directory) (place : List String) (step : String) :
    Option (List String) :=
  if !directory.isFolder place then none
  else if staysInPlace step then some place
  else if step = ".." then
    if place.isEmpty then none else some place.dropLast
  else some (place ++ [step])

/-- The place a path leads to. -/
def leadsTo? (directory : Directory) (path : String) : Option (List String) :=
  if path.toList.head? = some '/' then none
  else (steps path).foldlM directory.follow? []

/-- The text of the file at a path. -/
def read? (directory : Directory) (path : String) : Option String := do
  directory.files.lookup (← directory.leadsTo? path)

end Directory

end CommandLine

end MemberResolution
