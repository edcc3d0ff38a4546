/-
The format of logged events, as a setting names it.
-/
namespace MemberResolution

namespace CommandLine

/-- How logged events are written. -/
inductive LogFormat where
  | text
  | tree
  | json
  deriving DecidableEq, Repr

namespace LogFormat

/-- The name of the format in settings. -/
def name : LogFormat → String
  | .text => "text"
  | .tree => "tree"
  | .json => "json"

/-- The format a setting names, in letters of either case; anything else means plain
text.  No letter outside ASCII has a lower case that occurs in these names. -/
def ofSetting (setting : String) : LogFormat :=
  let name := setting.toList.map Char.toLower
  if name = LogFormat.tree.name.toList then .tree
  else if name = LogFormat.json.name.toList then .json
  else .text

end LogFormat

end CommandLine

end MemberResolution
