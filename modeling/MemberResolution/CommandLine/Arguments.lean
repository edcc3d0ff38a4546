/-
The arguments of the command line.

Arguments are taken from left to right.  A word that starts with two dashes is an
option or a switch, one with a single dash is a short switch, and `--` ends both;
any other word is the value of the option before it if that still waits for one,
and else the manifest.

A value that is joined to its option by `=` is accepted or refused at once.  One
that stands apart is held until the next known option, switch or manifest, or the
end of the arguments, and only then accepted or refused; so an unknown word right
after it is noticed first.
-/
namespace MemberResolution

namespace CommandLine

/-! ### What the arguments say -/

/-- How the report is written. -/
inductive ReportFormat where
  | text
  | json
  deriving DecidableEq, Repr

/-- A complete command. -/
structure Arguments where
  manifest : String
  options : Option String := none
  noCache : Bool := false
  shortMessages : Bool := false
  format : ReportFormat := .text
  onlyType : Option String := none
  pretty : Option Bool := none
  deriving DecidableEq, Repr

/-- Why arguments are no command. -/
inductive UsageFault where
  | missingManifest
  | unknownArgument
  | invalidValue
  | repeatedOption
  | valueOnSwitch
  | helpWanted
  | versionWanted
  deriving DecidableEq, Repr

/-! ### Options and switches -/

/-- Something that takes a value. -/
inductive Slot where
  | manifest
  | options
  | format
  | onlyType
  | pretty
  deriving DecidableEq, Repr

/-- Something that takes no value. -/
inductive Switch where
  | noCache
  | shortMessages
  | help
  | version
  deriving DecidableEq, Repr

/-- What the name of a long option means. -/
def longName? : List Char → Option (Slot ⊕ Switch) := fun name =>
  if name = "options".toList then some (.inl .options)
  else if name = "format".toList then some (.inl .format)
  else if name = "type".toList then some (.inl .onlyType)
  else if name = "pretty".toList then some (.inl .pretty)
  else if name = "noCache".toList ∨ name = "no-cache".toList then some (.inr .noCache)
  else if name = "shortMessages".toList ∨ name = "short-messages".toList then
    some (.inr .shortMessages)
  else if name = "help".toList then some (.inr .help)
  else if name = "version".toList then some (.inr .version)
  else none

/-- What a letter after a single dash means. -/
def shortName? (c : Char) : Option Switch :=
  if c = 'h' then some .help
  else if c = 'V' then some .version
  else none

/-- The format a value names, in letters of either case. -/
def formatOf? (value : String) : Option ReportFormat :=
  let name := value.toList.map Char.toLower
  if name = "text".toList then some .text
  else if name = "json".toList then some .json
  else none

/-- The truth value a value names. -/
def boolOf? (value : String) : Option Bool :=
  if value = "true" then some true
  else if value = "false" then some false
  else none

/-! ### Reading the arguments -/

/-- What was read so far.  `held` is an option or the manifest that is not accepted
yet, with its value if that was there; `ended` says that `--` was read. -/
structure Reading where
  manifest : Option String := none
  options : Option String := none
  noCache : Bool := false
  shortMessages : Bool := false
  format : Option ReportFormat := none
  onlyType : Option String := none
  pretty : Option Bool := none
  held : Option (Slot × Option String) := none
  manifestSeen : Bool := false
  ended : Bool := false
  deriving DecidableEq, Repr

namespace Reading

/-- Fills a place that must be empty with a value that must be good. -/
def fill {α : Type} (place : Option α) (value : Option α) (put : α → Reading) :
    Except UsageFault Reading :=
  if place.isSome then .error .repeatedOption
  else match value with
    | some value => .ok (put value)
    | none => .error .invalidValue

/-- A path must not be empty. -/
def pathOf? (value : String) : Option String :=
  if value.isEmpty then none else some value

/-- Accepts or refuses the value of an option or of the manifest. -/
def accept (reading : Reading) (slot : Slot) (value : String) : Except UsageFault Reading :=
  match slot with
  | .manifest =>
    fill reading.manifest (pathOf? value) fun path => { reading with manifest := some path }
  | .options =>
    fill reading.options (pathOf? value) fun path => { reading with options := some path }
  | .format =>
    fill reading.format (formatOf? value) fun format => { reading with format := some format }
  | .onlyType =>
    fill reading.onlyType (some value) fun name => { reading with onlyType := some name }
  | .pretty =>
    fill reading.pretty (boolOf? value) fun pretty => { reading with pretty := some pretty }

/-- Accepts or refuses what is held. -/
def settle (reading : Reading) : Except UsageFault Reading :=
  match reading.held with
  | none => .ok reading
  | some (_, none) => .error .invalidValue
  | some (slot, some value) => { reading with held := none }.accept slot value

/-- Turns on a switch. -/
def turnOn (reading : Reading) : Switch → Except UsageFault Reading
  | .noCache =>
    if reading.noCache then .error .repeatedOption else .ok { reading with noCache := true }
  | .shortMessages =>
    if reading.shortMessages then .error .repeatedOption
    else .ok { reading with shortMessages := true }
  | .help => .error .helpWanted
  | .version => .error .versionWanted

/-- Takes a word that starts with two dashes, without them. -/
def takeLong (reading : Reading) (word : List Char) : Except UsageFault Reading :=
  let name := word.takeWhile (· != '=')
  let joined : Option String :=
    match word.dropWhile (· != '=') with
    | [] => none
    | _ :: value => some (String.ofList value)
  match longName? name, joined with
  | none, _ => .error .unknownArgument
  | some (.inl slot), some value => do (← reading.settle).accept slot value
  | some (.inl slot), none => do
    return { (← reading.settle) with held := some (slot, none) }
  | some (.inr _), some _ => .error .valueOnSwitch
  | some (.inr switch), none => do (← reading.settle).turnOn switch

/-- Takes the first letter of a word that starts with one dash. -/
def takeShort (reading : Reading) (c : Char) : Except UsageFault Reading :=
  match shortName? c with
  | none => .error .unknownArgument
  | some switch => do (← reading.settle).turnOn switch

/-- Takes a word as the manifest. -/
def takeManifest (reading : Reading) (word : String) : Except UsageFault Reading :=
  if reading.manifestSeen then .error .unknownArgument
  else do
    return { (← reading.settle) with held := some (.manifest, some word), manifestSeen := true }

/-- Takes a word that is no option. -/
def takeValue (reading : Reading) (word : String) : Except UsageFault Reading :=
  match reading.held with
  | some (slot, none) => .ok { reading with held := some (slot, some word) }
  | _ => reading.takeManifest word

/-- Takes the next word. -/
def take (reading : Reading) (word : String) : Except UsageFault Reading :=
  if reading.ended then reading.takeManifest word
  else match word.toList with
    | ['-', '-'] => .ok { reading with ended := true }
    | '-' :: '-' :: rest => reading.takeLong rest
    | '-' :: c :: _ => reading.takeShort c
    | _ => reading.takeValue word

/-- The command that was read to the end. -/
def finish (reading : Reading) : Except UsageFault Arguments := do
  let reading ← reading.settle
  match reading.manifest with
  | none => throw .missingManifest
  | some manifest =>
    return {
      manifest := manifest
      options := reading.options
      noCache := reading.noCache
      shortMessages := reading.shortMessages
      format := reading.format.getD .text
      onlyType := reading.onlyType
      pretty := reading.pretty }

end Reading

/-- The command that a list of words gives. -/
def Arguments.parse (words : List String) : Except UsageFault Arguments := do
  (← words.foldlM Reading.take {}).finish

end CommandLine

end MemberResolution
