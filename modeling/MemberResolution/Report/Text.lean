/-
Reports as text for a terminal.

With colours, a piece of text stands between the code of its style and the code
that ends all styles; if the piece itself ends all styles somewhere, its style is
taken up again there.
-/
import MemberResolution.Report

namespace MemberResolution

namespace Report

/-! ### Styles -/

/-- How a piece of text is shown. -/
inductive Style where
  | bold
  | red
  | green
  | yellow
  | cyan
  | boldRed
  | boldYellow
  | boldBlue
  | boldCyan
  | brightBlue
  deriving DecidableEq, Repr

/-- The code of a style; where there are two, the weight comes before the colour. -/
def Style.code : Style → String
  | .bold => "1"
  | .red => "31"
  | .green => "32"
  | .yellow => "33"
  | .cyan => "36"
  | .boldRed => "1;31"
  | .boldYellow => "1;33"
  | .boldBlue => "1;34"
  | .boldCyan => "1;36"
  | .brightBlue => "94"

/-- A terminal code. -/
def escapeCode (code : String) : String :=
  "\x1b[" ++ code ++ "m"

/-- A piece of text in a style, where colours are on. -/
def paint (color : Bool) (style : Style) (text : String) : String :=
  if color then
    let start := escapeCode style.code
    let reset := escapeCode "0"
    start
      ++ String.ofList (replaceFrom reset.toList (reset ++ start).toList 0 text.toList)
      ++ reset
  else text

/-! ### Parts -/

/-- The name of an outcome, its colour a sign of how good it is. -/
def labelText (color : Bool) (label : OutcomeLabel) : String :=
  let style : Style :=
    match label with
    | .proxy | .replaced => .cyan
    | .external | .unimplemented => .yellow
    | .refused => .red
    | .own => .green
  paint color style label.text

/-- The line of a member: signature, name, outcome, and where its body comes from. -/
def memberText (color : Bool) (record : MemberRecord) : String :=
  record.signature ++ " -> " ++ record.identifier ++ " [" ++ labelText color record.outcome ++ "]"
    ++ (match record.proxy with
      | some proxy => " from " ++ proxy
      | none => "")
    ++ (match record.replacement with
      | some expression => " = " ++ expression
      | none => "")

/-- The line of a type and, indented, those of its members. -/
def typeText (color : Bool) (record : TypeRecord) : String :=
  paint color .bold (record.name.text ++ " -> " ++ record.reference)
    ++ " [" ++ labelText color record.outcome ++ "]\n"
    ++ String.join (record.members.map fun member => "  " ++ memberText color member ++ "\n")

/-- The name of a category. -/
def categoryText (color : Bool) : Category → String
  | .error => paint color .boldRed "error"
  | .warning => paint color .boldYellow "warning"
  | .suggestion => paint color .boldBlue "suggestion"
  | .message => paint color .boldCyan "message"

/-- The line of a diagnostic: symbol, category, code and text. -/
def diagnosticText (color : Bool) (diagnostic : Diagnostic) : String :=
  (match diagnostic.symbol with
    | some symbol => symbol ++ " - "
    | none => "")
  ++ categoryText color diagnostic.category ++ " "
  ++ paint color .brightBlue ("ILX" ++ toString diagnostic.code) ++ ": " ++ diagnostic.text

/-- How much was resolved and found. -/
def summaryText (report : Report) : String :=
  "Resolved " ++ toString report.types.length ++ " types and "
    ++ toString (report.types.flatMap (·.members)).length ++ " members: "
    ++ toString report.diagnostics.length ++ " diagnostics (cache "
    ++ toString report.cache.hits ++ " hits / " ++ toString report.cache.misses ++ " misses)."

/-! ### Reports and errors -/

/-- The types, the diagnostics and the summary. -/
def text (color : Bool) (report : Report) : String :=
  String.join (report.types.map (typeText color))
    ++ String.join (report.diagnostics.map fun diagnostic =>
        "\n" ++ diagnosticText color diagnostic)
    ++ "\n" ++ summaryText report

/-- The line of a configuration error. -/
def errorText (color : Bool) (error : ConfigurationError) : String :=
  diagnosticText color error.toDiagnostic

end Report

end MemberResolution
