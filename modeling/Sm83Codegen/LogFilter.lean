import Sm83Codegen.Logged
import Sm83Codegen.Regex.Reading
import Sm83Codegen.Text.Blank
import Sm83Codegen.Text.Plain
import Sm83Codegen.Text.Word

/-!
# Which reports are shown

A level names how severe a report has to be. A filter has levels for the reports whose source
starts with a name, and for all others; and it may have a pattern that the text of a report has to
contain.

* `Component.source` -- the name under which a part of the program reports;
* `LogFilter.ofText`, `LogFilter.shows` -- a filter and what passes it;
* `LogRecord.lines` -- how a report is shown.
-/

namespace Sm83Codegen

/-! ## 1. Sources and levels -/

/-- The name under which a part of the program reports. -/
def Component.source : Component → String
  | operands => "marty_opgen::operand"
  | table => "marty_opgen::table"
  | families => "marty_opgen::descriptor"
  | testCases => "marty_opgen::emit::tests"
  | generation => "marty_opgen::pipeline"
  | output => "martypc_opgen"

/-- The rank of the least severe reports that a level shows. Capital and small letters are the
    same. -/
def levelRank? (cs : List Char) : Option Nat :=
  let name := String.ofList (cs.map Text.lowered)
  if name == "off" then some 0
  else if name == "error" then some Severity.error.rank
  else if name == "warn" then some Severity.warn.rank
  else if name == "info" then some Severity.info.rank
  else if name == "debug" then some Severity.debug.rank
  else if name == "trace" then some (Severity.debug.rank + 1)
  else none

/-- The rank that shows everything. -/
def fullRank : Nat := Severity.debug.rank + 1

/-! ## 2. Filters -/

/-- A level for the sources that start with a name, or for all. -/
structure LogDirective where
  source : Option (List Char)
  rank : Nat
  deriving DecidableEq, Repr

namespace LogDirective

/-- How many characters of a source a directive fixes. -/
def length (d : LogDirective) : Nat := (d.source.getD []).length

/-- Whether a directive is about a source. -/
def fits (d : LogDirective) (source : String) : Bool :=
  (d.source.getD []).isPrefixOf source.toList

/-- A directive: a level, a name, or a name, an equals sign and a level. -/
def ofText? (cs : List Char) : Option LogDirective :=
  match Text.pieces (fun c => c == '=') cs with
  | [word] =>
    match levelRank? word with
    | some rank => some ⟨none, rank⟩
    | none => some ⟨some word, fullRank⟩
  | [name, level] =>
    let level := Text.trim level
    if level.isEmpty then some ⟨some name, fullRank⟩
    else (levelRank? level).map (fun rank => ⟨some name, rank⟩)
  | _ => none

end LogDirective

/-- Directives, of which the one with the longest name that fits decides; and the pattern that the
    text of a report has to contain. -/
structure LogFilter where
  directives : List LogDirective
  pattern : Option Regex
  deriving DecidableEq, Repr

namespace LogFilter

/-- Puts a directive last, or in the place of the one for the same name. -/
def put (d : LogDirective) : List LogDirective → List LogDirective
  | [] => [d]
  | e :: rest => if e.source == d.source then d :: rest else e :: put d rest

/-- The directives between commas. Without any, only errors are shown. -/
def directivesOf (cs : List Char) : List LogDirective :=
  let parts := (Text.pieces (fun c => c == ',') cs).map Text.trim
  let read := (parts.filter (fun p => !p.isEmpty)).filterMap LogDirective.ofText?
  let ds := read.foldl (fun ds d => put d ds) []
  if ds.isEmpty then [⟨none, Severity.error.rank⟩] else ds

/-- A filter: directives, and the pattern behind a slash. What is no pattern asks for nothing, and
    of a text with two slashes nothing is read. -/
def ofText (s : String) : LogFilter :=
  match Text.pieces (fun c => c == '/') s.toList with
  | [directives] => ⟨directivesOf directives, none⟩
  | [directives, pattern] => ⟨directivesOf directives, Regex.ofText? pattern⟩
  | _ => ⟨directivesOf [], none⟩

/-- The longer of two directives, the second one of two as long. -/
def longer (d : Option LogDirective) (e : LogDirective) : Option LogDirective :=
  match d with
  | none => some e
  | some d => if d.length ≤ e.length then some e else some d

/-- The directive that decides about a source. -/
def decisive (f : LogFilter) (source : String) : Option LogDirective :=
  (f.directives.filter (fun d => d.fits source)).foldl longer none

/-- Whether a text contains what the pattern asks for. -/
def admits (f : LogFilter) (text : String) : Bool :=
  match f.pattern with
  | some r => r.occursIn text.toList
  | none => true

/-- Whether a report is shown. -/
def shows (f : LogFilter) (r : LogRecord) : Bool :=
  match f.decisive r.component.source with
  | some d => r.severity.rank ≤ d.rank && f.admits r.text
  | none => false

end LogFilter

/-! ## 3. Shown reports -/

/-- The name of a severity, five characters wide. -/
def Severity.label : Severity → String
  | error => "ERROR"
  | warn => "WARN "
  | info => "INFO "
  | debug => "DEBUG"

/-- A line without the carriage return at its end. -/
def withoutReturn (line : List Char) : List Char :=
  match line.reverse with
  | '\r' :: cs => cs.reverse
  | _ => line

/-- A report as it is shown: its severity, its source and its text. Further lines of the text are
    indented, and what a terminal would take as commands is left out. -/
def LogRecord.lines (r : LogRecord) : List String :=
  let head := "[" ++ r.severity.label ++ " " ++ r.component.source ++ "] "
  let text := r.text.toList.flatMap (fun c => if c == '\n' then "\n    ".toList else [c])
  let shown := Text.plain (head.toList ++ text)
  (Text.pieces (fun c => c == '\n') shown).map (fun line => String.ofList (withoutReturn line))

end Sm83Codegen
