import ClassLang.Diagnostic.Basic
import ClassLang.Source.Line
import ClassLang.Text.Blank
/-!
Reports: a diagnostic with the line of the source it is about, and a caret under the place.
-/

namespace ClassLang

namespace LinePlace

/-- Spaces and tabs, which a report leaves out at the start of a line. -/
def isIndent (c : Char) : Bool :=
  c = ' ' || c = '\t'

/-- The line as a report shows it: without its indentation and the white space at its end. -/
def shown (place : LinePlace) : List Char :=
  dropBlanksAtEnd (place.text.dropWhile isIndent)

/-- The number of characters before the place in the line as it is shown. -/
def shownColumn (place : LinePlace) : Nat :=
  place.charColumn - (place.text.takeWhile isIndent).length

/--
The three lines that show the place: a bar under the line number, the source line, and the caret,
which dashes lead up to.
-/
def excerpt (place : LinePlace) : List String :=
  let label := toString place.number
  let bar := String.ofList (List.replicate (label.length + 1) ' ') ++ "|"
  let dashes := String.ofList (List.replicate place.shownColumn '-')
  [bar, label ++ " | " ++ String.ofList place.shown, bar ++ " " ++ dashes ++ "^"]

end LinePlace

namespace Diagnostic

/-- The first line of a report. -/
def headline (d : Diagnostic) : String :=
  let advice := match d.tip with
    | none => ""
    | some tip => "; " ++ tip
  "Error: " ++ d.stage.errorName ++ " (" ++ d.message ++ advice ++ ")"

/-- The lines of a report. A place outside the source is not shown. -/
def reportLines (d : Diagnostic) (source file : String) : List String :=
  let excerpt := match lineAt? source.toList d.position.offset.toNat with
    | none => []
    | some place => place.excerpt
  [d.headline, "-> " ++ file] ++ excerpt

/-- The report of a diagnostic about a file with this source, each line ended by a newline. -/
def report (d : Diagnostic) (source file : String) : String :=
  String.join ((d.reportLines source file).map (· ++ "\n"))

end Diagnostic

end ClassLang
