import ClassLang.Command.Event
import ClassLang.Text.Alphanumeric
import ClassLang.Text.Blank
import ClassLang.Text.Integer
/-!
Filters: which events are shown. A filter is a list of directives, each for the targets that start
with a text, and the one for the longest text decides.
-/

namespace ClassLang

/-- Shows the events of some targets up to a level of detail, or none of them. -/
structure LogDirective where
  target : String
  limit : Option LogLevel
  deriving DecidableEq, Repr

namespace LogDirective

/-- The limit of a rank, from none of the events to all of them. -/
def limitOfRank? : Nat → Option (Option LogLevel)
  | 0 => some none
  | 1 => some (some .error)
  | 2 => some (some .warn)
  | 3 => some (some .info)
  | 4 => some (some .debug)
  | 5 => some (some .trace)
  | _ => none

def limitOfName? (name : List Char) : Option (Option LogLevel) :=
  match String.ofList (name.map Char.toLower) with
  | "off" => some none
  | "error" => some (some .error)
  | "warn" => some (some .warn)
  | "info" => some (some .info)
  | "debug" => some (some .debug)
  | "trace" => some (some .trace)
  | _ => none

/-- The limit that a text stands for, by its rank, which may have a plus sign, or by its name. -/
def limitOf? (text : List Char) : Option (Option LogLevel) :=
  let digits := match text with
    | '+' :: digits => digits
    | _ => text
  match decimalValue? digits with
  | some rank => limitOfRank? rank
  | none => limitOfName? text

/-- The characters that a directive may begin with, after white space. -/
def isOpening (c : Char) : Bool :=
  isAlphanumeric c || c = '_' || c = '-' || c = ':'

/-- A limit for all targets, or a target all events of which are shown. -/
def ofWord (text : List Char) : LogDirective :=
  match limitOf? text with
  | some limit => ⟨"", limit⟩
  | none => ⟨String.ofList text, some .trace⟩

/-- A target with its limit. Without a limit all its events are shown. -/
def ofPair? (target limit : List Char) : Option LogDirective :=
  if limit = [] then some ⟨String.ofList target, some .trace⟩
  else (limitOf? limit).map fun limit => ⟨String.ofList target, limit⟩

/--
The directive of a text: a target and its limit, which the first equals sign parts, or one of them
alone. White space belongs to what it stands beside, and must not come before a pair.
-/
def ofText? (text : List Char) : Option LogDirective :=
  match text.dropWhile isBlank with
  | [] => none
  | c :: _ =>
      if isOpening c then
        match text.dropWhile (· ≠ '=') with
        | [] => some (ofWord text)
        | _ :: limit =>
            if (text.takeWhile isBlank).isEmpty then ofPair? (text.takeWhile (· ≠ '=')) limit
            else none
      else none

def appliesTo (d : LogDirective) (e : LogEvent) : Bool :=
  d.target.toList.isPrefixOf e.target.toList

def shows (d : LogDirective) (e : LogEvent) : Bool :=
  match d.limit with
  | none => false
  | some level => e.level.detail ≤ level.detail

end LogDirective

structure LogFilter where
  directives : List LogDirective
  deriving DecidableEq, Repr

namespace LogFilter

/-- The filter of the command's own events, up to a level of detail. -/
def ofCommand (level : LogLevel) : LogFilter :=
  ⟨[⟨LogEvent.commandTarget, some level⟩]⟩

/-- The filter of a text, which has directives between commas. Without one, errors are shown. -/
def ofText? (text : String) : Option LogFilter := do
  let texts := (text.splitOn ",").filter (· ≠ "")
  let directives ← texts.mapM fun directive => LogDirective.ofText? directive.toList
  return if directives.isEmpty then ⟨[⟨"", some .error⟩]⟩ else ⟨directives⟩

/-- Of the directives that apply, those for a longer text decide, and of equal ones the last. -/
def stronger (e : LogEvent) (best : Option LogDirective) (d : LogDirective) :
    Option LogDirective :=
  if d.appliesTo e then
    match best with
    | none => some d
    | some b => if b.target.length ≤ d.target.length then some d else some b
  else best

/-- The directive that decides about an event. -/
def decisive? (f : LogFilter) (e : LogEvent) : Option LogDirective :=
  f.directives.foldl (stronger e) none

def shows (f : LogFilter) (e : LogEvent) : Bool :=
  match f.decisive? e with
  | none => false
  | some d => d.shows e

end LogFilter

end ClassLang
