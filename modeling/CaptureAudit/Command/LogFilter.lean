import CaptureAudit.Log
import CaptureAudit.Pattern
import CaptureAudit.Text.Plain

/-! # Choosing log records

A specification lists levels for targets, with commas between them: `debug`, `tmcaps=info`, or a
target alone for all its records. The directive with the longest target that a record's target
begins with decides. What stands after a slash is a pattern for the message. Without a
specification only errors are shown.
-/
namespace CaptureAudit.Command

/-- The most verbose level that is shown for a target; `none` shows nothing. Without a target it
holds for all of them. -/
structure Directive where
  target : Option String
  level : Option LogLevel
  deriving DecidableEq, Repr

structure LogFilter where
  directives : List Directive
  message : Option Pattern.Matcher
  deriving DecidableEq, Repr

inductive SpecificationError where
  | tooManySlashes (specification : String)
  | invalid (part : String)
  | pattern (refusal : Pattern.Refusal)
  deriving DecidableEq, Repr

def SpecificationError.reason : SpecificationError → String
  | tooManySlashes specification =>
    "invalid logging spec '" ++ specification ++ "' (too many '/'s)"
  | invalid part => "invalid logging spec '" ++ part ++ "'"
  | pattern refusal => "invalid regex filter - " ++ refusal.message

def SpecificationError.message (error : SpecificationError) : String :=
  "warning: " ++ error.reason ++ ", ignoring it"

def levelOfName? (name : String) : Option (Option LogLevel) :=
  let upper := name.map Char.toUpper
  if upper = "OFF" then some none
  else ([.error, .warn, .info, .debug, .trace].find? fun level : LogLevel =>
    level.name == upper).map some

/-- Reads one part of a list, already trimmed and not empty. Blanks before the sign of equality
belong to the target. -/
def Directive.parse (part : String) : Except SpecificationError Directive :=
  match Text.piecesOf '=' part with
  | [single] =>
    match levelOfName? single with
    | some level => .ok ⟨none, level⟩
    | none => .ok ⟨some single, some .trace⟩
  | [target, level] =>
    let level := Text.trimmed level
    if level = "" then .ok ⟨some target, some .trace⟩
    else match levelOfName? level with
      | some level => .ok ⟨some target, level⟩
      | none => .error (.invalid level)
  | _ => .error (.invalid part)

namespace LogFilter

def errorsOnly : LogFilter := ⟨[⟨none, some .error⟩], none⟩

/-- A directive takes the place of an earlier one for the same target. -/
def insert (directive : Directive) : List Directive → List Directive
  | [] => [directive]
  | other :: rest =>
    if other.target = directive.target then directive :: rest else other :: insert directive rest

def addParts (directives : List Directive) :
    List String → List Directive × List SpecificationError
  | [] => (directives, [])
  | part :: rest =>
    if part = "" then addParts directives rest
    else match Directive.parse part with
      | .ok directive => addParts (insert directive directives) rest
      | .error error =>
        let (directives, errors) := addParts directives rest
        (directives, error :: errors)

/-- The filter of a list of directives; none at all means errors only. -/
def ofDirectives (directives : List Directive) (message : Option Pattern.Matcher) : LogFilter :=
  if directives.isEmpty then { errorsOnly with message := message } else ⟨directives, message⟩

def messagePattern : Option String → Option Pattern.Matcher × List SpecificationError
  | none => (none, [])
  | some text =>
    match Pattern.Matcher.ofText text with
    | .ok matcher => (some matcher, [])
    | .error refusal => (none, [.pattern refusal])

def ofParts (list : String) (text : Option String) : LogFilter × List SpecificationError :=
  let (directives, errors) := addParts [] ((Text.piecesOf ',' list).map Text.trimmed)
  let (message, patternErrors) := messagePattern text
  (ofDirectives directives message, errors ++ patternErrors)

def parse (specification : String) : LogFilter × List SpecificationError :=
  match Text.piecesOf '/' specification with
  | [list] => ofParts list none
  | [list, text] => ofParts list (some text)
  | _ => (errorsOnly, [.tooManySlashes specification])

def targetSize (directive : Directive) : Nat :=
  match directive.target with
  | some target => target.utf8ByteSize
  | none => 0

def covers (directive : Directive) (target : String) : Bool :=
  match directive.target with
  | some stem => stem.toList.isPrefixOf target.toList
  | none => true

/-- The directive that decides on a target: the last of those with the longest target. -/
def deciding? (filter : LogFilter) (target : String) : Option Directive :=
  let bySize := filter.directives.mergeSort fun a b => targetSize a ≤ targetSize b
  bySize.reverse.find? (covers · target)

def shows (filter : LogFilter) (record : LogRecord) : Bool :=
  let levelShown := match filter.deciding? record.target.name with
    | some ⟨_, some level⟩ => record.level.verbosity ≤ level.verbosity
    | _ => false
  let messageShown := match filter.message with
    | some matcher => matcher.occursIn record.message.toList
    | none => true
  levelShown && messageShown

end LogFilter

def indented (message : String) : String :=
  String.ofList <| message.toList.flatMap fun c =>
    if c = '\n' then ['\n', ' ', ' ', ' ', ' '] else [c]

/-- A record as a line of plain text. Its end is part of the text, so a control sequence that the
message leaves open can take it. -/
def logLine (record : LogRecord) : String :=
  let level := record.level.name
  let padding := String.ofList (List.replicate (5 - level.length) ' ')
  "[" ++ level ++ padding ++ " " ++ record.target.name ++ "] " ++
    Text.plain (indented record.message ++ "\n")

end CaptureAudit.Command
