import CaptureAudit.Pattern.Expression
import CaptureAudit.Text.Pieces

/-! # Faults of a pattern

A fault has a cause and the span that it concerns, in some cases with an earlier span that it
contradicts. Its message shows the pattern with carets under both.
-/
namespace CaptureAudit.Pattern

def maxNesting : Nat := 250

inductive Cause where
  | classEscapeInvalid
  | classRangeReversed
  | classRangeBound
  | classUnclosed
  | decimalInvalid
  | hexEmpty
  | hexInvalid
  | hexDigitInvalid
  | escapeUnfinished
  | escapeUnknown
  | flagDanglingNegation
  | flagRepeated
  | flagNegationRepeated
  | flagUnfinished
  | flagUnknown
  | groupNameRepeated
  | groupNameEmpty
  | groupNameInvalid
  | groupNameUnfinished
  | groupUnclosed
  | groupUnopened
  | tooNested
  | countReversed
  | countEmpty
  | countUnclosed
  | nothingToRepeat
  | wordEdgeUnclosed
  | wordEdgeUnknown
  | wordEdgeUnfinished
  | propertyInvalid
  | backreference
  | lookAround
  | notUtf8
  | unicodeNotAllowed
  | propertyUnknown
  | propertyValueUnknown
  | letterClassUnavailable
  | caseUnavailable
  deriving DecidableEq, Repr

def Cause.message : Cause → String
  | classEscapeInvalid => "invalid escape sequence found in character class"
  | classRangeReversed => "invalid character class range, the start must be <= the end"
  | classRangeBound => "invalid range boundary, must be a literal"
  | classUnclosed => "unclosed character class"
  | decimalInvalid => "decimal literal invalid"
  | hexEmpty => "hexadecimal literal empty"
  | hexInvalid => "hexadecimal literal is not a Unicode scalar value"
  | hexDigitInvalid => "invalid hexadecimal digit"
  | escapeUnfinished => "incomplete escape sequence, reached end of pattern prematurely"
  | escapeUnknown => "unrecognized escape sequence"
  | flagDanglingNegation => "dangling flag negation operator"
  | flagRepeated => "duplicate flag"
  | flagNegationRepeated => "flag negation operator repeated"
  | flagUnfinished => "expected flag but got end of regex"
  | flagUnknown => "unrecognized flag"
  | groupNameRepeated => "duplicate capture group name"
  | groupNameEmpty => "empty capture group name"
  | groupNameInvalid => "invalid capture group character"
  | groupNameUnfinished => "unclosed capture group name"
  | groupUnclosed => "unclosed group"
  | groupUnopened => "unopened group"
  | tooNested =>
    "exceed the maximum number of nested parentheses/brackets (" ++ toString maxNesting ++ ")"
  | countReversed => "invalid repetition count range, the start must be <= the end"
  | countEmpty => "repetition quantifier expects a valid decimal"
  | countUnclosed => "unclosed counted repetition"
  | nothingToRepeat => "repetition operator missing expression"
  | wordEdgeUnclosed =>
    "special word boundary assertion is either unclosed or contains an invalid character"
  | wordEdgeUnknown =>
    "unrecognized special word boundary assertion, valid choices are: start, end, " ++
      "start-half or end-half"
  | wordEdgeUnfinished =>
    "found start of special word boundary or bounded repetition without an end"
  | propertyInvalid => "invalid Unicode character class"
  | backreference => "backreferences are not supported"
  | lookAround => "look-around, including look-ahead and look-behind, is not supported"
  | notUtf8 => "pattern can match invalid UTF-8"
  | unicodeNotAllowed => "Unicode not allowed here"
  | propertyUnknown => "Unicode property not found"
  | propertyValueUnknown => "Unicode property value not found"
  | letterClassUnavailable =>
    "Unicode-aware Perl class not found (make sure the unicode-perl feature is enabled)"
  | caseUnavailable =>
    "Unicode-aware case insensitivity matching is not available (make sure the unicode-case " ++
      "feature is enabled)"

structure Fault where
  cause : Cause
  span : Span
  earlier : Option Span
  deriving DecidableEq, Repr

namespace Span

def isOnOneLine (span : Span) : Bool := span.start.line = span.stop.line

/-- Whether a span begins before another one, or ends first if both begin together. -/
def isBefore (a b : Span) : Bool :=
  let key (span : Span) :=
    [span.start.line, span.start.column, span.stop.line, span.stop.column]
  decide (key a < key b)

def linesNote (span : Span) : String :=
  "on line " ++ toString span.start.line ++ " (column " ++ toString span.start.column ++
    ") through line " ++ toString span.stop.line ++ " (column " ++
    toString (span.stop.column - 1) ++ ")"

end Span

def addCarets (marks : List Char) (span : Span) : List Char :=
  marks ++ List.replicate (span.start.column - 1 - marks.length) ' ' ++
    List.replicate (max 1 (span.stop.column - span.start.column)) '^'

namespace Fault

def spans (fault : Fault) : List Span :=
  match fault.earlier with
  | some other =>
    if fault.span.isBefore other then [fault.span, other] else [other, fault.span]
  | none => [fault.span]

def notedLine (fault : Fault) (margin : Nat → String) (number : Nat) (line : String) :
    List String :=
  let here := fault.spans.filter fun span => span.isOnOneLine && span.start.line = number
  (margin number ++ line) ::
    if here.isEmpty then []
    else [String.ofList (List.replicate (margin number).length ' ' ++ here.foldl addCarets [])]

def notedLines (fault : Fault) (margin : Nat → String) (pattern : String) : List String :=
  let lines := Text.linesOf pattern
  ((List.range' 1 lines.length).zip lines).flatMap fun (number, line) =>
    fault.notedLine margin number line

def numberMargin (width number : Nat) : String :=
  let digits := toString number
  String.ofList (List.replicate (width - digits.length) ' ') ++ digits ++ ": "

/-- The lines of a fault's message. Lines are numbered if the pattern has line feeds. -/
def lines (fault : Fault) (pattern : String) : List String :=
  let reason := "error: " ++ fault.cause.message
  if pattern.toList.contains '\n' then
    let count := (Text.piecesOf '\n' pattern).length
    let rule := String.ofList (List.replicate 79 '~')
    ["regex parse error:", rule] ++
      fault.notedLines (numberMargin (toString count).length) pattern ++ [rule] ++
      (fault.spans.filter (!·.isOnOneLine)).map Span.linesNote ++ [reason]
  else ["regex parse error:"] ++ fault.notedLines (fun _ => "    ") pattern ++ [reason]

end Fault

end CaptureAudit.Pattern
