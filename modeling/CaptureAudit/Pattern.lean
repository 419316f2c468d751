import CaptureAudit.Pattern.Meaning
import CaptureAudit.Pattern.Reader
import CaptureAudit.Pattern.Size

/-! # Patterns

A pattern is text that describes texts. It is read, given a meaning, and refused if that is too
large or asks for what is not known of Unicode.
-/
namespace CaptureAudit.Pattern

inductive Refusal where
  | fault (pattern : String) (fault : Fault)
  | tooLarge
  | unicodeWords
  deriving DecidableEq, Repr

def Refusal.message : Refusal → String
  | fault pattern cause => "\n".intercalate (cause.lines pattern)
  | tooLarge => "Compiled regex exceeds size limit of " ++ toString maxSize ++ " bytes."
  | unicodeWords => "error building NFA"

def Matcher.ofText (pattern : String) : Except Refusal Matcher :=
  match (Expression.ofText pattern).bind (Expression.meaning .initial) with
  | .error cause => .error (.fault pattern cause)
  | .ok (matcher, _) =>
    if matcher.isTooLarge then .error .tooLarge
    else if matcher.looksForUnicodeWords then .error .unicodeWords
    else .ok matcher

end CaptureAudit.Pattern
