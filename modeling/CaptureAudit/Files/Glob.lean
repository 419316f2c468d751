import CaptureAudit.Text.Pieces

/-! # Patterns of names

In a pattern `?` stands for any character and `*` for any number of them. Brackets hold the
characters of which they stand for one, as ranges or one by one; with `!` in front they stand for
one of all others. Escaping puts a special character into brackets of its own.

Two stars in a row would stand for directories at any depth. Such patterns are not read here.
-/
namespace CaptureAudit.Glob

structure CharRange where
  first : Char
  last : Char
  deriving DecidableEq, Repr

def CharRange.holds (range : CharRange) (c : Char) : Bool := range.first ≤ c && c ≤ range.last

inductive Token where
  | char (c : Char)
  | anyChar
  | within (ranges : List CharRange)
  | except (ranges : List CharRange)
  | anySequence
  deriving DecidableEq, Repr

abbrev Pattern := List Token

def rangesOf : List Char → List CharRange
  | first :: '-' :: last :: rest => ⟨first, last⟩ :: rangesOf rest
  | c :: rest => ⟨c, c⟩ :: rangesOf rest
  | [] => []

mutual

/-- Reads a pattern. Brackets that are not closed are an error. -/
def read : List Char → Option Pattern
  | [] => some []
  | '?' :: rest => (read rest).map (.anyChar :: ·)
  | '*' :: '*' :: _ => none
  | '*' :: rest => (read rest).map (.anySequence :: ·)
  | '[' :: '!' :: c :: rest => readClass .except [c] rest
  | '[' :: c :: rest => readClass .within [c] rest
  | ['['] => none
  | c :: rest => (read rest).map (.char c :: ·)

/-- Reads on between brackets; `held` are the characters so far, the last one first. -/
def readClass (token : List CharRange → Token) (held : List Char) : List Char → Option Pattern
  | [] => none
  | ']' :: rest => (read rest).map (token (rangesOf held.reverse) :: ·)
  | c :: rest => readClass token (c :: held) rest

end

def literal? : Pattern → Option (List Char)
  | [] => some []
  | .char c :: rest => (literal? rest).map (c :: ·)
  | _ => none

def Token.accepts : Token → Char → Bool
  | char expected, c => c == expected
  | within ranges, c => ranges.any (·.holds c)
  | except ranges, c => !ranges.any (·.holds c)
  | anyChar, _ | anySequence, _ => true

def someEnd (test : List Char → Bool) : List Char → Bool
  | [] => test []
  | c :: rest => test (c :: rest) || someEnd test rest

def fits : Pattern → List Char → Bool
  | [], cs => cs.isEmpty
  | .anySequence :: tokens, cs => someEnd (fits tokens) cs
  | _ :: _, [] => false
  | token :: tokens, c :: cs => token.accepts c && fits tokens cs

def isSpecial (c : Char) : Bool := ['?', '*', '[', ']'].contains c

def escapeChar (c : Char) : List Char := if isSpecial c then ['[', c, ']'] else [c]

def escape (text : String) : String := String.ofList (text.toList.flatMap escapeChar)

end CaptureAudit.Glob
