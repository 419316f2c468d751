/-! # Why a text is not JSON

A fault is a cause together with the number of bytes that were needed to see it. Line and
column follow from the text and that number alone.
-/
namespace CaptureAudit.Json

inductive Cause where
  | endOfValue
  | endOfList
  | endOfObject
  | endOfString
  | expectedValue
  | expectedWord
  | expectedColon
  | expectedCommaOrListEnd
  | expectedCommaOrObjectEnd
  | keyNotString
  | trailingComma
  | trailingCharacters
  | invalidNumber
  | numberOutOfRange
  | invalidEscape
  | loneSurrogate
  | unpairedSurrogate
  | controlCharacter
  deriving DecidableEq, Repr

namespace Cause

/-- The text stopped too early, and a continuation may still be JSON. -/
def isEndOfInput : Cause → Bool
  | endOfValue | endOfList | endOfObject | endOfString => true
  | _ => false

def describe : Cause → String
  | endOfValue => "EOF while parsing a value"
  | endOfList => "EOF while parsing a list"
  | endOfObject => "EOF while parsing an object"
  | endOfString => "EOF while parsing a string"
  | expectedValue => "expected value"
  | expectedWord => "expected ident"
  | expectedColon => "expected `:`"
  | expectedCommaOrListEnd => "expected `,` or `]`"
  | expectedCommaOrObjectEnd => "expected `,` or `\x7d`"
  | keyNotString => "key must be a string"
  | trailingComma => "trailing comma"
  | trailingCharacters => "trailing characters"
  | invalidNumber => "invalid number"
  | numberOutOfRange => "number out of range"
  | invalidEscape => "invalid escape"
  | loneSurrogate => "lone leading surrogate in hex escape"
  | unpairedSurrogate => "unexpected end of hex escape"
  | controlCharacter => "control character (\\u0000-\\u001F) found while parsing a string"

end Cause

structure Fault where
  cause : Cause
  offset : Nat
  deriving DecidableEq, Repr

structure Position where
  line : Nat
  column : Nat
  deriving DecidableEq, Repr

def positionFrom (offset start : Nat) (position : Position) : List Char → Position
  | [] => { position with column := position.column + (offset - start) }
  | c :: rest =>
    if offset ≤ start then position
    else if c = '\n' then positionFrom offset (start + 1) ⟨position.line + 1, 0⟩ rest
    else
      positionFrom offset (start + c.utf8Size)
        { position with column := position.column + min c.utf8Size (offset - start) } rest

/-- Lines count from one; a column is the number of bytes since the last line feed. -/
def Fault.position (fault : Fault) (text : String) : Position :=
  positionFrom fault.offset 0 ⟨1, 0⟩ text.toList

def Fault.message (fault : Fault) (text : String) : String :=
  let position := fault.position text
  s!"{fault.cause.describe} at line {position.line} column {position.column}"

end CaptureAudit.Json
