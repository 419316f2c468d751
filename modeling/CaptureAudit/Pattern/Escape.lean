import CaptureAudit.Pattern.Reading

/-! # Escapes in a pattern

What a backslash begins: a character by name or number, a character without its meaning, a class
or a place.
-/
namespace CaptureAudit.Pattern

open Read

def isMeta (c : Char) : Bool := "\\.+*?()|[]\x7b\x7d^$#&-~".toList.contains c

def isPlainEscape (c : Char) : Bool :=
  isMeta c || (c.toNat < 0x80 && !c.isAlphanum && c != '<' && c != '>')

def charOf? (code : Nat) : Option Char :=
  if code.isValidChar then some (Char.ofNat code) else none

def hexDigits : Nat → Read (List Char)
  | 0 => return []
  | count + 1 => do
    match ← peek? with
    | some c =>
      if isHexDigit c then
        let more ← next
        if count != 0 && !more then failHere .escapeUnfinished
        return c :: (← hexDigits count)
      else fail .hexDigitInvalid (← charSpan)
    | none => failHere .escapeUnfinished

def readHex (start : Position) (count : Nat) : Read Literal := do
  if !(← next) then failHere .escapeUnfinished
  let opening ← here
  if (← peek?) = some '{' then
    let inner := (← charSpan).stop
    let _ ← next
    let digits ← takeWhile isHexDigit (← fuel)
    let stop ← here
    match ← peek? with
    | none => failFrom .escapeUnfinished opening
    | some '}' =>
      let _ ← next
      if digits.isEmpty then failFrom .hexEmpty opening
      match charOf? (numberOf 16 digits) with
      | some c => return ⟨⟨start, ← here⟩, c, false⟩
      | none => fail .hexInvalid ⟨inner, stop⟩
    | some _ => fail .hexDigitInvalid (← charSpan)
  else
    let digits ← hexDigits count
    match charOf? (numberOf 16 digits) with
    | some c => return ⟨⟨start, ← here⟩, c, count = 2⟩
    | none => failFrom .hexInvalid opening

def readProperty : Read String := do
  if !(← next) then failHere .escapeUnfinished
  match ← peek? with
  | some '{' =>
    let _ ← next
    let name ← takeWhile (· != '}') (← fuel)
    if ← atEnd then failHere .escapeUnfinished
    advance
    return String.ofList name
  | some '\\' => fail .propertyInvalid (← charSpan)
  | some c =>
    let _ ← next
    return String.singleton c
  | none => failHere .escapeUnfinished

def isEdgeChar (c : Char) : Bool := c.isAlpha || c = '-'

def edgeOfName? : String → Option WordEdge
  | "start" => some .start
  | "end" => some .stop
  | "start-half" => some .startHalf
  | "end-half" => some .stopHalf
  | _ => none

/-- The kind of an edge in braces. Braces that hold no word are left for a count. -/
def readEdge (start : Position) : Read WordEdge := do
  let opening ← get
  if opening.rest.head? != some '{' then return .boundary
  if !(← next) then failFrom .wordEdgeUnfinished start
  let inner ← here
  if !(← peek?).any isEdgeChar then
    set opening
    return .boundary
  let name ← takeWhile isEdgeChar (← fuel)
  if (← peek?) != some '}' then failFrom .wordEdgeUnclosed opening.position
  let stop ← here
  advance
  match edgeOfName? (String.ofList name) with
  | some edge => return edge
  | none => fail .wordEdgeUnknown ⟨inner, stop⟩

def letterClass? : Char → Option (Bool × LetterClass)
  | 'd' => some (false, .digit)
  | 's' => some (false, .space)
  | 'w' => some (false, .word)
  | 'D' => some (true, .digit)
  | 'S' => some (true, .space)
  | 'W' => some (true, .word)
  | _ => none

def hexCount? : Char → Option Nat
  | 'x' => some 2
  | 'u' => some 4
  | 'U' => some 8
  | _ => none

def controlOf? : Char → Option Char
  | 'a' => some '\x07'
  | 'f' => some '\x0c'
  | 't' => some '\t'
  | 'n' => some '\n'
  | 'r' => some '\r'
  | 'v' => some '\x0b'
  | _ => none

def anchorOf? : Char → Option Anchor
  | 'A' => some .textStart
  | 'z' => some .textEnd
  | 'B' => some (.word .noBoundary)
  | '<' => some (.word .start)
  | '>' => some (.word .stop)
  | _ => none

def readSimpleEscape (start : Position) (c : Char) : Read Expression := do
  advance
  let span : Span := ⟨start, ← here⟩
  if isPlainEscape c then return .literal ⟨span, c, false⟩
  if let some control := controlOf? c then return .literal ⟨span, control, false⟩
  if let some anchor := anchorOf? c then return .anchor span anchor
  if c = 'b' then
    let edge ← readEdge start
    return .anchor ⟨start, ← here⟩ (.word edge)
  fail .escapeUnknown span

def readEscape : Read Expression := do
  let start ← here
  advance
  match ← peek? with
  | none => failFrom .escapeUnfinished start
  | some c =>
    if c.isDigit then fail .backreference ⟨start, (← charSpan).stop⟩
    else if let some count := hexCount? c then return .literal (← readHex start count)
    else if c = 'p' || c = 'P' then
      let name ← readProperty
      return .property ⟨start, ← here⟩ name
    else if let some (negated, kind) := letterClass? c then
      advance
      return .letter ⟨start, ← here⟩ negated kind
    else readSimpleEscape start c

def readChar (c : Char) : Read Literal := do
  let span ← charSpan
  advance
  return ⟨span, c, false⟩

end CaptureAudit.Pattern
