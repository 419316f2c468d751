import CaptureAudit.Json.Number

/-! # Reading JSON

A machine reads the text one character at a time. Open objects and arrays are kept on a stack
of its own, so there is no limit on nesting. Each step either continues or names the fault, so
what comes after a fault cannot change it.
-/
namespace CaptureAudit.Json

/-- An open container around the value being read; its items stand last one first. -/
inductive Frame where
  | array (before : List Document)
  /-- The members before the value, and the name that the value will have. -/
  | object (before : Members) (name : String)
  deriving Repr

inductive StringUse where
  | value
  /-- The name of the next member of an object that has the members `before`. -/
  | name (before : Members)
  deriving Repr

inductive Escape where
  | none
  | opened
  /-- Four bytes of hexadecimal digits: how many were read, and what they spell unless one of
  them is no digit. With `high`, the second half of a surrogate pair. -/
  | hex (high : Option Nat) (bytes : Nat) (value : Option Nat)
  /-- A high surrogate was read; `\` has to follow. -/
  | pairBackslash (high : Nat)
  | pairMark (high : Nat)
  deriving DecidableEq, Repr

inductive Gap where
  | value
  | firstItem
  /-- After `,` in an array with the items `before`, last one first. -/
  | nextItem (before : List Document)
  | afterItem (before : List Document)
  | firstName
  | nextName (before : Members)
  | colon (before : Members) (name : String)
  | afterMember (before : Members)
  | finished (document : Document)
  deriving Repr

inductive Phase where
  | gap (gap : Gap)
  /-- Inside a literal name: the character that has to follow, and those after it. -/
  | word (expected : Char) (rest : List Char) (denotes : Document)
  | number (read : Number)
  /-- Inside a string literal, with the characters read so far, last one first. -/
  | string (use : StringUse) (read : List Char) (escape : Escape)
  deriving Repr

structure State where
  offset : Nat
  phase : Phase
  context : List Frame
  deriving Repr

def State.initial : State := ⟨0, .gap .value, []⟩

def isBlank (c : Char) : Bool := c = ' ' || c = '\n' || c = '\t' || c = '\r'

def hexValue? (c : Char) : Option Nat :=
  if c.isDigit then some (c.toNat - '0'.toNat)
  else if 'a' ≤ c && c ≤ 'f' then some (c.toNat - 'a'.toNat + 10)
  else if 'A' ≤ c && c ≤ 'F' then some (c.toNat - 'A'.toNat + 10)
  else none

def simpleEscape? (c : Char) : Option Char :=
  match c with
  | '"' => some '"'
  | '\\' => some '\\'
  | '/' => some '/'
  | 'b' => some '\x08'
  | 'f' => some '\x0c'
  | 'n' => some '\n'
  | 'r' => some '\r'
  | 't' => some '\t'
  | _ => none

def isHighSurrogate (n : Nat) : Bool := 0xD800 ≤ n && n ≤ 0xDBFF

def isLowSurrogate (n : Nat) : Bool := 0xDC00 ≤ n && n ≤ 0xDFFF

def combineSurrogates (high low : Nat) : Char :=
  Char.ofNat ((high - 0xD800) * 0x400 + (low - 0xDC00) + 0x10000)

def deliver (value : Document) : List Frame → Gap × List Frame
  | [] => (.finished value, [])
  | .array before :: outer => (.afterItem (value :: before), outer)
  | .object before name :: outer => (.afterMember (before.put name value), outer)

/-- What reading one character gives: the next phase and context, or a cause together with the
bytes of the character that were needed to see it. -/
abbrev Step := Except (Cause × Nat) (Phase × List Frame)

namespace Step

def enter (phase : Phase) (context : List Frame) : Step := .ok (phase, context)

def stand (gap : Gap) (context : List Frame) : Step := .ok (.gap gap, context)

def complete (value : Document) (context : List Frame) : Step :=
  let (gap, outer) := deliver value context
  stand gap outer

def fail (cause : Cause) : Step := .error (cause, 1)

end Step

def beginValue (context : List Frame) (c : Char) : Step :=
  match c with
  | '[' => .stand .firstItem context
  | '\x7b' => .stand .firstName context
  | '"' => .enter (.string .value [] .none) context
  | 't' => .enter (.word 'r' ['u', 'e'] (.bool true)) context
  | 'f' => .enter (.word 'a' ['l', 's', 'e'] (.bool false)) context
  | 'n' => .enter (.word 'u' ['l', 'l'] .null) context
  | _ =>
    match Number.start? c with
    | some number => .enter (.number number) context
    | none => .fail .expectedValue

def endString (use : StringUse) (read : List Char) (context : List Frame) : Step :=
  let text := String.ofList read.reverse
  match use with
  | .value => .complete (.string text) context
  | .name before => .stand (.colon before text) context

def endHex (use : StringUse) (read : List Char) (context : List Frame) (high : Option Nat)
    (unit : Nat) : Step :=
  match high with
  | some first =>
    if isLowSurrogate unit then
      .enter (.string use (combineSurrogates first unit :: read) .none) context
    else .fail .loneSurrogate
  | none =>
    if isLowSurrogate unit then .fail .loneSurrogate
    else if isHighSurrogate unit then .enter (.string use read (.pairBackslash unit)) context
    else .enter (.string use (Char.ofNat unit :: read) .none) context

/-- A character inside a string literal. The four bytes after `\u` are judged together: a fault
among them shows only when all four are there. -/
def feedString (use : StringUse) (read : List Char) (context : List Frame) (escape : Escape)
    (c : Char) : Step :=
  match escape with
  | .none =>
    if c = '"' then endString use read context
    else if c = '\\' then .enter (.string use read .opened) context
    else if c.toNat < 0x20 then .fail .controlCharacter
    else .enter (.string use (c :: read) .none) context
  | .opened =>
    if c = 'u' then .enter (.string use read (.hex none 0 (some 0))) context
    else match simpleEscape? c with
      | some d => .enter (.string use (d :: read) .none) context
      | none => .fail .invalidEscape
  | .hex high bytes value =>
    let value := match value, hexValue? c with
      | some n, some d => some (16 * n + d)
      | _, _ => none
    if bytes + c.utf8Size < 4 then
      .enter (.string use read (.hex high (bytes + c.utf8Size) value)) context
    else match value with
      | some unit => endHex use read context high unit
      | none => .error (.invalidEscape, 4 - bytes)
  | .pairBackslash high =>
    if c = '\\' then .enter (.string use read (.pairMark high)) context
    else .fail .unpairedSurrogate
  | .pairMark high =>
    if c = 'u' then .enter (.string use read (.hex (some high) 0 (some 0))) context
    else .fail .unpairedSurrogate

def feedWord (expected : Char) (rest : List Char) (denotes : Document) (context : List Frame)
    (c : Char) : Step :=
  if c = expected then
    match rest with
    | [] => .complete denotes context
    | following :: rest => .enter (.word following rest denotes) context
  else .fail .expectedWord

def beginToken (gap : Gap) (context : List Frame) (c : Char) : Step :=
  match gap with
  | .value => beginValue context c
  | .firstItem =>
    if c = ']' then .complete (.array []) context
    else beginValue (.array [] :: context) c
  | .nextItem before =>
    if c = ']' then .fail .trailingComma
    else beginValue (.array before :: context) c
  | .afterItem before =>
    if c = ']' then .complete (.array before.reverse) context
    else if c = ',' then .stand (.nextItem before) context
    else .fail .expectedCommaOrListEnd
  | .firstName =>
    if c = '\x7d' then .complete (.object []) context
    else if c = '"' then .enter (.string (.name []) [] .none) context
    else .fail .keyNotString
  | .nextName before =>
    if c = '"' then .enter (.string (.name before) [] .none) context
    else if c = '\x7d' then .fail .trailingComma
    else .fail .keyNotString
  | .colon before name =>
    if c = ':' then .stand .value (.object before name :: context)
    else .fail .expectedColon
  | .afterMember before =>
    if c = '\x7d' then .complete (.object before) context
    else if c = ',' then .stand (.nextName before) context
    else .fail .expectedCommaOrObjectEnd
  | .finished _ => .fail .trailingCharacters

def feedGap (gap : Gap) (context : List Frame) (c : Char) : Step :=
  if isBlank c then .stand gap context else beginToken gap context c

/-- A number literal ends at the first character that cannot belong to it. That character is
then read as the one after a value. -/
def feedNumber (read : Number) (context : List Frame) (c : Char) : Step :=
  match read.feed? c with
  | some (.ok further) => .enter (.number further) context
  | some (.error cause) => .fail cause
  | none =>
    match read.finish with
    | .error cause => .error (cause, 0)
    | .ok value =>
      let (gap, outer) := deliver value context
      feedGap gap outer c

def feedPhase (phase : Phase) (context : List Frame) (c : Char) : Step :=
  match phase with
  | .gap gap => feedGap gap context c
  | .word expected rest denotes => feedWord expected rest denotes context c
  | .number read => feedNumber read context c
  | .string use read escape => feedString use read context escape c

def Gap.finish : Gap → Except Cause Document
  | finished document => .ok document
  | firstItem | afterItem _ => .error .endOfList
  | firstName | colon _ _ | afterMember _ => .error .endOfObject
  | value | nextItem _ | nextName _ => .error .endOfValue

def finishPhase (phase : Phase) (context : List Frame) : Except Cause Document :=
  match phase with
  | .gap gap => gap.finish
  | .word _ _ _ => .error .endOfValue
  | .string _ _ _ => .error .endOfString
  | .number read =>
    match read.finish with
    | .ok value => (deliver value context).1.finish
    | .error cause => .error cause

namespace State

def feed (s : State) (c : Char) : Except Fault State :=
  match feedPhase s.phase s.context c with
  | .ok (phase, context) => .ok ⟨s.offset + c.utf8Size, phase, context⟩
  | .error (cause, bytes) => .error ⟨cause, s.offset + bytes⟩

def finish (s : State) : Except Fault Document :=
  match finishPhase s.phase s.context with
  | .ok document => .ok document
  | .error cause => .error ⟨cause, s.offset⟩

def run (s : State) : List Char → Except Fault State
  | [] => .ok s
  | c :: rest =>
    match s.feed c with
    | .ok next => next.run rest
    | .error fault => .error fault

end State

def read (text : String) : Except Fault Document :=
  match State.initial.run text.toList with
  | .ok s => s.finish
  | .error fault => .error fault

end CaptureAudit.Json
