/-! # Plain text

What is left of a text once its control sequences and control characters are taken out. Line
feeds, tabs and other blanks stay. A control sequence begins with an escape character; what ends
it depends on its kind. A sequence that does not end takes the rest of the text with it.
-/
namespace CaptureAudit.Text

/-- The part of a control sequence that a text is in. -/
inductive Control where
  | none
  | escape
  | intermediate
  | parameters
  | deviceStart
  | deviceParameters
  | deviceIntermediate
  /-- In the body of a device command, or in any other string. -/
  | string
  | systemCommand
  deriving DecidableEq, Repr

def isControl (c : Char) : Bool := c.toNat < 0x20 || c.toNat = 0x7F

def isSpacing (c : Char) : Bool := ['\t', '\n', '\x0C', '\r'].contains c

def isBetween (low high : Nat) (c : Char) : Bool := low ≤ c.toNat && c.toNat ≤ high

/-- Strings end at the byte `9C`, wherever it stands in a character. -/
def hasTerminator (c : Char) : Bool := (String.singleton c).toUTF8.data.contains 0x9C

namespace Control

def afterText (control : Control) (c : Char) : Control :=
  match control with
  | none => none
  | escape =>
    if isBetween 0x20 0x2F c then intermediate
    else if c = '[' then parameters
    else if c = ']' then systemCommand
    else if c = 'P' then deviceStart
    else if ['X', '^', '_'].contains c then string
    else if isBetween 0x30 0x7E c then none else escape
  | intermediate => if isBetween 0x30 0x7E c then none else intermediate
  | parameters => if isBetween 0x40 0x7E c then none else parameters
  | deviceStart =>
    if isBetween 0x20 0x2F c then deviceIntermediate
    else if isBetween 0x30 0x3F c then deviceParameters
    else if isBetween 0x40 0x7E c then string else deviceStart
  | deviceParameters =>
    if isBetween 0x20 0x2F c then deviceIntermediate
    else if isBetween 0x3C 0x7E c then string else deviceParameters
  | deviceIntermediate => if isBetween 0x30 0x7E c then string else deviceIntermediate
  | string => if hasTerminator c then none else string
  | systemCommand => systemCommand

/-- Sequences in which a spacing character is shown, and which it ends. -/
def yieldsToSpacing : Control → Bool
  | none | escape | intermediate | parameters => true
  | _ => false

def step (control : Control) (c : Char) : Control × Bool :=
  if c = '\x1b' then (escape, false)
  else if c = '\x18' || c = '\x1a' then (none, false)
  else if isControl c then
    if isSpacing c && control.yieldsToSpacing then (none, true)
    else if c = '\x07' && control = systemCommand then (none, false)
    else (control, false)
  else (control.afterText c, control = none)

end Control

def shown (control : Control) : List Char → List Char
  | [] => []
  | c :: rest =>
    match control.step c with
    | (next, true) => c :: shown next rest
    | (next, false) => shown next rest

def plain (text : String) : String := String.ofList (shown .none text.toList)

end CaptureAudit.Text
