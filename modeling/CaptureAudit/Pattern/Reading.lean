import CaptureAudit.Pattern.Fault

/-! # How far a pattern has been read

A reading is what is left of a pattern and the place where that begins. In verbose mode blanks,
and comments up to the end of their line, are passed over between the parts. Loops have as much
fuel as the pattern has characters, and each of their steps takes at least one.
-/
namespace CaptureAudit.Pattern

structure Reading where
  rest : List Char
  position : Position
  /-- Blanks and comments are passed over. -/
  verbose : Bool
  names : List (String × Span)
  /-- Characters of the whole pattern, which no loop takes more of. -/
  length : Nat

namespace Reading

def start (pattern : String) : Reading :=
  ⟨pattern.toList, .first, false, [], pattern.length⟩

def advance (reading : Reading) : Reading :=
  match reading.rest with
  | [] => reading
  | c :: rest => { reading with rest := rest, position := reading.position.after c }

def behindBlanks (inComment : Bool) (position : Position) : List Char → List Char × Position
  | [] => ([], position)
  | c :: rest =>
    if inComment then behindBlanks (c != '\n') (position.after c) rest
    else if Text.isBlank c then behindBlanks false (position.after c) rest
    else if c = '#' then behindBlanks true (position.after c) rest
    else (c :: rest, position)

def skipBlanks (reading : Reading) : Reading :=
  if reading.verbose then
    let (rest, position) := behindBlanks false reading.position reading.rest
    { reading with rest := rest, position := position }
  else reading

def firstText? (signSeen : Bool) : List Char → Option Char
  | [] => none
  | c :: rest =>
    if Text.isBlank c then firstText? signSeen rest
    else if c = '#' && !signSeen then firstText? true rest
    else some c

def second? (reading : Reading) : Option Char :=
  if reading.verbose then
    (firstText? false reading.rest.tail).or reading.rest.tail.head?
  else reading.rest.tail.head?

end Reading

abbrev Read := StateT Reading (Except Fault)

namespace Read

def peek? : Read (Option Char) := return (← get).rest.head?

def here : Read Position := return (← get).position

def atEnd : Read Bool := return (← get).rest.isEmpty

def fuel : Read Nat := return (← get).length + 1

def advance : Read Unit := modify Reading.advance

def skipBlanks : Read Unit := modify Reading.skipBlanks

/-- Takes one character and the blanks behind it; tells whether something is left. -/
def next : Read Bool := do
  advance
  skipBlanks
  return !(← atEnd)

def accept (text : String) : Read Bool := do
  if text.toList.isPrefixOf (← get).rest then
    modify fun reading => text.toList.foldl (fun reading _ => reading.advance) reading
    return true
  else return false

def charSpan : Read Span := do
  let reading ← get
  return ⟨reading.position, reading.advance.position⟩

def fail {α : Type} (cause : Cause) (span : Span) : Read α := throw ⟨cause, span, none⟩

def failHere {α : Type} (cause : Cause) : Read α := do fail cause (.point (← here))

def failFrom {α : Type} (cause : Cause) (start : Position) : Read α := do
  fail cause ⟨start, ← here⟩

def takeWhile (keep : Char → Bool) : Nat → Read (List Char)
  | 0 => return []
  | fuel + 1 => do
    match ← peek? with
    | some c =>
      if keep c then
        let _ ← next
        return c :: (← takeWhile keep fuel)
      else return []
    | none => return []

def dropBlanks : Nat → Read Unit
  | 0 => return
  | fuel + 1 => do
    match ← peek? with
    | some c => if Text.isBlank c then advance; dropBlanks fuel
    | none => return

end Read

/-! ## Numbers -/

def digitValue (c : Char) : Nat :=
  if c.isDigit then c.toNat - '0'.toNat
  else if c.isLower then c.toNat - 'a'.toNat + 10
  else c.toNat - 'A'.toNat + 10

def isHexDigit (c : Char) : Bool :=
  c.isDigit || ('a' ≤ c && c ≤ 'f') || ('A' ≤ c && c ≤ 'F')

def numberOf (base : Nat) (digits : List Char) : Nat :=
  digits.foldl (fun n c => base * n + digitValue c) 0

def countBound : Nat := Nat.pow 2 32

end CaptureAudit.Pattern
