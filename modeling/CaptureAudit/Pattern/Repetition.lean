import CaptureAudit.Pattern.Reading

/-! # Repetitions in a pattern

An operator repeats the item before it. Counts stand in braces; a count may have blanks around it
in any mode.
-/
namespace CaptureAudit.Pattern

open Read

/-- A number with blanks around it. Its fault may be passed over, so it is a value. -/
def readDecimal : Read (Except Fault Nat) := do
  dropBlanks (← fuel)
  let start ← here
  let digits ← takeWhile Char.isDigit (← fuel)
  let span : Span := ⟨start, ← here⟩
  let _ ← takeWhile Text.isBlank (← fuel)
  if digits.isEmpty then return .error ⟨.countEmpty, span, none⟩
  else if numberOf 10 digits < countBound then return .ok (numberOf 10 digits)
  else return .error ⟨.decimalInvalid, span, none⟩

def readCounts (start : Position) : Read (Nat × Option Nat) := do
  if !(← next) then failFrom .countUnclosed start
  let low ← readDecimal
  match ← peek? with
  | none => failFrom .countUnclosed start
  | some ',' =>
    if !(← next) then failFrom .countUnclosed start
    if (← peek?) = some '}' then return (← low, none)
    else
      let low ← low
      let high ← readDecimal
      return (low, some (← high))
  | some _ =>
    let count ← low
    return (count, some count)

/-- A mark that asks for as few times as can be, which no answer depends on. -/
def skipLazyMark : Read Unit := do
  if (← peek?) = some '?' then advance

def repeatedItem (items : List Expression) : Read (Expression × List Expression) := do
  match items with
  | last :: before =>
    if last.isRepeatable then return (last, before) else failHere .nothingToRepeat
  | [] => failHere .nothingToRepeat

def readRepetition (min : Nat) (max : Option Nat) (items : List Expression) :
    Read (List Expression) := do
  let (item, before) ← repeatedItem items
  advance
  skipLazyMark
  return .repeated ⟨item.span.start, ← here⟩ min max item :: before

def readCountedRepetition (items : List Expression) : Read (List Expression) := do
  let start ← here
  let (item, before) ← repeatedItem items
  let (min, max) ← readCounts start
  if (← peek?) != some '}' then failFrom .countUnclosed start
  if ← next then skipLazyMark
  if max.any (· < min) then failFrom .countReversed start
  return .repeated ⟨item.span.start, ← here⟩ min max item :: before

end CaptureAudit.Pattern
