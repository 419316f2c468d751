import CaptureAudit.Pattern.Escape

/-! # Classes in brackets

Items and ranges, classes in one another, and operations between what stands on both sides of
them. A class that does not end is reported at its start.
-/
namespace CaptureAudit.Pattern

open Read

structure Items where
  start : Position
  last : List ClassSet

namespace Items

def push (items : Items) (item : ClassSet) : Items := { items with last := item :: items.last }

def toSet (items : Items) : ClassSet :=
  match items.last.reverse with
  | [] => .empty (.point items.start)
  | [item] => item
  | first :: rest => .union (first.span.join ((rest.getLast?.getD first).span)) (first :: rest)

end Items

/-- A named class, whether it is negated, and how many characters it takes. -/
def namedClass? (text : List Char) : Option (Bool × NamedClass × Nat) :=
  match text with
  | '[' :: ':' :: rest =>
    let negated := rest.head? = some '^'
    let rest := if negated then rest.tail else rest
    let name := rest.takeWhile (· != ':')
    if [':', ']'].isPrefixOf (rest.drop name.length) then
      (NamedClass.ofName? (String.ofList name)).map fun kind =>
        (negated, kind, name.length + if negated then 5 else 4)
    else none
  | _ => none

def readClassPart (c : Char) : Read Expression := do
  if c = '\\' then readEscape else return .literal (← readChar c)

def classItemOf : Expression → Read ClassSet
  | .literal char => return .literal char
  | .property span name => return .property span name
  | .letter span negated kind => return .letter span negated kind
  | other => fail .classEscapeInvalid other.span

def literalOf : Expression → Read Literal
  | .literal char => return char
  | other => fail .classRangeBound other.span

def readRange (opening : Span) (c : Char) : Read ClassSet := do
  let low ← readClassPart c
  skipBlanks
  if ← atEnd then fail .classUnclosed opening
  let second := (← get).second?
  if (← peek?) != some '-' || second = some ']' || second = some '-' then classItemOf low
  else
    if !(← next) then fail .classUnclosed opening
    match ← peek? with
    | none => fail .classUnclosed opening
    | some c =>
      let high ← readClassPart c
      let low ← literalOf low
      let high ← literalOf high
      if low.char ≤ high.char then return .range low high
      else fail .classRangeReversed (low.span.join high.span)

/-- Dashes at the start of a class stand for themselves. -/
def readDashes (start : Position) : Nat → Items → Read Items
  | 0, items => return items
  | fuel + 1, items => do
    if (← peek?) = some '-' then
      let item : Literal := ⟨← charSpan, '-', false⟩
      if !(← next) then fail .classUnclosed (.point start)
      readDashes start fuel (items.push (.literal item))
    else return items

/-- The start of a class: its span, whether it is negated, and items that only there stand for
themselves. -/
def readClassStart : Read (Span × Bool × Items) := do
  let start ← here
  if !(← next) then failFrom .classUnclosed start
  let negated := (← peek?) = some '^'
  if negated then
    if !(← next) then failFrom .classUnclosed start
  let items ← readDashes start (← fuel) ⟨← here, []⟩
  if items.last.isEmpty && (← peek?) = some ']' then
    let item : Literal := ⟨← charSpan, ']', false⟩
    if !(← next) then failFrom .classUnclosed start
    return (⟨start, ← here⟩, negated, items.push (.literal item))
  else return (⟨start, ← here⟩, negated, items)

def acceptOperation : Read (Option SetOperation) := do
  if ← accept "&&" then return some .intersection
  if ← accept "--" then return some .difference
  if ← accept "~~" then return some .symmetricDifference
  return none

def applyOperation (pending : Option (SetOperation × ClassSet)) (right : ClassSet) : ClassSet :=
  match pending with
  | some (operation, left) => .combined operation left right
  | none => right

def acceptNamed : Read (Option ClassSet) := do
  match namedClass? (← get).rest with
  | some (negated, kind, count) =>
    let start ← here
    for _ in [0:count] do advance
    return some (.named ⟨start, ← here⟩ negated kind)
  | none => return none

mutual

def readBracketed : Nat → Read (Span × Bool × ClassSet)
  | 0 => failHere .classUnclosed
  | fuel + 1 => do
    let (opening, negated, items) ← readClassStart
    let inner ← readItems fuel opening none items
    advance
    return (⟨opening.start, ← here⟩, negated, inner)

def readItems : Nat → Span → Option (SetOperation × ClassSet) → Items → Read ClassSet
  | 0, opening, _, _ => fail .classUnclosed opening
  | fuel + 1, opening, pending, items => do
    skipBlanks
    match ← peek? with
    | none => fail .classUnclosed opening
    | some '[' =>
      match ← acceptNamed with
      | some item => readItems fuel opening pending (items.push item)
      | none =>
        let (span, negated, inner) ← readBracketed fuel
        readItems fuel opening pending (items.push (.bracketed span negated inner))
    | some ']' => return applyOperation pending items.toSet
    | some c =>
      match ← acceptOperation with
      | some operation =>
        let left := applyOperation pending items.toSet
        readItems fuel opening (some (operation, left)) ⟨← here, []⟩
      | none => readItems fuel opening pending (items.push (← readRange opening c))

end

end CaptureAudit.Pattern
