import CaptureAudit.Pattern.Reading
import CaptureAudit.Text.Letters

/-! # How a group begins

A parenthesis can begin a group, a group with a name or with flags, or be flags alone.
-/
namespace CaptureAudit.Pattern

open Read

def flagOf? : Char → Option Flag
  | 'i' => some .caseInsensitive
  | 'm' => some .multiLine
  | 's' => some .dotAll
  | 'U' => some .swapGreed
  | 'u' => some .unicode
  | 'R' => some .crlf
  | 'x' => some .verbose
  | _ => none

/-- Flags as they are written; `none` is the sign that switches off those behind it. -/
abbrev FlagMarks := List (Option Flag × Span)

def settingsOf (enabled : Bool) : FlagMarks → List FlagSetting
  | [] => []
  | (none, _) :: rest => settingsOf false rest
  | (some flag, _) :: rest => ⟨flag, enabled⟩ :: settingsOf enabled rest

def readFlagMark (c : Char) (marks : FlagMarks) : Read FlagMarks := do
  let span ← charSpan
  let mark := if c = '-' then none else flagOf? c
  if c != '-' && mark.isNone then fail .flagUnknown span
  match marks.find? (·.1 == mark) with
  | some (_, earlier) =>
    throw ⟨if c = '-' then .flagNegationRepeated else .flagRepeated, span, some earlier⟩
  | none =>
    advance
    if ← atEnd then failHere .flagUnfinished
    return marks ++ [(mark, span)]

def readFlags : Nat → FlagMarks → Read (List FlagSetting)
  | 0, marks => return settingsOf true marks
  | fuel + 1, marks => do
    match ← peek? with
    | none => failHere .flagUnfinished
    | some c =>
      if c = ':' || c = ')' then
        match marks.getLast? with
        | some (none, span) => fail .flagDanglingNegation span
        | _ => return settingsOf true marks
      else readFlags fuel (← readFlagMark c marks)

def isNameChar (isFirst : Bool) (c : Char) : Bool :=
  c = '_' || Text.isLetter c ||
    (!isFirst && (c = '.' || c = '[' || c = ']' || Text.isNumeral c))

def readNameChars (isFirst : Bool) : Nat → Read (List Char)
  | 0 => return []
  | fuel + 1 => do
    match ← peek? with
    | none => failHere .groupNameUnfinished
    | some '>' => return []
    | some c =>
      if isNameChar isFirst c then
        advance
        return c :: (← readNameChars false fuel)
      else fail .groupNameInvalid (← charSpan)

/-- A group's name and the sign that ends it; no two groups have the same name. -/
def readName : Read Unit := do
  let start ← here
  let name := String.ofList (← readNameChars true (← fuel))
  let span : Span := ⟨start, ← here⟩
  advance
  if name = "" then fail .groupNameEmpty (.point start)
  match (← get).names.lookup name with
  | some earlier => throw ⟨.groupNameRepeated, span, some earlier⟩
  | none => modify fun reading => { reading with names := (name, span) :: reading.names }

inductive Opening where
  | flags (settings : List FlagSetting)
  | group (captures : Bool) (settings : List FlagSetting)

def lookAroundSigns : List String := ["?=", "?!", "?<=", "?<!"]

def readOpening (parenthesis : Span) : Read Opening := do
  advance
  skipBlanks
  for sign in lookAroundSigns do
    if ← accept sign then failFrom .lookAround parenthesis.start
  let inner ← here
  if ← accept "?P<" <||> accept "?<" then
    readName
    return .group true []
  else if ← accept "?" then
    if ← atEnd then fail .groupUnclosed parenthesis
    let settings ← readFlags (← fuel) []
    let last ← peek?
    advance
    if last = some ')' then
      if settings.isEmpty then fail .nothingToRepeat (.point inner)
      return .flags settings
    else return .group false settings
  else return .group true []

def setVerbose (settings : List FlagSetting) : Read Unit :=
  modify fun reading =>
    { reading with verbose := (settingOf? .verbose settings).getD reading.verbose }

end CaptureAudit.Pattern
