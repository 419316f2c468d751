import CaptureAudit.Pattern.Brackets
import CaptureAudit.Pattern.Group
import CaptureAudit.Pattern.Nesting
import CaptureAudit.Pattern.Repetition

/-! # Reading a pattern

A pattern is read from left to right, and the first fault ends it. A group restores the mode that
it began in.
-/
namespace CaptureAudit.Pattern

open Read

/-- Alternatives that are being read; both lists hold the last one first. -/
structure Body where
  start : Position
  options : List Expression
  itemsStart : Position
  items : List Expression

namespace Body

def startingAt (position : Position) : Body := ⟨position, [], position, []⟩

def push (body : Body) (item : Expression) : Body := { body with items := item :: body.items }

def sequence (body : Body) (stop : Position) : Expression :=
  .ofItems ⟨body.itemsStart, stop⟩ body.items.reverse

def nextOption (body : Body) (stop next : Position) : Body :=
  ⟨body.start, body.sequence stop :: body.options, next, []⟩

def finish (body : Body) (stop : Position) : Expression :=
  if body.options.isEmpty then body.sequence stop
  else .alternatives ⟨body.start, stop⟩ (body.sequence stop :: body.options).reverse

end Body

def readItem (c : Char) (body : Body) : Read Body := do
  match c with
  | '[' =>
    let (span, negated, inner) ← readBracketed (2 * (← fuel))
    return body.push (.bracketed span negated inner)
  | '?' => return { body with items := ← readRepetition 0 (some 1) body.items }
  | '*' => return { body with items := ← readRepetition 0 none body.items }
  | '+' => return { body with items := ← readRepetition 1 none body.items }
  | '{' => return { body with items := ← readCountedRepetition body.items }
  | '\\' => return body.push (← readEscape)
  | '.' | '^' | '$' =>
    let span ← charSpan
    advance
    return body.push (match c with
      | '.' => .dot span
      | '^' => .anchor span .lineStart
      | _ => .anchor span .lineEnd)
  | c => return body.push (.literal (← readChar c))

def readBody : Nat → Body → Read Expression
  | 0, body => return body.finish (← here)
  | fuel + 1, body => do
    skipBlanks
    match ← peek? with
    | none => return body.finish (← here)
    | some ')' => return body.finish (← here)
    | some '|' =>
      let stop ← here
      advance
      readBody fuel (body.nextOption stop (← here))
    | some '(' =>
      let parenthesis ← charSpan
      match ← readOpening parenthesis with
      | .flags settings =>
        setVerbose settings
        readBody fuel (body.push (.flags ⟨parenthesis.start, ← here⟩ settings))
      | .group captures settings =>
        let verbose := (← get).verbose
        setVerbose settings
        let inner ← readBody fuel (.startingAt (← here))
        if ← atEnd then fail .groupUnclosed parenthesis
        modify fun reading => { reading with verbose := verbose }
        advance
        readBody fuel (body.push (.group ⟨parenthesis.start, ← here⟩ captures settings inner))
    | some c => readBody fuel (← readItem c body)

def readPattern : Read Expression := do
  let expression ← readBody (← fuel) (.startingAt (← here))
  if !(← atEnd) then fail .groupUnopened (← charSpan)
  expression.checkNesting 0
  return expression

def Expression.ofText (pattern : String) : Except Fault Expression :=
  (readPattern.run (.start pattern)).map Prod.fst

end CaptureAudit.Pattern
