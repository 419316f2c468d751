import CaptureAudit.Pattern.CharSet

/-! # Matching

What a matcher does to a set of places in a text: from the places where a match may begin to those
where one ends. The places of a text are the bits of a number, bit `i` for the place before the
character `i`. A text holds a match if some place can be reached from any place.
-/
namespace CaptureAudit.Pattern

/-- Places where nothing is taken. Line feeds end a line; in the other convention a carriage return
does so too, and both together are one end. -/
inductive Look where
  | textStart
  | textEnd
  | lineStart (returns : Bool)
  | lineEnd (returns : Bool)
  /-- Of words in ASCII, or of words in Unicode, which no text is matched with. -/
  | word (ascii : Bool) (edge : WordEdge)
  deriving DecidableEq, Repr

inductive Matcher where
  | empty
  | char (set : CharSet)
  | look (look : Look)
  | both (first second : Matcher)
  | either (first second : Matcher)
  | repeated (min : Nat) (max : Option Nat) (inner : Matcher)
  | captured (inner : Matcher)
  deriving DecidableEq, Repr

def isWord (c : Option Char) : Bool := c.any LetterClass.word.set.mem

def WordEdge.holds (before after : Bool) : WordEdge → Bool
  | boundary => before != after
  | noBoundary => before == after
  | start => !before && after
  | stop => before && !after
  | startHalf => !before
  | stopHalf => !after

def Look.holds (before after : Option Char) : Look → Bool
  | textStart => before.isNone
  | textEnd => after.isNone
  | lineStart false => before.isNone || before = some '\n'
  | lineEnd false => after.isNone || after = some '\n'
  | lineStart true =>
    before.isNone || before = some '\n' || (before = some '\r' && after != some '\n')
  | lineEnd true =>
    after.isNone || after = some '\r' || (after = some '\n' && before != some '\r')
  | word _ edge => edge.holds (isWord before) (isWord after)

def ofBits (bits : List Bool) : Nat := bits.foldr (fun bit n => 2 * n + bit.toNat) 0

def surroundings (text : List Char) : List (Option Char × Option Char) :=
  (none :: text.map some).zip (text.map some ++ [none])

/-- Applies a step again and again, but not after it has changed nothing. -/
def applyUpTo (step : Nat → Nat) : Nat → Nat → Nat
  | 0, places => places
  | count + 1, places =>
    let next := step places
    if next = places then places else applyUpTo step count next

namespace Matcher

/-- The places that matches lead to. More repetitions than places change nothing. -/
def reach (text : List Char) : Matcher → Nat → Nat
  | empty, places => places
  | char set, places => (places &&& ofBits (text.map set.mem)) <<< 1
  | look wanted, places =>
    places &&& ofBits ((surroundings text).map fun (before, after) => wanted.holds before after)
  | both first second, places => second.reach text (first.reach text places)
  | either first second, places => first.reach text places ||| second.reach text places
  | repeated min max inner, places =>
    let bound := text.length + 1
    let required := applyUpTo (inner.reach text) (Nat.min min bound) places
    let optional := max.elim bound fun max => Nat.min (max - min) bound
    applyUpTo (fun places => places ||| inner.reach text places) optional required
  | captured inner, places => inner.reach text places

def occursIn (matcher : Matcher) (text : List Char) : Bool :=
  matcher.reach text (Nat.pow 2 (text.length + 1) - 1) != 0

def looksForUnicodeWords : Matcher → Bool
  | empty | char _ => false
  | look (.word ascii _) => !ascii
  | look _ => false
  | both first second | either first second =>
    first.looksForUnicodeWords || second.looksForUnicodeWords
  | repeated _ _ inner | captured inner => inner.looksForUnicodeWords

end Matcher

end CaptureAudit.Pattern
