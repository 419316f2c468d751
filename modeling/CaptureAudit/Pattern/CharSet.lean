import CaptureAudit.Pattern.Expression

/-! # Sets of characters

A set is an expression over ranges of characters; membership is decided by computing it.
-/
namespace CaptureAudit.Pattern

inductive CharSet where
  | empty
  | range (low high : Char)
  | union (a b : CharSet)
  | inter (a b : CharSet)
  | complement (a : CharSet)
  /-- With every ASCII letter also the one of the other case. -/
  | anyCase (a : CharSet)
  deriving DecidableEq, Repr

def otherCase (c : Char) : Char := if c.isUpper then c.toLower else c.toUpper

namespace CharSet

def mem (c : Char) : CharSet → Bool
  | empty => false
  | range low high => low ≤ c && c ≤ high
  | union a b => a.mem c || b.mem c
  | inter a b => a.mem c && b.mem c
  | complement a => !a.mem c
  | anyCase a => a.mem c || a.mem (otherCase c)

def single (c : Char) : CharSet := range c c

def unionAll (sets : List CharSet) : CharSet := sets.foldr union empty

def ofRanges (ranges : List (Char × Char)) : CharSet :=
  unionAll (ranges.map fun (low, high) => range low high)

def difference (a b : CharSet) : CharSet := inter a (complement b)

def combine : SetOperation → CharSet → CharSet → CharSet
  | .intersection, a, b => inter a b
  | .difference, a, b => difference a b
  | .symmetricDifference, a, b => difference (union a b) (inter a b)

end CharSet

def NamedClass.set : NamedClass → CharSet
  | alnum => .ofRanges [('0', '9'), ('A', 'Z'), ('a', 'z')]
  | alpha => .ofRanges [('A', 'Z'), ('a', 'z')]
  | ascii => .range '\x00' '\x7f'
  | blank => .ofRanges [('\t', '\t'), (' ', ' ')]
  | cntrl => .ofRanges [('\x00', '\x1f'), ('\x7f', '\x7f')]
  | digit => .range '0' '9'
  | graph => .range '!' '~'
  | lower => .range 'a' 'z'
  | print => .range ' ' '~'
  | punct => .ofRanges [('!', '/'), (':', '@'), ('[', '\x60'), ('\x7b', '~')]
  | space => .ofRanges [('\t', '\r'), (' ', ' ')]
  | upper => .range 'A' 'Z'
  | word => .ofRanges [('0', '9'), ('A', 'Z'), ('_', '_'), ('a', 'z')]
  | xdigit => .ofRanges [('0', '9'), ('A', 'F'), ('a', 'f')]

def LetterClass.set : LetterClass → CharSet
  | digit => NamedClass.digit.set
  | space => NamedClass.space.set
  | word => NamedClass.word.set

end CaptureAudit.Pattern
