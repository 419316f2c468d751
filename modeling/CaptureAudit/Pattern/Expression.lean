/-! # Patterns as they are written

The form of a regular expression, with the place of each part in the text of the pattern. What a
part stands for depends on the flags in force, so it is settled later.
-/
namespace CaptureAudit.Pattern

structure Position where
  line : Nat
  column : Nat
  deriving DecidableEq, Repr

namespace Position

def first : Position := ⟨1, 1⟩

def after (position : Position) (c : Char) : Position :=
  if c = '\n' then ⟨position.line + 1, 1⟩ else { position with column := position.column + 1 }

end Position

structure Span where
  start : Position
  stop : Position
  deriving DecidableEq, Repr

namespace Span

def point (position : Position) : Span := ⟨position, position⟩

def join (a b : Span) : Span := ⟨a.start, b.stop⟩

end Span

inductive Flag where
  | caseInsensitive
  | multiLine
  | dotAll
  | swapGreed
  | unicode
  | crlf
  | verbose
  deriving DecidableEq, Repr

structure FlagSetting where
  flag : Flag
  enabled : Bool
  deriving DecidableEq, Repr

def settingOf? (flag : Flag) (settings : List FlagSetting) : Option Bool :=
  (settings.find? (·.flag == flag)).map FlagSetting.enabled

inductive LetterClass where
  | digit
  | space
  | word
  deriving DecidableEq, Repr

inductive NamedClass where
  | alnum
  | alpha
  | ascii
  | blank
  | cntrl
  | digit
  | graph
  | lower
  | print
  | punct
  | space
  | upper
  | word
  | xdigit
  deriving DecidableEq, Repr

namespace NamedClass

def name : NamedClass → String
  | alnum => "alnum"
  | alpha => "alpha"
  | ascii => "ascii"
  | blank => "blank"
  | cntrl => "cntrl"
  | digit => "digit"
  | graph => "graph"
  | lower => "lower"
  | print => "print"
  | punct => "punct"
  | space => "space"
  | upper => "upper"
  | word => "word"
  | xdigit => "xdigit"

def all : List NamedClass :=
  [ alnum, alpha, ascii, blank, cntrl, digit, graph, lower, print, punct, space, upper, word,
    xdigit ]

def ofName? (name : String) : Option NamedClass := all.find? (·.name == name)

end NamedClass

structure Literal where
  span : Span
  char : Char
  /-- Written as a number of two hexadecimal digits. -/
  isByte : Bool
  deriving DecidableEq, Repr

inductive SetOperation where
  | intersection
  | difference
  | symmetricDifference
  deriving DecidableEq, Repr

inductive ClassSet where
  | empty (span : Span)
  | literal (literal : Literal)
  | range (low high : Literal)
  | named (span : Span) (negated : Bool) (kind : NamedClass)
  | property (span : Span) (name : String)
  | letter (span : Span) (negated : Bool) (kind : LetterClass)
  | bracketed (span : Span) (negated : Bool) (inner : ClassSet)
  | union (span : Span) (items : List ClassSet)
  | combined (operation : SetOperation) (left right : ClassSet)
  deriving Repr

def ClassSet.span : ClassSet → Span
  | empty span => span
  | literal char => char.span
  | range low high => low.span.join high.span
  | named span _ _ => span
  | property span _ => span
  | letter span _ _ => span
  | bracketed span _ _ => span
  | union span _ => span
  | combined _ left right => left.span.join right.span

inductive WordEdge where
  | boundary
  | noBoundary
  | start
  | stop
  | startHalf
  | stopHalf
  deriving DecidableEq, Repr

inductive Anchor where
  | lineStart
  | lineEnd
  | textStart
  | textEnd
  | word (edge : WordEdge)
  deriving DecidableEq, Repr

inductive Expression where
  | empty (span : Span)
  | flags (span : Span) (settings : List FlagSetting)
  | literal (literal : Literal)
  | dot (span : Span)
  | anchor (span : Span) (anchor : Anchor)
  | property (span : Span) (name : String)
  | letter (span : Span) (negated : Bool) (kind : LetterClass)
  | bracketed (span : Span) (negated : Bool) (inner : ClassSet)
  | repeated (span : Span) (min : Nat) (max : Option Nat) (inner : Expression)
  | group (span : Span) (captures : Bool) (settings : List FlagSetting) (inner : Expression)
  | alternatives (span : Span) (options : List Expression)
  | sequence (span : Span) (items : List Expression)
  deriving Repr

namespace Expression

def span : Expression → Span
  | empty span => span
  | flags span _ => span
  | literal char => char.span
  | dot span => span
  | anchor span _ => span
  | property span _ => span
  | letter span _ _ => span
  | bracketed span _ _ => span
  | repeated span _ _ _ => span
  | group span _ _ _ => span
  | alternatives span _ => span
  | sequence span _ => span

/-- Items in a row; a single one stands for itself. -/
def ofItems (span : Span) : List Expression → Expression
  | [] => empty span
  | [item] => item
  | items => sequence span items

def isRepeatable : Expression → Bool
  | empty _ | flags _ _ => false
  | _ => true

end Expression

end CaptureAudit.Pattern
