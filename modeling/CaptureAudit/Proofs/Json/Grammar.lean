import CaptureAudit.Document
import Mathlib.Algebra.Group.Int.Defs

/-! # The grammar of JSON

Which texts are JSON, and which document each of them denotes, said without the reader. A text is
one element. Each production takes a condition on the number literals of the text, so that a claim
about some texts only can name them. -/
namespace CaptureAudit.Json.Grammar

def Blanks (cs : List Char) : Prop := ∀ c ∈ cs, c = ' ' ∨ c = '\t' ∨ c = '\n' ∨ c = '\r'

def Digits (cs : List Char) : Prop := ∀ c ∈ cs, c.isDigit = true

inductive Fraction : List Char → Prop
  | absent : Fraction []
  | digits {ds : List Char} : ds ≠ [] → Digits ds → Fraction ('.' :: ds)

inductive Exponent : List Char → Prop
  | absent : Exponent []
  | digits {mark : Char} {sign ds : List Char} : mark = 'e' ∨ mark = 'E' →
      sign = [] ∨ sign = ['+'] ∨ sign = ['-'] → ds ≠ [] → Digits ds →
      Exponent (mark :: (sign ++ ds))

structure Literal where
  negative : Bool
  whole : List Char
  fraction : List Char
  exponent : List Char
  whole_ne : whole ≠ []
  whole_digits : Digits whole
  no_leading_zero : whole.head? = some '0' → whole = ['0']
  fraction_form : Fraction fraction
  exponent_form : Exponent exponent

namespace Literal

def sign (l : Literal) : List Char := if l.negative then ['-'] else []

def chars (l : Literal) : List Char := l.sign ++ l.whole ++ l.fraction ++ l.exponent

/-- The number that the literal spells if it has neither fraction nor exponent. -/
def integer (l : Literal) : Int :=
  if l.negative then -(Nat.ofDigitChars 10 l.whole 0 : Int) else Nat.ofDigitChars 10 l.whole 0

/-- Integers that fit 64 bits, signed or unsigned, are kept; all other numbers are floats, and
so is the integer literal `-0`. -/
def denoted (l : Literal) : Document :=
  if l.fraction = [] ∧ l.exponent = [] ∧ l.chars ≠ ['-', '0'] ∧
      -2 ^ 63 ≤ l.integer ∧ l.integer ≤ 2 ^ 64 - 1 then .integer l.integer
  else .float

/-- No exponent, and at most 300 digits. -/
def Short (l : Literal) : Prop := l.exponent = [] ∧ l.chars.countP Char.isDigit ≤ 300

end Literal

def escapes : List (Char × Char) :=
  [ ('"', '"'), ('\\', '\\'), ('/', '/'), ('b', '\x08'), ('f', '\x0c'), ('n', '\n'),
    ('r', '\r'), ('t', '\t') ]

inductive HexDigit : Char → Nat → Prop
  | decimal {n : Nat} : n < 10 → HexDigit (Char.ofNat ('0'.toNat + n)) n
  | lower {n : Nat} : n < 6 → HexDigit (Char.ofNat ('a'.toNat + n)) (10 + n)
  | upper {n : Nat} : n < 6 → HexDigit (Char.ofNat ('A'.toNat + n)) (10 + n)

inductive HexUnit : List Char → Nat → Prop
  | digits {a b c d : Char} {i j k l : Nat} : HexDigit a i → HexDigit b j → HexDigit c k →
      HexDigit d l → HexUnit [a, b, c, d] (16 * (16 * (16 * i + j) + k) + l)

def High (unit : Nat) : Prop := 0xD800 ≤ unit ∧ unit ≤ 0xDBFF

def Low (unit : Nat) : Prop := 0xDC00 ≤ unit ∧ unit ≤ 0xDFFF

inductive StringBody : List Char → List Char → Prop
  | nil : StringBody [] []
  | plain {c : Char} {cs text : List Char} : c ≠ '"' → c ≠ '\\' → 0x20 ≤ c.toNat →
      StringBody cs text → StringBody (c :: cs) (c :: text)
  | escape {e c : Char} {cs text : List Char} : (e, c) ∈ escapes → StringBody cs text →
      StringBody ('\\' :: e :: cs) (c :: text)
  | unit {ds : List Char} {n : Nat} {cs text : List Char} : HexUnit ds n → ¬High n → ¬Low n →
      StringBody cs text → StringBody ('\\' :: 'u' :: (ds ++ cs)) (Char.ofNat n :: text)
  | pair {hs ls : List Char} {high low : Nat} {cs text : List Char} : HexUnit hs high → High high →
      HexUnit ls low → Low low → StringBody cs text →
      StringBody ('\\' :: 'u' :: (hs ++ '\\' :: 'u' :: (ls ++ cs)))
        (Char.ofNat (0x10000 + 0x400 * (high - 0xD800) + (low - 0xDC00)) :: text)

/-- Of the members with one name, the last value in the place of the first. -/
def collapsed (pairs : List (String × Document)) : Members :=
  (pairs.map Prod.fst).eraseDups.filterMap fun name =>
    (pairs.reverse.lookup name).map fun value => (name, value)

mutual

inductive Value (allowed : Literal → Prop) : List Char → Document → Prop
  | null : Value allowed ['n', 'u', 'l', 'l'] .null
  | yes : Value allowed ['t', 'r', 'u', 'e'] (.bool true)
  | no : Value allowed ['f', 'a', 'l', 's', 'e'] (.bool false)
  | number {l : Literal} : allowed l → Value allowed l.chars l.denoted
  | string {cs text : List Char} : StringBody cs text →
      Value allowed ('"' :: (cs ++ ['"'])) (.string (String.ofList text))
  | emptyArray {cs : List Char} : Blanks cs → Value allowed ('[' :: (cs ++ [']'])) (.array [])
  | array {cs : List Char} {items : List Document} : Elements allowed cs items →
      Value allowed ('[' :: (cs ++ [']'])) (.array items)
  | emptyObject {cs : List Char} : Blanks cs →
      Value allowed ('\x7b' :: (cs ++ ['\x7d'])) (.object [])
  | object {cs : List Char} {pairs : List (String × Document)} : Pairs allowed cs pairs →
      Value allowed ('\x7b' :: (cs ++ ['\x7d'])) (.object (collapsed pairs))

/-- A value with blanks around it. -/
inductive Element (allowed : Literal → Prop) : List Char → Document → Prop
  | surrounded {before cs after : List Char} {v : Document} : Blanks before →
      Value allowed cs v → Blanks after → Element allowed (before ++ cs ++ after) v

inductive Elements (allowed : Literal → Prop) : List Char → List Document → Prop
  | last {cs : List Char} {v : Document} : Element allowed cs v → Elements allowed cs [v]
  | more {cs rest : List Char} {v : Document} {items : List Document} : Element allowed cs v →
      Elements allowed rest items → Elements allowed (cs ++ ',' :: rest) (v :: items)

inductive Pair (allowed : Literal → Prop) : List Char → String × Document → Prop
  | named {before ns after cs : List Char} {name : List Char} {v : Document} : Blanks before →
      StringBody ns name → Blanks after → Element allowed cs v →
      Pair allowed (before ++ '"' :: (ns ++ '"' :: (after ++ ':' :: cs))) (String.ofList name, v)

inductive Pairs (allowed : Literal → Prop) : List Char → List (String × Document) → Prop
  | last {cs : List Char} {pair : String × Document} : Pair allowed cs pair →
      Pairs allowed cs [pair]
  | more {cs rest : List Char} {pair : String × Document} {pairs : List (String × Document)} :
      Pair allowed cs pair → Pairs allowed rest pairs →
      Pairs allowed (cs ++ ',' :: rest) (pair :: pairs)

end

end CaptureAudit.Json.Grammar
