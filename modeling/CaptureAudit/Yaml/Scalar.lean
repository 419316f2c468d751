import CaptureAudit.Yaml.Reading

/-! # Scalars in YAML

A text is written in the plainest style that keeps it: unquoted, single quoted, double quoted,
or as a literal block if it has a line feed. Only the double quoted style can hold every text.
Lines are never folded.
-/
namespace CaptureAudit.Yaml

inductive Style where
  | plain
  | singleQuoted
  | doubleQuoted
  | literal
  deriving DecidableEq, Repr

def isBreak (c : Char) : Bool :=
  c = '\n' || c = '\r' || c = '\u0085' || c = '\u2028' || c = '\u2029'

def isSeparator (c : Char) : Bool := isBreak c || c = ' ' || c = '\t' || c = '\x00'

/-- May stand unescaped: of the controls, only the line feed; not the byte order mark. -/
def isPrintable (c : Char) : Bool :=
  c = '\n' || (0x20 ≤ c.toNat && c.toNat ≤ 0x7E) ||
    (0xA0 ≤ c.toNat && c.toNat ≠ 0xFEFF && c.toNat ≠ 0xFFFE && c.toNat ≠ 0xFFFF)

def separatorNext : List Char → Bool
  | [] => true
  | c :: _ => isSeparator c

/-- Characters that start a construct of their own at the start of a text. -/
def indicators : List Char :=
  ['#', ',', '[', ']', '\x7b', '\x7d', '&', '*', '!', '|', '>', '\'', '"', '%', '@', '\x60']

def startsConstruct : List Char → Bool
  | [] => false
  | '-' :: '-' :: '-' :: _ => true
  | '.' :: '.' :: '.' :: _ => true
  | c :: rest =>
    indicators.contains c || ((c = '?' || c = ':' || c = '-') && separatorNext rest)

def hasInnerIndicator (before : Char) : List Char → Bool
  | [] => false
  | c :: rest =>
    (c = ':' && separatorNext rest) || (c = '#' && isSeparator before) ||
      hasInnerIndicator c rest

def hasIndicator (text : List Char) : Bool :=
  startsConstruct text ||
    match text with
    | [] => false
    | first :: rest => hasInnerIndicator first rest

def hasPair (first second : Char → Bool) : List Char → Bool
  | a :: b :: rest => (first a && second b) || hasPair first second (b :: rest)
  | _ => false

def isSpace (c : Char) : Bool := c = ' '

/-- A space before a break would not survive outside double quotes. -/
def needsEscapes (text : List Char) : Bool :=
  hasPair isSpace isBreak text || text.any (!isPrintable ·)

def startsOrEnds (p : Char → Bool) (text : List Char) : Bool :=
  text.head?.any p || text.getLast?.any p

def plainAllowed (text : List Char) : Bool :=
  !(needsQuotes text || hasIndicator text || needsEscapes text || text.any isBreak ||
    startsOrEnds isSpace text)

def singleQuotedAllowed (text : List Char) : Bool :=
  !(needsEscapes text || hasPair isBreak isSpace text)

def literalAllowed (text : List Char) : Bool :=
  !(needsEscapes text || text.getLast?.any isSpace)

def styleOf (text : List Char) : Style :=
  if text.contains '\n' then
    if literalAllowed text then .literal else .doubleQuoted
  else if plainAllowed text then .plain
  else if singleQuotedAllowed text then .singleQuoted
  else .doubleQuoted

def shortEscape? (c : Char) : Option Char :=
  match c with
  | '\x00' => some '0'
  | '\x07' => some 'a'
  | '\x08' => some 'b'
  | '\t' => some 't'
  | '\n' => some 'n'
  | '\x0b' => some 'v'
  | '\x0c' => some 'f'
  | '\r' => some 'r'
  | '\x1b' => some 'e'
  | '"' => some '"'
  | '\\' => some '\\'
  | '\u0085' => some 'N'
  | '\u00a0' => some '_'
  | '\u2028' => some 'L'
  | '\u2029' => some 'P'
  | _ => none

def hexDigits (width n : Nat) : List Char :=
  match width with
  | 0 => []
  | width + 1 => hexDigits width (n / 16) ++ [(Nat.digitChar (n % 16)).toUpper]

def escaped (c : Char) : List Char :=
  match shortEscape? c with
  | some mark => ['\\', mark]
  | none =>
    if c.toNat ≤ 0xFF then '\\' :: 'x' :: hexDigits 2 c.toNat
    else if c.toNat ≤ 0xFFFF then '\\' :: 'u' :: hexDigits 4 c.toNat
    else '\\' :: 'U' :: hexDigits 8 c.toNat

def doubleQuotedChar (c : Char) : List Char :=
  if !isPrintable c || isBreak c || c = '"' || c = '\\' then escaped c else [c]

def doubleQuoted (text : List Char) : List Char := '"' :: text.flatMap doubleQuotedChar ++ ['"']

def spaces (count : Nat) : List Char := List.replicate count ' '

/-- What stands between the single quotes. The text after a break is indented, the closing
quote too; `afterBreak` says whether a break came last. -/
def singleQuotedBody (indent : Nat) (afterBreak : Bool) : List Char → List Char
  | [] => if afterBreak then spaces indent else []
  | c :: rest =>
    if isBreak c then c :: singleQuotedBody indent true rest
    else
      (if afterBreak then spaces indent else []) ++ (if c = '\'' then ['\'', '\''] else [c]) ++
        singleQuotedBody indent false rest

def singleQuoted (indent : Nat) (text : List Char) : List Char :=
  '\'' :: singleQuotedBody indent false text ++ ['\'']

def literalBody (indent : Nat) (afterBreak : Bool) : List Char → List Char
  | [] => []
  | c :: rest =>
    if isBreak c then c :: literalBody indent true rest
    else
      (if afterBreak then spaces indent else []) ++ c :: literalBody indent false rest

/-- Needed where the first line does not show the indentation. -/
def indentHint (text : List Char) : List Char :=
  if text.head?.any fun c => isSpace c || isBreak c then ['2'] else []

/-- Says what becomes of the breaks at the end: `-` if there is none, `+` if there is more than
one or nothing else, and no mark for exactly one. -/
def chompHint (text : List Char) : List Char :=
  match text.reverse with
  | [] => ['-']
  | [last] => if isBreak last then ['+'] else ['-']
  | last :: before :: _ =>
    if !isBreak last then ['-'] else if isBreak before then ['+'] else []

def literal (indent : Nat) (text : List Char) : List Char :=
  '|' :: indentHint text ++ chompHint text ++ '\n' :: literalBody indent true text

/-- A scalar with the break after it. A literal block whose text ends in a break has its own. -/
def scalarLine (indent : Nat) (text : List Char) : List Char :=
  match styleOf text with
  | .plain => text ++ ['\n']
  | .singleQuoted => singleQuoted indent text ++ ['\n']
  | .doubleQuoted => doubleQuoted text ++ ['\n']
  | .literal => literal indent text ++ if text.getLast?.any isBreak then [] else ['\n']

end CaptureAudit.Yaml
