import CaptureAudit.DoublePrecision

/-! # What a plain scalar is read as

A reader takes some unquoted texts for null, a truth value or a number. A digit string with a
leading zero stays a text, but is no safer unquoted. Texts of these forms have to be quoted.
-/
namespace CaptureAudit.Yaml

theorem any_word_iff {words : List String} {text : List Char} :
    words.any (·.toList == text) = true ↔ String.ofList text ∈ words := by
  rw [List.any_eq_true]
  constructor
  · rintro ⟨word, hword, htext⟩
    rwa [← eq_of_beq htext, String.ofList_toList]
  · intro h
    exact ⟨_, h, by simp⟩

def isNull (text : List Char) : Bool :=
  text.isEmpty ||
    ["null", "Null", "NULL", "~"].any (·.toList == text)

theorem isNull_iff {text : List Char} :
    isNull text = true ↔ text = [] ∨ String.ofList text ∈ ["null", "Null", "NULL", "~"] := by
  rw [isNull, Bool.or_eq_true, any_word_iff, List.isEmpty_iff]

def isTruthValue (text : List Char) : Bool :=
  ["true", "True", "TRUE", "false", "False", "FALSE"].any (·.toList == text)

theorem isTruthValue_iff {text : List Char} : isTruthValue text = true ↔
    String.ofList text ∈ ["true", "True", "TRUE", "false", "False", "FALSE"] :=
  any_word_iff

def digitInBase? (base : Nat) (c : Char) : Option Nat :=
  let value? :=
    if c.isDigit then some (c.toNat - '0'.toNat)
    else if 'a' ≤ c && c ≤ 'f' then some (c.toNat - 'a'.toNat + 10)
    else if 'A' ≤ c && c ≤ 'F' then some (c.toNat - 'A'.toNat + 10)
    else none
  value?.filter (· < base)

def natInBase? (base : Nat) (digits : List Char) : Option Nat :=
  if digits.isEmpty then none
  else digits.foldlM (fun n c => (digitInBase? base c).map (base * n + ·)) 0

def isNatUpTo (bound base : Nat) (digits : List Char) : Bool :=
  match natInBase? base digits with
  | some n => n ≤ bound
  | none => false

/-- Digits of an integer without its sign, base marker included. -/
def isMagnitudeUpTo (bound : Nat) (text : List Char) : Bool :=
  isNatUpTo bound 10 text ||
    match text with
    | '0' :: 'x' :: digits => isNatUpTo bound 16 digits
    | '0' :: 'o' :: digits => isNatUpTo bound 8 digits
    | '0' :: 'b' :: digits => isNatUpTo bound 2 digits
    | _ => false

def withoutSign : List Char → List Char
  | '+' :: rest => rest
  | '-' :: rest => rest
  | text => text

def hasLeadingZero (text : List Char) : Bool :=
  match withoutSign text with
  | '0' :: second :: rest => (second :: rest).all Char.isDigit
  | _ => false

def isInteger (text : List Char) : Bool :=
  !hasLeadingZero text &&
    match text with
    | '-' :: magnitude => isMagnitudeUpTo (Nat.pow 2 127) magnitude
    | '+' :: magnitude => isMagnitudeUpTo (Nat.pow 2 128 - 1) magnitude
    | magnitude => isMagnitudeUpTo (Nat.pow 2 128 - 1) magnitude

def exponent? : List Char → Option Int
  | [] => some 0
  | mark :: rest =>
    if mark = 'e' || mark = 'E' then
      match rest with
      | '-' :: digits => (natInBase? 10 digits).map fun n => -(n : Int)
      | '+' :: digits => (natInBase? 10 digits).map fun n => (n : Int)
      | digits => (natInBase? 10 digits).map fun n => (n : Int)
    else none

def isFiniteDecimal (text : List Char) : Bool :=
  let whole := text.takeWhile Char.isDigit
  let afterWhole := text.dropWhile Char.isDigit
  let (fraction, afterFraction) := match afterWhole with
    | '.' :: rest => (rest.takeWhile Char.isDigit, rest.dropWhile Char.isDigit)
    | rest => ([], rest)
  match natInBase? 10 (whole ++ fraction), exponent? afterFraction with
  | some significand, some exponent =>
    roundsToFinite significand (exponent - fraction.length)
  | _, _ => false

def isInfinity (text : List Char) : Bool :=
  [".inf", ".Inf", ".INF"].any (·.toList == text)

def isNotANumber (text : List Char) : Bool :=
  [".nan", ".NaN", ".NAN"].any (·.toList == text)

def isFloat (text : List Char) : Bool :=
  isNotANumber text ||
    match text with
    | '-' :: rest => isInfinity rest || isFiniteDecimal rest
    | '+' :: rest => isInfinity rest || isFiniteDecimal rest
    | rest => isInfinity rest || isFiniteDecimal rest

/-- Unquoted, the text would be read as something else, or might be taken for a number. -/
def needsQuotes (text : List Char) : Bool :=
  isNull text || isTruthValue text || hasLeadingZero text || isInteger text || isFloat text

end CaptureAudit.Yaml
