import CaptureAudit.Pattern.Fault
import CaptureAudit.Pattern.Matcher

/-! # What a pattern means

The meaning of each part under the flags in force. Texts are sequences of characters, so a part
that could take only some bytes of a character is a fault. Properties, classes with a letter and
letter case are known for ASCII only, that is, with the Unicode flag off.
-/
namespace CaptureAudit.Pattern

structure Flags where
  caseInsensitive : Bool
  multiLine : Bool
  dotAll : Bool
  unicode : Bool
  crlf : Bool
  deriving DecidableEq, Repr

namespace Flags

def initial : Flags := ⟨false, false, false, true, false⟩

def apply (flags : Flags) (settings : List FlagSetting) : Flags :=
  { caseInsensitive := (settingOf? .caseInsensitive settings).getD flags.caseInsensitive
    multiLine := (settingOf? .multiLine settings).getD flags.multiLine
    dotAll := (settingOf? .dotAll settings).getD flags.dotAll
    unicode := (settingOf? .unicode settings).getD flags.unicode
    crlf := (settingOf? .crlf settings).getD flags.crlf }

def foldsAscii (flags : Flags) : Bool := flags.caseInsensitive && !flags.unicode

/-- Whether letter case should be passed over in Unicode, which is not possible. -/
def foldsUnicode (flags : Flags) : Bool := flags.caseInsensitive && flags.unicode

end Flags

def faultAt {α : Type} (cause : Cause) (span : Span) : Except Fault α :=
  .error ⟨cause, span, none⟩

/-- A literal that can be a byte of its own is a fault if it is not ASCII. -/
def Literal.check (flags : Flags) (literal : Literal) : Except Fault Unit :=
  if !flags.unicode && literal.isByte && literal.char.toNat > 0x7F then
    faultAt .notUtf8 literal.span
  else .ok ()

def Literal.checkInClass (flags : Flags) (literal : Literal) : Except Fault Unit := do
  literal.check flags
  if !flags.unicode && literal.char.toNat > 0x7F then faultAt .unicodeNotAllowed literal.span

/-- The complement of a set is one of characters only with the Unicode flag. -/
def negate (flags : Flags) (span : Span) (negated : Bool) (set : CharSet) : Except Fault CharSet :=
  if !negated then .ok set
  else if flags.unicode then .ok (.complement set) else faultAt .notUtf8 span

/-- How property names are compared: without letter case, blanks, low lines, dashes and a leading
`is`. -/
def plainPropertyName (name : String) : String :=
  let text := name.toList.map Char.toLower
  let stem := if ['i', 's'].isPrefixOf text then text.drop 2 else text
  String.ofList (stem.filter fun c => c.toNat < 0x80 && c != ' ' && c != '_' && c != '-')

def valueAbbreviations : List String := ["cf", "sc", "lc"]

/-- No property is known; an abbreviation of a value names one that is not known either. -/
def propertyFault (flags : Flags) (name : String) : Cause :=
  if !flags.unicode then .unicodeNotAllowed
  else if name.toList.any [':', '='].contains then .propertyUnknown
  else if valueAbbreviations.contains (plainPropertyName name) then .propertyValueUnknown
  else .propertyUnknown

/-- A class with a letter is known with the Unicode flag off, if it is not negated. -/
def letterClass (flags : Flags) (span : Span) (negated : Bool) (kind : LetterClass) :
    Except Fault CharSet :=
  if flags.unicode then faultAt .letterClassUnavailable span
  else negate flags span negated kind.set

mutual

def ClassSet.holdsCharacters : ClassSet → Bool
  | .literal _ | .range _ _ => true
  | .union _ items => someHolds items
  | _ => false

def ClassSet.someHolds : List ClassSet → Bool
  | [] => false
  | item :: rest => item.holdsCharacters || someHolds rest

end

def foldCase (flags : Flags) (span : Span) (holdsCharacters : Bool) (set : CharSet) :
    Except Fault CharSet :=
  if flags.foldsUnicode && holdsCharacters then faultAt .caseUnavailable span
  else .ok (if flags.foldsAscii then .anyCase set else set)

mutual

def ClassSet.meaning (flags : Flags) : ClassSet → Except Fault CharSet
  | .empty _ => .ok .empty
  | .literal char => do
    char.checkInClass flags
    return .single char.char
  | .range low high => do
    low.checkInClass flags
    high.checkInClass flags
    return .range low.char high.char
  | .named span negated kind => do
    negate flags span negated (← foldCase flags span true kind.set)
  | .property span name => faultAt (propertyFault flags name) span
  | .letter span negated kind => letterClass flags span negated kind
  | .bracketed span negated inner => do
    let set ← inner.meaning flags
    negate flags span negated (← foldCase flags span inner.holdsCharacters set)
  | .union _ items => do return .unionAll (← meanings flags items)
  | .combined operation left right => do
    let a ← left.meaning flags
    let b ← right.meaning flags
    let b ← foldCase flags right.span right.holdsCharacters b
    let a ← foldCase flags left.span left.holdsCharacters a
    return .combine operation a b

def ClassSet.meanings (flags : Flags) : List ClassSet → Except Fault (List CharSet)
  | [] => .ok []
  | item :: rest => do
    let set ← item.meaning flags
    return set :: (← meanings flags rest)

end

def Literal.meaning (flags : Flags) (literal : Literal) : Except Fault Matcher := do
  literal.check flags
  if flags.foldsUnicode then faultAt .caseUnavailable literal.span
  let set := CharSet.single literal.char
  return .char (if flags.foldsAscii then .anyCase set else set)

def dotMeaning (flags : Flags) (span : Span) : Except Fault Matcher :=
  if !flags.unicode then faultAt .notUtf8 span
  else
    let lineEnds :=
      if flags.dotAll then []
      else if flags.crlf then [('\n', '\n'), ('\r', '\r')] else [('\n', '\n')]
    .ok (.char (.complement (.ofRanges lineEnds)))

def Anchor.meaning (flags : Flags) : Anchor → Look
  | lineStart => if flags.multiLine then .lineStart flags.crlf else .textStart
  | lineEnd => if flags.multiLine then .lineEnd flags.crlf else .textEnd
  | textStart => .textStart
  | textEnd => .textEnd
  | word edge => .word (!flags.unicode) edge

/-- A part that is repeated no times is not looked at again. -/
def Matcher.repeatedOf (min : Nat) (max : Option Nat) (inner : Matcher) : Matcher :=
  if max = some 0 then .empty else .repeated min max inner

def Matcher.row (matchers : List Matcher) : Matcher :=
  match matchers.filter (· != .empty) with
  | [] => .empty
  | first :: rest => rest.foldl .both first

def Matcher.choice : List Matcher → Matcher
  | [] => .empty
  | first :: rest => rest.foldl .either first

mutual

def Expression.meaning (flags : Flags) : Expression → Except Fault (Matcher × Flags)
  | .empty _ => .ok (.empty, flags)
  | .flags _ settings => .ok (.empty, flags.apply settings)
  | .literal char => do return (← char.meaning flags, flags)
  | .dot span => do return (← dotMeaning flags span, flags)
  | .anchor _ place => .ok (.look (place.meaning flags), flags)
  | .property span name => faultAt (propertyFault flags name) span
  | .letter span negated kind => do
    return (.char (← letterClass flags span negated kind), flags)
  | .bracketed span negated inner => do
    let set ← inner.meaning flags
    let set ← foldCase flags span inner.holdsCharacters set
    return (.char (← negate flags span negated set), flags)
  | .repeated _ min max inner => do
    let (matcher, flags) ← inner.meaning flags
    return (.repeatedOf min max matcher, flags)
  | .group _ captures settings inner => do
    let (matcher, _) ← inner.meaning (flags.apply settings)
    return (if captures then .captured matcher else matcher, flags)
  | .alternatives _ options => do
    let (matchers, flags) ← meanings flags options
    return (.choice matchers, flags)
  | .sequence _ items => do
    let (matchers, flags) ← meanings flags items
    return (.row matchers, flags)

def Expression.meanings (flags : Flags) :
    List Expression → Except Fault (List Matcher × Flags)
  | [] => .ok ([], flags)
  | item :: rest => do
    let (matcher, flags) ← item.meaning flags
    let (matchers, flags) ← meanings flags rest
    return (matcher :: matchers, flags)

end

end CaptureAudit.Pattern
