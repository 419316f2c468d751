import CaptureAudit.Proofs.Text.Codes
import CaptureAudit.Yaml.Scalar
import Mathlib.Algebra.Group.Nat.Defs
import Mathlib.Data.List.Basic

/-! # Scalars are uniquely readable

Scalars written at one indentation are told apart whatever follows them, as long as it is
further out. The first character shows the style. In a quoted or literal text each character
is written by a code that depends on whether a break came before it, no two characters have
codes that start alike, and the end of the text does not start like a code.
-/
namespace CaptureAudit.Yaml

open Text (separated_unique)

/-- What may stand behind a value whose lines start at `indent`: the end, or a line that starts
further out. -/
def Outside (indent : Nat) (rest : List Char) : Prop :=
  rest = [] ∨ ∃ n c tail, n < indent ∧ isSpace c = false ∧ isBreak c = false ∧
    rest = spaces n ++ c :: tail

section Codes

variable {code : Bool → Char → List Char} {afterBreak : Bool}

/-- A text character by character; what is written for one depends on the one before. -/
def writtenBy (code : Bool → Char → List Char) (afterBreak : Bool) : List Char → List Char
  | [] => []
  | c :: rest => code afterBreak c ++ writtenBy code (isBreak c) rest

def endsBroken (afterBreak : Bool) : List Char → Bool
  | [] => afterBreak
  | c :: rest => endsBroken (isBreak c) rest

theorem writtenBy_append (s t : List Char) :
    writtenBy code afterBreak (s ++ t) =
      writtenBy code afterBreak s ++ writtenBy code (endsBroken afterBreak s) t := by
  induction s generalizing afterBreak with
  | nil => rfl
  | cons c s ih => simp [writtenBy, endsBroken, ih]

theorem endsBroken_append (s t : List Char) :
    endsBroken afterBreak (s ++ t) = endsBroken (endsBroken afterBreak s) t := by
  induction s generalizing afterBreak with
  | nil => rfl
  | cons c s ih => simp [endsBroken, ih]

/-- Characters are told apart by what is written for them, whatever follows. -/
def Readable (mark : Char → List Char) : Prop :=
  ∀ {c d : Char} {x y : List Char}, mark c ++ x = mark d ++ y → c = d ∧ x = y

def Stops (mark : Char → List Char) (rest : List Char) : Prop :=
  ∀ (c : Char) (x : List Char), rest ≠ mark c ++ x

theorem writtenBy_unique (hcode : ∀ afterBreak, Readable (code afterBreak))
    {s t r₁ r₂ : List Char}
    (h₁ : Stops (code (endsBroken afterBreak s)) r₁)
    (h₂ : Stops (code (endsBroken afterBreak t)) r₂)
    (h : writtenBy code afterBreak s ++ r₁ = writtenBy code afterBreak t ++ r₂) :
    s = t ∧ r₁ = r₂ := by
  -- The codes tell the characters apart while both texts go on, and `Stops` rules out that one
  -- ends before the other.
  induction s generalizing afterBreak t with
  | nil =>
    cases t with
    | nil => exact ⟨rfl, h⟩
    | cons d t =>
      rw [writtenBy, writtenBy, List.nil_append, List.append_assoc] at h
      exact absurd h (h₁ d _)
  | cons c s ih =>
    cases t with
    | nil =>
      rw [writtenBy, writtenBy, List.nil_append, List.append_assoc] at h
      exact absurd h.symm (h₂ c _)
    | cons d t =>
      rw [writtenBy, writtenBy, List.append_assoc, List.append_assoc] at h
      obtain ⟨rfl, hrest⟩ := hcode afterBreak h
      obtain ⟨rfl, hr⟩ := ih h₁ h₂ hrest
      exact ⟨rfl, hr⟩

end Codes

section Lines

variable {indent : Nat} {afterBreak : Bool} {c d : Char} {x y : List Char}

def indentation (indent : Nat) (afterBreak : Bool) : List Char :=
  if afterBreak then spaces indent else []

/-- Breaks stay bare; any other character is indented if it starts a line, and may need a mark
of its own after it. -/
def lineChar (indent : Nat) (more : Char → List Char) (afterBreak : Bool) (c : Char) :
    List Char :=
  if isBreak c then [c] else indentation indent afterBreak ++ c :: more c

theorem spaces_start_no_break (n : Nat) (hc : isBreak c = true) (hd : isBreak d = false) :
    spaces n ++ d :: y ≠ c :: x := by
  intro h
  cases n with
  | zero =>
    obtain ⟨rfl, -⟩ := List.cons.inj h
    rw [hc] at hd
    cases hd
  | succ n =>
    obtain ⟨rfl, -⟩ := List.cons.inj h
    cases hc

theorem indentation_starts_no_break (hc : isBreak c = true) (hd : isBreak d = false) :
    indentation indent afterBreak ++ d :: y ≠ c :: x := by
  cases afterBreak with
  | false => exact spaces_start_no_break 0 hc hd
  | true => exact spaces_start_no_break indent hc hd

theorem fewer_spaces {n m : Nat} (hnm : n < m) (hc : isSpace c = false) :
    spaces n ++ c :: x ≠ spaces m ++ y := by
  intro h
  obtain ⟨k, rfl⟩ := Nat.exists_eq_add_of_lt hnm
  rw [spaces, spaces, Nat.add_assoc, List.replicate_add, List.append_assoc,
    List.append_cancel_left_eq, List.replicate_succ, List.cons_append] at h
  obtain ⟨rfl, -⟩ := List.cons.inj h
  cases hc

theorem lineChar_break {more : Char → List Char} (hc : isBreak c = true) :
    lineChar indent more afterBreak c = [c] := if_pos hc

theorem lineChar_line {more : Char → List Char} (hc : isBreak c = false) :
    lineChar indent more afterBreak c = indentation indent afterBreak ++ c :: more c :=
  if_neg (by simp [hc])

theorem lineChar_readable (more : Char → List Char) (afterBreak : Bool) :
    Readable (lineChar indent more afterBreak) := by
  intro c d x y h
  cases hc : isBreak c with
  | true =>
    rw [lineChar_break hc] at h
    cases hd : isBreak d with
    | true =>
      rw [lineChar_break hd] at h
      exact List.cons.inj h
    | false =>
      rw [lineChar_line hd, List.append_assoc] at h
      exact absurd h.symm (indentation_starts_no_break hc hd)
  | false =>
    rw [lineChar_line hc, List.append_assoc] at h
    cases hd : isBreak d with
    | true =>
      rw [lineChar_break hd] at h
      exact absurd h (indentation_starts_no_break hd hc)
    | false =>
      rw [lineChar_line hd, List.append_assoc, List.append_cancel_left_eq] at h
      obtain ⟨rfl, h⟩ := List.cons.inj h
      exact ⟨rfl, List.append_cancel_left h⟩

end Lines

section Literals

variable {indent : Nat} {s t r₁ r₂ : List Char}

theorem literalBody_eq (afterBreak : Bool) (text : List Char) :
    literalBody indent afterBreak text =
      writtenBy (lineChar indent fun _ => []) afterBreak text := by
  induction text generalizing afterBreak with
  | nil => rfl
  | cons c text ih =>
    rw [literalBody, writtenBy, lineChar]
    cases hc : isBreak c <;> simp [ih, indentation]

theorem outside_stops {rest : List Char} (h : Outside indent rest) :
    Stops (lineChar indent (fun _ => []) true) rest := by
  intro c x hrest
  obtain rfl | ⟨n, d, tail, hn, hspace, hbreak, rfl⟩ := h
  · cases hc : isBreak c with
    | true =>
      rw [lineChar_break hc] at hrest
      cases hrest
    | false =>
      rw [lineChar_line hc] at hrest
      simp at hrest
  · cases hc : isBreak c with
    | true =>
      rw [lineChar_break hc] at hrest
      exact spaces_start_no_break n hc hbreak hrest
    | false =>
      rw [lineChar_line hc, List.append_assoc] at hrest
      exact fewer_spaces hn hspace hrest

def endsInBreak (text : List Char) : Bool := text.getLast?.any isBreak

theorem endsBroken_eq (afterBreak : Bool) (c : Char) (text : List Char) :
    endsBroken afterBreak (c :: text) = endsInBreak (c :: text) := by
  induction text generalizing c afterBreak with
  | nil => simp [endsBroken, endsInBreak]
  | cons d text ih =>
    rw [endsBroken, ih, endsInBreak, endsInBreak, List.getLast?_cons_cons]

def closedLines (text : List Char) : List Char :=
  text ++ if endsInBreak text then [] else ['\n']

theorem closedLines_end (afterBreak : Bool) (text : List Char) :
    endsBroken afterBreak (closedLines text) = true := by
  rw [closedLines]
  cases h : endsInBreak text with
  | false =>
    rw [if_neg Bool.false_ne_true, endsBroken_append]
    rfl
  | true =>
    rw [if_pos rfl, List.append_nil]
    cases text with
    | nil => cases h
    | cons c text => rw [endsBroken_eq, h]

theorem closedLines_written (text : List Char) :
    literalBody indent true text ++ (if endsInBreak text then [] else ['\n']) =
      writtenBy (lineChar indent fun _ => []) true (closedLines text) := by
  rw [closedLines, writtenBy_append, literalBody_eq]
  cases endsInBreak text <;> rfl

theorem closedLines_unique (hs : endsInBreak s = endsInBreak t)
    (h : closedLines s = closedLines t) : s = t := by
  rw [closedLines, closedLines, hs] at h
  exact List.append_cancel_right h

theorem hints_no_break (text : List Char) : '\n' ∉ indentHint text ++ chompHint text := by
  rw [indentHint, chompHint]
  split <;> split <;> (try split) <;> (try split) <;> simp

/-- The dash says that the text ends without a break. -/
theorem dash_in_hints (text : List Char) :
    '-' ∈ indentHint text ++ chompHint text ↔ endsInBreak text = false := by
  have hindent : '-' ∉ indentHint text := by
    rw [indentHint]
    split <;> simp
  rw [List.mem_append, or_iff_right hindent, chompHint, endsInBreak, ← List.head?_reverse]
  cases text.reverse with
  | nil => simp
  | cons last others =>
    cases others with
    | nil => cases hlast : isBreak last <;> simp [hlast]
    | cons before others =>
      cases hlast : isBreak last <;> cases hbefore : isBreak before <;> simp [hlast, hbefore]

theorem literal_unique
    (h₁ : Outside indent r₁) (h₂ : Outside indent r₂)
    (h : literal indent s ++ ((if endsInBreak s then [] else ['\n']) ++ r₁) =
      literal indent t ++ ((if endsInBreak t then [] else ['\n']) ++ r₂)) :
    s = t ∧ r₁ = r₂ := by
  simp only [literal, List.cons_append, List.append_assoc, List.cons.injEq, true_and] at h
  rw [← List.append_assoc, ← List.append_assoc (indentHint t)] at h
  obtain ⟨hhints, hlines⟩ := separated_unique (hints_no_break s) (hints_no_break t) h
  have hend : endsInBreak s = endsInBreak t := by
    rw [Bool.eq_iff_iff, ← not_iff_not, Bool.not_eq_true, Bool.not_eq_true, ← dash_in_hints,
      ← dash_in_hints, hhints]
  rw [← List.append_assoc, ← List.append_assoc, closedLines_written, closedLines_written] at hlines
  have hstop {u r : List Char} (hr : Outside indent r) :
      Stops (lineChar indent (fun _ => []) (endsBroken true (closedLines u))) r := by
    rw [closedLines_end]
    exact outside_stops hr
  obtain ⟨hclosed, hr⟩ :=
    writtenBy_unique (lineChar_readable fun _ => []) (hstop h₁) (hstop h₂) hlines
  exact ⟨closedLines_unique hend hclosed, hr⟩

end Literals
section Quotes

variable {indent : Nat} {s t r₁ r₂ : List Char}

def secondQuote (c : Char) : List Char := if c = '\'' then ['\''] else []

theorem singleQuotedBody_eq (afterBreak : Bool) (text : List Char) :
    singleQuotedBody indent afterBreak text =
      writtenBy (lineChar indent secondQuote) afterBreak text ++
        indentation indent (endsBroken afterBreak text) := by
  induction text generalizing afterBreak with
  | nil => rfl
  | cons c text ih =>
    rw [singleQuotedBody, writtenBy, lineChar, endsBroken]
    cases hc : isBreak c <;> cases hquote : decide (c = '\'') <;>
      simp_all [indentation, secondQuote]

/-- The closing quote, on a line of its own after a break, is no doubled one. -/
theorem closing_quote_stops (afterBreak : Bool) (rest : List Char) :
    Stops (lineChar indent secondQuote afterBreak)
      (indentation indent afterBreak ++ '\'' :: '\n' :: rest) := by
  intro c x h
  cases hc : isBreak c with
  | true =>
    rw [lineChar_break hc] at h
    exact indentation_starts_no_break hc (by decide) h
  | false =>
    rw [lineChar_line hc, List.append_assoc, List.append_cancel_left_eq] at h
    obtain ⟨rfl, h⟩ := List.cons.inj h
    cases h

theorem singleQuoted_unique
    (h : singleQuoted indent s ++ '\n' :: r₁ = singleQuoted indent t ++ '\n' :: r₂) :
    s = t ∧ r₁ = r₂ := by
  simp only [singleQuoted, singleQuotedBody_eq, List.cons_append, List.append_assoc,
    List.cons.injEq, true_and, List.nil_append] at h
  obtain ⟨hst, hrest⟩ := writtenBy_unique (lineChar_readable secondQuote)
    (closing_quote_stops _ r₁) (closing_quote_stops _ r₂) h
  subst hst
  simpa using hrest

end Quotes

section Escapes

variable {s t r₁ r₂ : List Char}

def shortEscaped : Char → Char
  | '0' => '\x00'
  | 'a' => '\x07'
  | 'b' => '\x08'
  | 't' => '\t'
  | 'n' => '\n'
  | 'v' => '\x0b'
  | 'f' => '\x0c'
  | 'r' => '\r'
  | 'e' => '\x1b'
  | 'N' => '\u0085'
  | '_' => '\u00a0'
  | 'L' => '\u2028'
  | 'P' => '\u2029'
  | mark => mark

theorem shortEscaped_eq {c mark : Char} (h : shortEscape? c = some mark) :
    shortEscaped mark = c := by
  unfold shortEscape? at h
  split at h <;> cases h <;> rfl

/-- Number of digits that follow the mark of an escape; a short one has none. -/
def escapeWidth : Char → Nat
  | 'x' => 2
  | 'u' => 4
  | 'U' => 8
  | _ => 0

theorem hexDigits_length (width n : Nat) : (hexDigits width n).length = width := by
  induction width generalizing n with
  | zero => rfl
  | succ width ih => simp [hexDigits, ih]

theorem hexDigit_unique : ∀ a < 16, ∀ b < 16,
    (Nat.digitChar a).toUpper = (Nat.digitChar b).toUpper → a = b := by
  decide

theorem hexDigits_unique {width m n : Nat} (hm : m < 16 ^ width) (hn : n < 16 ^ width)
    (h : hexDigits width m = hexDigits width n) : m = n := by
  induction width generalizing m n with
  | zero => omega
  | succ width ih =>
    rw [hexDigits, hexDigits] at h
    obtain ⟨hhigh, hlow⟩ := List.append_inj' h rfl
    have hhigh : m / 16 = n / 16 := ih (by omega) (by omega) hhigh
    have hlow : m % 16 = n % 16 :=
      hexDigit_unique _ (Nat.mod_lt _ (by decide)) _ (Nat.mod_lt _ (by decide)) (List.cons.inj hlow).1
    omega

def escapeMark (c : Char) : Char :=
  match shortEscape? c with
  | some mark => mark
  | none => if c.toNat ≤ 0xFF then 'x' else if c.toNat ≤ 0xFFFF then 'u' else 'U'

theorem short_escape_width {c mark : Char} (h : shortEscape? c = some mark) :
    escapeWidth mark = 0 := by
  unfold shortEscape? at h
  split at h <;> cases h <;> rfl

/-- The digits of a long escape are enough for its character. -/
theorem long_escape_fits {c : Char} (h : shortEscape? c = none) :
    0 < escapeWidth (escapeMark c) ∧ c.toNat < 16 ^ escapeWidth (escapeMark c) := by
  have hsize : c.toNat < 2 ^ 32 := c.val.toNat_lt
  rw [escapeMark, h]
  dsimp only
  split_ifs <;> simp only [escapeWidth] <;> omega

theorem escaped_eq (c : Char) :
    escaped c = '\\' :: escapeMark c :: hexDigits (escapeWidth (escapeMark c)) c.toNat := by
  rw [escaped, escapeMark]
  cases h : shortEscape? c with
  | some mark =>
    dsimp only
    rw [short_escape_width h, hexDigits]
  | none =>
    dsimp only
    split_ifs <;> rfl

theorem escapeMark_short {c mark : Char} (h : shortEscape? c = some mark) :
    escapeMark c = mark := by
  rw [escapeMark, h]

/-- The mark tells short from long; a short one gives the character, the digits give any other. -/
theorem escaped_readable : Readable escaped := by
  intro c d x y h
  simp only [escaped_eq, List.cons_append, List.cons.injEq, true_and] at h
  obtain ⟨hmark, hrest⟩ := h
  rw [hmark] at hrest
  obtain ⟨hdigits, hxy⟩ := List.append_inj hrest (by rw [hexDigits_length, hexDigits_length])
  refine ⟨?_, hxy⟩
  cases hc : shortEscape? c with
  | some mark =>
    rw [escapeMark_short hc] at hmark
    cases hd : shortEscape? d with
    | some other =>
      rw [escapeMark_short hd] at hmark
      rw [← shortEscaped_eq hc, ← shortEscaped_eq hd, hmark]
    | none =>
      have hwidth := (long_escape_fits hd).1
      rw [← hmark, short_escape_width hc] at hwidth
      omega
  | none =>
    have hfits := long_escape_fits hc
    rw [hmark] at hfits
    cases hd : shortEscape? d with
    | some other =>
      rw [escapeMark_short hd, short_escape_width hd] at hfits
      omega
    | none => exact Char.toNat_inj.mp (hexDigits_unique hfits.2 (long_escape_fits hd).2 hdigits)

theorem doubleQuotedChar_cases (c : Char) :
    doubleQuotedChar c = escaped c ∨ (doubleQuotedChar c = [c] ∧ c ≠ '"' ∧ c ≠ '\\') := by
  rw [doubleQuotedChar]
  split
  · exact .inl rfl
  · simp_all

theorem doubleQuotedChar_readable : Readable doubleQuotedChar := by
  intro c d x y h
  obtain hc | ⟨hc, -, hcslash⟩ := doubleQuotedChar_cases c <;>
    obtain hd | ⟨hd, -, hdslash⟩ := doubleQuotedChar_cases d <;> rw [hc, hd] at h
  · exact escaped_readable h
  · rw [escaped_eq] at h
    exact absurd (List.cons.inj h).1.symm hdslash
  · rw [escaped_eq] at h
    exact absurd (List.cons.inj h).1 hcslash
  · simpa using h

theorem double_quote_stops (rest : List Char) : Stops doubleQuotedChar ('"' :: rest) := by
  intro c x h
  obtain hc | ⟨hc, hquote, -⟩ := doubleQuotedChar_cases c <;> rw [hc] at h
  · rw [escaped_eq] at h
    cases h
  · exact hquote (List.cons.inj h).1.symm

theorem doubleQuoted_eq (text : List Char) :
    doubleQuoted text = '"' :: (writtenBy (fun _ => doubleQuotedChar) false text ++ ['"']) := by
  have hbody (afterBreak : Bool) :
      text.flatMap doubleQuotedChar = writtenBy (fun _ => doubleQuotedChar) afterBreak text := by
    induction text generalizing afterBreak with
    | nil => rfl
    | cons c text ih => rw [List.flatMap_cons, writtenBy, ih]
  rw [doubleQuoted, hbody false]
  rfl

theorem doubleQuoted_unique
    (h : doubleQuoted s ++ '\n' :: r₁ = doubleQuoted t ++ '\n' :: r₂) : s = t ∧ r₁ = r₂ := by
  simp only [doubleQuoted_eq, List.cons_append, List.append_assoc, List.cons.injEq, true_and,
    List.nil_append] at h
  obtain ⟨hst, hrest⟩ := writtenBy_unique (fun _ => doubleQuotedChar_readable)
    (double_quote_stops _) (double_quote_stops _) h
  simpa [hst] using hrest

end Escapes

section Styles

variable {indent : Nat} {s t r₁ r₂ : List Char}

def shownStyle : Char → Style
  | '\'' => .singleQuoted
  | '"' => .doubleQuoted
  | '|' => .literal
  | _ => .plain

theorem styleOf_plain {text : List Char} (h : styleOf text = .plain) :
    '\n' ∉ text ∧ plainAllowed text = true := by
  rw [styleOf] at h
  split at h
  · split at h <;> cases h
  · rename_i hbreak
    refine ⟨by simpa using hbreak, ?_⟩
    split at h
    · assumption
    · split at h <;> cases h

theorem indicator_starts {c : Char} (hc : c ∈ indicators) (rest : List Char) :
    startsConstruct (c :: rest) = true := by
  unfold startsConstruct
  split <;> simp_all

theorem shownStyle_plain {c : Char} (h : c ∉ indicators) : shownStyle c = .plain := by
  unfold shownStyle
  split <;> simp_all [indicators]

theorem plain_start {text : List Char} (h : plainAllowed text = true) :
    ∃ c rest, text = c :: rest ∧ shownStyle c = .plain := by
  simp only [plainAllowed, needsQuotes, hasIndicator, Bool.not_eq_true', Bool.or_eq_false_iff] at h
  obtain ⟨⟨⟨⟨⟨⟨⟨⟨hnull, -⟩, -⟩, -⟩, -⟩, hstart, -⟩, -⟩, -⟩, -⟩ := h
  cases text with
  | nil => cases hnull
  | cons c rest =>
    refine ⟨c, rest, rfl, shownStyle_plain fun hc => ?_⟩
    rw [indicator_starts hc] at hstart
    cases hstart

theorem style_shown (indent : Nat) (text : List Char) :
    ∃ c rest, scalarLine indent text = c :: rest ∧ shownStyle c = styleOf text := by
  rw [scalarLine]
  cases h : styleOf text with
  | plain =>
    obtain ⟨c, rest, rfl, hc⟩ := plain_start (styleOf_plain h).2
    exact ⟨c, _, rfl, hc⟩
  | singleQuoted => exact ⟨_, _, rfl, rfl⟩
  | doubleQuoted => exact ⟨_, _, rfl, rfl⟩
  | literal => exact ⟨_, _, rfl, rfl⟩

theorem scalar_unique (h₁ : Outside indent r₁) (h₂ : Outside indent r₂)
    (h : scalarLine indent s ++ r₁ = scalarLine indent t ++ r₂) : s = t ∧ r₁ = r₂ := by
  have hstyle : styleOf s = styleOf t := by
    obtain ⟨c, x, hs, hc⟩ := style_shown indent s
    obtain ⟨d, y, ht, hd⟩ := style_shown indent t
    rw [hs, ht] at h
    rw [← hc, ← hd, (List.cons.inj h).1]
  rw [scalarLine, scalarLine, hstyle] at h
  cases ht : styleOf t with
  | plain =>
    simp only [ht, List.append_assoc, List.cons_append, List.nil_append] at h
    exact separated_unique (styleOf_plain (hstyle.trans ht)).1 (styleOf_plain ht).1 h
  | singleQuoted =>
    simp only [ht, List.append_assoc, List.cons_append, List.nil_append] at h
    exact singleQuoted_unique h
  | doubleQuoted =>
    simp only [ht, List.append_assoc, List.cons_append, List.nil_append] at h
    exact doubleQuoted_unique h
  | literal =>
    simp only [ht, List.append_assoc] at h
    exact literal_unique h₁ h₂ h

end Styles

end CaptureAudit.Yaml
