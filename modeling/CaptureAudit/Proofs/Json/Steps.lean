import CaptureAudit.Json.Reader
import Mathlib.Data.List.Basic

/-! # What one character does

The phases that can follow a phase, and the faults that can end it, whatever containers are open.
What holds at every point of a text is proved by cases on these, not on the functions that read a
character. -/
namespace CaptureAudit.Json

def EndsValue (c : Char) : Prop := isBlank c = true ∨ c = ',' ∨ c = ']' ∨ c = '\x7d'

def words : List (List Char) :=
  [['t', 'r', 'u', 'e'], ['f', 'a', 'l', 's', 'e'], ['n', 'u', 'l', 'l']]

theorem letter_of_word {p : Char → Bool} (hall : (words.all fun word => word.all p) = true)
    {word : List Char} (hword : word ∈ words) {letter : Char} (hletter : letter ∈ word) :
    p letter = true :=
  List.all_eq_true.mp (List.all_eq_true.mp hall word hword) letter hletter

inductive StringMoves : Escape → Char → Escape → Prop
  | plain {c : Char} : c ≠ '"' → c ≠ '\\' → StringMoves .none c .none
  | backslash : StringMoves .none '\\' .opened
  | simple {c d : Char} : simpleEscape? c = some d → StringMoves .opened c .none
  | unit : StringMoves .opened 'u' (.hex none 0 (some 0))
  /-- A character that is no digit leaves no value, and nothing restores it. -/
  | digit {high value later : Option Nat} {bytes : Nat} {c : Char} : bytes + c.utf8Size < 4 →
      (later.isSome → value.isSome ∧ (hexValue? c).isSome) →
      StringMoves (.hex high bytes value) c (.hex high (bytes + c.utf8Size) later)
  | unitRead {high : Option Nat} {bytes n d : Nat} {c : Char} : hexValue? c = some d →
      StringMoves (.hex high bytes (some n)) c .none
  | highRead {bytes n d high : Nat} {c : Char} : hexValue? c = some d →
      StringMoves (.hex none bytes (some n)) c (.pairBackslash high)
  | pairBackslash {high : Nat} : StringMoves (.pairBackslash high) '\\' (.pairMark high)
  | pairMark {high : Nat} : StringMoves (.pairMark high) 'u' (.hex (some high) 0 (some 0))

inductive Moves : Phase → Char → Phase → Prop
  | blank {gap : Gap} {c : Char} : isBlank c = true → Moves (.gap gap) c (.gap gap)
  | mark {gap next : Gap} {c : Char} : c ∈ ['[', ']', '\x7b', '\x7d', ',', ':'] →
      Moves (.gap gap) c (.gap next)
  | quote {gap : Gap} {use : StringUse} : Moves (.gap gap) '"' (.string use [] .none)
  | letter {gap : Gap} {c expected : Char} {rest : List Char} {denotes : Document} :
      c :: expected :: rest ∈ words → Moves (.gap gap) c (.word expected rest denotes)
  | number {gap : Gap} {c : Char} {number : Number} : Number.start? c = some number →
      Moves (.gap gap) c (.number number)
  | spelling {c following : Char} {rest : List Char} {denotes : Document} :
      Moves (.word c (following :: rest) denotes) c (.word following rest denotes)
  | spelt {c : Char} {denotes : Document} {next : Gap} : Moves (.word c [] denotes) c (.gap next)
  | further {number more : Number} {c : Char} : number.feed? c = some (.ok more) →
      Moves (.number number) c (.number more)
  | ended {number : Number} {value : Document} {c : Char} {next : Gap} : number.feed? c = none →
      number.finish = .ok value → EndsValue c → Moves (.number number) c (.gap next)
  | inside {use : StringUse} {read more : List Char} {escape next : Escape} {c : Char} :
      StringMoves escape c next → Moves (.string use read escape) c (.string use more next)
  | close {use : StringUse} {read : List Char} {next : Gap} :
      Moves (.string use read .none) '"' (.gap next)

/-- Why a character cannot be read, and how many bytes of it show so. -/
inductive Refuses : Phase → Char → Cause × Nat → Prop
  | seen {phase : Phase} {c : Char} {cause : Cause} : Refuses phase c (cause, 1)
  | unit {use : StringUse} {read : List Char} {high : Option Nat} {bytes : Nat}
      {value : Option Nat} {c : Char} : 4 ≤ bytes + c.utf8Size →
      Refuses (.string use read (.hex high bytes value)) c (.invalidEscape, 4 - bytes)
  /-- The character is not part of the number, and none of its bytes was needed. -/
  | ended {number : Number} {c : Char} : number.feed? c = none →
      number.finish = .error .numberOutOfRange →
      Refuses (.number number) c (.numberOutOfRange, 0)

def Step.Allowed (step : Step) (phase : Phase) (c : Char) : Prop :=
  match step with
  | .ok (next, _) => Moves phase c next
  | .error fault => Refuses phase c fault

variable {context : List Frame} {c : Char}

theorem beginValue_allowed (gap : Gap) : (beginValue context c).Allowed (.gap gap) c := by
  unfold beginValue
  split
  · exact Moves.mark (by simp)
  · exact Moves.mark (by simp)
  · exact Moves.quote
  · exact Moves.letter (by simp [words])
  · exact Moves.letter (by simp [words])
  · exact Moves.letter (by simp [words])
  · split
    · rename_i hnumber
      exact Moves.number hnumber
    · exact Refuses.seen

theorem beginToken_allowed (gap : Gap) : (beginToken gap context c).Allowed (.gap gap) c := by
  cases gap with
  | value => exact beginValue_allowed .value
  | firstItem =>
    simp only [beginToken]
    split_ifs with hclose
    · exact Moves.mark (by simp [hclose])
    · exact beginValue_allowed .firstItem
  | nextItem before =>
    simp only [beginToken]
    split_ifs with hclose
    · exact Refuses.seen
    · exact beginValue_allowed (.nextItem before)
  | afterItem before =>
    simp only [beginToken]
    split_ifs with hclose hcomma
    · exact Moves.mark (by simp [hclose])
    · exact Moves.mark (by simp [hcomma])
    · exact Refuses.seen
  | firstName =>
    simp only [beginToken]
    split_ifs with hclose hquote
    · exact Moves.mark (by simp [hclose])
    · exact hquote ▸ Moves.quote
    · exact Refuses.seen
  | nextName before =>
    simp only [beginToken]
    split_ifs with hquote hclose
    · exact hquote ▸ Moves.quote
    · exact Refuses.seen
    · exact Refuses.seen
  | colon before name =>
    simp only [beginToken]
    split_ifs with hcolon
    · exact Moves.mark (by simp [hcolon])
    · exact Refuses.seen
  | afterMember before =>
    simp only [beginToken]
    split_ifs with hclose hcomma
    · exact Moves.mark (by simp [hclose])
    · exact Moves.mark (by simp [hcomma])
    · exact Refuses.seen
  | finished document => exact Refuses.seen

theorem feedGap_allowed (gap : Gap) : (feedGap gap context c).Allowed (.gap gap) c := by
  rw [feedGap]
  split_ifs with hblank
  · exact Moves.blank hblank
  · exact beginToken_allowed gap

theorem feedWord_allowed (expected : Char) (rest : List Char) (denotes : Document) :
    (feedWord expected rest denotes context c).Allowed (.word expected rest denotes) c := by
  unfold feedWord
  split_ifs with hc
  · subst hc
    cases rest with
    | nil => exact Moves.spelt
    | cons following rest => exact Moves.spelling
  · exact Refuses.seen

/-- After a value only a separator or a closing bracket is read, and then another gap follows. -/
theorem after_value_allowed {number : Number} {value : Document} (hfeed : number.feed? c = none)
    (hfinish : number.finish = .ok value) :
    (feedGap (deliver value context).1 (deliver value context).2 c).Allowed (.number number) c := by
  rw [feedGap]
  split_ifs with hblank
  · exact Moves.ended hfeed hfinish (Or.inl hblank)
  cases context with
  | nil => exact Refuses.seen
  | cons frame frames =>
    cases frame with
    | array before =>
      simp only [deliver, beginToken]
      split_ifs with hclose hcomma
      · exact Moves.ended hfeed hfinish (Or.inr (Or.inr (Or.inl hclose)))
      · exact Moves.ended hfeed hfinish (Or.inr (Or.inl hcomma))
      · exact Refuses.seen
    | object before name =>
      simp only [deliver, beginToken]
      split_ifs with hclose hcomma
      · exact Moves.ended hfeed hfinish (Or.inr (Or.inr (Or.inr hclose)))
      · exact Moves.ended hfeed hfinish (Or.inr (Or.inl hcomma))
      · exact Refuses.seen

theorem toDocument_error {d : Decimal} {cause : Cause} (h : d.toDocument = .error cause) :
    cause = .numberOutOfRange := by
  rw [Decimal.toDocument] at h
  split_ifs at h
  cases h
  rfl

theorem number_finish_error {number : Number} {cause : Cause} (h : number.finish = .error cause) :
    cause = .numberOutOfRange ∨ cause = .endOfValue ∧ ∀ c, number.feed? c ≠ none := by
  cases number with
  | minus | point | mark | markSign =>
    cases h
    exact Or.inr ⟨rfl, by grind [Number.feed?.eq_def]⟩
  | zero | integer | vanishing => cases h
  | wideInteger | fraction | idleFraction | exponent => exact Or.inl (toDocument_error h)

theorem feedNumber_allowed (number : Number) :
    (feedNumber number context c).Allowed (.number number) c := by
  rw [feedNumber]
  cases hfeed : number.feed? c with
  | some further =>
    cases further with
    | error cause => exact Refuses.seen
    | ok more => exact Moves.further hfeed
  | none =>
    cases hfinish : number.finish with
    | error cause =>
      rcases number_finish_error hfinish with rfl | ⟨-, hopen⟩
      · exact Refuses.ended hfeed hfinish
      · exact absurd hfeed (hopen c)
    | ok value => exact after_value_allowed hfeed hfinish

theorem endHex_allowed {use : StringUse} {read : List Char} {high : Option Nat} {bytes n d : Nat}
    (unit : Nat) (hc : hexValue? c = some d) :
    (endHex use read context high unit).Allowed (.string use read (.hex high bytes (some n))) c := by
  cases high with
  | some first =>
    simp only [endHex]
    split_ifs
    · exact Moves.inside (.unitRead hc)
    · exact Refuses.seen
  | none =>
    simp only [endHex]
    split_ifs
    · exact Refuses.seen
    · exact Moves.inside (.highRead hc)
    · exact Moves.inside (.unitRead hc)

theorem feedString_allowed (use : StringUse) (read : List Char) (escape : Escape) :
    (feedString use read context escape c).Allowed (.string use read escape) c := by
  cases escape with
  | none =>
    simp only [feedString]
    split_ifs with hquote hback hcontrol
    · subst hquote
      cases use with
      | value => exact Moves.close
      | name before => exact Moves.close
    · exact Moves.inside (hback ▸ .backslash)
    · exact Refuses.seen
    · exact Moves.inside (.plain hquote hback)
  | opened =>
    simp only [feedString]
    split_ifs with hu
    · exact Moves.inside (hu ▸ .unit)
    · cases hd : simpleEscape? c with
      | none => exact Refuses.seen
      | some d => exact Moves.inside (.simple hd)
  | hex high bytes value =>
    simp only [feedString]
    split_ifs with hbytes
    · refine Moves.inside (.digit hbytes ?_)
      cases value <;> cases hexValue? c <;> simp
    · cases value with
      | none => exact Refuses.unit (Nat.le_of_not_lt hbytes)
      | some n =>
        cases hd : hexValue? c with
        | none => exact Refuses.unit (Nat.le_of_not_lt hbytes)
        | some d => exact endHex_allowed _ hd
  | pairBackslash high =>
    simp only [feedString]
    split_ifs with hback
    · exact Moves.inside (hback ▸ .pairBackslash)
    · exact Refuses.seen
  | pairMark high =>
    simp only [feedString]
    split_ifs with hu
    · exact Moves.inside (hu ▸ .pairMark)
    · exact Refuses.seen

theorem feed_allowed (phase : Phase) (context : List Frame) (c : Char) :
    (feedPhase phase context c).Allowed phase c := by
  cases phase with
  | gap gap => exact feedGap_allowed gap
  | word expected rest denotes => exact feedWord_allowed expected rest denotes
  | number number => exact feedNumber_allowed number
  | string use read escape => exact feedString_allowed use read escape

theorem feed_moves {phase next : Phase} {outer : List Frame}
    (h : feedPhase phase context c = .ok (next, outer)) : Moves phase c next := by
  have hallowed := feed_allowed phase context c
  rwa [h] at hallowed

theorem feed_refuses {phase : Phase} {fault : Cause × Nat}
    (h : feedPhase phase context c = .error fault) : Refuses phase c fault := by
  have hallowed := feed_allowed phase context c
  rwa [h] at hallowed

/-- What holds of every phase that can be reached: of the four bytes after `\u`, one at least is
still to come, and what is left to spell is the end of a literal name. -/
def Phase.WellFormed : Phase → Prop
  | .word expected rest _ => ∃ word ∈ words, expected :: rest <:+ word
  | .string _ _ (.hex _ bytes _) => bytes < 4
  | _ => True

theorem moves_wellFormed {phase next : Phase} (h : Moves phase c next)
    (hphase : phase.WellFormed) : next.WellFormed := by
  cases h with
  | letter hword => exact ⟨_, hword, List.suffix_cons _ _⟩
  | spelling =>
    obtain ⟨word, hword, hsuffix⟩ := hphase
    exact ⟨word, hword, (List.suffix_cons _ _).trans hsuffix⟩
  | inside h =>
    cases h with
    | digit hbytes _ => exact hbytes
    | unit | pairMark => exact Nat.succ_pos 3
    | _ => trivial
  | _ => trivial

/-- A text that stops too early says so, unless it stops inside a number that is out of range. -/
theorem finish_out_of_range {phase : Phase} {cause : Cause}
    (h : finishPhase phase context = .error cause) (hend : cause.isEndOfInput = false) :
    ∃ number, phase = .number number ∧ number.finish = .error cause ∧
      cause = .numberOutOfRange := by
  have hgap {gap : Gap} (h : gap.finish = .error cause) : cause.isEndOfInput = true := by
    cases gap <;> cases h <;> rfl
  cases phase with
  | gap gap =>
    rw [hgap h] at hend
    cases hend
  | word expected rest denotes | string use read escape =>
    cases h
    cases hend
  | number number =>
    simp only [finishPhase] at h
    cases hfinish : number.finish with
    | ok value =>
      rw [hfinish] at h
      rw [hgap h] at hend
      cases hend
    | error found =>
      rw [hfinish] at h
      cases h
      rcases number_finish_error hfinish with hrange | ⟨rfl, -⟩
      · exact ⟨number, rfl, hfinish, hrange⟩
      · cases hend

end CaptureAudit.Json
