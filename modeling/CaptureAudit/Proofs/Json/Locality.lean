import CaptureAudit.Proofs.Json.FaultPosition
import CaptureAudit.Proofs.Json.Reached
import CaptureAudit.Proofs.Json.Strings

/-! # Faults are local

Reading stops at the first character that cannot be read, and a fault is placed behind the bytes
that show it. So a text that shares these bytes has the same fault in the same place, whatever
it has after them. Only a number that is out of range is placed before what ends it. -/
namespace CaptureAudit.Json

variable {s : State} {phase : Phase} {context : List Frame} {c d : Char} {rest more : List Char}
  {fault : Fault}

section Wide

variable (hc : 1 < c.utf8Size)

include hc

theorem wide_eq_false {mark : Char} (hmark : mark.utf8Size = 1) : (c = mark) = False := by
  rw [eq_iff_iff, iff_false]
  rintro rfl
  exact absurd hmark (Nat.ne_of_gt hc)

theorem wide_not_hex : hexValue? c = none := by
  cases h : hexValue? c with
  | none => rfl
  | some n => exact absurd (hex_digit_size ((hex_digit_iff c n).mp h)) (Nat.ne_of_gt hc)

theorem wide_not_digit : digitValue? c = none := by
  have hhex := wide_not_hex hc
  rw [hexValue?] at hhex
  rw [digitValue?]
  split_ifs at hhex ⊢
  rfl

theorem wide_not_escape : simpleEscape? c = none := by
  unfold simpleEscape?
  split <;> first | rfl | exact absurd hc (by decide)

theorem wide_not_blank : isBlank c = false := by
  simp (disch := decide) [isBlank, wide_eq_false hc]

theorem wide_begins_no_value : beginValue context c = .fail .expectedValue := by
  have hstart : Number.start? c = none := by
    simp (disch := decide) [Number.start?, wide_eq_false hc, wide_not_digit hc]
  unfold beginValue
  split <;> first | exact absurd hc (by decide) | simp [hstart]

theorem wide_not_control : ¬c.toNat < 0x20 := by
  intro hcontrol
  refine absurd (Char.utf8Size_eq_one_iff.mpr ?_) (Nat.ne_of_gt hc)
  rw [UInt32.le_iff_toNat_le]
  exact Nat.le_of_lt (hcontrol.trans (by decide))

variable (hd : 1 < d.utf8Size)

include hd

theorem wide_gap (gap : Gap) : feedGap gap context c = feedGap gap context d := by
  rw [feedGap, feedGap, wide_not_blank hc, wide_not_blank hd]
  cases gap <;>
    simp (disch := decide) [beginToken, wide_eq_false hc, wide_eq_false hd,
      wide_begins_no_value hc, wide_begins_no_value hd]

theorem wide_feed (number : Number) : number.feed? c = number.feed? d := by
  rw [Number.feed?.eq_def, Number.feed?.eq_def, wide_not_digit hc, wide_not_digit hd]
  cases number <;>
    simp (disch := decide) [Number.afterInteger, Number.afterFraction, wide_eq_false hc,
      wide_eq_false hd]

theorem wide_number (number : Number) :
    feedNumber number context c = feedNumber number context d := by
  rw [feedNumber, feedNumber, wide_feed hc hd]
  simp only [wide_gap hc hd]

/-- Of characters beyond ASCII, nothing but the size matters to a phase that refuses one. -/
theorem wide_refused {fault : Cause × Nat} (hsize : c.utf8Size = d.utf8Size)
    (hphase : phase.WellFormed) (h : feedPhase phase context c = .error fault) :
    feedPhase phase context d = .error fault := by
  cases phase with
  | gap gap =>
    rw [← h]
    exact (wide_gap hc hd gap).symm
  | number number =>
    rw [← h]
    exact (wide_number hc hd number).symm
  | word expected rest denotes =>
    obtain ⟨word, hword, hsuffix⟩ := hphase
    have hascii : (words.all fun word => word.all fun letter => letter.utf8Size == 1) = true := rfl
    have hletter : expected.utf8Size = 1 :=
      beq_iff_eq.mp (letter_of_word hascii hword (hsuffix.mem List.mem_cons_self))
    simpa only [feedPhase, feedWord, wide_eq_false hc hletter, wide_eq_false hd hletter, if_false]
      using h
  | string use read escape =>
    cases escape with
    | none =>
      simp (disch := decide) only [feedPhase, feedString, wide_eq_false hc, if_false,
        wide_not_control hc] at h
      cases h
    | opened =>
      simpa (disch := decide) only [feedPhase, feedString, wide_eq_false hc, wide_eq_false hd,
        wide_not_escape hc, wide_not_escape hd, if_false] using h
    | hex high bytes value =>
      simpa only [feedPhase, feedString, wide_not_hex hc, wide_not_hex hd, hsize] using h
    | pairBackslash high | pairMark high =>
      simpa (disch := decide) only [feedPhase, feedString, wide_eq_false hc, wide_eq_false hd,
        if_false] using h

end Wide

/-- A syntax fault lies within the text, and behind a byte of the next character unless a number is
out of range. -/
theorem stops_within (hstops : Stops s rest fault) (hphase : s.phase.WellFormed)
    (hend : fault.cause.isEndOfInput = false) :
    s.offset ≤ fault.offset ∧ fault.offset ≤ s.offset + (encoded rest).length ∧
      (fault.offset = s.offset → fault.cause = .numberOutOfRange) := by
  cases hstops with
  | finish hfinish =>
    obtain ⟨hcause, hoffset⟩ := finish_error hfinish
    obtain ⟨_, _, _, hrange⟩ := finish_out_of_range hcause hend
    exact ⟨hoffset.ge, hoffset.le, fun _ => hrange⟩
  | @char c rest _ hfeed =>
    obtain ⟨bytes, hstep, hoffset⟩ := feed_error hfeed
    have hsize := c.utf8Size_pos
    rw [hoffset, encoded_cons, List.length_append, String.length_utf8EncodeChar]
    obtain ⟨start, phase, context⟩ := s
    obtain ⟨cause, offset⟩ := fault
    simp only at hphase hstep ⊢
    cases feed_refuses hstep with
    | seen => omega
    | unit hbytes =>
      have hawaits : _ < 4 := hphase
      omega
    | ended hfeed hfinish => exact ⟨Nat.le_refl _, by omega, fun _ => rfl⟩

/-- One byte more decides whether reading fails here. -/
theorem stops_sameNext (hphase : s.phase.WellFormed) (hnext : SameNext rest more)
    (hstops : Stops s rest fault) : Stops s more fault := by
  cases hnext with
  | ended => exact hstops
  | @char c d cs ds hcd =>
    rcases hcd with rfl | ⟨hwide, hsize⟩
    · cases hstops with
      | char hfeed => exact .char hfeed
    · cases hstops with
      | char hfeed =>
        obtain ⟨bytes, hstep, hoffset⟩ := feed_error hfeed
        have hother := wide_refused hwide (hsize ▸ hwide) hsize hphase hstep
        refine .char ?_
        rw [State.feed, hother]
        simp only [← hoffset]

/-- Texts that share the bytes before a syntax fault share the fault; a number that is out of range
also has to end in the same way. -/
theorem read_local {text other : String} (h : read text = .error fault)
    (hend : fault.cause.isEndOfInput = false)
    (hshared : (textBytes other).take fault.offset = (textBytes text).take fault.offset)
    (hnext : fault.cause = .numberOutOfRange →
      (textBytes other)[fault.offset]? = (textBytes text)[fault.offset]?) :
    read other = .error fault ∧ fault.offset ≤ (textBytes text).length := by
  obtain ⟨before, rest, s, htext, hreaches, hstops⟩ := read_stops h
  have hphase := reaches_wellFormed hreaches
  have hoffset := reaches_offset hreaches
  obtain ⟨hbefore, hwithin, hcause⟩ := stops_within hstops hphase hend
  rw [textBytes_encoded, textBytes_encoded, htext] at hshared hnext
  have htake : (encoded other.toList).take s.offset = encoded before := by
    have hcut := congrArg (List.take s.offset) hshared
    rw [List.take_take, List.take_take, Nat.min_eq_left hbefore, encoded_append] at hcut
    rw [hcut, List.take_left' hoffset.symm]
  -- The byte after the part that was read is shared too, if need be by assumption.
  have hbyte : (encoded other.toList)[s.offset]? = (encoded (before ++ rest))[s.offset]? := by
    rcases hbefore.eq_or_lt with heq | hlt
    · rw [heq]
      exact hnext (hcause heq.symm)
    · rw [← List.getElem?_take_of_lt hlt, hshared, List.getElem?_take_of_lt hlt]
  obtain ⟨more, hother, hsame⟩ := shared_bytes hoffset htake hbyte
  constructor
  · rw [reaches_read hreaches hother]
    exact stops_run (stops_sameNext hphase hsame hstops)
  · rw [textBytes_encoded, htext, encoded_append, List.length_append, ← hoffset]
    exact hwithin

/-- A syntax fault is reported behind the bytes that show it, and any text with these bytes is
refused with the same message in the same place. A number that is out of range shows by what ends
it, so there the next byte counts as well. -/
theorem syntax_fault_local {text : String} {fault : Fault} (h : read text = .error fault)
    (hend : fault.cause.isEndOfInput = false) :
    fault.offset ≤ (textBytes text).length ∧
      fault.position text = positionAfter ((textBytes text).take fault.offset) ∧
      ∀ other : String,
        (textBytes other).take fault.offset = (textBytes text).take fault.offset →
        (fault.cause = .numberOutOfRange →
          (textBytes other)[fault.offset]? = (textBytes text)[fault.offset]?) →
        read other = .error fault ∧ fault.position other = fault.position text ∧
          fault.message other = fault.message text := by
  have hwithin := (read_local h hend rfl fun _ => rfl).2
  refine ⟨hwithin, position_eq hwithin, ?_⟩
  intro other hshared hnext
  obtain ⟨hread, -⟩ := read_local h hend hshared hnext
  have hlength : fault.offset ≤ (textBytes other).length := by
    have hcut := congrArg List.length hshared
    rw [List.length_take, List.length_take, Nat.min_eq_left hwithin] at hcut
    omega
  have hposition : fault.position other = fault.position text := by
    rw [position_eq hlength, position_eq hwithin, hshared]
  refine ⟨hread, hposition, ?_⟩
  rw [Fault.message, Fault.message, hposition]

/-- The bracket after a number that is out of range decides; the rest of the text does not. -/
theorem wide_number_found_anyway :
    read "[\n-1e309]" = .error ⟨.numberOutOfRange, 8⟩ ∧
      read "[\n-1e309]]" = .error ⟨.numberOutOfRange, 8⟩ ∧
      (⟨.numberOutOfRange, 8⟩ : Fault).message "[\n-1e309]]" =
        "number out of range at line 2 column 6" := by
  have hread : read "[\n-1e309]" = .error ⟨.numberOutOfRange, 8⟩ := rfl
  obtain ⟨-, -, hlocal⟩ := syntax_fault_local hread rfl
  obtain ⟨hother, -, hmessage⟩ := hlocal "[\n-1e309]]" rfl fun _ => rfl
  refine ⟨hread, hother, ?_⟩
  rw [hmessage]
  rfl

end CaptureAudit.Json
