import CaptureAudit.Proofs.Json.Exponents
import CaptureAudit.Proofs.Json.Places
import CaptureAudit.Proofs.Json.Reached
import CaptureAudit.Proofs.Json.Soundness

/-! # Texts that are cut

Reading a text keeps step with the places of its characters, so that wherever the text is cut the
digits of an open number are counted. With few of them the number is in range as it stands, and
then nothing but the end of the text can be missed. -/
namespace CaptureAudit.Json

open Grammar

/-- The decimal that has been read is below ten to the power of the digits read. -/
def Counted (d : Decimal) (place : Place) : Prop :=
  ∃ k s : Nat, place = .whole k ∧ d.shift = s ∧ (d.significand + 1) * 10 ^ s ≤ 10 ^ k

def Number.Tracks (limit : Nat) (place : Place) : Number → Prop
  | minus => place = .outside
  | zero _ => Counted ⟨0, 0⟩ place
  | integer _ n => Counted ⟨n, 0⟩ place
  | wideInteger d => Counted d place
  | point d | fraction d | idleFraction d | mark d | markSign d _ | exponent d _ _ =>
    place = .part ∧ Below d limit
  | vanishing => place = .part

/-- A character that is no hexadecimal digit may be a quote, so then the place is lost; but such a
text is not accepted any more. -/
def Escape.Tracks (place : Place) : Escape → Prop
  | none | pairBackslash _ => place = .quoted
  | opened | pairMark _ => place = .escaped
  | hex _ _ value => value.isSome → place = .quoted

def Phase.Tracks (limit : Nat) (place : Place) : Phase → Prop
  | gap _ | word _ _ _ => place = .outside
  | number read => read.Tracks limit place
  | string _ _ escape => escape.Tracks place

variable {limit : Nat} {place : Place} {c : Char} {number more : Number} {d : Decimal}

theorem counted_below (h : Counted d place) (hplace : place.Within limit) : Below d limit := by
  obtain ⟨k, s, rfl, hs, h⟩ := h
  exact Or.inr ⟨s, hs, h.trans (Nat.pow_le_pow_right (by decide) hplace)⟩

theorem counted_integer {n k : Nat} : Counted ⟨n, 0⟩ (.whole k) ↔ n < 10 ^ k := by
  constructor
  · rintro ⟨_, s, hplace, hs, h⟩
    cases hplace
    obtain rfl : s = 0 := by simpa using hs.symm
    exact Nat.lt_of_succ_le (by simpa using h)
  · intro h
    exact ⟨k, 0, rfl, rfl, by simpa using Nat.succ_le_of_lt h⟩

theorem tracks_unquoted (h : number.Tracks limit place) : place.Unquoted := by
  cases number with
  | minus | vanishing =>
    cases h
    trivial
  | zero | integer | wideInteger =>
    obtain ⟨_, _, rfl, _⟩ := h
    trivial
  | point | fraction | idleFraction | mark | markSign | exponent =>
    cases h.1
    trivial

theorem next_digit {digit : Nat} (hc : digitValue? c = some digit) :
    Place.outside.next c = .whole 1 ∧ Place.part.next c = .part ∧
      ∀ k, (Place.whole k).next c = .whole (k + 1) := by
  have hdigit := (digit_value_some hc).1
  have hquote : c ≠ '"' := by
    rintro rfl
    cases hc
  simp [Place.next, hdigit, hquote]

theorem tracks_afterFirst (negative : Bool) {digit : Nat} (h : digit ≤ 9) :
    (afterFirst negative digit).Tracks limit (.whole 1) := by
  rw [afterFirst]
  split
  · exact counted_integer.mpr (by decide)
  · exact counted_integer.mpr (by omega)

theorem tracks_start (h : Number.start? c = some number) :
    number.Tracks limit (Place.outside.next c) := by
  cases hc : digitValue? c with
  | none =>
    rw [Number.start?, hc] at h
    split_ifs at h with hminus
    cases h
    rw [hminus]
    rfl
  | some digit =>
    rw [start_digit hc] at h
    cases h
    rw [(next_digit hc).1]
    exact tracks_afterFirst false (digit_value_some hc).2.2

theorem tracks_pushFraction {digit : Nat} (hdigit : digit ≤ 9) (h : Below d limit) :
    (Number.pushFraction d digit).Tracks limit .part := by
  simp only [Number.pushFraction, Decimal.push?]
  split_ifs
  · exact ⟨rfl, below_push hdigit h⟩
  · exact ⟨rfl, h⟩

theorem tracks_digit {digit : Nat} (hc : digitValue? c = some digit)
    (h : number.feed? c = some (.ok more)) (ht : number.Tracks limit place) :
    more.Tracks limit (place.next c) := by
  obtain ⟨houtside, hpart, hwhole⟩ := next_digit hc
  have hdigit := (digit_value_some hc).2.2
  cases number with
  | minus =>
    rw [minus_digit hc] at h
    cases h
    cases ht
    rw [houtside]
    exact tracks_afterFirst true hdigit
  | zero negative => simp [Number.feed?.eq_def, hc] at h
  | integer negative n =>
    rw [feed_integer_digit negative n hc, Option.some.injEq, Except.ok.injEq] at h
    subst h
    obtain ⟨k, s, rfl, hk⟩ := ht
    have hn : n < 10 ^ k := counted_integer.mp ⟨k, s, rfl, hk⟩
    rw [hwhole]
    split_ifs
    · exact counted_integer.mpr (by rw [Nat.pow_succ]; omega)
    · refine ⟨k + 1, 1, rfl, rfl, ?_⟩
      rw [Nat.pow_succ 10 k, Nat.pow_one]
      exact Nat.mul_le_mul_right 10 hn
  | wideInteger d =>
    simp only [Number.feed?.eq_def, hc] at h
    cases h
    obtain ⟨k, s, rfl, hs, hk⟩ := ht
    rw [hwhole]
    refine ⟨k + 1, s + 1, rfl, by simp [hs], ?_⟩
    rw [Nat.pow_succ, Nat.pow_succ, ← Nat.mul_assoc]
    exact Nat.mul_le_mul_right 10 hk
  | point d | fraction d =>
    simp only [Number.feed?.eq_def, hc] at h
    cases h
    obtain ⟨rfl, hbelow⟩ := ht
    rw [hpart]
    exact tracks_pushFraction hdigit hbelow
  | idleFraction d | mark d | markSign d down =>
    simp only [Number.feed?.eq_def, hc] at h
    cases h
    obtain ⟨rfl, hbelow⟩ := ht
    exact ⟨hpart, hbelow⟩
  | exponent d down n =>
    simp only [Number.feed?.eq_def, hc, Option.some.injEq] at h
    obtain ⟨rfl, hbelow⟩ := ht
    rcases push_exponent h with ⟨wider, rfl⟩ | rfl
    · exact ⟨hpart, hbelow⟩
    · exact hpart
  | vanishing =>
    simp only [Number.feed?.eq_def, hc] at h
    cases h
    cases ht
    exact hpart

theorem tracks_afterInteger (h : Number.afterInteger d c = some more)
    (ht : Counted d place) (hplace : place.Within limit) : more.Tracks limit (place.next c) := by
  have hbelow := counted_below ht hplace
  obtain ⟨k, s, rfl, -⟩ := ht
  rw [Number.afterInteger] at h
  split_ifs at h with hpoint hmark
  · cases h
    exact ⟨by rw [hpoint]; rfl, hbelow⟩
  · cases h
    rcases (by simpa using hmark : c = 'e' ∨ c = 'E') with rfl | rfl
    · exact ⟨rfl, hbelow⟩
    · exact ⟨rfl, hbelow⟩

theorem tracks_afterFraction (h : Number.afterFraction d c = some more)
    (ht : place = .part ∧ Below d limit) : more.Tracks limit (place.next c) := by
  obtain ⟨rfl, hbelow⟩ := ht
  rw [Number.afterFraction] at h
  split_ifs at h with hmark
  cases h
  rcases (by simpa using hmark : c = 'e' ∨ c = 'E') with rfl | rfl
  · exact ⟨rfl, hbelow⟩
  · exact ⟨rfl, hbelow⟩

theorem tracks_mark (hc : digitValue? c = none) (h : number.feed? c = some (.ok more))
    (ht : number.Tracks limit place) (hplace : place.Within limit) :
    more.Tracks limit (place.next c) := by
  cases number with
  | zero | integer | wideInteger =>
    exact tracks_afterInteger (mark_after_integer rfl hc h) ht hplace
  | fraction | idleFraction => exact tracks_afterFraction (mark_after_fraction rfl hc h) ht
  | mark d =>
    obtain ⟨down, rfl, hsign⟩ := sign_after_mark hc h
    obtain ⟨rfl, hbelow⟩ := ht
    rcases hsign with rfl | rfl
    · exact ⟨rfl, hbelow⟩
    · exact ⟨rfl, hbelow⟩
  | minus | point | markSign | exponent | vanishing => simp [Number.feed?.eq_def, hc] at h

theorem tracks_feed (h : number.feed? c = some (.ok more)) (ht : number.Tracks limit place)
    (hplace : place.Within limit) : more.Tracks limit (place.next c) := by
  cases hc : digitValue? c with
  | none => exact tracks_mark hc h ht hplace
  | some digit => exact tracks_digit hc h ht

theorem tracks_inside {escape next : Escape} (h : StringMoves escape c next)
    (ht : escape.Tracks place) : next.Tracks (place.next c) := by
  cases h with
  | plain hquote hback =>
    cases ht
    exact plain_next hquote hback
  | backslash | pairBackslash | simple =>
    cases ht
    rfl
  | unit | pairMark =>
    cases ht
    exact fun _ => rfl
  | digit _ hlater =>
    intro hsome
    obtain ⟨hvalue, hdigit⟩ := hlater hsome
    obtain ⟨n, hn⟩ := Option.isSome_iff_exists.mp hdigit
    obtain rfl := ht hvalue
    exact hex_digit_next hn
  | unitRead hdigit | highRead hdigit =>
    obtain rfl := ht rfl
    exact hex_digit_next hdigit

/-- Each step of the reader is a step of the place. -/
theorem moves_track {phase next : Phase} (h : Moves phase c next) (hphase : phase.WellFormed)
    (ht : phase.Tracks limit place) (hplace : place.Within limit) :
    next.Tracks limit (place.next c) := by
  cases h with
  | blank hblank =>
    cases ht
    exact blank_next ((isBlank_iff c).mp hblank)
  | mark hc =>
    cases ht
    simp only [List.mem_cons, List.not_mem_nil, or_false] at hc
    rcases hc with rfl | rfl | rfl | rfl | rfl | rfl <;> rfl
  | quote =>
    cases ht
    rfl
  | letter hword =>
    cases ht
    exact letter_next hword List.mem_cons_self
  | number hstart =>
    cases ht
    exact tracks_start hstart
  | spelling | spelt =>
    cases ht
    obtain ⟨word, hword, hsuffix⟩ := hphase
    exact letter_next hword (hsuffix.mem List.mem_cons_self)
  | further hfeed => exact tracks_feed hfeed ht hplace
  | ended _ _ hc => exact ends_value_next (tracks_unquoted ht) hc
  | inside h => exact tracks_inside h ht
  | close =>
    cases ht
    rfl

theorem reaches_tracks {before : List Char} {s : State} (h : Reaches before s)
    (hlimited : Limited limit .outside before) :
    s.phase.Tracks limit (Place.outside.after before) := by
  -- The limit holds at every cut before the end of what was read.
  induction h with
  | initial => rfl
  | @step before c s next hbefore hfeed ih =>
    have hearlier : Limited limit .outside before := fun cut hcut =>
      hlimited cut (hcut.trans (List.prefix_append before [c]))
    have hplace := hearlier before (List.prefix_refl before)
    rw [Place.after_append]
    exact moves_track (feed_moves (feed_ok hfeed).1) (reaches_wellFormed hbefore) (ih hearlier)
      hplace

/-- A number of few digits is in range wherever it is cut, if it is in range as a whole. -/
theorem open_number_in_range (hlimit : limit ≤ 300) (ht : number.Tracks limit place)
    (hplace : place.Within limit) {cs : List Char} {found : Document × List Char}
    (h : scan number cs = some found) : number.finish ≠ .error .numberOutOfRange := by
  have hbelow {d : Decimal} (h : Below d limit) : d.toDocument ≠ .error .numberOutOfRange := by
    rw [below_in_range hlimit h]
    exact fun h => nomatch h
  cases number with
  | minus | point | mark | markSign | zero | integer | vanishing => exact fun h => nomatch h
  | wideInteger d => exact hbelow (counted_below ht hplace)
  | fraction d | idleFraction d => exact hbelow ht.2
  | exponent d down n =>
    cases down with
    | true => exact hbelow (below_lower n ht.2)
    | false =>
      rw [Number.finish, toDocument_of_inRange (open_exponent_in_range h)]
      exact fun h => nomatch h

/-- A cut text is read, or it is missing its end: if every number of the whole text has at most 300
digits before its fraction and exponent, nothing else is found wrong with it. -/
theorem cut_text_lacks_end {text cut : String} {document denoted : Document}
    (h : read text = .ok document) (hnumbers : Element (Narrow 300) text.toList denoted)
    (hcut : cut.toList <+: text.toList) :
    (∃ found, read cut = .ok found) ∨
      ∃ fault, read cut = .error fault ∧ fault.cause.isEndOfInput = true := by
  obtain ⟨rest, hrest⟩ := hcut
  obtain ⟨stop, hpasses, -⟩ := element_closed hnumbers
  have haccepted := (read_iff_accepted text document).mp h
  rw [← hrest] at haccepted
  obtain ⟨s, hreaches, hcontinues⟩ := accepted_reaches .initial haccepted
  have hlimited : Limited 300 .outside cut.toList := fun earlier hearlier =>
    hpasses.limited earlier (hearlier.trans ⟨rest, hrest⟩)
  have htracks := reaches_tracks hreaches hlimited
  have hread : read cut = s.finish := reaches_read hreaches (List.append_nil _).symm
  cases hfinish : s.finish with
  | ok found => exact Or.inl ⟨found, hread.trans hfinish⟩
  | error fault =>
    refine Or.inr ⟨fault, hread.trans hfinish, ?_⟩
    by_contra hend
    obtain ⟨hcause, -⟩ := finish_error hfinish
    obtain ⟨number, hphase, hnumber, hrange⟩ :=
      finish_out_of_range hcause (Bool.eq_false_of_not_eq_true hend)
    rw [hphase] at htracks hcontinues
    rw [accepted_number] at hcontinues
    obtain ⟨found, hscan, -⟩ := Option.bind_eq_some_iff.mp hcontinues
    rw [hrange] at hnumber
    have hplace := hlimited cut.toList (List.prefix_refl _)
    exact open_number_in_range (Nat.le_refl _) htracks hplace hscan hnumber

theorem scaled_item_derived :
    Element (Narrow 300) "[-12.50e+1]".toList (.array [.float]) := by
  let scaled : Literal :=
    ⟨true, ['1', '2'], ['.', '5', '0'], ['e', '+', '1'], by simp, by simp [Digits], by simp,
      .digits (by simp) (by simp [Digits]),
      .digits (Or.inl rfl) (Or.inr (Or.inl rfl)) (by simp) (by simp [Digits])⟩
  have hnarrow : Narrow 300 scaled := by simp [Narrow, scaled]
  have hfloat : scaled.denoted = .float := if_neg (by simp [scaled])
  have hitem : Element (Narrow 300) (scaled.chars ++ []) .float := by
    rw [← hfloat]
    exact element_of_value (.number hnarrow) blanks_nil
  exact element_of_value (.array (.last hitem)) blanks_nil

theorem sign_of_exponent_lacks_end :
    read "[-12.50e+1]" = .ok (.array [.float]) ∧
      ∃ fault, read "[-12.50e+" = .error fault ∧ fault.cause.isEndOfInput = true := by
  have hread : read "[-12.50e+1]" = .ok (.array [.float]) := rfl
  have hcut : "[-12.50e+".toList <+: "[-12.50e+1]".toList := ⟨['1', ']'], rfl⟩
  refine ⟨hread, ?_⟩
  rcases cut_text_lacks_end hread scaled_item_derived hcut with ⟨found, hfound⟩ | hfault
  · cases hfound
  · exact hfault

end CaptureAudit.Json
