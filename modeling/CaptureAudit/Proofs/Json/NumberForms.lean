import CaptureAudit.Proofs.Json.Acceptance
import Mathlib.Tactic.Linarith

/-! # Number literals as they are read

A literal is read apart from what is around it: its states are matched with the characters that
can complete them, one step at a time, and the document does not change on the way. -/
namespace CaptureAudit.Json

open Grammar

/-- Reads a literal to its end; gives the document that it denotes and what follows it. -/
def scan (number : Number) : List Char → Option (Document × List Char)
  | [] => number.finish.toOption.map fun value => (value, [])
  | c :: rest =>
    match number.feed? c with
    | some (.ok further) => scan further rest
    | some (.error _) => none
    | none => number.finish.toOption.map fun value => (value, c :: rest)

theorem accepted_number (number : Number) (context : List Frame) (cs : List Char) :
    accepted (.number number) context cs =
      (scan number cs).bind fun (value, rest) => resume value context rest := by
  induction cs generalizing number with
  | nil =>
    simp only [accepted, finishPhase, scan]
    cases number.finish <;> rfl
  | cons c rest ih =>
    rw [accepted_cons, feedPhase, feedNumber, scan]
    cases number.feed? c with
    | none => cases number.finish <;> rfl
    | some further =>
      cases further with
      | error cause => rfl
      | ok further => exact ih further

theorem digit_value_some {c : Char} {d : Nat} (h : digitValue? c = some d) :
    c.isDigit = true ∧ c.toNat - '0'.toNat = d ∧ d ≤ 9 := by
  rw [digitValue?] at h
  split at h
  · rename_i hc
    have hb := Char.isDigit_iff_toNat.mp hc
    cases h
    exact ⟨hc, rfl, Nat.sub_le_sub_right hb.2 _⟩
  · cases h

theorem digit_value_of_digit {c : Char} (h : c.isDigit = true) :
    digitValue? c = some (c.toNat - '0'.toNat) := by
  simp [digitValue?, h]

theorem digit_value_zero {c : Char} (h : digitValue? c = some 0) : c = '0' := by
  obtain ⟨hc, hd, _⟩ := digit_value_some h
  have hl := (Char.isDigit_iff_toNat.mp hc).1
  have hn : c.toNat = '0'.toNat := Nat.le_antisymm (Nat.sub_eq_zero_iff_le.mp hd) hl
  exact Char.toNat_inj.mp hn

def wholeDocument (negative : Bool) (n : Nat) : Document :=
  if n ≤ Decimal.maxSignificand then Number.integerDocument negative n else .float

def numberDocument (negative : Bool) (n : Nat) (fraction exponent : List Char) : Document :=
  if fraction = [] ∧ exponent = [] then wholeDocument negative n else .float

def WholePart (cs : List Char) : Prop :=
  cs ≠ [] ∧ Digits cs ∧ (cs.head? = some '0' → cs = ['0'])

def Unsigned (negative : Bool) (cs : List Char) (value : Document) : Prop :=
  ∃ whole fraction exponent, cs = whole ++ fraction ++ exponent ∧ WholePart whole ∧
    Fraction fraction ∧ Exponent exponent ∧
    value = numberDocument negative (Nat.ofDigitChars 10 whole 0) fraction exponent

/-- The characters that complete a literal which has been read up to a state, and the document
of the whole literal. -/
def Completes : Number → List Char → Document → Prop
  | .minus, cs, value => Unsigned true cs value
  | .zero negative, cs, value => ∃ fraction exponent, cs = fraction ++ exponent ∧
      Fraction fraction ∧ Exponent exponent ∧ value = numberDocument negative 0 fraction exponent
  | .integer negative n, cs, value => ∃ ds fraction exponent, cs = ds ++ fraction ++ exponent ∧
      Digits ds ∧ Fraction fraction ∧ Exponent exponent ∧
      value = numberDocument negative (Nat.ofDigitChars 10 ds n) fraction exponent
  | .wideInteger _, cs, value => value = .float ∧ ∃ ds fraction exponent,
      cs = ds ++ fraction ++ exponent ∧ Digits ds ∧ Fraction fraction ∧ Exponent exponent
  | .point _, cs, value => value = .float ∧ ∃ ds exponent, cs = ds ++ exponent ∧ ds ≠ [] ∧
      Digits ds ∧ Exponent exponent
  | .fraction _, cs, value => value = .float ∧ ∃ ds exponent, cs = ds ++ exponent ∧
      Digits ds ∧ Exponent exponent
  | .idleFraction _, cs, value => value = .float ∧ ∃ ds exponent, cs = ds ++ exponent ∧
      Digits ds ∧ Exponent exponent
  | .mark _, cs, value => value = .float ∧ ∃ sign ds, cs = sign ++ ds ∧
      (sign = [] ∨ sign = ['+'] ∨ sign = ['-']) ∧ ds ≠ [] ∧ Digits ds
  | .markSign _ _, cs, value => value = .float ∧ cs ≠ [] ∧ Digits cs
  | .exponent _ _ _, cs, value => value = .float ∧ Digits cs
  | .vanishing, cs, value => value = .float ∧ Digits cs

def Kept : Number → Prop
  | .integer _ n => n ≤ Decimal.maxSignificand
  | _ => True

theorem numberDocument_part (negative : Bool) (n : Nat) {fraction exponent : List Char}
    (h : ¬(fraction = [] ∧ exponent = [])) :
    numberDocument negative n fraction exponent = .float := if_neg h

theorem numberDocument_wide (negative : Bool) {n : Nat} (h : Decimal.maxSignificand < n)
    (fraction exponent : List Char) : numberDocument negative n fraction exponent = .float := by
  rw [numberDocument, wholeDocument]
  rw [if_neg (Nat.not_le_of_lt h), ite_self]

theorem le_ofDigitChars (ds : List Char) (n : Nat) : n ≤ Nat.ofDigitChars 10 ds n := by
  rw [Nat.ofDigitChars_eq_ofDigitChars_zero]
  have := Nat.one_le_pow ds.length 10 (by decide)
  nlinarith

theorem ofDigitChars_digit {c : Char} {d : Nat} (h : digitValue? c = some d) (ds : List Char)
    (n : Nat) : Nat.ofDigitChars 10 (c :: ds) n = Nat.ofDigitChars 10 ds (10 * n + d) := by
  rw [Nat.ofDigitChars_cons, (digit_value_some h).2.1]

theorem digits_cons {c : Char} {d : Nat} {ds : List Char} (h : digitValue? c = some d)
    (hd : Digits ds) : Digits (c :: ds) := by
  intro x hx
  rcases List.mem_cons.mp hx with rfl | hx
  · exact (digit_value_some h).1
  · exact hd x hx

theorem digits_nil : Digits [] := by simp [Digits]

def integerPart? : Number → Option Decimal
  | .zero _ => some ⟨0, 0⟩
  | .integer _ n => some ⟨n, 0⟩
  | .wideInteger d => some d
  | _ => none

def fractionPart? : Number → Option Decimal
  | .fraction d | .idleFraction d => some d
  | _ => none

theorem feed_integerPart {number : Number} {d : Decimal} (h : integerPart? number = some d)
    {c : Char} (hc : digitValue? c = none) :
    number.feed? c = (Number.afterInteger d c).map .ok := by
  cases number with
  | zero | integer | wideInteger =>
    cases h
    simp only [Number.feed?.eq_def, hc]
  | _ => cases h

theorem feed_fractionPart {number : Number} {d : Decimal} (h : fractionPart? number = some d)
    {c : Char} (hc : digitValue? c = none) :
    number.feed? c = (Number.afterFraction d c).map .ok := by
  cases number with
  | fraction | idleFraction =>
    cases h
    simp only [Number.feed?.eq_def, hc]
  | _ => cases h

theorem mark_after_integer {number further : Number} {d : Decimal}
    (hn : integerPart? number = some d) {c : Char} (hc : digitValue? c = none)
    (h : number.feed? c = some (.ok further)) : Number.afterInteger d c = some further := by
  rw [feed_integerPart hn hc] at h
  obtain ⟨found, hf, he⟩ := Option.map_eq_some_iff.mp h
  cases he
  exact hf

theorem mark_after_fraction {number further : Number} {d : Decimal}
    (hn : fractionPart? number = some d) {c : Char} (hc : digitValue? c = none)
    (h : number.feed? c = some (.ok further)) : Number.afterFraction d c = some further := by
  rw [feed_fractionPart hn hc] at h
  obtain ⟨found, hf, he⟩ := Option.map_eq_some_iff.mp h
  cases he
  exact hf

theorem sign_after_mark {d : Decimal} {further : Number} {c : Char} (hc : digitValue? c = none)
    (h : (Number.mark d).feed? c = some (.ok further)) :
    ∃ down, further = .markSign d down ∧ (c = '+' ∨ c = '-') := by
  simp only [Number.feed?.eq_def, hc] at h
  by_cases hplus : c = '+'
  · rw [if_pos hplus] at h
    cases h
    exact ⟨false, rfl, Or.inl hplus⟩
  rw [if_neg hplus] at h
  by_cases hminus : c = '-'
  · rw [if_pos hminus] at h
    cases h
    exact ⟨true, rfl, Or.inr hminus⟩
  · rw [if_neg hminus] at h
    cases h

theorem feed_integer_digit (negative : Bool) (n : Nat) {c : Char} {d : Nat}
    (hd : digitValue? c = some d) : (Number.integer negative n).feed? c =
      some (.ok (if 10 * n + d ≤ Decimal.maxSignificand then .integer negative (10 * n + d)
        else .wideInteger ⟨n, 1⟩)) := by
  simp only [Number.feed?.eq_def, hd, Decimal.push?]
  by_cases hfit : 10 * n + d ≤ Decimal.maxSignificand
  · simp only [hfit, if_true]
  · simp only [hfit, if_false]

theorem push_fraction (d : Decimal) (digit : Nat) :
    (∃ further, Number.pushFraction d digit = .fraction further) ∨
      Number.pushFraction d digit = .idleFraction d := by
  rw [Number.pushFraction]
  split
  · exact Or.inl ⟨_, rfl⟩
  · exact Or.inr rfl

theorem push_exponent {d : Decimal} {down : Bool} {value digit : Nat} {further : Number}
    (h : Number.pushExponent d down value digit = .ok further) :
    (∃ wider, further = .exponent d down wider) ∨ further = .vanishing := by
  simp only [Number.pushExponent] at h
  split at h
  · cases h
    exact Or.inl ⟨_, rfl⟩
  split at h
  · cases h
    exact Or.inr rfl
  · cases h

theorem completes_afterFraction {d : Decimal} {c : Char} {further : Number} {cs : List Char}
    {value : Document} (h : Number.afterFraction d c = some further)
    (hc : Completes further cs value) : value = .float ∧ Exponent (c :: cs) := by
  rw [Number.afterFraction] at h
  split at h
  · rename_i hm
    cases h
    obtain ⟨hv, sign, ds, rfl, hs, hne, hd⟩ := hc
    exact ⟨hv, .digits (by simpa using hm) hs hne hd⟩
  · cases h

theorem completes_afterInteger {d : Decimal} {c : Char} {further : Number} {cs : List Char}
    {value : Document} (h : Number.afterInteger d c = some further)
    (hc : Completes further cs value) : value = .float ∧ ∃ fraction exponent,
      c :: cs = fraction ++ exponent ∧ Fraction fraction ∧ Exponent exponent ∧
      ¬(fraction = [] ∧ exponent = []) := by
  rw [Number.afterInteger] at h
  split at h
  · rename_i hp
    cases h
    obtain ⟨hv, ds, exponent, rfl, hne, hd, he⟩ := hc
    exact ⟨hv, '.' :: ds, exponent, by simp [hp], .digits hne hd, he, by simp⟩
  · obtain ⟨hv, he⟩ := completes_afterFraction (d := d) h hc
    exact ⟨hv, [], c :: cs, rfl, .absent, he, by simp⟩

theorem unsigned_zero {negative : Bool} {cs : List Char} {value : Document}
    (h : Completes (.zero negative) cs value) : Unsigned negative ('0' :: cs) value := by
  obtain ⟨fraction, exponent, rfl, hf, he, hv⟩ := h
  exact ⟨['0'], fraction, exponent, rfl, ⟨by simp, by simp [Digits], by simp⟩, hf, he, hv⟩

theorem unsigned_integer {negative : Bool} {c : Char} {d : Nat} {cs : List Char}
    {value : Document} (hc : digitValue? c = some (d + 1))
    (h : Completes (.integer negative (d + 1)) cs value) :
    Unsigned negative (c :: cs) value := by
  obtain ⟨ds, fraction, exponent, rfl, hd, hf, he, hv⟩ := h
  have hz : c ≠ '0' := by
    rintro rfl
    cases hc
  refine ⟨c :: ds, fraction, exponent, rfl, ⟨by simp, digits_cons hc hd, by simp [hz]⟩, hf, he, ?_⟩
  rw [hv, ofDigitChars_digit hc, Nat.mul_zero, Nat.zero_add]

theorem completes_mark {number further : Number} {c : Char} {cs : List Char} {value : Document}
    (hd : digitValue? c = none) (h : number.feed? c = some (.ok further))
    (hc : Completes further cs value) : Completes number (c :: cs) value := by
  cases number with
  | zero negative =>
    obtain ⟨rfl, fraction, exponent, he, hf, hx, hne⟩ :=
      completes_afterInteger (mark_after_integer rfl hd h) hc
    exact ⟨fraction, exponent, he, hf, hx, (numberDocument_part _ _ hne).symm⟩
  | integer negative n =>
    obtain ⟨rfl, fraction, exponent, he, hf, hx, hne⟩ :=
      completes_afterInteger (mark_after_integer rfl hd h) hc
    exact ⟨[], fraction, exponent, he, digits_nil, hf, hx, (numberDocument_part _ _ hne).symm⟩
  | wideInteger d =>
    obtain ⟨rfl, fraction, exponent, he, hf, hx, _⟩ :=
      completes_afterInteger (mark_after_integer rfl hd h) hc
    exact ⟨rfl, [], fraction, exponent, he, digits_nil, hf, hx⟩
  | fraction d | idleFraction d =>
    obtain ⟨rfl, hx⟩ := completes_afterFraction (mark_after_fraction rfl hd h) hc
    exact ⟨rfl, [], c :: cs, rfl, digits_nil, hx⟩
  | mark d =>
    obtain ⟨down, rfl, hsign⟩ := sign_after_mark hd h
    obtain ⟨hv, hne, hds⟩ := hc
    exact ⟨hv, [c], cs, rfl, Or.inr (by simpa using hsign), hne, hds⟩
  | minus | point | markSign | exponent | vanishing => simp [Number.feed?.eq_def, hd] at h

theorem completes_pushFraction {d : Decimal} {digit : Nat} {cs : List Char} {value : Document}
    (h : Completes (Number.pushFraction d digit) cs value) :
    value = .float ∧ ∃ ds exponent, cs = ds ++ exponent ∧ Digits ds ∧ Exponent exponent := by
  rcases push_fraction d digit with ⟨further, he⟩ | he
  · rw [he] at h
    exact h
  · rw [he] at h
    exact h

theorem completes_pushExponent {d : Decimal} {down : Bool} {n digit : Nat} {further : Number}
    {cs : List Char} {value : Document} (hp : Number.pushExponent d down n digit = .ok further)
    (h : Completes further cs value) : value = .float ∧ Digits cs := by
  rcases push_exponent hp with ⟨wider, rfl⟩ | rfl
  · exact h
  · exact h

theorem completes_integer {negative : Bool} {n d : Nat} {c : Char} {cs : List Char}
    {further : Number} {value : Document} (hd : digitValue? c = some d)
    (h : (Number.integer negative n).feed? c = some (.ok further))
    (hc : Completes further cs value) : Completes (.integer negative n) (c :: cs) value := by
  rw [feed_integer_digit negative n hd, Option.some.injEq, Except.ok.injEq] at h
  by_cases hfit : 10 * n + d ≤ Decimal.maxSignificand
  · rw [if_pos hfit] at h
    subst h
    obtain ⟨ds, fraction, exponent, rfl, hds, hf, hx, hv⟩ := hc
    refine ⟨c :: ds, fraction, exponent, rfl, digits_cons hd hds, hf, hx, ?_⟩
    rw [hv, ofDigitChars_digit hd]
  · rw [if_neg hfit] at h
    subst h
    obtain ⟨rfl, ds, fraction, exponent, rfl, hds, hf, hx⟩ := hc
    refine ⟨c :: ds, fraction, exponent, rfl, digits_cons hd hds, hf, hx, ?_⟩
    -- Digits only make the number larger, so it stays out of the significand.
    rw [ofDigitChars_digit hd, numberDocument_wide]
    exact Nat.lt_of_lt_of_le (Nat.lt_of_not_le hfit) (le_ofDigitChars ds _)

theorem completes_digit {number further : Number} {c : Char} {d : Nat} {cs : List Char}
    {value : Document} (hd : digitValue? c = some d) (h : number.feed? c = some (.ok further))
    (hc : Completes further cs value) : Completes number (c :: cs) value := by
  cases number with
  | minus =>
    cases d with
    | zero =>
      simp only [Number.feed?.eq_def, hd] at h
      cases h
      rw [digit_value_zero hd]
      exact unsigned_zero hc
    | succ d =>
      simp only [Number.feed?.eq_def, hd] at h
      cases h
      exact unsigned_integer hd hc
  | zero negative => simp [Number.feed?.eq_def, hd] at h
  | integer negative n => exact completes_integer hd h hc
  | wideInteger d' =>
    simp only [Number.feed?.eq_def, hd] at h
    cases h
    obtain ⟨hv, ds, fraction, exponent, rfl, hds, hf, hx⟩ := hc
    exact ⟨hv, c :: ds, fraction, exponent, rfl, digits_cons hd hds, hf, hx⟩
  | point d' =>
    simp only [Number.feed?.eq_def, hd] at h
    cases h
    obtain ⟨hv, ds, exponent, rfl, hds, hx⟩ := completes_pushFraction hc
    exact ⟨hv, c :: ds, exponent, rfl, by simp, digits_cons hd hds, hx⟩
  | fraction d' =>
    simp only [Number.feed?.eq_def, hd] at h
    cases h
    obtain ⟨hv, ds, exponent, rfl, hds, hx⟩ := completes_pushFraction hc
    exact ⟨hv, c :: ds, exponent, rfl, digits_cons hd hds, hx⟩
  | idleFraction d' =>
    simp only [Number.feed?.eq_def, hd] at h
    cases h
    obtain ⟨hv, ds, exponent, rfl, hds, hx⟩ := hc
    exact ⟨hv, c :: ds, exponent, rfl, digits_cons hd hds, hx⟩
  | mark d' =>
    simp only [Number.feed?.eq_def, hd] at h
    cases h
    exact ⟨hc.1, [], c :: cs, rfl, Or.inl rfl, by simp, digits_cons hd hc.2⟩
  | markSign d' down =>
    simp only [Number.feed?.eq_def, hd] at h
    cases h
    exact ⟨hc.1, by simp, digits_cons hd hc.2⟩
  | exponent d' down n =>
    simp only [Number.feed?.eq_def, hd, Option.some.injEq] at h
    obtain ⟨hv, hds⟩ := completes_pushExponent h hc
    exact ⟨hv, digits_cons hd hds⟩
  | vanishing =>
    simp only [Number.feed?.eq_def, hd] at h
    cases h
    exact ⟨hc.1, digits_cons hd hc.2⟩

/-- One character further, what completes the literal is one character less. -/
theorem completes_step {number further : Number} {c : Char} {cs : List Char} {value : Document}
    (h : number.feed? c = some (.ok further)) (hc : Completes further cs value) :
    Completes number (c :: cs) value := by
  cases hd : digitValue? c with
  | none => exact completes_mark hd h hc
  | some d => exact completes_digit hd h hc

theorem kept_afterFraction {d : Decimal} {c : Char} {further : Number}
    (h : Number.afterFraction d c = some further) : Kept further := by
  rw [Number.afterFraction] at h
  split at h
  · cases h
    trivial
  · cases h

theorem kept_afterInteger {d : Decimal} {c : Char} {further : Number}
    (h : Number.afterInteger d c = some further) : Kept further := by
  rw [Number.afterInteger] at h
  split at h
  · cases h
    trivial
  · exact kept_afterFraction (d := d) h

theorem kept_feed {number further : Number} {c : Char}
    (h : number.feed? c = some (.ok further)) : Kept further := by
  cases hd : digitValue? c with
  | none =>
    cases number with
    | zero | integer | wideInteger => exact kept_afterInteger (mark_after_integer rfl hd h)
    | fraction | idleFraction => exact kept_afterFraction (mark_after_fraction rfl hd h)
    | mark d =>
      obtain ⟨down, rfl, _⟩ := sign_after_mark hd h
      trivial
    | _ => simp [Number.feed?.eq_def, hd] at h
  | some d =>
    have hle := (digit_value_some hd).2.2
    cases number with
    | minus =>
      simp only [Number.feed?.eq_def, hd] at h
      cases d with
      | zero =>
        cases h
        trivial
      | succ d =>
        cases h
        exact hle.trans (by decide)
    | integer negative n =>
      rw [feed_integer_digit negative n hd, Option.some.injEq, Except.ok.injEq] at h
      subst h
      split
      · assumption
      · trivial
    | point d' | fraction d' =>
      simp only [Number.feed?.eq_def, hd] at h
      cases h
      rcases push_fraction d' d with ⟨further, he⟩ | he
      · rw [he]
        trivial
      · rw [he]
        trivial
    | exponent d' down n =>
      simp only [Number.feed?.eq_def, hd, Option.some.injEq] at h
      rcases push_exponent h with ⟨wider, rfl⟩ | rfl
      · trivial
      · trivial
    | zero => simp [Number.feed?.eq_def, hd] at h
    | wideInteger | idleFraction | mark | markSign | vanishing =>
      simp only [Number.feed?.eq_def, hd] at h
      cases h
      trivial

theorem completes_finish {number : Number} (hk : Kept number) {value : Document}
    (h : number.finish = .ok value) : Completes number [] value := by
  have hdec {d : Decimal} (h : d.toDocument = .ok value) : value = .float := by
    rw [Decimal.toDocument] at h
    split at h <;> cases h
    rfl
  cases number with
  | minus | point | mark | markSign => cases h
  | zero negative =>
    cases h
    exact ⟨[], [], rfl, .absent, .absent, by simp [numberDocument, wholeDocument]⟩
  | integer negative n =>
    cases h
    refine ⟨[], [], [], rfl, digits_nil, .absent, .absent, ?_⟩
    have hn : n ≤ Decimal.maxSignificand := hk
    simp [numberDocument, wholeDocument, hn]
  | wideInteger d => exact ⟨hdec h, [], [], [], rfl, digits_nil, .absent, .absent⟩
  | fraction d => exact ⟨hdec h, [], [], rfl, digits_nil, .absent⟩
  | idleFraction d => exact ⟨hdec h, [], [], rfl, digits_nil, .absent⟩
  | exponent d down n => exact ⟨hdec h, digits_nil⟩
  | vanishing =>
    cases h
    exact ⟨rfl, digits_nil⟩

theorem completes_stop {number : Number} (hk : Kept number) {cs rest : List Char}
    {value : Document}
    (h : (number.finish.toOption.map fun value => (value, cs)) = some (value, rest)) :
    cs = rest ∧ Completes number [] value := by
  obtain ⟨found, hf, he⟩ := Option.map_eq_some_iff.mp h
  cases he
  refine ⟨rfl, completes_finish hk ?_⟩
  cases hn : number.finish <;> simp_all [Except.toOption]

theorem scan_sound {number : Number} (hk : Kept number) {cs rest : List Char} {value : Document}
    (h : scan number cs = some (value, rest)) :
    ∃ taken, cs = taken ++ rest ∧ Completes number taken value := by
  induction cs generalizing number with
  | nil =>
    obtain ⟨rfl, hc⟩ := completes_stop hk h
    exact ⟨[], rfl, hc⟩
  | cons c tail ih =>
    rw [scan] at h
    split at h
    · rename_i further hf
      obtain ⟨taken, rfl, hc⟩ := ih (kept_feed hf) h
      exact ⟨c :: taken, rfl, completes_step hf hc⟩
    · cases h
    · obtain ⟨rfl, hc⟩ := completes_stop hk h
      exact ⟨[], rfl, hc⟩

theorem value_zero_iff {cs : List Char} (h : WholePart cs) :
    Nat.ofDigitChars 10 cs 0 = 0 ↔ cs = ['0'] := by
  constructor
  · intro hz
    obtain ⟨hne, hd, hlead⟩ := h
    cases cs with
    | nil => exact (hne rfl).elim
    | cons c rest =>
      have hv := digit_value_of_digit (hd c List.mem_cons_self)
      rw [ofDigitChars_digit hv, Nat.mul_zero, Nat.zero_add] at hz
      have hle := le_ofDigitChars rest (c.toNat - '0'.toNat)
      have hc : c.toNat - '0'.toNat = 0 := by omega
      rw [hc] at hv
      exact hlead (by simp [digit_value_zero hv])
  · rintro rfl
    rfl

/-- The document of a literal follows from its sign and the value of its digits. -/
theorem denoted_eq (l : Literal) : l.denoted =
    numberDocument l.negative (Nat.ofDigitChars 10 l.whole 0) l.fraction l.exponent := by
  have hw : WholePart l.whole := ⟨l.whole_ne, l.whole_digits, l.no_leading_zero⟩
  rw [Literal.denoted, numberDocument]
  by_cases hpart : l.fraction = [] ∧ l.exponent = []
  · obtain ⟨hf, he⟩ := hpart
    simp only [hf, he, true_and, and_self, if_true]
    have hchars : l.chars = ['-', '0'] ↔
        l.negative = true ∧ Nat.ofDigitChars 10 l.whole 0 = 0 := by
      rw [value_zero_iff hw, Literal.chars, Literal.sign, hf, he]
      cases hn : l.negative with
      | true => simp
      | false =>
        have hd : l.whole ≠ ['-', '0'] := by
          intro h
          have := l.whole_digits '-' (by simp [h])
          simp at this
        simpa using hd
    simp only [ne_eq, hchars, Literal.integer, wholeDocument, Number.integerDocument,
      Decimal.maxSignificand, Nat.pow_eq]
    generalize Nat.ofDigitChars 10 l.whole 0 = n
    cases l.negative with
    | true =>
      simp only [true_and, if_true, Bool.not_true, Bool.false_eq_true, if_false, Bool.or_eq_true,
        decide_eq_true_eq]
      split_ifs <;> first | rfl | omega
    | false =>
      simp only [Bool.false_eq_true, false_and, not_false_eq_true, if_false, Bool.not_false,
        if_true, true_and]
      split_ifs <;> first | rfl | omega
  · rw [if_neg hpart, if_neg]
    rintro ⟨hf, he, _⟩
    exact hpart ⟨hf, he⟩

theorem literal_of_unsigned {negative : Bool} {cs : List Char} {value : Document}
    (h : Unsigned negative cs value) : ∃ l : Literal, l.negative = negative ∧
      l.chars = (if negative then ['-'] else []) ++ cs ∧ l.denoted = value := by
  obtain ⟨whole, fraction, exponent, rfl, ⟨hne, hd, hz⟩, hf, he, rfl⟩ := h
  refine ⟨⟨negative, whole, fraction, exponent, hne, hd, hz, hf, he⟩, rfl, ?_, denoted_eq _⟩
  simp [Literal.chars, Literal.sign]

theorem number_sound {c : Char} {number : Number} (hs : Number.start? c = some number)
    {cs rest : List Char} {value : Document} (h : scan number cs = some (value, rest)) :
    ∃ l : Literal, c :: cs = l.chars ++ rest ∧ l.denoted = value := by
  unfold Number.start? at hs
  split at hs
  · rename_i hc
    cases hs
    have hk : Kept .minus := trivial
    obtain ⟨taken, rfl, hu⟩ := scan_sound hk h
    obtain ⟨l, _, hl, hv⟩ := literal_of_unsigned hu
    exact ⟨l, by simp [hl, hc], hv⟩
  · split at hs
    · cases hs
    · rename_i hd
      cases hs
      have hk : Kept (.zero false) := trivial
      obtain ⟨taken, rfl, hu⟩ := scan_sound hk h
      obtain ⟨l, _, hl, hv⟩ := literal_of_unsigned (unsigned_zero hu)
      exact ⟨l, by simp [hl, digit_value_zero hd], hv⟩
    · rename_i d hnz hd
      cases hs
      have hk : Kept (.integer false d) := (digit_value_some hd).2.2.trans (by decide)
      obtain ⟨taken, rfl, hu⟩ := scan_sound hk h
      cases d with
      | zero => exact (hnz rfl).elim
      | succ d =>
        obtain ⟨l, _, hl, hv⟩ := literal_of_unsigned (unsigned_integer hd hu)
        exact ⟨l, by simp [hl], hv⟩

end CaptureAudit.Json
