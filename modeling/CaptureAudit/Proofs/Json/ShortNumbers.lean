import CaptureAudit.Proofs.Json.NumberForms
import Mathlib.Tactic.Ring

/-! # Short literals are in range

Without an exponent, a literal spells less than `10 ^ k` for its `k` integer digits. Two roundings
at most double that each, so 300 digits stay far below the bound of double precision, and no such
literal is refused. -/
namespace CaptureAudit.Json

open Grammar

theorem unit_le {n : Nat} (hn : n ≠ 0) : 2 ^ (n.log2 + 1 - 53) ≤ n :=
  (Nat.pow_le_pow_right (by decide) (by omega)).trans (Nat.log2_self_le hn)

theorem round_le (n : Nat) : roundTo53Bits n ≤ 2 * n := by
  by_cases hn : n = 0
  · subst hn
    decide
  have hunit := unit_le hn
  have hq := Nat.div_mul_le_self n (2 ^ (n.log2 + 1 - 53))
  simp only [roundTo53Bits, Nat.pow_eq]
  split
  · rw [Nat.add_mul]
    omega
  · omega

/-- The decimal is below `10 ^ k`, as is any that agrees with it in the digits read so far. -/
def Below (d : Decimal) (k : Nat) : Prop :=
  d.shift < 0 ∨ ∃ s : Nat, d.shift = s ∧ (d.significand + 1) * 10 ^ s ≤ 10 ^ k

/-- Ten to the third is below two to the tenth. -/
theorem four_powers_in_range {k : Nat} (hk : k ≤ 300) : 4 * 10 ^ k < doubleOverflow := by
  have hten (m : Nat) : 10 ^ (3 * m) ≤ 2 ^ (10 * m) := by
    rw [Nat.pow_mul, Nat.pow_mul]
    exact Nat.pow_le_pow_left (by decide) m
  have htwo (m n : Nat) (hm : m = 30 + n) : 4 * 2 ^ m < (2 ^ 54 - 1) * 2 ^ n := by
    rw [hm, Nat.pow_add, ← Nat.mul_assoc]
    exact Nat.mul_lt_mul_of_pos_right (by decide) (Nat.two_pow_pos n)
  calc 4 * 10 ^ k ≤ 4 * 10 ^ (3 * 100) :=
        Nat.mul_le_mul_left 4 (Nat.pow_le_pow_right (by decide) hk)
    _ ≤ 4 * 2 ^ (10 * 100) := Nat.mul_le_mul_left 4 (hten 100)
    _ < doubleOverflow := by
      rw [doubleOverflow]
      generalize hn : 970 = n
      exact htwo (10 * 100) n (hn ▸ rfl)

theorem below_in_range {d : Decimal} {k : Nat} (hk : k ≤ 300) (h : Below d k) :
    d.toDocument = .ok .float := by
  have hrange : d.inRange = true := by
    rw [Decimal.inRange]
    rcases h with h | ⟨s, hs, h⟩
    · simp [h]
    have hsk : s ≤ k := by
      have hp : 10 ^ s ≤ 10 ^ k := (Nat.le_mul_of_pos_left _ (Nat.succ_pos _)).trans h
      exact (Nat.pow_le_pow_iff_right (by decide)).mp hp
    have hprod : roundTo53Bits d.significand * roundTo53Bits (10 ^ s) ≤ 4 * 10 ^ k := by
      calc roundTo53Bits d.significand * roundTo53Bits (10 ^ s)
          ≤ (2 * d.significand) * (2 * 10 ^ s) := Nat.mul_le_mul (round_le _) (round_le _)
        _ = 4 * (d.significand * 10 ^ s) := by ring
        _ ≤ 4 * ((d.significand + 1) * 10 ^ s) :=
          Nat.mul_le_mul_left _ (Nat.mul_le_mul_right _ (Nat.le_succ _))
        _ ≤ 4 * 10 ^ k := Nat.mul_le_mul_left _ h
    have hlt := Nat.lt_of_le_of_lt hprod (four_powers_in_range hk)
    have hshift : (s : Int) ≤ 308 := by omega
    simp [hs, hlt, hshift]
  simp [Decimal.toDocument, hrange]

def Ends (rest : List Char) : Prop :=
  ∀ c ∈ rest.head?, isBlank c = true ∨ c = ',' ∨ c = ']' ∨ c = '\x7d'

theorem ends_not_number {c : Char} {rest : List Char} (h : Ends (c :: rest)) :
    digitValue? c = none ∧ c ≠ '.' ∧ c ≠ 'e' ∧ c ≠ 'E' := by
  rcases h c rfl with h | rfl | rfl | rfl
  · rcases (isBlank_iff c).mp h with rfl | rfl | rfl | rfl <;> decide
  all_goals decide

theorem scan_ends {number : Number} {value : Document} (hv : number.finish = .ok value)
    (hstop : ∀ c, digitValue? c = none → c ≠ '.' → c ≠ 'e' → c ≠ 'E' → number.feed? c = none)
    {rest : List Char} (hr : Ends rest) : scan number rest = some (value, rest) := by
  cases rest with
  | nil => simp [scan, hv, Except.toOption]
  | cons c rest =>
    obtain ⟨hd, hp, he, hE⟩ := ends_not_number hr
    simp [scan, hstop c hd hp he hE, hv, Except.toOption]

theorem scan_integer_ends {number : Number} {d : Decimal} {value : Document}
    (hn : integerPart? number = some d) (hv : number.finish = .ok value) {rest : List Char}
    (hr : Ends rest) : scan number rest = some (value, rest) := by
  refine scan_ends hv ?_ hr
  intro c hc hp he hE
  rw [feed_integerPart hn hc]
  simp [Number.afterInteger, hp, he, hE]

theorem scan_fraction_ends {number : Number} {d : Decimal} {value : Document}
    (hn : fractionPart? number = some d) (hv : number.finish = .ok value) {rest : List Char}
    (hr : Ends rest) : scan number rest = some (value, rest) := by
  refine scan_ends hv ?_ hr
  intro c hc _ he hE
  rw [feed_fractionPart hn hc]
  simp [Number.afterFraction, he, hE]

theorem digits_head {c : Char} {ds : List Char} (h : Digits (c :: ds)) :
    digitValue? c = some (c.toNat - '0'.toNat) ∧ Digits ds :=
  ⟨digit_value_of_digit (h c List.mem_cons_self), fun x hx => h x (List.mem_cons_of_mem _ hx)⟩

theorem scan_idleFraction {d : Decimal} (hd : d.toDocument = .ok .float) {ds rest : List Char}
    (hds : Digits ds) (hr : Ends rest) :
    scan (.idleFraction d) (ds ++ rest) = some (.float, rest) := by
  induction ds with
  | nil =>
    have hv : (Number.idleFraction d).finish = .ok .float := hd
    exact scan_fraction_ends rfl hv hr
  | cons c ds ih =>
    obtain ⟨hc, hds⟩ := digits_head hds
    simp only [List.cons_append, scan, Number.feed?.eq_def, hc]
    exact ih hds

theorem below_push {d : Decimal} {k digit : Nat} (hdigit : digit ≤ 9) (h : Below d k) :
    Below ⟨10 * d.significand + digit, d.shift - 1⟩ k := by
  rcases h with h | ⟨s, hs, h⟩
  · exact Or.inl (by simp only; omega)
  cases s with
  | zero => exact Or.inl (by simp only; omega)
  | succ s =>
    refine Or.inr ⟨s, by simp only; omega, ?_⟩
    calc (10 * d.significand + digit + 1) * 10 ^ s
        ≤ (10 * (d.significand + 1)) * 10 ^ s := Nat.mul_le_mul_right _ (by omega)
      _ = (d.significand + 1) * 10 ^ (s + 1) := by ring
      _ ≤ 10 ^ k := h

theorem scan_fraction {d : Decimal} {k : Nat} (hk : k ≤ 300) (hd : Below d k)
    {ds rest : List Char} (hds : Digits ds) (hr : Ends rest) :
    scan (.fraction d) (ds ++ rest) = some (.float, rest) := by
  induction ds generalizing d with
  | nil =>
    have hv : (Number.fraction d).finish = .ok .float := below_in_range hk hd
    exact scan_fraction_ends rfl hv hr
  | cons c ds ih =>
    obtain ⟨hc, hds⟩ := digits_head hds
    simp only [List.cons_append, scan, Number.feed?.eq_def, hc, Number.pushFraction, Decimal.push?]
    by_cases hfit : 10 * d.significand + (c.toNat - '0'.toNat) ≤ Decimal.maxSignificand
    · simp only [hfit, if_true]
      exact ih (below_push (digit_value_some hc).2.2 hd) hds
    · simp only [hfit, if_false]
      exact scan_idleFraction (below_in_range hk hd) hds hr

theorem scan_fractionPart {number : Number} {d : Decimal} {k : Nat} (hk : k ≤ 300)
    (hn : integerPart? number = some d) (hd : Below d k) {ds rest : List Char} (hne : ds ≠ [])
    (hds : Digits ds) (hr : Ends rest) :
    scan number ('.' :: (ds ++ rest)) = some (.float, rest) := by
  have hpoint : number.feed? '.' = some (.ok (.point d)) := by
    rw [feed_integerPart hn (by decide)]
    rfl
  simp only [scan, hpoint]
  cases ds with
  | nil => exact (hne rfl).elim
  | cons c ds =>
    have hc := (digits_head hds).1
    have hsame : scan (.point d) (c :: (ds ++ rest)) = scan (.fraction d) (c :: (ds ++ rest)) := by
      simp only [scan, Number.feed?.eq_def, hc]
    rw [List.cons_append, hsame]
    exact scan_fraction hk hd hds hr

theorem scan_wideInteger {d : Decimal} {s k : Nat} (hs : d.shift = s)
    (hd : (d.significand + 1) * 10 ^ s ≤ 10 ^ k) {ds fraction rest : List Char}
    (hk : k + ds.length ≤ 300) (hds : Digits ds) (hf : Fraction fraction) (hr : Ends rest) :
    scan (.wideInteger d) (ds ++ fraction ++ rest) = some (.float, rest) := by
  induction ds generalizing d s k with
  | nil =>
    have hb : Below d k := Or.inr ⟨s, hs, hd⟩
    cases hf with
    | absent =>
      have hv : (Number.wideInteger d).finish = .ok .float := below_in_range hk hb
      exact scan_integer_ends rfl hv hr
    | digits hne hfd => exact scan_fractionPart hk rfl hb hne hfd hr
  | cons c ds ih =>
    -- A digit that is not kept scales the decimal by ten, and so the bound.
    obtain ⟨hc, htail⟩ := digits_head hds
    have hstep : (d.significand + 1) * 10 ^ (s + 1) ≤ 10 ^ (k + 1) := by
      rw [Nat.pow_succ, Nat.pow_succ, ← Nat.mul_assoc]
      exact Nat.mul_le_mul_right 10 hd
    have hlen : k + 1 + ds.length ≤ 300 := by
      simp only [List.length_cons] at hk
      omega
    simp only [List.cons_append, scan, Number.feed?.eq_def, hc]
    refine ih ?_ hstep hlen htail
    simp [hs]

/-- An integer part of at most 300 digits, with or without a fraction, is read to its end. -/
theorem scan_integer {negative : Bool} {n k : Nat} (hfit : n ≤ Decimal.maxSignificand)
    (hn : n < 10 ^ k) {ds fraction rest : List Char} (hk : k + ds.length ≤ 300)
    (hds : Digits ds) (hf : Fraction fraction) (hr : Ends rest) :
    scan (.integer negative n) (ds ++ fraction ++ rest) =
      some (numberDocument negative (Nat.ofDigitChars 10 ds n) fraction [], rest) := by
  induction ds generalizing n k with
  | nil =>
    cases hf with
    | absent =>
      have hv : numberDocument negative n [] [] = Number.integerDocument negative n := by
        simp [numberDocument, wholeDocument, hfit]
      rw [Nat.ofDigitChars_nil, hv]
      exact scan_integer_ends rfl rfl hr
    | digits hne hfd =>
      have hb : Below ⟨n, 0⟩ k := Or.inr ⟨0, rfl, by simpa using Nat.succ_le_of_lt hn⟩
      rw [numberDocument_part _ _ (by simp)]
      exact scan_fractionPart hk rfl hb hne hfd hr
  | cons c ds ih =>
    obtain ⟨hc, htail⟩ := digits_head hds
    have hdigit := (digit_value_some hc).2.2
    have hlen : k + 1 + ds.length ≤ 300 := by
      simp only [List.length_cons] at hk
      omega
    rw [ofDigitChars_digit hc]
    simp only [List.cons_append, scan, feed_integer_digit negative n hc]
    by_cases hwide : 10 * n + (c.toNat - '0'.toNat) ≤ Decimal.maxSignificand
    · simp only [hwide, if_true]
      refine ih hwide ?_ hlen htail
      rw [Nat.pow_succ]
      omega
    · simp only [hwide, if_false]
      rw [numberDocument_wide]
      · have hshift : (1 : Int) = (1 : Nat) := rfl
        refine scan_wideInteger hshift ?_ hlen htail hf hr
        rw [Nat.pow_succ 10 k, Nat.pow_one]
        exact Nat.mul_le_mul_right 10 (Nat.succ_le_of_lt hn)
      · exact Nat.lt_of_lt_of_le (Nat.lt_of_not_le hwide) (le_ofDigitChars ds _)

theorem scan_zero {negative : Bool} {fraction rest : List Char} (hf : Fraction fraction)
    (hr : Ends rest) :
    scan (.zero negative) (fraction ++ rest) = some (numberDocument negative 0 fraction [], rest) := by
  cases hf with
  | absent =>
    have hv : numberDocument negative 0 [] [] = Number.integerDocument negative 0 := by
      simp [numberDocument, wholeDocument]
    rw [hv]
    exact scan_integer_ends rfl rfl hr
  | digits hne hfd =>
    have hb : Below ⟨0, 0⟩ 0 := Or.inr ⟨0, rfl, by decide⟩
    rw [numberDocument_part _ _ (by simp)]
    exact scan_fractionPart (Nat.zero_le _) rfl hb hne hfd hr

def afterFirst (negative : Bool) (digit : Nat) : Number :=
  if digit = 0 then .zero negative else .integer negative digit

theorem minus_digit {c : Char} {d : Nat} (hc : digitValue? c = some d) :
    Number.minus.feed? c = some (.ok (afterFirst true d)) := by
  cases d <;> simp [Number.feed?.eq_def, hc, afterFirst]

theorem start_digit {c : Char} {d : Nat} (hc : digitValue? c = some d) :
    Number.start? c = some (afterFirst false d) := by
  have hm : c ≠ '-' := by
    rintro rfl
    cases hc
  cases d <;> simp [Number.start?, hm, hc, afterFirst]

theorem scan_whole {negative : Bool} {c : Char} {ds fraction rest : List Char}
    (hw : WholePart (c :: ds)) (hlen : (c :: ds).length ≤ 300) (hf : Fraction fraction)
    (hr : Ends rest) :
    scan (afterFirst negative (c.toNat - '0'.toNat)) (ds ++ fraction ++ rest) =
      some (numberDocument negative (Nat.ofDigitChars 10 (c :: ds) 0) fraction [], rest) := by
  obtain ⟨hc, htail⟩ := digits_head hw.2.1
  have hdigit := (digit_value_some hc).2.2
  rw [ofDigitChars_digit hc, Nat.mul_zero, Nat.zero_add]
  by_cases hz : c.toNat - '0'.toNat = 0
  · rw [hz] at hc
    have hds : ds = [] := by
      have := hw.2.2 (by rw [digit_value_zero hc, List.head?_cons])
      exact (List.cons.inj this).2
    rw [hz, hds]
    exact scan_zero hf hr
  · rw [afterFirst, if_neg hz]
    have hk : 1 + ds.length ≤ 300 := by
      rw [Nat.add_comm]
      exact hlen
    exact scan_integer (hdigit.trans (by decide)) (by omega) hk htail hf hr

theorem short_whole {l : Literal} (hl : l.Short) : l.whole.length ≤ 300 := by
  have hall : l.whole.countP Char.isDigit = l.whole.length :=
    List.countP_eq_length.mpr l.whole_digits
  have hcount := hl.2
  simp only [Literal.chars, List.countP_append, hall] at hcount
  omega

/-- A short literal is read to its end, whatever it stands before. -/
theorem number_complete {l : Literal} (hl : l.Short) {rest : List Char} (hr : Ends rest) :
    ∃ c cs number, l.chars = c :: cs ∧ Number.start? c = some number ∧
      scan number (cs ++ rest) = some (l.denoted, rest) := by
  have hw : WholePart l.whole := ⟨l.whole_ne, l.whole_digits, l.no_leading_zero⟩
  have hlen := short_whole hl
  have hchars : l.chars = l.sign ++ l.whole ++ l.fraction := by
    rw [Literal.chars, hl.1, List.append_nil]
  rw [denoted_eq, hl.1, hchars, Literal.sign]
  cases hwhole : l.whole with
  | nil => exact (l.whole_ne hwhole).elim
  | cons c ds =>
    rw [hwhole] at hw hlen
    obtain ⟨hc, _⟩ := digits_head hw.2.1
    have hread (negative : Bool) := @scan_whole negative _ _ _ _ hw hlen l.fraction_form hr
    cases l.negative with
    | true =>
      refine ⟨'-', c :: (ds ++ l.fraction), .minus, by simp, rfl, ?_⟩
      simp only [List.cons_append, scan, minus_digit hc]
      exact hread true
    | false =>
      exact ⟨c, ds ++ l.fraction, _, by simp, start_digit hc, hread false⟩

end CaptureAudit.Json
