import CaptureAudit.Proofs.Json.RoundTrip
import CaptureAudit.Proofs.Key.ByValue
import CaptureAudit.Proofs.Yaml.PlainText

/-! # Group indices in YAML

Without quotes a group index would be read as a number, as long as it rounds to a finite double.
So it is quoted, unless it is greater than all doubles and without padding; then it is a plain
text. -/
namespace CaptureAudit

open Nat (ofDigitChars)

section Doubles

theorem digits_bounds {n : Nat} (hpos : n ≠ 0) :
    n < 10 ^ (Nat.toDigits 10 n).length ∧ 10 ^ ((Nat.toDigits 10 n).length - 1) ≤ n := by
  have hdigits : ∀ c ∈ Nat.toDigits 10 n, c.isDigit = true :=
    fun c hc => Nat.isDigit_of_mem_toDigits (by decide) (by decide) hc
  have hvalue : ofDigitChars 10 (Nat.toDigits 10 n) 0 = n := Nat.ofDigitChars_ten_toDigits
  obtain ⟨c, rest, hcons⟩ := List.exists_cons_of_ne_nil (@Nat.toDigits_ne_nil n 10)
  constructor
  · have hlt := NumericKey.spelled_lt hdigits
    rwa [hvalue] at hlt
  · have hzero : c ≠ '0' := by
      rintro rfl
      have hn := Json.digits_no_leading_zero n (by rw [hcons]; rfl)
      rw [hn] at hvalue
      exact hpos hvalue.symm
    have hle : 10 ^ rest.length ≤ ofDigitChars 10 (c :: rest) 0 :=
      NumericKey.le_spelled (hdigits c (by simp [hcons])) hzero
    rw [← hcons, hvalue] at hle
    simpa [hcons] using hle

theorem double_at_least : 10 ^ 308 ≤ doubleOverflow := by decide +kernel

theorem double_at_most : doubleOverflow ≤ 10 ^ 309 := by decide +kernel

/-- Without an exponent, counting digits only saves the comparison. -/
theorem roundsToFinite_nat (n : Nat) : roundsToFinite n 0 = decide (n < doubleOverflow) := by
  rw [roundsToFinite]
  by_cases hzero : n = 0
  · subst hzero
    exact (decide_eq_true (by decide +kernel)).symm
  · obtain ⟨hlt, hle⟩ := digits_bounds hzero
    generalize (Nat.toDigits 10 n).length = count at hlt hle
    simp only [hzero, decide_false, Bool.false_or, decide_eq_true_eq, Int.add_zero]
    have hmono {a b : Nat} (h : a ≤ b) : 10 ^ a ≤ 10 ^ b := Nat.pow_le_pow_right (by decide) h
    split_ifs with hfew hmany
    · have hcount : count ≤ 308 := by omega
      exact (decide_eq_true (hlt.trans_le ((hmono hcount).trans double_at_least))).symm
    · have hcount : 309 ≤ count - 1 := by omega
      exact (decide_eq_false (Nat.not_lt.mpr (double_at_most.trans ((hmono hcount).trans hle)))).symm
    · simp

end Doubles

namespace Yaml

section Digits

variable {c : Char} {ds : List Char} {indent : Nat}

theorem digit_in_ten (h : c.isDigit = true) : digitInBase? 10 c = some (c.toNat - '0'.toNat) := by
  have hvalue := NumericKey.digit_le_nine h
  rw [digitInBase?, if_pos h, Option.filter_some, if_pos]
  exact decide_eq_true (by omega)

theorem nat_of_digits (hds : ∀ c ∈ ds, c.isDigit = true) (hne : ds ≠ []) :
    natInBase? 10 ds = some (ofDigitChars 10 ds 0) := by
  have hfold (n : Nat) : ds.foldlM (fun n c => (digitInBase? 10 c).map (10 * n + ·)) n =
      some (ofDigitChars 10 ds n) := by
    clear hne
    induction ds generalizing n with
    | nil => rfl
    | cons c rest ih =>
      obtain ⟨hc, hrest⟩ := List.forall_mem_cons.mp hds
      rw [List.foldlM_cons, digit_in_ten hc, Option.map_some, Nat.ofDigitChars_cons]
      exact ih hrest _
  rw [natInBase?, if_neg (by simpa using hne), hfold]

theorem finite_of_digits (hds : ∀ c ∈ ds, c.isDigit = true) (hne : ds ≠ []) :
    isFiniteDecimal ds = decide (ofDigitChars 10 ds 0 < doubleOverflow) := by
  have htake : ds.takeWhile Char.isDigit = ds := List.takeWhile_eq_self_iff.mpr hds
  have hdrop : ds.dropWhile Char.isDigit = [] := List.dropWhile_eq_nil_iff.mpr hds
  rw [← roundsToFinite_nat]
  simp [isFiniteDecimal, htake, hdrop, nat_of_digits hds hne, exponent?]

theorem only_digits (hds : ∀ c ∈ ds, c.isDigit = true) {c : Char} (hc : c.isDigit = false)
    (before after : List Char) : ds ≠ before ++ c :: after := by
  rintro rfl
  rw [hds c (by simp)] at hc
  cases hc

theorem float_of_digits (hds : ∀ c ∈ ds, c.isDigit = true) (hne : ds ≠ []) :
    isFloat ds = decide (ofDigitChars 10 ds 0 < doubleOverflow) := by
  have hdot (rest : List Char) : '.' :: rest ≠ ds := (only_digits hds rfl [] rest).symm
  have hnan : isNotANumber ds = false := by simp [isNotANumber, hdot]
  have hinf : isInfinity ds = false := by simp [isInfinity, hdot]
  rw [isFloat, hnan, hinf, Bool.false_or, Bool.false_or, finite_of_digits hds hne]
  · exact only_digits hds rfl []
  · exact only_digits hds rfl []

/-- No base but ten is taken for digits alone: another one is told by its letter. -/
theorem magnitude_of_digits (hds : ∀ c ∈ ds, c.isDigit = true) (hne : ds ≠ []) (bound : Nat) :
    isMagnitudeUpTo bound ds = decide (ofDigitChars 10 ds 0 ≤ bound) := by
  rw [isMagnitudeUpTo, isNatUpTo, nat_of_digits hds hne, Bool.or_false]
  · exact only_digits hds rfl ['0']
  · exact only_digits hds rfl ['0']
  · exact only_digits hds rfl ['0']

theorem integer_of_digits (hds : ∀ c ∈ ds, c.isDigit = true) (hne : ds ≠ []) :
    isInteger ds = (!hasLeadingZero ds && decide (ofDigitChars 10 ds 0 ≤ Nat.pow 2 128 - 1)) := by
  rw [isInteger, magnitude_of_digits hds hne]
  · exact only_digits hds rfl []
  · exact only_digits hds rfl []

/-- Digits are taken for a number as long as they round to a finite double. -/
theorem needsQuotes_digits (hds : ∀ c ∈ ds, c.isDigit = true) (hne : ds ≠ []) :
    needsQuotes ds = true ↔
      hasLeadingZero ds = true ∨ ofDigitChars 10 ds 0 < doubleOverflow := by
  have hbound : Nat.pow 2 128 - 1 < doubleOverflow := by decide +kernel
  have hword (c : Char) (hc : c.isDigit = false) (rest : List Char) : c :: rest ≠ ds :=
    (only_digits hds hc [] rest).symm
  have hnull : isNull ds = false := by
    simp [isNull, hne, hword]
  have htruth : isTruthValue ds = false := by
    simp [isTruthValue, hword]
  rw [needsQuotes, hnull, htruth, float_of_digits hds hne, integer_of_digits hds hne]
  cases hasLeadingZero ds with
  | true => simp
  | false =>
    simp only [Bool.false_or, Bool.not_false, Bool.true_and, Bool.or_eq_true, decide_eq_true_eq,
      Bool.false_eq_true, false_or, or_iff_right_iff_imp]
    intro hle
    exact hle.trans_lt hbound

theorem not_in_digits (hds : ∀ c ∈ ds, c.isDigit = true) (hc : c.isDigit = false) : c ∉ ds := by
  intro hmem
  rw [hds c hmem] at hc
  cases hc

theorem digits_shown (hds : ∀ c ∈ ds, c.isDigit = true) :
    (∀ c ∈ ds, isBreak c = false) ∧ ∀ c ∈ ds, isControl c = false ∧ isMark c = false := by
  have hbreaks : ∀ c ∈ ['\n', '\r', '\u0085', '\u2028', '\u2029'], c.isDigit = false := by simp
  have hmarks : ∀ c ∈ ['\uFEFF', '\uFFFE', '\uFFFF'], c.isDigit = false := by simp
  have hbreak : ∀ c ∈ ds, isBreak c = false := by
    rw [no_break_iff]
    intro c hc hbreak
    exact not_in_digits hds (hbreaks c hbreak) hc
  have hmark : ∀ c ∈ ds, isMark c = false := by
    rw [no_mark_iff]
    intro c hc hmark
    exact not_in_digits hds (hmarks c hmark) hc
  refine ⟨hbreak, fun c hc => ⟨?_, hmark c hc⟩⟩
  obtain ⟨hlow, hhigh⟩ := Char.isDigit_iff_toNat.mp (hds c hc)
  have hzero : '0'.toNat = 48 := rfl
  have hnine : '9'.toNat = 57 := rfl
  simp only [isControl, Bool.or_eq_false_iff, Bool.and_eq_false_iff, decide_eq_false_iff_not]
  omega

/-- Digits are no part of the structure, so it is only for their value that they need quotes. -/
theorem digits_unmistakable (hds : ∀ c ∈ ds, c.isDigit = true) (h : needsQuotes ds = false) :
    Unmistakable ds := by
  obtain ⟨hbreak, hshown⟩ := digits_shown hds
  have hindicators : ∀ c ∈ indicators, c.isDigit = false := by simp [indicators]
  have hentries : ∀ c ∈ ['-', '?', ':'], c.isDigit = false := by simp
  have hstart {c : Char} (hc : c.isDigit = false) : ds.head? ≠ some c := by
    intro hhead
    exact not_in_digits hds hc (List.mem_of_head? hhead)
  have hlast {c : Char} (hc : c.isDigit = false) : ds.getLast? ≠ some c := by
    intro hlast
    exact not_in_digits hds hc (List.mem_of_getLast? hlast)
  have hnowhere {c : Char} (hc : c.isDigit = false) (more : List Char) : ¬(c :: more) <:+: ds := by
    intro hstands
    exact not_in_digits hds hc (hstands.subset List.mem_cons_self)
  simp only [needsQuotes, Bool.or_eq_false_iff] at h
  obtain ⟨⟨⟨⟨hnull, htruth⟩, hpadded⟩, hinteger⟩, hfloat⟩ := h
  exact {
    nonempty := (not_null_iff.mp hnull).1
    no_space_first := hstart rfl
    no_space_last := hlast rfl
    no_break := no_break_iff.mp hbreak
    no_control := fun c hc => (hshown c hc).1
    no_mark := no_mark_iff.mp fun c hc => (hshown c hc).2
    no_indicator := fun c hc => hstart (hindicators c hc)
    no_document := ⟨fun h => hnowhere rfl _ h.isInfix, fun h => hnowhere rfl _ h.isInfix⟩
    no_entry := by
      intro c hc
      refine ⟨?_, fun h => hnowhere (hentries c hc) _ h.isInfix⟩
      rintro rfl
      exact not_in_digits hds (hentries c hc) List.mem_cons_self
    no_value := hnowhere rfl _
    no_colon_last := hlast rfl
    no_comment := hnowhere rfl _
    not_null := (not_null_iff.mp hnull).2
    not_truth_value := not_truth_value_iff.mp htruth
    not_integer := hinteger
    not_float := hfloat
    not_padded := hpadded }

theorem digits_quoted (hds : ∀ c ∈ ds, c.isDigit = true) (h : needsQuotes ds = true) :
    styleOf ds = .singleQuoted := by
  obtain ⟨hbreak, hshown⟩ := digits_shown hds
  have hfeed : ds.contains '\n' = false := by
    rw [← Bool.not_eq_true, List.contains_iff_mem]
    exact not_in_digits hds rfl
  have hplain : plainAllowed ds = false := by
    rw [plainAllowed, h]
    rfl
  have hsingle : singleQuotedAllowed ds = true := by
    rw [singleQuotedAllowed, (needsEscapes_iff hbreak).mpr hshown, no_pair]
    · rfl
    · intro c hc
      rw [isSpace, decide_eq_false_iff_not]
      rintro rfl
      exact not_in_digits hds rfl hc
  rw [styleOf, hfeed, hplain, hsingle]
  rfl

theorem singleQuoted_digits (hds : ∀ c ∈ ds, c.isDigit = true) :
    singleQuoted indent ds = '\'' :: (ds ++ ['\'']) := by
  have hbody : singleQuotedBody indent false ds = ds := by
    induction ds with
    | nil => rfl
    | cons c rest ih =>
      obtain ⟨hc, hrest⟩ := List.forall_mem_cons.mp hds
      have hbreak : isBreak c = false := (digits_shown hds).1 c List.mem_cons_self
      have hquote : c ≠ '\'' := by
        rintro rfl
        cases hc
      rw [singleQuotedBody, hbreak, if_neg Bool.false_ne_true, if_neg Bool.false_ne_true,
        if_neg hquote, ih hrest]
      rfl
  rw [singleQuoted, hbody]
  rfl

end Digits

section Keys

variable {indent : Nat}

theorem hasLeadingZero_iff (key : NumericKey) :
    hasLeadingZero key.text.toList = false ↔ key.normalized = key.text := by
  obtain ⟨hne, hdigits⟩ := key.text_digits
  have htext : key.text = String.ofList key.text.toList := String.ofList_toList.symm
  have hnil : key.text.toList ≠ [] := by simpa using hne
  rw [NumericKey.normalized]
  generalize key.text.toList = digits at *
  rw [htext]
  cases digits with
  | nil => exact absurd rfl hnil
  | cons first rest =>
    have hunsigned : withoutSign (first :: rest) = first :: rest := by
      rw [withoutSign]
      · exact only_digits hdigits rfl []
      · exact only_digits hdigits rfl []
    rw [hasLeadingZero, hunsigned]
    by_cases hzero : first = '0'
    · subst hzero
      cases rest with
      | nil => exact iff_of_true rfl rfl
      | cons second rest =>
        have hall : (second :: rest).all Char.isDigit = true :=
          List.all_eq_true.mpr (List.forall_mem_cons.mp hdigits).2
        have hshorter : ((second :: rest).dropWhile (· == '0')).length < rest.length + 2 :=
          Nat.lt_succ_of_le (List.dropWhile_sublist _).length_le
        rw [List.dropWhile_cons_of_pos (by rfl)]
        refine iff_of_false (by simpa using hall) ?_
        intro heq
        have hlength := congrArg String.length heq
        split at hlength
        · have hone : "0".length = 1 := rfl
          rw [hone, String.length_ofList, List.length_cons, List.length_cons] at hlength
          omega
        · rw [String.length_ofList, String.length_ofList] at hlength
          exact hshorter.ne hlength
    · rw [List.dropWhile_cons_of_neg (by simpa using hzero)]
      refine iff_of_true ?_ rfl
      split
      · rename_i hcons
        exact absurd (List.cons.inj hcons).1 hzero
      · rfl

/-- A group index is written in quotes, unless it is spelled without padding and is too great for
a double. -/
theorem key_quoted_iff (key : NumericKey) :
    scalarLine indent key.text.toList = '\'' :: (key.text.toList ++ ['\'', '\n']) ↔
      key.normalized ≠ key.text ∨ key.value < doubleOverflow := by
  have hdigits := key.text_digits.2
  have hne : key.text.toList ≠ [] := by simpa using key.text_digits.1
  rw [Ne, ← hasLeadingZero_iff, Bool.not_eq_false, NumericKey.value,
    ← needsQuotes_digits hdigits hne]
  constructor
  · intro h
    by_contra hquotes
    have hplain : scalarLine indent key.text.toList = key.text.toList ++ ['\n'] :=
      bare_iff.mpr (digits_unmistakable hdigits (Bool.eq_false_iff.mpr hquotes))
    have hlength := congrArg List.length (h.symm.trans hplain)
    simp only [List.length_cons, List.length_append, List.length_nil] at hlength
    omega
  · intro hquotes
    rw [scalarLine, digits_quoted hdigits hquotes]
    dsimp only
    rw [singleQuoted_digits hdigits]
    simp

end Keys

end Yaml

end CaptureAudit
