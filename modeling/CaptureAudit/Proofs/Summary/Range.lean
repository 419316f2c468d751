import CaptureAudit.Proofs.Json.RoundTrip
import CaptureAudit.Proofs.Key.ByValue
import CaptureAudit.Proofs.Summary.Coherence
import Mathlib.Order.Bounds.Basic

/-! # The range of the group indices

A summary keeps group indices in the order of their values, so the first one spells the least number
recorded and the last one the greatest. Without leading zeros they are the numerals of these two
numbers, however the keys were spelled and in whichever order they came. -/
namespace CaptureAudit

namespace NumericKey

variable {a b : NumericKey}

theorem normalized_of_value (h : a.value = b.value) : a.normalized = b.normalized := by
  have hlength : a.normalized.length = b.normalized.length := by
    rcases Nat.lt_trichotomy a.normalized.length b.normalized.length with hlt | heq | hgt
    · exact absurd h (value_lt_of_shorter hlt).ne
    · exact heq
    · exact absurd h (value_lt_of_shorter hgt).ne'
  rcases lt_trichotomy a.normalized b.normalized with hlt | heq | hgt
  · exact absurd h ((normalized_lt_iff hlength).mp hlt).ne
  · exact heq
  · exact absurd h ((normalized_lt_iff hlength.symm).mp hgt).ne'

theorem numeral_isIndex (n : Nat) : isGroupIndex (toString n) = true := by
  rw [isGroupIndex_iff, Nat.toString_eq_ofList_toDigits, String.toList_ofList]
  constructor
  · intro h
    have hnil := congrArg String.toList h
    rw [String.toList_ofList] at hnil
    exact Nat.toDigits_ne_nil hnil
  · intro c hc
    exact Nat.isDigit_of_mem_toDigits (by decide) (by decide) hc

def numeral (n : Nat) : NumericKey := ⟨toString n, numeral_isIndex n⟩

theorem numeral_digits (n : Nat) : (numeral n).text.toList = Nat.toDigits 10 n := by
  have htext : (numeral n).text = String.ofList (Nat.toDigits 10 n) :=
    Nat.toString_eq_ofList_toDigits
  rw [htext, String.toList_ofList]

theorem value_numeral (n : Nat) : (numeral n).value = n := by
  rw [value, numeral_digits, Nat.ofDigitChars_ten_toDigits]

/-- A numeral begins with a zero only if it is one, so nothing is left out of it. -/
theorem normalized_numeral (n : Nat) : (numeral n).normalized = toString n := by
  have htext : toString n = String.ofList (Nat.toDigits 10 n) := Nat.toString_eq_ofList_toDigits
  rw [normalized, numeral_digits, htext]
  by_cases hzero : (Nat.toDigits 10 n).head? = some '0'
  · rw [Json.digits_no_leading_zero n hzero]
    rfl
  · obtain ⟨c, rest, hdigits⟩ := List.exists_cons_of_ne_nil (@Nat.toDigits_ne_nil n 10)
    have hc : (c == '0') = false := by
      rw [hdigits] at hzero
      simpa using hzero
    rw [hdigits, List.dropWhile_cons, hc]
    rfl

theorem normalized_eq_numeral (key : NumericKey) : key.normalized = toString key.value := by
  rw [normalized_of_value (value_numeral key.value).symm, normalized_numeral]

end NumericKey

namespace Summary

variable {summary : Summary} {results : List (String × FileResult)}
  {least greatest : NumericKey} {first last : String}

def recordedKeys (results : List (String × FileResult)) : Set NumericKey :=
  {key | ∃ named ∈ withoutError results, key ∈ named.2.numericKeys}

def recordedNumbers (results : List (String × FileResult)) : Set Nat :=
  NumericKey.value '' recordedKeys results

def shownRange (summary : Summary) : Option (String × String) :=
  summary.numericRange.map fun range => (range.1.normalized, range.2.normalized)

/-- Two of the keys, between which all of them are by value. -/
structure Spans (keys : Set NumericKey) (least greatest : NumericKey) : Prop where
  least_mem : least ∈ keys
  greatest_mem : greatest ∈ keys
  between : ∀ key ∈ keys, least.value ≤ key.value ∧ key.value ≤ greatest.value

theorem mem_numericKeys (key : NumericKey) :
    key ∈ (recordAll ∅ results).numericKeys ↔ key ∈ recordedKeys results := by
  have hempty : key ∉ (∅ : Summary).numericKeys := Std.ExtTreeSet.not_mem_empty
  exact ((accumulated_recordAll ∅ results).numeric key).trans (or_iff_right hempty)

theorem range_none_iff : summary.numericRange = none ↔ summary.numericKeys = ∅ := by
  rw [numericRange]
  by_cases hempty : summary.numericKeys = ∅
  · rw [Std.ExtTreeSet.min?_eq_none_iff.mpr hempty]
    exact iff_of_true rfl hempty
  · obtain ⟨least, hleast⟩ := Option.isSome_iff_exists.mp
      (Std.ExtTreeSet.isSome_min?_iff_ne_empty.mpr hempty)
    obtain ⟨greatest, hgreatest⟩ := Option.isSome_iff_exists.mp
      (Std.ExtTreeSet.isSome_max?_iff_ne_empty.mpr hempty)
    rw [hleast, hgreatest]
    exact iff_of_false (by simp) hempty

theorem value_le_of_isLE {a b : NumericKey} (h : (compare a b).isLE = true) : a.value ≤ b.value := by
  rcases (NumericKey.isLE_by_value a b).mp h with hlt | ⟨heq, -⟩
  · exact hlt.le
  · exact heq.le

theorem range_spans (h : summary.numericRange = some (least, greatest)) :
    Spans {key | key ∈ summary.numericKeys} least greatest := by
  rw [numericRange] at h
  split at h
  · rename_i least' greatest' hleast hgreatest
    cases h
    obtain ⟨hmem, hmin⟩ := Std.ExtTreeSet.min?_eq_some_iff_mem_and_forall.mp hleast
    obtain ⟨hmem', hmax⟩ := Std.ExtTreeSet.max?_eq_some_iff_mem_and_forall.mp hgreatest
    refine ⟨hmem, hmem', ?_⟩
    intro key hkey
    exact ⟨value_le_of_isLE (hmin key hkey), value_le_of_isLE (hmax key hkey)⟩
  · cases h

theorem recorded_none_iff :
    (recordAll ∅ results).numericRange = none ↔ recordedKeys results = ∅ := by
  rw [range_none_iff, Set.eq_empty_iff_forall_notMem]
  constructor
  · intro h key hkey
    rw [← mem_numericKeys, h] at hkey
    exact Std.ExtTreeSet.not_mem_empty hkey
  · intro h
    apply Std.ExtTreeSet.ext_mem
    intro key
    rw [mem_numericKeys]
    exact iff_of_false (h key) Std.ExtTreeSet.not_mem_empty

theorem recorded_spans (h : (recordAll ∅ results).numericRange = some (least, greatest)) :
    Spans (recordedKeys results) least greatest := by
  have hkeys : {key | key ∈ (recordAll ∅ results).numericKeys} = recordedKeys results :=
    Set.ext fun key => mem_numericKeys key
  rw [← hkeys]
  exact range_spans h

theorem Spans.isLeast (h : Spans (recordedKeys results) least greatest) :
    IsLeast (recordedNumbers results) least.value := by
  refine ⟨⟨least, h.least_mem, rfl⟩, ?_⟩
  rintro _ ⟨key, hkey, rfl⟩
  exact (h.between key hkey).1

theorem Spans.isGreatest (h : Spans (recordedKeys results) least greatest) :
    IsGreatest (recordedNumbers results) greatest.value := by
  refine ⟨⟨greatest, h.greatest_mem, rfl⟩, ?_⟩
  rintro _ ⟨key, hkey, rfl⟩
  exact (h.between key hkey).2

/-- The range is shown as the numerals of the least and the greatest number recorded, so it does not
depend on spellings or on the order of the results. -/
theorem shownRange_iff : (recordAll ∅ results).shownRange = some (first, last) ↔
    ∃ m n, IsLeast (recordedNumbers results) m ∧ IsGreatest (recordedNumbers results) n ∧
      first = toString m ∧ last = toString n := by
  cases hr : (recordAll ∅ results).numericRange with
  | none =>
    rw [shownRange, hr]
    refine iff_of_false (by simp) ?_
    rintro ⟨m, -, ⟨⟨key, hkey, -⟩, -⟩, -⟩
    rw [recorded_none_iff.mp hr] at hkey
    exact hkey
  | some range =>
    have hspans := recorded_spans hr
    rw [shownRange, hr, Option.map_some, Option.some.injEq, Prod.mk.injEq,
      NumericKey.normalized_eq_numeral, NumericKey.normalized_eq_numeral]
    constructor
    · rintro ⟨hfirst, hlast⟩
      exact ⟨_, _, hspans.isLeast, hspans.isGreatest, hfirst.symm, hlast.symm⟩
    · rintro ⟨m, n, hm, hn, rfl, rfl⟩
      rw [hm.unique hspans.isLeast, hn.unique hspans.isGreatest]
      exact ⟨rfl, rfl⟩

end Summary

end CaptureAudit
