import CaptureAudit.Proofs.Json.ShortNumbers

/-! # Numbers that are cut in their exponent

A larger exponent makes a larger number. So if an exponent leaves a number in range, its first
digits do, and an exponent that scales down leaves any short number in range. -/
namespace CaptureAudit.Json

/-- Rounding drops less than half of a number. -/
theorem le_two_round (n : Nat) : n ≤ 2 * roundTo53Bits n := by
  by_cases hn : n = 0
  · rw [hn]
    exact Nat.zero_le _
  have hunit := unit_le hn
  have hpos : 0 < 2 ^ (n.log2 + 1 - 53) := Nat.two_pow_pos _
  have hquotient : 2 ^ (n.log2 + 1 - 53) ≤ n / 2 ^ (n.log2 + 1 - 53) * 2 ^ (n.log2 + 1 - 53) :=
    Nat.le_mul_of_pos_left _ (Nat.div_pos hunit hpos)
  have hsplit := Nat.div_add_mod' n (2 ^ (n.log2 + 1 - 53))
  have hmod := Nat.mod_lt n hpos
  simp only [roundTo53Bits, Nat.pow_eq]
  split
  · rw [Nat.add_mul]
    omega
  · omega

/-- Powers of ten lie so far apart that rounding keeps their order. -/
theorem round_ten_mono {a b : Nat} (h : a ≤ b) :
    roundTo53Bits (10 ^ a) ≤ roundTo53Bits (10 ^ b) := by
  induction b, h using Nat.le_induction with
  | base => exact Nat.le_refl _
  | succ b _ ih =>
    refine ih.trans ?_
    have hupper := round_le (10 ^ b)
    have hlower := le_two_round (10 ^ (b + 1))
    rw [Nat.pow_succ] at hlower ⊢
    omega

theorem inRange_lower {m : Nat} {lower shift : Int} (hle : lower ≤ shift)
    (h : (⟨m, shift⟩ : Decimal).inRange = true) : (⟨m, lower⟩ : Decimal).inRange = true := by
  simp only [Decimal.inRange, Nat.pow_eq, Bool.or_eq_true, Bool.and_eq_true, beq_iff_eq,
    decide_eq_true_eq] at h ⊢
  rcases h with (h | h) | ⟨hshift, hlt⟩
  · exact Or.inl (Or.inl h)
  · exact Or.inl (Or.inr (by omega))
  · have hround : roundTo53Bits (10 ^ lower.toNat) ≤ roundTo53Bits (10 ^ shift.toNat) :=
      round_ten_mono (Int.toNat_le_toNat hle)
    exact Or.inr ⟨hle.trans hshift, (Nat.mul_le_mul_left _ hround).trans_lt hlt⟩

theorem toDocument_ok {d : Decimal} {value : Document} (h : d.toDocument = .ok value) :
    d.inRange = true := by
  rw [Decimal.toDocument] at h
  split at h
  · assumption
  · cases h

theorem toDocument_of_inRange {d : Decimal} (h : d.inRange = true) : d.toDocument = .ok .float := by
  rw [Decimal.toDocument, if_pos h]

theorem scan_stopped {number : Number} {cs : List Char} {found : Document × List Char}
    (h : (number.finish.toOption.map fun value => (value, cs)) = some found) :
    ∃ value, number.finish = .ok value := by
  cases hfinish : number.finish with
  | ok value => exact ⟨value, rfl⟩
  | error cause =>
    rw [hfinish] at h
    cases h

theorem open_exponent_in_range {d : Decimal} {n : Nat} {cs : List Char}
    {found : Document × List Char} (h : scan (.exponent d false n) cs = some found) :
    (d.raise false n).inRange = true := by
  -- Each further digit only raises the exponent, and the last one leaves the number in range.
  induction cs generalizing n with
  | nil =>
    obtain ⟨value, hvalue⟩ := scan_stopped h
    exact toDocument_ok hvalue
  | cons c cs ih =>
    rw [scan] at h
    cases hc : digitValue? c with
    | none =>
      have hfeed : (Number.exponent d false n).feed? c = none := by
        simp only [Number.feed?.eq_def, hc]
      rw [hfeed] at h
      obtain ⟨value, hvalue⟩ := scan_stopped h
      exact toDocument_ok hvalue
    | some digit =>
      have hfeed : (Number.exponent d false n).feed? c =
          some (Number.pushExponent d false n digit) := by
        simp only [Number.feed?.eq_def, hc]
      rw [hfeed, Number.pushExponent] at h
      split_ifs at h with hfit hzero
      · refine inRange_lower ?_ (ih h)
        simp only [Bool.false_eq_true, if_false]
        omega
      · have hnothing : d.significand = 0 := by simpa using hzero
        simp [Decimal.inRange, Decimal.raise, hnothing]

theorem below_lower {d : Decimal} {k : Nat} (n : Nat) (h : Below d k) :
    Below (d.raise true n) k := by
  rcases h with h | ⟨s, hs, h⟩
  · exact Or.inl (by simp only [Decimal.raise, if_true]; omega)
  by_cases hn : s < n
  · exact Or.inl (by simp only [Decimal.raise, if_true]; omega)
  · refine Or.inr ⟨s - n, by simp only [Decimal.raise, if_true]; omega, ?_⟩
    exact (Nat.mul_le_mul_left _ (Nat.pow_le_pow_right (by decide) (Nat.sub_le s n))).trans h

end CaptureAudit.Json
