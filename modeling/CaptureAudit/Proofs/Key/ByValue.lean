import CaptureAudit.Key
import CaptureAudit.Proofs.Text.ByteOrder
import Mathlib.Data.List.Infix

/-! # Group indices by value

Comparing the significant digits, first how many there are and then one after another, is comparing
the numbers that they spell. So keys stand by value wherever they are listed, and the spellings of
one number stand together. -/
namespace CaptureAudit.NumericKey

open Nat (ofDigitChars)

section Digits

variable {c : Char} {ds es : List Char}

theorem digit_le_nine (h : c.isDigit = true) : c.toNat - '0'.toNat ≤ 9 :=
  Nat.sub_le_sub_right (Char.isDigit_iff_toNat.mp h).2 _

theorem digit_pos (h : c.isDigit = true) (hzero : c ≠ '0') : 1 ≤ c.toNat - '0'.toNat := by
  have hlow := (Char.isDigit_iff_toNat.mp h).1
  have hne : c.toNat ≠ '0'.toNat := fun heq => hzero (Char.toNat_inj.mp heq)
  omega

theorem digit_lt_iff {d : Char} (hc : c.isDigit = true) (hd : d.isDigit = true) :
    c < d ↔ c.toNat - '0'.toNat < d.toNat - '0'.toNat := by
  have hlow := (Char.isDigit_iff_toNat.mp hc).1
  have hlow' := (Char.isDigit_iff_toNat.mp hd).1
  have hlt : c < d ↔ c.toNat < d.toNat := Iff.rfl
  rw [hlt]
  omega

theorem digit_eq_iff {d : Char} (hc : c.isDigit = true) (hd : d.isDigit = true) :
    c = d ↔ c.toNat - '0'.toNat = d.toNat - '0'.toNat := by
  have hlow := (Char.isDigit_iff_toNat.mp hc).1
  have hlow' := (Char.isDigit_iff_toNat.mp hd).1
  rw [← Char.toNat_inj]
  omega

/-- The first digit counts as many times as there are numbers with the other digits. -/
theorem spelled_cons (c : Char) (ds : List Char) :
    ofDigitChars 10 (c :: ds) 0 = 10 ^ ds.length * (c.toNat - '0'.toNat) + ofDigitChars 10 ds 0 := by
  rw [Nat.ofDigitChars_cons, Nat.mul_zero, Nat.zero_add, Nat.ofDigitChars_eq_ofDigitChars_zero]

theorem spelled_lt (h : ∀ c ∈ ds, c.isDigit = true) : ofDigitChars 10 ds 0 < 10 ^ ds.length := by
  induction ds with
  | nil => decide
  | cons c rest ih =>
    obtain ⟨hc, hrest⟩ := List.forall_mem_cons.mp h
    have hfirst : 10 ^ rest.length * (c.toNat - '0'.toNat) ≤ 10 ^ rest.length * 9 :=
      Nat.mul_le_mul_left _ (digit_le_nine hc)
    have hothers := ih hrest
    rw [spelled_cons, List.length_cons, Nat.pow_succ]
    omega

theorem le_spelled (hc : c.isDigit = true) (hzero : c ≠ '0') :
    10 ^ ds.length ≤ ofDigitChars 10 (c :: ds) 0 := by
  have hfirst : 10 ^ ds.length * 1 ≤ 10 ^ ds.length * (c.toNat - '0'.toNat) :=
    Nat.mul_le_mul_left _ (digit_pos hc hzero)
  rw [spelled_cons]
  omega

theorem spelled_without_zeros (ds : List Char) :
    ofDigitChars 10 (ds.dropWhile (· == '0')) 0 = ofDigitChars 10 ds 0 := by
  induction ds with
  | nil => rfl
  | cons c rest ih =>
    rw [List.dropWhile_cons]
    split
    · rename_i hzero
      obtain rfl : c = '0' := by simpa using hzero
      rw [ih, spelled_cons, Nat.sub_self, Nat.mul_zero, Nat.zero_add]
    · rfl

/-- Among as many digits, the first difference decides, as it does for texts. -/
theorem spelled_lt_iff (hlen : ds.length = es.length) (hd : ∀ c ∈ ds, c.isDigit = true)
    (he : ∀ c ∈ es, c.isDigit = true) (m n : Nat) :
    ofDigitChars 10 ds m < ofDigitChars 10 es n ↔ m < n ∨ m = n ∧ ds < es := by
  induction ds generalizing es m n with
  | nil =>
    obtain rfl := List.length_eq_zero_iff.mp hlen.symm
    simp
  | cons c ds ih =>
    obtain ⟨d, es, rfl⟩ := List.exists_cons_of_length_eq_add_one hlen.symm
    obtain ⟨hc, hds⟩ := List.forall_mem_cons.mp hd
    obtain ⟨hd, hes⟩ := List.forall_mem_cons.mp he
    have hc9 := digit_le_nine hc
    have hd9 := digit_le_nine hd
    rw [Nat.ofDigitChars_cons, Nat.ofDigitChars_cons, ih (Nat.succ.inj hlen) hds hes,
      List.cons_lt_cons_iff, digit_lt_iff hc hd, digit_eq_iff hc hd, and_or_left, ← and_assoc,
      ← or_assoc]
    exact or_congr (by omega) (and_congr_left' (by omega))

end Digits

def value (key : NumericKey) : Nat := ofDigitChars 10 key.text.toList 0

theorem text_digits (key : NumericKey) :
    key.text ≠ "" ∧ ∀ c ∈ key.text.toList, c.isDigit = true :=
  (isGroupIndex_iff key.text).mp key.isIndex

/-- The significant digits: one zero, or digits that do not begin with one. -/
theorem normalized_cases (key : NumericKey) :
    (key.normalized.toList = ['0'] ∧ key.value = 0) ∨
      ∃ c rest, key.normalized.toList = c :: rest ∧ c ≠ '0' ∧
        (∀ d ∈ c :: rest, d.isDigit = true) ∧ key.value = ofDigitChars 10 (c :: rest) 0 := by
  have hvalue := spelled_without_zeros key.text.toList
  have hdigits := key.text_digits.2
  rw [normalized, value, ← hvalue]
  cases hs : key.text.toList.dropWhile (· == '0') with
  | nil => exact .inl ⟨rfl, rfl⟩
  | cons c rest =>
    refine .inr ⟨c, rest, String.toList_ofList, ?_, ?_, rfl⟩
    · have hhead := List.head_dropWhile_not (l := key.text.toList) (· == '0') (by simp [hs])
      simpa [hs] using hhead
    · intro d hd
      exact hdigits d (List.dropWhile_sublist _ |>.mem (hs ▸ hd))

theorem normalized_digits (key : NumericKey) :
    ∀ c ∈ key.normalized.toList, c.isDigit = true := by
  rcases key.normalized_cases with ⟨hzero, -⟩ | ⟨c, rest, hn, -, hdigits, -⟩
  · rw [hzero]
    simp
  · rwa [hn]

theorem normalized_spells (key : NumericKey) :
    ofDigitChars 10 key.normalized.toList 0 = key.value := by
  rcases key.normalized_cases with ⟨hn, hvalue⟩ | ⟨c, rest, hn, -, -, hvalue⟩
  · rw [hn, hvalue]
    rfl
  · rw [hn, hvalue]

theorem normalized_nonempty (key : NumericKey) : ∃ c rest, key.normalized.toList = c :: rest := by
  rcases key.normalized_cases with ⟨hn, -⟩ | ⟨c, rest, hn, -, -, -⟩
  · exact ⟨'0', [], hn⟩
  · exact ⟨c, rest, hn⟩

variable {a b : NumericKey}

/-- A number with fewer significant digits is less, zero with its one digit included. -/
theorem value_lt_of_shorter (h : a.normalized.length < b.normalized.length) :
    a.value < b.value := by
  have ha : a.value < 10 ^ a.normalized.length := by
    rw [← a.normalized_spells]
    exact spelled_lt a.normalized_digits
  rcases b.normalized_cases with ⟨hn, -⟩ | ⟨c, rest, hn, hzero, hdigits, hvalue⟩
  · have hone : b.normalized.length = 1 := by
      rw [← String.length_toList, hn]
      rfl
    have hnone : a.normalized.length = 0 := by omega
    obtain ⟨c, rest, hn⟩ := a.normalized_nonempty
    rw [← String.length_toList, hn] at hnone
    exact (Nat.succ_ne_zero _ hnone).elim
  · have hlen : b.normalized.length = rest.length + 1 := by
      rw [← String.length_toList, hn, List.length_cons]
    calc a.value < 10 ^ a.normalized.length := ha
      _ ≤ 10 ^ rest.length := Nat.pow_le_pow_right (by decide) (by omega)
      _ ≤ ofDigitChars 10 (c :: rest) 0 :=
        le_spelled (hdigits c List.mem_cons_self) hzero
      _ = b.value := hvalue.symm

theorem normalized_lt_iff (h : a.normalized.length = b.normalized.length) :
    a.normalized < b.normalized ↔ a.value < b.value := by
  have hlen : a.normalized.toList.length = b.normalized.toList.length := by
    rwa [String.length_toList, String.length_toList]
  rw [String.lt_iff, ← a.normalized_spells, ← b.normalized_spells,
    spelled_lt_iff hlen a.normalized_digits b.normalized_digits]
  simp

theorem compare_same_length (h : a.normalized.length = b.normalized.length) :
    compare a.normalized b.normalized = compare a.value b.value := by
  rcases lt_trichotomy a.normalized b.normalized with hlt | heq | hgt
  · have hvalue := (normalized_lt_iff h).mp hlt
    rw [Nat.compare_eq_lt.mpr hvalue]
    exact compareOfLessAndEq_eq_lt.mpr hlt
  · have hvalue : a.value = b.value := by
      rw [← a.normalized_spells, ← b.normalized_spells, heq]
    rw [heq, hvalue, Std.ReflOrd.compare_self, Std.ReflOrd.compare_self]
  · have hvalue := (normalized_lt_iff h.symm).mp hgt
    rw [Std.OrientedOrd.eq_swap, Nat.compare_eq_gt.mpr hvalue]
    exact congrArg Ordering.swap (compareOfLessAndEq_eq_lt.mpr hgt)

/-- The order of keys: by value, and by spelling if the values are equal. -/
theorem compare_by_value (a b : NumericKey) :
    compare a b = (compare a.value b.value).then (compare a.text b.text) := by
  change (compare a.normalized.length b.normalized.length).then
    ((compare a.normalized b.normalized).then (compare a.text b.text)) = _
  rcases Nat.lt_trichotomy a.normalized.length b.normalized.length with h | h | h
  · rw [Nat.compare_eq_lt.mpr h, Nat.compare_eq_lt.mpr (value_lt_of_shorter h)]
    rfl
  · rw [Nat.compare_eq_eq.mpr h, compare_same_length h]
    rfl
  · rw [Nat.compare_eq_gt.mpr h, Nat.compare_eq_gt.mpr (value_lt_of_shorter h)]
    rfl

theorem isLE_by_value (a b : NumericKey) : (compare a b).isLE = true ↔
    a.value < b.value ∨ a.value = b.value ∧ a.text ≤ b.text := by
  rw [compare_by_value, Ordering.isLE_then_iff_or, Nat.compare_eq_lt, Nat.compare_eq_eq,
    compare_le_iff]

/-- Keys listed by value. The spellings of one number stand together, in the order of texts. -/
structure InOrder (keys : List NumericKey) : Prop where
  values : keys.Pairwise fun a b => a.value ≤ b.value
  together : ∀ n, keys.filter (·.value = n) <:+: keys
  spellings : ∀ n, (keys.filter (·.value = n)).Pairwise fun a b => a.text ≤ b.text

section Listing

variable {keys : List NumericKey}

theorem none_below {least : Nat} {p : NumericKey → Bool} (h : ∀ key ∈ keys, least ≤ key.value)
    (hp : ∀ key, p key = true → key.value < least) : keys.filter p = [] := by
  rw [List.filter_eq_nil_iff]
  intro key hk hpk
  exact Nat.not_le_of_lt (hp key hpk) (h key hk)

/-- The keys of less value stand before those of a value, and the keys of greater value after. -/
theorem split_at_value (h : keys.Pairwise fun a b => a.value ≤ b.value) (n : Nat) :
    keys.filter (·.value < n) ++ (keys.filter (·.value = n) ++ keys.filter (n < ·.value)) =
      keys := by
  induction keys with
  | nil => rfl
  | cons key rest ih =>
    obtain ⟨hkey, hrest⟩ := List.pairwise_cons.mp h
    have hsplit := ih hrest
    rcases Nat.lt_trichotomy key.value n with hlt | heq | hgt
    · rw [List.filter_cons_of_pos (by simpa using hlt),
        List.filter_cons_of_neg (by simpa using hlt.ne),
        List.filter_cons_of_neg (by simpa using hlt.le), List.cons_append, hsplit]
    · have hless : rest.filter (·.value < n) = [] := by
        apply none_below hkey
        intro other ho
        rw [heq]
        simpa using ho
      rw [hless, List.nil_append] at hsplit
      rw [List.filter_cons_of_neg (by simpa using heq.ge),
        List.filter_cons_of_pos (by simpa using heq),
        List.filter_cons_of_neg (by simpa using heq.le), hless, List.nil_append, List.cons_append,
        hsplit]
    · have hless : rest.filter (·.value < n) = [] := by
        apply none_below hkey
        intro other ho
        have hother : other.value < n := by simpa using ho
        exact hother.trans hgt
      have hequal : rest.filter (·.value = n) = [] := by
        apply none_below hkey
        intro other ho
        have hother : other.value = n := by simpa using ho
        exact hother.trans_lt hgt
      rw [hless, hequal, List.nil_append, List.nil_append] at hsplit
      rw [List.filter_cons_of_neg (by simpa using hgt.le),
        List.filter_cons_of_neg (by simpa using hgt.ne'),
        List.filter_cons_of_pos (by simpa using hgt), hless, hequal, List.nil_append,
        List.nil_append, hsplit]

theorem inOrder_of_sorted (h : keys.Pairwise fun a b => (compare a b).isLE = true) :
    InOrder keys := by
  have hvalues : keys.Pairwise fun a b => a.value ≤ b.value := by
    apply h.imp
    intro a b hab
    rcases (isLE_by_value _ _).mp hab with hlt | ⟨heq, -⟩
    · exact hlt.le
    · exact heq.le
  have htogether (n : Nat) : keys.filter (·.value = n) <:+: keys :=
    ⟨_, _, (List.append_assoc _ _ _).trans (split_at_value hvalues n)⟩
  refine ⟨hvalues, htogether, ?_⟩
  intro n
  have hsame : ∀ a ∈ keys.filter (·.value = n), a.value = n := by
    intro a ha
    simpa using (List.mem_filter.mp ha).2
  apply (h.filter _).imp_of_mem
  intro a b ha hb hab
  rcases (isLE_by_value _ _).mp hab with hlt | ⟨-, hle⟩
  · rw [hsame _ ha, hsame _ hb] at hlt
    exact (Nat.lt_irrefl n hlt).elim
  · exact hle

theorem sort_sorted (keys : List NumericKey) :
    (sort keys).Pairwise fun a b => (compare a b).isLE = true := by
  apply List.pairwise_mergeSort
  · intro a b c hab hbc
    exact Std.TransOrd.isLE_trans hab hbc
  · intro a b
    rw [Bool.or_eq_true, Std.OrientedOrd.eq_swap (a := b), Ordering.isLE_swap]
    cases compare a b <;> simp

theorem set_sorted (keys : NumericKeys) :
    keys.toList.Pairwise fun a b => (compare a b).isLE = true := by
  apply Std.ExtTreeSet.ordered_toList.imp
  intro a b hab
  rw [hab]
  rfl

theorem set_nodup (keys : NumericKeys) : keys.toList.Nodup := by
  apply Std.ExtTreeSet.ordered_toList.imp
  intro a b hab heq
  rw [heq, Std.ReflOrd.compare_self] at hab
  cases hab

end Listing

theorem spells_iff (text : String) :
    (∃ key, ofString? text = some key ∧ key.text = text) ↔
      text ≠ "" ∧ ∀ c ∈ text.toList, '0' ≤ c ∧ c ≤ '9' := by
  have hindex : isGroupIndex text = true ↔ text ≠ "" ∧ ∀ c ∈ text.toList, '0' ≤ c ∧ c ≤ '9' := by
    rw [isGroupIndex_iff]
    simp [Char.isDigit, Char.le_def]
  rw [← hindex, ofString?]
  split
  · rename_i h
    exact iff_of_true ⟨_, rfl, rfl⟩ h
  · rename_i h
    exact iff_of_false (by simp) h

/-- Every text of digits is a key. Two keys are compared by the numbers that they spell and, if
these are equal, by their spelling; this is a total order, in which only a key itself is equal to
it. A sorted list and a set therefore have their keys by value, with the spellings of one number
together, and a set has every spelling once. -/
theorem ordered_by_value :
    (∀ text, (∃ key, ofString? text = some key ∧ key.text = text) ↔
      text ≠ "" ∧ ∀ c ∈ text.toList, '0' ≤ c ∧ c ≤ '9') ∧
    (∀ a b : NumericKey, compare a b = (compare a.value b.value).then (compare a.text b.text)) ∧
    (∀ a b c : NumericKey, (compare a b = .eq ↔ a.text = b.text) ∧
      compare b a = (compare a b).swap ∧
      ((compare a b).isLE = true → (compare b c).isLE = true → (compare a c).isLE = true)) ∧
    ∀ keys : List NumericKey,
      (sort keys).Perm keys ∧ InOrder (sort keys) ∧
      InOrder (Std.ExtTreeSet.ofList keys : NumericKeys).toList ∧
      (Std.ExtTreeSet.ofList keys : NumericKeys).toList.Nodup ∧
      ∀ key, key ∈ (Std.ExtTreeSet.ofList keys : NumericKeys).toList ↔ key ∈ keys := by
  refine ⟨spells_iff, compare_by_value, ?_, ?_⟩
  · intro a b c
    have hsame : compare a b = .eq ↔ a.text = b.text := by
      rw [Std.compare_eq_iff_eq]
      exact ⟨congrArg text, text_injective⟩
    exact ⟨hsame, Std.OrientedOrd.eq_swap, Std.TransOrd.isLE_trans⟩
  · intro keys
    have hlist := inOrder_of_sorted (sort_sorted keys)
    have hset := inOrder_of_sorted (set_sorted (.ofList keys))
    refine ⟨List.mergeSort_perm _ _, hlist, hset, set_nodup _, ?_⟩
    intro key
    rw [Std.ExtTreeSet.mem_toList, Std.ExtTreeSet.mem_ofList, List.contains_iff_mem]

theorem padded_ordered_by_value :
    let one : NumericKey := ⟨"1", by decide⟩
    let padded : NumericKey := ⟨"01", by decide⟩
    let wide : NumericKey := ⟨"001", by decide⟩
    (compare wide padded).isLE = true ∧ (compare padded one).isLE = true ∧
      (compare wide one).isLE = true := by
  intro one padded wide
  have hfirst : (compare wide padded).isLE = true := by decide
  have hsecond : (compare padded one).isLE = true := by decide
  exact ⟨hfirst, hsecond, (ordered_by_value.2.2.1 wide padded one).2.2 hfirst hsecond⟩

end CaptureAudit.NumericKey
