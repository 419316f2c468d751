import CaptureAudit.Proofs.Json.Acceptance
import Mathlib.Tactic.IntervalCases

/-! # String literals

The states of an open escape are settled one by one; together they read exactly the bodies of the
grammar. Nothing in a body depends on what the literal is read for. -/
namespace CaptureAudit.Json

open Grammar

variable {use : StringUse} {read : List Char} {context : List Frame} {cs : List Char}
  {document : Document}

theorem feed_plain (c : Char) : feedPhase (.string use read .none) context c =
    if c = '"' then endString use read context
    else if c = '\\' then .enter (.string use read .opened) context
    else if c.toNat < 0x20 then .fail .controlCharacter
    else .enter (.string use (c :: read) .none) context := rfl

theorem feed_opened (c : Char) : feedPhase (.string use read .opened) context c =
    if c = 'u' then .enter (.string use read (.hex none 0 (some 0))) context
    else match simpleEscape? c with
      | some d => .enter (.string use (d :: read) .none) context
      | none => .fail .invalidEscape := rfl

theorem feed_hex (high : Option Nat) (bytes : Nat) (value : Option Nat) (c : Char) :
    feedPhase (.string use read (.hex high bytes value)) context c =
      let value := match value, hexValue? c with
        | some n, some d => some (16 * n + d)
        | _, _ => none
      if bytes + c.utf8Size < 4 then
        .enter (.string use read (.hex high (bytes + c.utf8Size) value)) context
      else match value with
        | some unit => endHex use read context high unit
        | none => .error (.invalidEscape, 4 - bytes) := rfl

theorem feed_pairBackslash (high : Nat) (c : Char) :
    feedPhase (.string use read (.pairBackslash high)) context c =
      if c = '\\' then .enter (.string use read (.pairMark high)) context
      else .fail .unpairedSurrogate := rfl

theorem feed_pairMark (high : Nat) (c : Char) :
    feedPhase (.string use read (.pairMark high)) context c =
      if c = 'u' then .enter (.string use read (.hex (some high) 0 (some 0))) context
      else .fail .unpairedSurrogate := rfl

theorem char_offset {low high c : Char} (hl : low.toNat ≤ c.toNat) (hu : c.toNat ≤ high.toNat) :
    Char.ofNat (low.toNat + (c.toNat - low.toNat)) = c ∧
      c.toNat - low.toNat ≤ high.toNat - low.toNat := by
  rw [Nat.add_sub_cancel' hl, Char.ofNat_toNat]
  exact ⟨rfl, Nat.sub_le_sub_right hu _⟩

theorem char_bounds {low high c : Char} (h : (low ≤ c && c ≤ high) = true) :
    low.toNat ≤ c.toNat ∧ c.toNat ≤ high.toNat := by
  simp only [Bool.and_eq_true, decide_eq_true_eq, Char.le_def, UInt32.le_iff_toNat_le] at h
  exact h

theorem hex_digit_iff (c : Char) (n : Nat) : hexValue? c = some n ↔ HexDigit c n := by
  constructor
  · intro h
    rw [hexValue?] at h
    split at h
    · rename_i hd
      obtain ⟨hl, hu⟩ := Char.isDigit_iff_toNat.mp hd
      obtain ⟨he, hn⟩ := @char_offset '0' '9' c hl hu
      have hdigit := HexDigit.decimal (Nat.lt_succ_of_le hn)
      rw [he] at hdigit
      cases h
      exact hdigit
    split at h
    · rename_i hd
      obtain ⟨hl, hu⟩ := char_bounds hd
      obtain ⟨he, hn⟩ := char_offset hl hu
      have hdigit := HexDigit.lower (Nat.lt_succ_of_le hn)
      rw [he, Nat.add_comm] at hdigit
      cases h
      exact hdigit
    split at h
    · rename_i hd
      obtain ⟨hl, hu⟩ := char_bounds hd
      obtain ⟨he, hn⟩ := char_offset hl hu
      have hdigit := HexDigit.upper (Nat.lt_succ_of_le hn)
      rw [he, Nat.add_comm] at hdigit
      cases h
      exact hdigit
    · cases h
  · intro h
    cases h with
    | decimal h => interval_cases n <;> rfl
    | @lower n h => interval_cases n <;> rfl
    | @upper n h => interval_cases n <;> rfl

theorem hex_digit_size {c : Char} {n : Nat} (h : HexDigit c n) : c.utf8Size = 1 := by
  cases h with
  | decimal h => interval_cases n <;> rfl
  | @lower n h => interval_cases n <;> rfl
  | @upper n h => interval_cases n <;> rfl

theorem simple_escape_iff (e c : Char) : simpleEscape? e = some c ↔ (e, c) ∈ escapes := by
  simp only [escapes, List.mem_cons, Prod.mk.injEq, List.not_mem_nil, or_false]
  unfold simpleEscape?
  split <;> simp_all [eq_comm]

theorem feed_hex_digit (high : Option Nat) (bytes n : Nat) {c : Char} {v : Nat}
    (h : HexDigit c v) : feedPhase (.string use read (.hex high bytes (some n))) context c =
      if bytes + 1 < 4 then
        .enter (.string use read (.hex high (bytes + 1) (some (16 * n + v)))) context
      else endHex use read context high (16 * n + v) := by
  have hv := (hex_digit_iff c v).mpr h
  simp [feed_hex, hv, hex_digit_size h]

theorem feed_hex_other (high : Option Nat) (bytes : Nat) {value : Option Nat} {c : Char}
    (h : value = none ∨ hexValue? c = none) :
    feedPhase (.string use read (.hex high bytes value)) context c =
      if bytes + c.utf8Size < 4 then
        .enter (.string use read (.hex high (bytes + c.utf8Size) none)) context
      else .error (.invalidEscape, 4 - bytes) := by
  rcases h with rfl | h
  · simp [feed_hex]
  · cases value <;> simp [feed_hex, h]

/-- A character that is no digit spoils the four bytes it is among. -/
theorem spoiled_hex_rejected (high : Option Nat) (bytes : Nat) :
    accepted (.string use read (.hex high bytes none)) context cs = none := by
  induction cs generalizing bytes with
  | nil => rfl
  | cons c rest ih =>
    rw [accepted_cons, feed_hex_other high bytes (Or.inl rfl)]
    split
    · exact ih _
    · rfl

theorem accepted_hex_digit (high : Option Nat) (bytes n : Nat) :
    accepted (.string use read (.hex high bytes (some n))) context cs = some document ↔
      ∃ c v rest, cs = c :: rest ∧ HexDigit c v ∧
        (if bytes + 1 < 4 then
          accepted (.string use read (.hex high (bytes + 1) (some (16 * n + v)))) context rest
        else follow (endHex use read context high (16 * n + v)) rest) = some document := by
  cases cs with
  | nil => simp [accepted, finishPhase, Except.toOption]
  | cons c rest =>
    rw [accepted_cons]
    constructor
    · intro h
      cases hv : hexValue? c with
      | none =>
        rw [feed_hex_other high bytes (Or.inr hv)] at h
        split at h
        · rw [follow_enter, spoiled_hex_rejected] at h
          cases h
        · cases h
      | some v =>
        have hd := (hex_digit_iff c v).mp hv
        rw [feed_hex_digit high bytes n hd, apply_ite (follow · rest)] at h
        exact ⟨c, v, rest, rfl, hd, h⟩
    · rintro ⟨_, v, _, he, hd, h⟩
      cases he
      rw [feed_hex_digit high bytes n hd, apply_ite (follow · rest)]
      exact h

theorem accepted_hex (high : Option Nat) :
    accepted (.string use read (.hex high 0 (some 0))) context cs = some document ↔
      ∃ ds n rest, cs = ds ++ rest ∧ HexUnit ds n ∧
        follow (endHex use read context high n) rest = some document := by
  simp only [accepted_hex_digit, Nat.mul_zero, Nat.zero_add, Nat.reduceAdd, Nat.reduceLT,
    if_true, if_false]
  constructor
  · rintro ⟨a, i, _, rfl, ha, b, j, _, rfl, hb, c, k, _, rfl, hc, d, l, rest, rfl, hd, h⟩
    exact ⟨[a, b, c, d], _, rest, rfl, .digits ha hb hc hd, h⟩
  · rintro ⟨_, _, rest, rfl, ⟨ha, hb, hc, hd⟩, h⟩
    exact ⟨_, _, _, rfl, ha, _, _, _, rfl, hb, _, _, _, rfl, hc, _, _, rest, rfl, hd, h⟩

theorem accepted_escape :
    accepted (.string use read .opened) context cs = some document ↔
      ∃ e rest, cs = e :: rest ∧
        (e = 'u' ∧ accepted (.string use read (.hex none 0 (some 0))) context rest =
          some document ∨
        ∃ c, (e, c) ∈ escapes ∧
          accepted (.string use (c :: read) .none) context rest = some document) := by
  cases cs with
  | nil => simp [accepted, finishPhase, Except.toOption]
  | cons e rest =>
    rw [accepted_cons, feed_opened]
    by_cases hu : e = 'u'
    · subst hu
      simp [escapes]
    · rw [if_neg hu]
      cases hs : simpleEscape? e with
      | none =>
        have hno : ∀ c, (e, c) ∉ escapes := by
          intro c h
          rw [← simple_escape_iff, hs] at h
          cases h
        simp [hu, hno]
      | some c =>
        have hone : ∀ d, (e, d) ∈ escapes ↔ d = c := by
          intro d
          rw [← simple_escape_iff, hs, Option.some.injEq, eq_comm]
        simp [hu, hone]

theorem accepted_pair (high : Nat) :
    accepted (.string use read (.pairBackslash high)) context cs = some document ↔
      ∃ rest, cs = '\\' :: 'u' :: rest ∧
        accepted (.string use read (.hex (some high) 0 (some 0))) context rest =
          some document := by
  cases cs with
  | nil => simp [accepted, finishPhase, Except.toOption]
  | cons b cs =>
    rw [accepted_cons, feed_pairBackslash]
    by_cases hb : b = '\\'
    · rw [if_pos hb, follow_enter]
      cases cs with
      | nil => simp [accepted, finishPhase, Except.toOption]
      | cons u rest =>
        rw [accepted_cons, feed_pairMark]
        by_cases hu : u = 'u' <;> simp [hb, hu]
    · simp [hb]

theorem low_iff (n : Nat) : isLowSurrogate n = true ↔ Low n := by
  simp [isLowSurrogate, Low]

theorem high_iff (n : Nat) : isHighSurrogate n = true ↔ High n := by
  simp [isHighSurrogate, High]

theorem combine_eq (high low : Nat) : combineSurrogates high low =
    Char.ofNat (0x10000 + 0x400 * (high - 0xD800) + (low - 0xDC00)) := by
  have he : (high - 0xD800) * 0x400 + (low - 0xDC00) + 0x10000 =
      0x10000 + 0x400 * (high - 0xD800) + (low - 0xDC00) := by omega
  rw [combineSurrogates, he]

/-- A unit on its own is a character, unless it is a surrogate: then a low one has to follow a
high one. -/
theorem follow_unit {n : Nat} {rest : List Char}
    (h : follow (endHex use read context none n) rest = some document) :
    ¬High n ∧ ¬Low n ∧
        accepted (.string use (Char.ofNat n :: read) .none) context rest = some document ∨
      High n ∧ ∃ ls low after, rest = '\\' :: 'u' :: (ls ++ after) ∧ HexUnit ls low ∧ Low low ∧
        accepted (.string use (combineSurrogates n low :: read) .none) context after =
          some document := by
  simp only [endHex] at h
  by_cases hlow : isLowSurrogate n = true
  · rw [if_pos hlow] at h
    cases h
  rw [if_neg hlow] at h
  by_cases hhigh : isHighSurrogate n = true
  · rw [if_pos hhigh, follow_enter, accepted_pair] at h
    obtain ⟨tail, rfl, h⟩ := h
    obtain ⟨ls, low, after, rfl, hu, h⟩ := (accepted_hex _).mp h
    simp only [endHex] at h
    by_cases hl : isLowSurrogate low = true
    · rw [if_pos hl] at h
      exact Or.inr ⟨(high_iff n).mp hhigh, ls, low, after, rfl, hu, (low_iff low).mp hl, h⟩
    · rw [if_neg hl] at h
      cases h
  · rw [if_neg hhigh] at h
    exact Or.inl ⟨fun hn => hhigh ((high_iff n).mpr hn), fun hn => hlow ((low_iff n).mpr hn), h⟩

/-- Behind a backslash stands one character in one of the three forms of an escape. -/
theorem escape_sound (h : accepted (.string use read .opened) context cs = some document) :
    ∃ taken c rest, cs = taken ++ rest ∧
      (∀ body text, StringBody body text → StringBody ('\\' :: (taken ++ body)) (c :: text)) ∧
      accepted (.string use (c :: read) .none) context rest = some document := by
  obtain ⟨e, rest, rfl, ⟨rfl, h⟩ | ⟨c, he, h⟩⟩ := accepted_escape.mp h
  · obtain ⟨ds, n, rest, rfl, hu, h⟩ := (accepted_hex _).mp h
    rcases follow_unit h with ⟨hh, hl, h⟩ | ⟨hh, ls, low, after, rfl, hlu, hl, h⟩
    · exact ⟨'u' :: ds, Char.ofNat n, rest, rfl, fun _ _ hs => .unit hu hh hl hs, h⟩
    · rw [combine_eq] at h
      refine ⟨'u' :: (ds ++ '\\' :: 'u' :: ls), _, after, by simp, ?_, h⟩
      intro body text hs
      simpa using StringBody.pair hu hh hlu hl hs
  · exact ⟨[e], c, rest, rfl, fun _ _ hs => .escape he hs, h⟩

theorem string_sound (h : accepted (.string use read .none) context cs = some document) :
    ∃ body text rest, cs = body ++ '"' :: rest ∧ StringBody body text ∧
      follow (endString use (text.reverse ++ read) context) rest = some document := by
  -- An escape takes several characters at once, so the induction is on the length.
  induction hlen : cs.length using Nat.strong_induction_on generalizing cs read with
  | h len ih =>
    cases cs with
    | nil => cases h
    | cons c tail =>
      have next {c' : Char} {tail' : List Char} (hl : tail'.length < len)
          (h : accepted (.string use (c' :: read) .none) context tail' = some document) :
          ∃ body text rest, tail' = body ++ '"' :: rest ∧ StringBody body text ∧
            follow (endString use ((c' :: text).reverse ++ read) context) rest =
              some document := by
        obtain ⟨body, text, rest, he, hb, h⟩ := ih _ hl h rfl
        exact ⟨body, text, rest, he, hb, by simpa using h⟩
      subst hlen
      rw [accepted_cons, feed_plain] at h
      by_cases hq : c = '"'
      · rw [if_pos hq] at h
        exact ⟨[], [], tail, by simp [hq], .nil, h⟩
      rw [if_neg hq] at h
      by_cases hb : c = '\\'
      · rw [if_pos hb, follow_enter] at h
        obtain ⟨taken, d, rest, rfl, hform, h⟩ := escape_sound h
        have hshort : rest.length < (taken ++ rest).length + 1 := by
          rw [List.length_append]
          omega
        obtain ⟨body, text, rest, rfl, hs, h⟩ := next hshort h
        exact ⟨'\\' :: (taken ++ body), d :: text, rest, by simp [hb], hform _ _ hs, h⟩
      rw [if_neg hb] at h
      by_cases hc : c.toNat < 0x20
      · rw [if_pos hc] at h
        cases h
      · rw [if_neg hc] at h
        obtain ⟨body, text, rest, rfl, hs, h⟩ := next (by simp) h
        exact ⟨_, _, rest, rfl, .plain hq hb (Nat.le_of_not_lt hc) hs, h⟩

theorem string_complete {body text : List Char} (hs : StringBody body text) (rest : List Char)
    (h : follow (endString use (text.reverse ++ read) context) rest = some document) :
    accepted (.string use read .none) context (body ++ '"' :: rest) = some document := by
  induction hs generalizing read with
  | nil => simpa [accepted_cons, feed_plain] using h
  | plain hq hb hc _ ih =>
    rw [List.cons_append, accepted_cons, feed_plain, if_neg hq, if_neg hb,
      if_neg (Nat.not_lt_of_le hc)]
    exact ih (by simpa using h)
  | @escape e c cs text he _ ih =>
    rw [List.cons_append, accepted_cons, feed_plain, if_neg (by decide), if_pos rfl,
      follow_enter, accepted_escape]
    exact ⟨e, cs ++ '"' :: rest, rfl, Or.inr ⟨c, he, ih (by simpa using h)⟩⟩
  | @unit ds n cs text hu hh hl _ ih =>
    rw [List.cons_append, accepted_cons, feed_plain, if_neg (by decide), if_pos rfl,
      follow_enter, accepted_escape]
    refine ⟨'u', ds ++ (cs ++ '"' :: rest), by simp, Or.inl ⟨rfl, ?_⟩⟩
    refine (accepted_hex _).mpr ⟨ds, n, cs ++ '"' :: rest, rfl, hu, ?_⟩
    simp only [endHex]
    rw [if_neg fun hn => hl ((low_iff n).mp hn), if_neg fun hn => hh ((high_iff n).mp hn)]
    exact ih (by simpa using h)
  | @pair hs ls high low cs text hu hh hlu hl _ ih =>
    have hnot : ¬Low high := by
      unfold High at hh
      rw [Low]
      omega
    rw [List.cons_append, accepted_cons, feed_plain, if_neg (by decide), if_pos rfl,
      follow_enter, accepted_escape]
    refine ⟨'u', hs ++ '\\' :: 'u' :: (ls ++ (cs ++ '"' :: rest)), by simp, Or.inl ⟨rfl, ?_⟩⟩
    refine (accepted_hex _).mpr ⟨hs, high, _, rfl, hu, ?_⟩
    simp only [endHex]
    rw [if_neg fun hn => hnot ((low_iff high).mp hn), if_pos ((high_iff high).mpr hh),
      follow_enter, accepted_pair]
    refine ⟨_, rfl, (accepted_hex _).mpr ⟨ls, low, _, rfl, hlu, ?_⟩⟩
    simp only [endHex]
    rw [if_pos ((low_iff low).mpr hl), combine_eq]
    exact ih (by simpa using h)

end CaptureAudit.Json
