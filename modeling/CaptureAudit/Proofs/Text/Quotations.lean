import CaptureAudit.Proofs.Text.Codes
import CaptureAudit.Text.Quoted

/-! # Quotations are uniquely readable

In a quoted text each character is itself or an escape. The character behind the backslash shows
which escape it is, and a number ends at its brace, so a quotation can be read back whatever
follows it. Nothing in it is a break or any other character that cannot be seen. -/
namespace CaptureAudit.Text

section Digits

variable {c : Char} {m n : Nat}

theorem mem_hexadecimal (h : c ∈ Nat.toDigits 16 n) : ∃ d < 16, c = Nat.digitChar d := by
  induction n using Nat.strongRecOn with
  | ind n ih =>
    rw [Nat.toDigits_eq_if (by decide)] at h
    by_cases hn : n < 16
    · rw [if_pos hn] at h
      exact ⟨n, hn, List.mem_singleton.mp h⟩
    · rw [if_neg hn] at h
      rcases List.mem_append.mp h with hmem | hmem
      · exact ih (n / 16) (by omega) hmem
      · exact ⟨n % 16, Nat.mod_lt n (by decide), List.mem_singleton.mp hmem⟩

theorem digitChar_unique : ∀ a < 16, ∀ b < 16, Nat.digitChar a = Nat.digitChar b → a = b := by
  decide

theorem hexadecimal_injective (h : Nat.toDigits 16 m = Nat.toDigits 16 n) : m = n := by
  have hmore (k : Nat) : Nat.toDigits 16 (k / 16) ≠ [] := Nat.toDigits_ne_nil
  -- The last digits are equal, and so are the digits before them.
  induction m using Nat.strongRecOn generalizing n with
  | ind m ih =>
    rw [Nat.toDigits_eq_if (by decide), @Nat.toDigits_eq_if 16 n (by decide)] at h
    by_cases hm : m < 16
    · rw [if_pos hm] at h
      by_cases hn : n < 16
      · rw [if_pos hn] at h
        exact digitChar_unique m hm n hn (List.cons.inj h).1
      · rw [if_neg hn, ← List.nil_append [Nat.digitChar m]] at h
        exact absurd (List.append_inj' h rfl).1.symm (hmore n)
    · rw [if_neg hm] at h
      by_cases hn : n < 16
      · rw [if_pos hn, ← List.nil_append [Nat.digitChar n]] at h
        exact absurd (List.append_inj' h rfl).1 (hmore m)
      · rw [if_neg hn] at h
        obtain ⟨hhigh, hlow⟩ := List.append_inj' h rfl
        have hhigh : m / 16 = n / 16 := ih (m / 16) (by omega) hhigh
        have hlow : m % 16 = n % 16 :=
          digitChar_unique _ (Nat.mod_lt m (by decide)) _ (Nat.mod_lt n (by decide))
            (List.cons.inj hlow).1
        omega

end Digits

section Characters

variable {c d : Char} {x y : List Char}

def shortQuoted : Char → Char
  | '0' => '\x00'
  | 't' => '\t'
  | 'r' => '\r'
  | 'n' => '\n'
  | mark => mark

/-- A character is escaped by one other, or by its number, or stands for itself. -/
theorem quoteChar_cases (c : Char) :
    (∃ mark, quoteChar c = ['\\', mark] ∧ mark ≠ 'u' ∧ isUnprintable mark = false ∧
      shortQuoted mark = c) ∨
    quoteChar c = '\\' :: 'u' :: '\x7b' :: (Nat.toDigits 16 c.toNat ++ ['\x7d']) ∨
    quoteChar c = [c] ∧ isUnprintable c = false ∧ c ≠ '"' ∧ c ≠ '\\' := by
  unfold quoteChar
  split
  · exact .inl ⟨'0', rfl, by decide, by decide, rfl⟩
  · exact .inl ⟨'t', rfl, by decide, by decide, rfl⟩
  · exact .inl ⟨'r', rfl, by decide, by decide, rfl⟩
  · exact .inl ⟨'n', rfl, by decide, by decide, rfl⟩
  · exact .inl ⟨'"', rfl, by decide, by decide, rfl⟩
  · exact .inl ⟨'\\', rfl, by decide, by decide, rfl⟩
  · rename_i hquote hslash
    split
    · exact .inr (.inl rfl)
    · rename_i hseen
      exact .inr (.inr ⟨rfl, by simpa using hseen, hquote, hslash⟩)

theorem no_brace_in_digits (n : Nat) : '\x7d' ∉ Nat.toDigits 16 n := by
  intro hmem
  obtain ⟨d, hd, hbrace⟩ := mem_hexadecimal hmem
  have hdigits : ∀ d < 16, '\x7d' ≠ Nat.digitChar d := by decide
  exact hdigits d hd hbrace

theorem quoteChar_unique (h : quoteChar c ++ x = quoteChar d ++ y) : c = d ∧ x = y := by
  rcases quoteChar_cases c with ⟨mark, hc, hmark, -, hshort⟩ | hc | ⟨hc, -, -, hslash⟩ <;>
    rcases quoteChar_cases d with ⟨mark', hd, hmark', -, hshort'⟩ | hd | ⟨hd, -, -, hslash'⟩ <;>
    rw [hc, hd] at h <;>
    simp only [List.cons_append, List.nil_append, List.append_assoc, List.cons.injEq, true_and] at h
  · obtain ⟨rfl, hrest⟩ := h
    exact ⟨hshort.symm.trans hshort', hrest⟩
  · exact absurd h.1 hmark
  · exact absurd h.1.symm hslash'
  · exact absurd h.1.symm hmark'
  · obtain ⟨hdigits, hrest⟩ :=
      separated_unique (no_brace_in_digits c.toNat) (no_brace_in_digits d.toNat) h
    exact ⟨Char.toNat_inj.mp (hexadecimal_injective hdigits), hrest⟩
  · exact absurd h.1.symm hslash'
  · exact absurd h.1 hslash
  · exact absurd h.1 hslash
  · exact h

theorem quoted_legible : Legible quoteChar (fun _ => True) fun _ => True where
  read _ _ _ _ := quoteChar_unique
  next _ _ := trivial

/-- A quotation mark in a text is escaped, so a bare one ends the text. -/
theorem quotation_closed (rest : List Char) : Closes quoteChar (fun _ => True) ('"' :: rest) where
  may_follow := trivial
  no_entry c x h := by
    rcases quoteChar_cases c with ⟨mark, hc, -⟩ | hc | ⟨hc, -, hquote, -⟩ <;> rw [hc] at h
    · cases h
    · cases h
    · exact hquote (List.cons.inj h).1.symm

theorem quoteChar_visible : ∀ d ∈ quoteChar c, isUnprintable d = false := by
  intro d hd
  rcases quoteChar_cases c with ⟨mark, hc, -, hmark, -⟩ | hc | ⟨hc, hvisible, -⟩ <;>
    rw [hc] at hd
  · simp only [List.mem_cons, List.not_mem_nil, or_false] at hd
    rcases hd with rfl | rfl
    · decide
    · exact hmark
  · have hdigits : ∀ n < 16, isUnprintable (Nat.digitChar n) = false := by decide
    simp only [List.mem_cons, List.mem_append, List.not_mem_nil, or_false] at hd
    rcases hd with rfl | rfl | rfl | hmem | rfl
    · decide
    · decide
    · decide
    · obtain ⟨n, hn, rfl⟩ := mem_hexadecimal hmem
      exact hdigits n hn
    · decide
  · obtain rfl := List.mem_singleton.mp hd
    exact hvisible

end Characters

section Lists

variable {s t r₁ r₂ : List Char} {texts others : List String}

theorem quoteChars_unique (h : quoteChars s ++ r₁ = quoteChars t ++ r₂) : s = t ∧ r₁ = r₂ := by
  simp only [quoteChars, List.cons_append, List.append_assoc, List.cons.injEq, true_and,
    List.nil_append] at h
  obtain ⟨hst, hrest⟩ := quoted_legible.unique (fun _ _ => trivial) (fun _ _ => trivial)
    (quotation_closed r₁) (quotation_closed r₂) h
  exact ⟨hst, (List.cons.inj hrest).2⟩

def nextQuoted (text : String) : List Char := ',' :: ' ' :: quoteChars text.toList

theorem intercalated (first : List Char) (rest : List String) :
    List.intercalate [',', ' '] (first :: rest.map fun text => quoteChars text.toList) =
      first ++ rest.flatMap nextQuoted := by
  induction rest generalizing first with
  | nil => simp
  | cons text rest ih =>
    rw [List.map_cons, List.intercalate_cons_cons, ih, List.flatMap_cons, nextQuoted]
    simp

theorem quotedList_nil : (quotedList []).toList = ['[', ']'] := rfl

theorem quotedList_cons (first : String) (rest : List String) :
    (quotedList (first :: rest)).toList =
      '[' :: (quoteChars first.toList ++ (rest.flatMap nextQuoted ++ [']'])) := by
  have hquoted : ((first :: rest).map quoted).map String.toList =
      quoteChars first.toList :: rest.map fun text => quoteChars text.toList := by
    simp [quoted]
  simp only [quotedList, String.toList_append, String.toList_intercalate, hquoted]
  change ['['] ++ List.intercalate [',', ' '] _ ++ [']'] = _
  rw [intercalated]
  simp

theorem nextQuoted_legible : Legible nextQuoted (fun _ => True) fun _ => True where
  read _ _ _ _ h := by
    simp only [nextQuoted, List.cons_append, List.cons.injEq, true_and] at h
    obtain ⟨htext, hrest⟩ := quoteChars_unique h
    exact ⟨String.toList_inj.mp htext, hrest⟩
  next _ _ := trivial

theorem nextQuoted_closed (rest : List Char) : Closes nextQuoted (fun _ => True) (']' :: rest) where
  may_follow := trivial
  no_entry text x h := by cases (List.cons.inj h).1

/-- A list is known from what is printed for it, whatever is printed after it. -/
theorem quotedList_unique
    (h : (quotedList texts).toList ++ r₁ = (quotedList others).toList ++ r₂) :
    texts = others ∧ r₁ = r₂ := by
  cases texts with
  | nil =>
    rw [quotedList_nil] at h
    cases others with
    | nil =>
      rw [quotedList_nil] at h
      exact ⟨rfl, List.append_cancel_left h⟩
    | cons other others =>
      rw [quotedList_cons] at h
      cases (List.cons.inj (List.cons.inj h).2).1
  | cons text texts =>
    rw [quotedList_cons] at h
    cases others with
    | nil =>
      rw [quotedList_nil] at h
      cases (List.cons.inj (List.cons.inj h).2).1
    | cons other others =>
      simp only [quotedList_cons, List.cons_append, List.append_assoc, List.cons.injEq,
        true_and, List.nil_append] at h
      obtain ⟨hfirst, hmore⟩ := quoteChars_unique h
      obtain ⟨rfl, hrest⟩ := nextQuoted_legible.unique (fun _ _ => trivial) (fun _ _ => trivial)
        (nextQuoted_closed r₁) (nextQuoted_closed r₂) hmore
      rw [String.toList_inj.mp hfirst]
      exact ⟨rfl, (List.cons.inj hrest).2⟩

theorem quoteChars_visible : ∀ c ∈ quoteChars s, isUnprintable c = false := by
  intro c hc
  simp only [quoteChars, List.mem_append, List.mem_cons, List.not_mem_nil, or_false,
    List.mem_flatMap] at hc
  rcases hc with (rfl | ⟨d, -, hmem⟩) | rfl
  · decide
  · exact quoteChar_visible c hmem
  · decide

theorem quotedList_visible (texts : List String) :
    ∀ c ∈ (quotedList texts).toList, isUnprintable c = false := by
  intro c hc
  cases texts with
  | nil =>
    simp only [quotedList_nil, List.mem_cons, List.not_mem_nil, or_false] at hc
    rcases hc with rfl | rfl
    · decide
    · decide
  | cons first rest =>
    simp only [quotedList_cons, List.mem_cons, List.mem_append, List.mem_flatMap, nextQuoted,
      List.not_mem_nil, or_false] at hc
    rcases hc with rfl | hfirst | ⟨text, -, rfl | rfl | htext⟩ | rfl
    · decide
    · exact quoteChars_visible c hfirst
    · decide
    · decide
    · exact quoteChars_visible c htext
    · decide

theorem quotedList_one_line (texts : List String) : '\n' ∉ (quotedList texts).toList := by
  intro hmem
  have hbreak : isUnprintable '\n' = false := quotedList_visible texts '\n' hmem
  cases hbreak

end Lists

end CaptureAudit.Text
