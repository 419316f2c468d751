import Mathlib.Data.List.Basic

/-! # Reading back what was written

A text says more than its characters if it can be cut in one way only. A word ends where no
character of its kind follows, and a list of entries ends where no entry begins; then what is
written determines the word or the entries, and what follows them. -/
namespace CaptureAudit.Text

section Words

variable {p : Char → Bool} {x y r₁ r₂ : List Char}

def WordEnds (p : Char → Bool) (rest : List Char) : Prop := ∀ c ∈ rest.head?, p c = false

theorem wordEnds_nil (p : Char → Bool) : WordEnds p [] := fun _ h => nomatch h

theorem wordEnds_cons {c : Char} {rest : List Char} (h : p c = false) : WordEnds p (c :: rest) := by
  intro d hd
  obtain rfl : c = d := by simpa using hd
  exact h

theorem word_taken (hx : ∀ c ∈ x, p c = true) (h : WordEnds p r₁) : (x ++ r₁).takeWhile p = x := by
  rw [List.takeWhile_append_of_pos hx]
  cases r₁ with
  | nil => exact List.append_nil x
  | cons c rest =>
    have hc : p c = false := h c rfl
    rw [List.takeWhile_cons, hc]
    exact List.append_nil x

theorem word_unique (hx : ∀ c ∈ x, p c = true) (hy : ∀ c ∈ y, p c = true) (h₁ : WordEnds p r₁)
    (h₂ : WordEnds p r₂) (h : x ++ r₁ = y ++ r₂) : x = y ∧ r₁ = r₂ := by
  obtain rfl : x = y := by rw [← word_taken hx h₁, h, word_taken hy h₂]
  exact ⟨rfl, List.append_cancel_left h⟩

/-- Texts without a separator are told apart by the first one, whatever follows it. -/
theorem separated_unique {mark : Char} (hx : mark ∉ x) (hy : mark ∉ y)
    (h : x ++ mark :: r₁ = y ++ mark :: r₂) : x = y ∧ r₁ = r₂ := by
  have hother {z : List Char} (hz : mark ∉ z) : ∀ c ∈ z, decide (c ≠ mark) = true := by
    intro c hc
    simpa using ne_of_mem_of_not_mem hc hz
  have hends (rest : List Char) : WordEnds (fun c => decide (c ≠ mark)) (mark :: rest) :=
    wordEnds_cons (by simp)
  obtain ⟨hxy, hrest⟩ := word_unique (hother hx) (hother hy) (hends r₁) (hends r₂) h
  exact ⟨hxy, (List.cons.inj hrest).2⟩

/-- A count is written in digits alone. -/
theorem count_chars {c : Char} (hc : c.isDigit = false) (n : Nat) : c ∉ (toString n).toList := by
  rw [Nat.toString_eq_ofList_toDigits, String.toList_ofList]
  intro hmem
  rw [Nat.isDigit_of_mem_toDigits (by decide) (by decide) hmem] at hc
  cases hc

end Words

section Entries

variable {α β : Type} {write : α → List β} {valid : α → Prop} {follows : List β → Prop}
  {entries others : List α} {r₁ r₂ : List β}

/-- Entries are told apart by what is written for them, as long as what stands behind it may follow
an entry. Another entry may always follow. -/
structure Legible (write : α → List β) (valid : α → Prop) (follows : List β → Prop) : Prop where
  read : ∀ {a b : α} {x y : List β}, valid a → valid b → follows x → follows y →
    write a ++ x = write b ++ y → a = b ∧ x = y
  next : ∀ a x, follows (write a ++ x)

/-- What may follow the last entry: something that no entry begins with. -/
structure Closes (write : α → List β) (follows : List β → Prop) (rest : List β) : Prop where
  may_follow : follows rest
  no_entry : ∀ a x, rest ≠ write a ++ x

theorem Legible.entries_follow (hw : Legible write valid follows) (h : Closes write follows r₁)
    (entries : List α) : follows (entries.flatMap write ++ r₁) := by
  cases entries with
  | nil => exact h.may_follow
  | cons a entries =>
    rw [List.flatMap_cons, List.append_assoc]
    exact hw.next a _

theorem Legible.unique (hw : Legible write valid follows) (he : ∀ a ∈ entries, valid a)
    (ho : ∀ b ∈ others, valid b) (h₁ : Closes write follows r₁) (h₂ : Closes write follows r₂)
    (h : entries.flatMap write ++ r₁ = others.flatMap write ++ r₂) :
    entries = others ∧ r₁ = r₂ := by
  -- As long as both lists go on, what is written tells the entries apart, and where one list ends
  -- no entry begins in the other.
  induction entries generalizing others with
  | nil =>
    cases others with
    | nil => exact ⟨rfl, h⟩
    | cons b others =>
      rw [List.flatMap_nil, List.nil_append, List.flatMap_cons, List.append_assoc] at h
      exact absurd h (h₁.no_entry b _)
  | cons a entries ih =>
    cases others with
    | nil =>
      rw [List.flatMap_nil, List.nil_append, List.flatMap_cons, List.append_assoc] at h
      exact absurd h.symm (h₂.no_entry a _)
    | cons b others =>
      obtain ⟨ha, hmore⟩ := List.forall_mem_cons.mp he
      obtain ⟨hb, hothers⟩ := List.forall_mem_cons.mp ho
      rw [List.flatMap_cons, List.flatMap_cons, List.append_assoc, List.append_assoc] at h
      obtain ⟨hab, hrest⟩ :=
        hw.read ha hb (hw.entries_follow h₁ entries) (hw.entries_follow h₂ others) h
      obtain ⟨hsame, hr⟩ := ih hmore hothers hrest
      rw [hab, hsame]
      exact ⟨rfl, hr⟩

end Entries

end CaptureAudit.Text
