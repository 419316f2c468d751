import CaptureAudit.Proofs.Text.ByteOrder

/-! # Texts that share their first bytes

UTF-8 is a prefix code: where two texts share the bytes of some characters they share the
characters. A single byte says less, but it tells an ASCII character from all others, and the
length of any other. -/
namespace CaptureAudit

def encoded (cs : List Char) : List UInt8 := cs.flatMap String.utf8EncodeChar

@[simp] theorem encoded_nil : encoded [] = [] := rfl

@[simp] theorem encoded_cons (c : Char) (cs : List Char) :
    encoded (c :: cs) = String.utf8EncodeChar c ++ encoded cs := List.flatMap_cons

@[simp] theorem encoded_append (cs ds : List Char) :
    encoded (cs ++ ds) = encoded cs ++ encoded ds := List.flatMap_append

theorem textBytes_encoded (text : String) : textBytes text = encoded text.toList :=
  textBytes_eq text

variable {c d : Char} {cs ds : List Char}

theorem encoded_char_inj {first second : List UInt8}
    (h : String.utf8EncodeChar c ++ first = String.utf8EncodeChar d ++ second) : c = d := by
  rcases lt_trichotomy c d with hlt | heq | hgt
  · have hless := encoded_lt hlt first second
    rw [h] at hless
    exact absurd hless (List.lt_irrefl _)
  · exact heq
  · have hless := encoded_lt hgt second first
    rw [h] at hless
    exact absurd hless (List.lt_irrefl _)

theorem prefix_of_encoded_prefix (h : encoded cs <+: encoded ds) : cs <+: ds := by
  induction cs generalizing ds with
  | nil => exact List.nil_prefix
  | cons c cs ih =>
    obtain ⟨rest, hrest⟩ := h
    cases ds with
    | nil => simp [String.utf8EncodeChar_ne_nil] at hrest
    | cons d ds =>
      rw [encoded_cons, encoded_cons, List.append_assoc] at hrest
      obtain rfl := encoded_char_inj hrest
      obtain ⟨more, rfl⟩ := ih ⟨rest, List.append_cancel_left hrest⟩
      exact ⟨more, rfl⟩

/-- Characters that a reader cannot tell apart by their first byte. -/
def SameStart (c d : Char) : Prop :=
  c = d ∨ (1 < c.utf8Size ∧ c.utf8Size = d.utf8Size)

theorem sameStart_of_first_byte {first second : List UInt8}
    (h : (String.utf8EncodeChar c ++ first).head? = (String.utf8EncodeChar d ++ second).head?) :
    SameStart c d := by
  rw [SameStart, ← Char.toNat_inj, ← String.length_utf8EncodeChar, ← String.length_utf8EncodeChar]
  simp only [← Char.toNat_val]
  have hc := code_lt c
  have hd := code_lt d
  unfold String.utf8EncodeChar at h ⊢
  generalize c.val.toNat = m at *
  generalize d.val.toNat = n at *
  have hsame {a b : Nat} (ha : a < 256) (hb : b < 256) :
      UInt8.ofNat a = UInt8.ofNat b ↔ a = b := by
    simp [← UInt8.toNat_inj, Nat.mod_eq_of_lt ha, Nat.mod_eq_of_lt hb]
  -- The first bytes of encodings of different lengths lie in different ranges.
  dsimp only at h ⊢
  split_ifs at h ⊢ <;>
    simp (disch := omega) only [List.cons_append, List.head?_cons, Option.some.injEq, hsame,
      List.length_cons, List.length_nil, and_true] at h ⊢ <;>
    omega

inductive SameNext : List Char → List Char → Prop
  | ended : SameNext [] []
  | char {c d : Char} {cs ds : List Char} : SameStart c d → SameNext (c :: cs) (d :: ds)

theorem sameNext_of_first_byte (h : (encoded cs).head? = (encoded ds).head?) : SameNext cs ds := by
  cases cs with
  | nil =>
    cases ds with
    | nil => exact .ended
    | cons d ds =>
      have hempty := List.head?_eq_none_iff.mp h.symm
      simp [String.utf8EncodeChar_ne_nil] at hempty
  | cons c cs =>
    cases ds with
    | nil =>
      have hempty := List.head?_eq_none_iff.mp h
      simp [String.utf8EncodeChar_ne_nil] at hempty
    | cons d ds =>
      rw [encoded_cons, encoded_cons] at h
      exact .char (sameStart_of_first_byte h)

/-- Texts that share the bytes of some characters share these characters, and the byte after them
tells how both go on. -/
theorem shared_bytes {read rest others : List Char} {n : Nat} (hn : n = (encoded read).length)
    (hread : (encoded others).take n = encoded read)
    (hnext : (encoded others)[n]? = (encoded (read ++ rest))[n]?) :
    ∃ more, others = read ++ more ∧ SameNext rest more := by
  have hprefix : encoded read <+: encoded others := by
    rw [← hread]
    exact List.take_prefix n _
  obtain ⟨more, rfl⟩ := prefix_of_encoded_prefix hprefix
  refine ⟨more, rfl, sameNext_of_first_byte ?_⟩
  rw [hn, encoded_append, encoded_append, List.getElem?_append_right (le_refl _),
    List.getElem?_append_right (le_refl _), Nat.sub_self] at hnext
  simpa only [List.head?_eq_getElem?] using hnext.symm

end CaptureAudit
