import Mathlib.Data.Char
import Mathlib.Data.List.Basic
import Mathlib.Data.String.Basic
import Mathlib.Order.Basic

/-! # Texts and the order of their bytes

Texts are compared by their characters. UTF-8 keeps that order, so it is the order of the bytes. -/
namespace CaptureAudit

theorem compare_le_iff (a b : String) : (compare a b).isLE = true ↔ a ≤ b :=
  isLE_compareOfLessAndEq (fun h h' => String.le_antisymm h h') String.not_le String.le_total

theorem fromUTF8_toUTF8 (text : String) : String.fromUTF8? text.toUTF8 = some text := by
  simp only [String.fromUTF8?, Option.dite_none_right_eq_some]
  exact ⟨text.isValidUTF8, rfl⟩

def textBytes (text : String) : List UInt8 := text.toUTF8.data.toList

theorem textBytes_eq (text : String) :
    textBytes text = text.toList.flatMap String.utf8EncodeChar := by
  conv => lhs; rw [← String.ofList_toList (s := text)]
  exact List.toList_data_toByteArray

theorem code_lt (c : Char) : c.val.toNat < 0x110000 := by
  have hvalid := c.valid
  simp only [UInt32.isValidChar, Nat.isValidChar] at hvalid
  omega

/-- The first byte in which two characters differ orders them, whatever follows. -/
theorem encoded_lt {c d : Char} (h : c < d) (first second : List UInt8) :
    String.utf8EncodeChar c ++ first < String.utf8EncodeChar d ++ second := by
  have hval : c.val.toNat < d.val.toNat := h
  have hmax := code_lt d
  unfold String.utf8EncodeChar
  generalize c.val.toNat = m at *
  generalize d.val.toNat = n at *
  have hbyte {a b : Nat} (ha : a < 256) (hb : b < 256) :
      UInt8.ofNat a < UInt8.ofNat b ↔ a < b := by
    simp [UInt8.lt_iff_toNat_lt, Nat.mod_eq_of_lt ha, Nat.mod_eq_of_lt hb]
  have hsame {a b : Nat} (ha : a < 256) (hb : b < 256) :
      UInt8.ofNat a = UInt8.ofNat b ↔ a = b := by
    simp [← UInt8.toNat_inj, Nat.mod_eq_of_lt ha, Nat.mod_eq_of_lt hb]
  -- Each byte but the first holds six bits, so the bytes are digits in base 64.
  have hdigits {v : Nat} (hv : v < 0x110000) : v / 262144 % 8 = v / 262144 ∧
      v / 4096 / 64 = v / 262144 ∧ v / 64 / 64 = v / 4096 := by
    omega
  have hm := hdigits (Nat.lt_trans hval hmax)
  have hn := hdigits hmax
  dsimp only
  split_ifs <;>
    simp (disch := omega) only [List.cons_append, List.nil_append, List.cons_lt_cons_iff, hbyte,
      hsame] <;>
    omega

theorem encoded_all_lt {first second : List Char} (h : first < second) :
    first.flatMap String.utf8EncodeChar < second.flatMap String.utf8EncodeChar := by
  induction h with
  | nil =>
    rename_i c rest
    rw [List.flatMap_cons]
    have hne : String.utf8EncodeChar c ++ rest.flatMap String.utf8EncodeChar ≠ [] :=
      List.append_ne_nil_of_left_ne_nil String.utf8EncodeChar_ne_nil _
    obtain ⟨byte, bytes, hbytes⟩ := List.exists_cons_of_ne_nil hne
    rw [hbytes]
    exact List.nil_lt_cons byte bytes
  | cons _ ih => exact List.append_left_lt ih
  | rel hlt =>
    rw [List.flatMap_cons, List.flatMap_cons]
    exact encoded_lt hlt _ _

theorem bytes_lt {first second : String} (h : first < second) :
    textBytes first < textBytes second := by
  rw [textBytes_eq, textBytes_eq]
  exact encoded_all_lt (String.lt_iff.mp h)

end CaptureAudit
