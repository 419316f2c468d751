import CaptureAudit.Json.Fault
import CaptureAudit.Proofs.Text.SharedBytes
import Mathlib.Data.List.DropRight

/-! # Positions and bytes

Line and column are found character by character, though an offset may lie inside a character.
Byte by byte they are the same, and depend on the bytes before the offset alone. -/
namespace CaptureAudit.Json

/-- Where a text stands after some of its bytes: lines end with a line feed, and a column counts
the bytes after the last one. -/
def positionAfter (bytes : List UInt8) : Position :=
  ⟨1 + bytes.count 10, (bytes.rtakeWhile (· ≠ 10)).length⟩

def Position.push (p : Position) (byte : UInt8) : Position :=
  if byte = 10 then ⟨p.line + 1, 0⟩ else ⟨p.line, p.column + 1⟩

theorem positionAfter_push (bytes : List UInt8) (byte : UInt8) :
    positionAfter (bytes ++ [byte]) = (positionAfter bytes).push byte := by
  by_cases h : byte = 10
  · simp [positionAfter, Position.push, h, Nat.add_assoc]
  · simp [positionAfter, Position.push, h]

theorem foldl_push (bytes : List UInt8) :
    bytes.foldl Position.push ⟨1, 0⟩ = positionAfter bytes := by
  induction bytes using List.reverseRecOn with
  | nil => rfl
  | append_singleton bytes byte ih =>
    rw [List.foldl_append, ih, positionAfter_push]
    rfl

theorem foldl_push_same_line {bytes : List UInt8} (h : 10 ∉ bytes) (p : Position) :
    bytes.foldl Position.push p = { p with column := p.column + bytes.length } := by
  induction bytes generalizing p with
  | nil => rfl
  | cons byte bytes ih =>
    obtain ⟨hbyte, hrest⟩ := not_or.mp (List.mem_cons.not.mp h)
    rw [List.foldl_cons, ih hrest, Position.push, if_neg (Ne.symm hbyte), List.length_cons,
      Nat.add_right_comm]
    rfl

/-- No longer encoding has a byte of ASCII in it. -/
theorem line_feed_of_byte {c : Char} (h : 10 ∈ String.utf8EncodeChar c) : c = '\n' := by
  have hc := code_lt c
  rw [← Char.toNat_inj, ← Char.toNat_val]
  unfold String.utf8EncodeChar at h
  generalize c.val.toNat = m at *
  have hsame {a : Nat} (ha : a < 256) : 10 = UInt8.ofNat a ↔ 10 = a := by
    simp [← UInt8.toNat_inj, Nat.mod_eq_of_lt ha]
  dsimp only at h
  change m = 10
  split_ifs at h <;>
    simp (disch := omega) only [List.mem_cons, List.not_mem_nil, or_false, hsame] at h <;>
    omega

/-- Stopping inside a character counts the bytes of it that lie before the offset. -/
theorem positionFrom_eq {offset start : Nat} (p : Position) {cs : List Char}
    (h : offset ≤ start + (encoded cs).length) :
    positionFrom offset start p cs = ((encoded cs).take (offset - start)).foldl Position.push p := by
  induction cs generalizing start p with
  | nil =>
    have hzero : offset - start = 0 := Nat.sub_eq_zero_of_le h
    simp [positionFrom, hzero]
  | cons c cs ih =>
    rw [encoded_cons, List.length_append, String.length_utf8EncodeChar] at h
    rw [positionFrom, encoded_cons]
    by_cases hle : offset ≤ start
    · rw [if_pos hle, Nat.sub_eq_zero_of_le hle]
      rfl
    rw [if_neg hle, List.take_append, List.foldl_append, String.length_utf8EncodeChar, Nat.sub_sub]
    by_cases hc : c = '\n'
    · subst hc
      have hsize : ('\n' : Char).utf8Size = 1 := rfl
      have hbytes : (String.utf8EncodeChar '\n').take (offset - start) = [10] := by
        rw [List.take_of_length_le]
        · rfl
        · rw [String.length_utf8EncodeChar]
          omega
      rw [if_pos rfl, hbytes, ih _ (by omega), hsize]
      rfl
    · have hplain : 10 ∉ (String.utf8EncodeChar c).take (offset - start) := fun hmem =>
        hc (line_feed_of_byte (List.mem_of_mem_take hmem))
      rw [if_neg hc, ih _ (by omega), foldl_push_same_line hplain, List.length_take,
        String.length_utf8EncodeChar, Nat.min_comm]

theorem position_eq {fault : Fault} {text : String}
    (h : fault.offset ≤ (textBytes text).length) :
    fault.position text = positionAfter ((textBytes text).take fault.offset) := by
  rw [textBytes_encoded] at h ⊢
  rw [Fault.position, positionFrom_eq _ (by omega), Nat.sub_zero, foldl_push]

end CaptureAudit.Json
