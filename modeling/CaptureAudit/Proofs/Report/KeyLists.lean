import CaptureAudit.Proofs.Report.Details

/-! # Lists of keys are unambiguous

A report lists keys beside each violation and in its inventories. Keys are free text, but in a list
they are quoted: whatever they hold, a list stays on its line, shows no control character, and is
read back from the report whatever is printed on later lines. -/
namespace CaptureAudit

namespace Text

/-- The control characters of Unicode, a line feed among them. -/
def ControlCode (c : Char) : Prop := c.toNat < 0x20 ∨ 0x7F ≤ c.toNat ∧ c.toNat ≤ 0x9F

theorem visible_no_control {c : Char} (h : isUnprintable c = false) : ¬ControlCode c := by
  simp only [isUnprintable, Bool.or_eq_false_iff, Bool.and_eq_false_iff, decide_eq_false_iff_not,
    List.any_eq_false] at h
  obtain ⟨hlow, hranges⟩ := h
  rintro (hc | ⟨hfirst, hlast⟩)
  · exact hlow hc
  · rcases hranges with hc | hranges
    · exact hc hfirst
    · have hrange : (0x7F, 0xA0) ∈ unprintableRanges := List.mem_cons_self
      have hc := hranges _ hrange
      simp only [Bool.and_eq_true, decide_eq_true_eq, not_and] at hc
      exact hc hfirst (Nat.le_succ_of_le hlast)

end Text

open Text (quotedList quotedList_unique quotedList_visible ControlCode visible_no_control)

namespace Report

variable {mark later after : String} {keys others : List String} {summary other : Summary}

theorem printed_list_iff :
    quotedList keys ++ later = quotedList others ++ after ↔ keys = others ∧ later = after := by
  constructor
  · intro h
    have hchars := congrArg String.toList h
    rw [String.toList_append, String.toList_append] at hchars
    obtain ⟨hkeys, hrest⟩ := quotedList_unique hchars
    exact ⟨hkeys, String.toList_inj.mp hrest⟩
  · rintro ⟨rfl, rfl⟩
    rfl

theorem lines_singleton (line : String) : lines [line] = line ++ "\n" := by
  simp [lines]

theorem marked_list_iff : lines [mark ++ quotedList keys] ++ later =
    lines [mark ++ quotedList others] ++ after ↔ keys = others ∧ later = after := by
  rw [lines_singleton, lines_singleton]
  simp only [String.append_assoc, String.append_right_inj, printed_list_iff]

theorem violation_list_iff (location key : String) : violation ⟨location, key, keys⟩ ++ later =
    violation ⟨location, key, others⟩ ++ after ↔ keys = others ∧ later = after := by
  have hlines (all : List String) : violation ⟨location, key, all⟩ =
      lines ["  Location: " ++ location, "  Invalid key: '" ++ key ++ "'"] ++
        lines ["  All keys in object: " ++ quotedList all] := by
    rw [← lines_append]
    rfl
  rw [hlines, hlines]
  simp only [String.append_assoc, String.append_right_inj]
  exact marked_list_iff

theorem inventory_list_iff (hshown : keys.isEmpty = others.isEmpty) :
    lines (inventoryLine? mark keys).toList ++ later =
      lines (inventoryLine? mark others).toList ++ after ↔ keys = others ∧ later = after := by
  rw [inventoryLine?, inventoryLine?, hshown]
  cases hempty : others.isEmpty with
  | true =>
    obtain rfl := List.isEmpty_iff.mp hempty
    obtain rfl := List.isEmpty_iff.mp (hshown.trans hempty)
    simp
  | false => exact marked_list_iff

theorem inventories_iff (hnumeric : summary.numericKeys.isEmpty = other.numericKeys.isEmpty)
    (hspecial : summary.specialKeys.isEmpty = other.specialKeys.isEmpty) :
    keyInventories summary ++ later = keyInventories other ++ after ↔
      summary.numericKeys = other.numericKeys ∧ summary.specialKeys = other.specialKeys ∧
        later = after := by
  have htexts : summary.numericKeys.toList.map NumericKey.text =
      other.numericKeys.toList.map NumericKey.text ↔ summary.numericKeys = other.numericKeys := by
    rw [(List.map_injective_iff.mpr fun _ _ => NumericKey.text_injective).eq_iff]
    exact Std.ExtTreeSet.toList_inj
  rw [keyInventories_lines, keyInventories_lines, lines_append, lines_append, String.append_assoc,
    String.append_assoc, numericLine?, numericLine?, specialLine?, specialLine?,
    inventory_list_iff, inventory_list_iff, htexts, Std.ExtTreeSet.toList_inj]
  · rw [Std.ExtTreeSet.isEmpty_toList, Std.ExtTreeSet.isEmpty_toList, hspecial]
  · rw [List.isEmpty_map, List.isEmpty_map, Std.ExtTreeSet.isEmpty_toList,
      Std.ExtTreeSet.isEmpty_toList, hnumeric]

/-- A printed list has no control character in it and is known from its text, whatever follows: on
its own, beside a violation, and in the inventories, as far as these are shown. -/
theorem key_lists_unambiguous (keys others : List String) (later after : String) :
    (∀ c ∈ (quotedList keys).toList, c ≠ '\n' ∧ ¬ControlCode c) ∧
    (quotedList keys ++ later = quotedList others ++ after ↔ keys = others ∧ later = after) ∧
    (∀ location key : String, violation ⟨location, key, keys⟩ ++ later =
      violation ⟨location, key, others⟩ ++ after ↔ keys = others ∧ later = after) ∧
    ∀ summary other : Summary,
      summary.numericKeys.isEmpty = other.numericKeys.isEmpty →
      summary.specialKeys.isEmpty = other.specialKeys.isEmpty →
      (keyInventories summary ++ later = keyInventories other ++ after ↔
        summary.numericKeys = other.numericKeys ∧ summary.specialKeys = other.specialKeys ∧
          later = after) := by
  refine ⟨?_, printed_list_iff, violation_list_iff, ?_⟩
  · intro c hc
    have hcontrol := visible_no_control (quotedList_visible keys c hc)
    refine ⟨?_, hcontrol⟩
    rintro rfl
    exact hcontrol (.inl (by decide))
  · intro summary other hnumeric hspecial
    exact inventories_iff hnumeric hspecial

/-- A key that holds what is printed between two keys, and two keys that look like it. -/
theorem lookalike_lists_told_apart :
    ('\\' ∈ (quotedList ["a\", \"b"]).toList ∧ ¬ControlCode '\\') ∧
      quotedList ["a\", \"b"] ++ "\nc" ≠ quotedList ["a", "b"] ++ "\n" := by
  obtain ⟨hseen, hunique, -⟩ := key_lists_unambiguous ["a\", \"b"] ["a", "b"] "\nc" "\n"
  have hslash : '\\' ∈ (quotedList ["a\", \"b"]).toList := by decide
  refine ⟨⟨hslash, (hseen _ hslash).2⟩, ?_⟩
  intro h
  have hkeys : ["a\", \"b"] = ["a", "b"] := (hunique.mp h).1
  exact absurd hkeys (by decide)

end Report

end CaptureAudit
