import CaptureAudit.Proofs.Yaml.Digits
import CaptureAudit.Yaml.Printer

/-! # Strings stay strings

Each text of a report is written as one scalar, in quotes unless it is unmistakable. -/
namespace CaptureAudit.Yaml

section Trees

open Report (Tree)

/-- The list or the record that a tree stands in, without the tree. -/
inductive Level where
  | item (before after : List Tree)
  | field (before : List (String × Tree)) (name : String) (after : List (String × Tree))

namespace Level

def around : Level → Tree → Tree
  | item before after, tree => .list (before ++ tree :: after)
  | field before name after, tree => .record (before ++ (name, tree) :: after)

def written : Level → Nat → Tree → List Char
  | item _ _ => itemValue
  | field _ _ _ => fieldValue

def mark : Level → List Char
  | item _ _ => ['-', ' ']
  | field _ name _ => name.toList ++ [':']

end Level

/-- The tree whose subtree at a place is given. A place lists its levels from the inside out. -/
def fill : List Level → Tree → Tree
  | [], tree => tree
  | level :: place, tree => fill place (level.around tree)

def opening : List Level → List Char
  | [] => []
  | .item _ _ :: _ => ['-', ' ']
  | .field _ name _ :: _ => name.toList ++ [':', ' ']

theorem itemLines_append (column : Nat) (items others : List Tree) :
    itemLines column (items ++ others) = itemLines column items ++ itemLines column others := by
  induction items with
  | nil => simp [itemLines]
  | cons item rest ih =>
    rw [List.cons_append, itemLines, itemLines, ih]
    simp

theorem fieldLines_append (column : Nat) (fields others : List (String × Tree)) :
    fieldLines column (fields ++ others) = fieldLines column fields ++ fieldLines column others := by
  induction fields with
  | nil => simp [fieldLines]
  | cons field rest ih =>
    rw [List.cons_append, fieldLines, fieldLines, ih]
    simp

/-- Behind a dash the first line of a list or a record is not indented, so the item or the field in
question is told apart by what precedes it. -/
theorem item_around (level : Level) (column : Nat) :
    ∃ inner front back, level.mark <:+ front ∧ ∀ tree,
      itemValue column (level.around tree) = front ++ level.written inner tree ++ back := by
  cases level with
  | item before after =>
    refine ⟨column + 2, ?_⟩
    cases before with
    | nil =>
      refine ⟨['-', ' '], itemLines column after, List.suffix_rfl, fun tree => ?_⟩
      simp [Level.around, Level.written, itemValue]
    | cons first before =>
      refine ⟨'-' :: ' ' :: (itemValue (column + 2) first ++ itemLines column before ++
        spaces column) ++ ['-', ' '], itemLines column after, List.suffix_append _ _, fun tree => ?_⟩
      simp [Level.around, Level.written, itemValue, itemLines_append, itemLines]
  | field before name after =>
    refine ⟨column, ?_⟩
    cases before with
    | nil =>
      refine ⟨name.toList ++ [':'], fieldLines column after, List.suffix_rfl, fun tree => ?_⟩
      simp [Level.around, Level.written, itemValue]
    | cons first before =>
      obtain ⟨other, value⟩ := first
      refine ⟨other.toList ++ ':' :: (fieldValue column value ++ fieldLines column before ++
        spaces column) ++ (name.toList ++ [':']), fieldLines column after, List.suffix_append _ _,
        fun tree => ?_⟩
      simp [Level.around, Level.written, itemValue, fieldLines_append, fieldLines]

theorem field_around (level : Level) (column : Nat) :
    ∃ inner front back, level.mark <:+ front ∧ ∀ tree,
      fieldValue column (level.around tree) = front ++ level.written inner tree ++ back := by
  cases level with
  | item before after =>
    refine ⟨column + 2, '\n' :: (itemLines column before ++ spaces column) ++ ['-', ' '],
      itemLines column after, List.suffix_append _ _, fun tree => ?_⟩
    have hvalue (items : List Tree) (hne : items ≠ []) :
        fieldValue column (.list items) = '\n' :: itemLines column items := by
      obtain ⟨first, rest, rfl⟩ := List.exists_cons_of_ne_nil hne
      rw [fieldValue]
    rw [Level.around, hvalue _ (by simp), itemLines_append, itemLines]
    simp [Level.written]
  | field before name after =>
    refine ⟨column + 2, '\n' :: (fieldLines (column + 2) before ++ spaces (column + 2)) ++
      (name.toList ++ [':']), fieldLines (column + 2) after, List.suffix_append _ _, fun tree => ?_⟩
    have hvalue (fields : List (String × Tree)) (hne : fields ≠ []) :
        fieldValue column (.record fields) = '\n' :: fieldLines (column + 2) fields := by
      obtain ⟨first, rest, rfl⟩ := List.exists_cons_of_ne_nil hne
      rw [fieldValue]
    rw [Level.around, hvalue _ (by simp), fieldLines_append, fieldLines]
    simp [Level.written]

/-- What is written around a place does not depend on what stands at it. -/
theorem fill_written (level : Level) (place : List Level) :
    ∃ column front back, level.mark <:+ front ∧ ∀ tree,
      itemValue 0 (fill (level :: place) tree) = front ++ level.written column tree ++ back := by
  induction place generalizing level with
  | nil => exact item_around level 0
  | cons outer place ih =>
    obtain ⟨column, front, back, -, hplace⟩ := ih outer
    have hlevel : ∃ inner front back, level.mark <:+ front ∧ ∀ tree,
        outer.written column (level.around tree) = front ++ level.written inner tree ++ back := by
      cases outer with
      | item before after => exact item_around level column
      | field before name after => exact field_around level column
    obtain ⟨inner, front', back', hmark, hinner⟩ := hlevel
    refine ⟨inner, front ++ front', back' ++ back, hmark.trans (List.suffix_append _ _), ?_⟩
    intro tree
    rw [fill, hplace, hinner]
    simp

/-- Whatever text stands at a place, its scalar follows the dash or the name there. -/
theorem text_written (place : List Level) :
    ∃ indent front back, opening place <:+ front ∧ ∀ value,
      itemValue 0 (fill place (.text value)) =
        front ++ scalarLine indent value.toList ++ back := by
  cases place with
  | nil => exact ⟨0, [], [], List.suffix_rfl, fun value => by simp [fill, itemValue]⟩
  | cons level place =>
    obtain ⟨column, front, back, hmark, hwritten⟩ := fill_written level place
    cases level with
    | item before after =>
      refine ⟨column, front, back, hmark, fun value => ?_⟩
      rw [hwritten, Level.written, itemValue]
    | field before name after =>
      refine ⟨column + 2, front ++ [' '], back, ?_, fun value => ?_⟩
      · obtain ⟨lines, rfl⟩ := hmark
        exact ⟨lines, by simp [opening, Level.mark]⟩
      · rw [hwritten, Level.written, fieldValue]
        simp

/-- A text of a tree is written as one scalar, which follows the name of its field or the dash of
its list item, whatever the text. The scalar is the bare text exactly if the text is unmistakable,
and no group index is that which rounds to a double. -/
theorem strings_stay_strings (tree : Tree) :
    (∀ place text, fill place (.text text) = tree →
      ∃ indent front back, opening place <:+ front ∧
        (print tree).toList = front ++ scalarLine indent text.toList ++ back ∧
        ∀ other, (print (fill place (.text other))).toList =
          front ++ scalarLine indent other.toList ++ back) ∧
    (∀ indent text, scalarLine indent text = text ++ ['\n'] ↔ Unmistakable text) ∧
    2 ^ 128 - 1 < doubleOverflow ∧
    ∀ indent (key : NumericKey),
      scalarLine indent key.text.toList = '\'' :: (key.text.toList ++ ['\'', '\n']) ↔
        key.normalized ≠ key.text ∨ key.value < doubleOverflow := by
  refine ⟨?_, ?_, by decide +kernel, ?_⟩
  · rintro place text rfl
    obtain ⟨indent, front, back, hopening, hwritten⟩ := text_written place
    have hprint (other : String) : (print (fill place (.text other))).toList =
        front ++ scalarLine indent other.toList ++ back := by
      rw [print, String.toList_ofList, hwritten]
    exact ⟨indent, front, back, hopening, hprint text, hprint⟩
  · intro indent text
    exact bare_iff
  · intro indent key
    exact key_quoted_iff key

def sevenSummary : Summary :=
  let seven : NumericKey := ⟨"7", by decide⟩
  Summary.empty.record "a.json" ⟨1, {seven}, ∅, [], none⟩

def sevenPlace : List Level :=
  let first := [("grammar_dir", .text "grammars"), ("passed", .flag true)]
  let fields := Tree.summaryFields sevenSummary
  [ .item [] [],
    .field (first ++ Tree.rangeFields sevenSummary ++ fields.take 3) "numeric_keys"
      (fields.drop 4) ]

theorem sevenPlace_filled :
    fill sevenPlace (.text "7") = .ofSummary "grammars" sevenSummary := by
  have hfields : Tree.summaryFields sevenSummary =
      (Tree.summaryFields sevenSummary).take 3 ++ ("numeric_keys", .list [.text "7"]) ::
        (Tree.summaryFields sevenSummary).drop 4 := by
    rfl
  exact congrArg Tree.record
    ((List.append_assoc _ _ _).trans (congrArg (_ ++ Tree.rangeFields _ ++ ·) hfields.symm))

/-- The directory is no value of another type and stands unquoted, but the index is a number. -/
theorem index_stays_string :
    let report := print (.ofSummary "grammars" sevenSummary)
    (∃ front back, report.toList = front ++ "grammar_dir: grammars\n".toList ++ back) ∧
      ∃ front back, report.toList = front ++ "- '7'\n".toList ++ back := by
  intro report
  obtain ⟨hwritten, hbare, hbound, hkeys⟩ :=
    strings_stay_strings (.ofSummary "grammars" sevenSummary)
  constructor
  · obtain ⟨indent, front, back, ⟨lines, rfl⟩, hreport, -⟩ :=
      hwritten [.field [] "grammar_dir" _] "grammars" rfl
    have hplain : Unmistakable "grammars".toList := plainAllowed_iff.mp (by decide)
    rw [(hbare _ _).mpr hplain] at hreport
    exact ⟨lines, back, by simp [report, hreport, opening]⟩
  · obtain ⟨indent, front, back, ⟨lines, rfl⟩, hreport, -⟩ :=
      hwritten sevenPlace "7" sevenPlace_filled
    have hquoted := (hkeys indent ⟨"7", by decide⟩).mpr (.inr (lt_trans (by decide) hbound))
    rw [hquoted] at hreport
    exact ⟨lines, back, by simp [report, hreport, opening, sevenPlace]⟩

end Trees

end CaptureAudit.Yaml
