import CaptureAudit.Json.Printer
import CaptureAudit.Proofs.Json.Exactness

/-! # Printed trees are read back

A printed tree is a text of the grammar that denotes the tree, at any indentation, so reading
gives the tree back. Only counts beyond 64 bits and records with a repeated name are lost. -/
namespace CaptureAudit.Report.Tree

mutual

def document : Tree → Document
  | flag value => .bool value
  | count value => .integer value
  | text value => .string value
  | list items => .array (documents items)
  | record fields => .object (members fields)

def documents : List Tree → List Document
  | [] => []
  | item :: rest => item.document :: documents rest

def members : List (String × Tree) → Members
  | [] => []
  | (name, value) :: rest => (name, value.document) :: members rest

end

theorem documents_eq_map (items : List Tree) : documents items = items.map document := by
  induction items with
  | nil => rfl
  | cons item rest ih => rw [documents, ih, List.map_cons]

theorem members_eq_map (fields : List (String × Tree)) :
    members fields = fields.map fun field => (field.1, field.2.document) := by
  induction fields with
  | nil => rfl
  | cons field rest ih => rw [members, ih, List.map_cons]

theorem names_members (fields : List (String × Tree)) :
    (members fields).map Prod.fst = fields.map Prod.fst := by
  rw [members_eq_map, List.map_map]
  rfl

/-- Counts fit 64 bits, and the fields of each record have different names. -/
inductive Printable : Tree → Prop
  | flag {value : Bool} : Printable (flag value)
  | count {value : Nat} : value < 2 ^ 64 → Printable (count value)
  | text {value : String} : Printable (text value)
  | list {items : List Tree} : (∀ item ∈ items, Printable item) → Printable (list items)
  | record {fields : List (String × Tree)} : (fields.map Prod.fst).Nodup →
      (∀ field ∈ fields, Printable field.2) → Printable (record fields)

end CaptureAudit.Report.Tree

namespace CaptureAudit.Json

open Grammar Report

theorem hex_digitChar {n : Nat} (h : n < 16) : HexDigit (Nat.digitChar n) n := by
  interval_cases n
  all_goals exact (hex_digit_iff _ _).mp rfl

theorem body_escapeChar (c : Char) {cs text : List Char} (h : StringBody cs text) :
    StringBody (escapeChar c ++ cs) (c :: text) := by
  unfold escapeChar
  split
  on_goal 8 =>
    rename_i hquote hbackslash _ _ _ _ _
    split
    -- A control without a short escape is spelled as a unit, and no control is a surrogate.
    · rename_i hc
      have hhigh : HexDigit (Nat.digitChar (c.toNat / 16)) (c.toNat / 16) :=
        hex_digitChar (by omega)
      have hlow : HexDigit (Nat.digitChar (c.toNat % 16)) (c.toNat % 16) :=
        hex_digitChar (Nat.mod_lt _ (by decide))
      have hzero : HexDigit '0' 0 := (hex_digit_iff _ _).mp rfl
      have hunit := HexUnit.digits hzero hzero hhigh hlow
      have hvalue : 16 * (16 * (16 * 0 + 0) + c.toNat / 16) + c.toNat % 16 = c.toNat := by omega
      rw [hvalue] at hunit
      have hbody := StringBody.unit hunit (by unfold High; omega) (by unfold Low; omega) h
      rwa [Char.ofNat_toNat] at hbody
    · rename_i hc
      exact .plain hquote hbackslash (Nat.le_of_not_lt hc) h
  all_goals exact .escape (by simp [escapes]) h

theorem body_escaped (text : List Char) : StringBody (text.flatMap escapeChar) text := by
  induction text with
  | nil => exact .nil
  | cons c text ih => exact body_escapeChar c ih

theorem string_derived (allowed : Literal → Prop) (text : String) :
    Value allowed (stringChars text) (.string text) := by
  have h := @Value.string allowed _ _ (body_escaped text.toList)
  rwa [String.ofList_toList] at h

theorem digits_no_leading_zero (n : Nat) (h : (Nat.toDigits 10 n).head? = some '0') :
    Nat.toDigits 10 n = ['0'] := by
  induction n using Nat.strong_induction_on with
  | h n ih =>
    rw [Nat.toDigits_eq_if (by decide)] at h ⊢
    split at h
    · rename_i hn
      rw [List.head?_cons] at h
      rw [if_pos hn, Option.some.inj h]
    · have hne : Nat.toDigits 10 (n / 10) ≠ [] := Nat.toDigits_ne_nil
      rw [List.head?_append_of_ne_nil _ hne] at h
      have hzero := ih (n / 10) (by omega) h
      have hvalue := @Nat.ofDigitChars_ten_toDigits (n / 10)
      rw [hzero] at hvalue
      have : n / 10 = 0 := hvalue.symm
      omega

def countLiteral (n : Nat) : Literal where
  negative := false
  whole := Nat.toDigits 10 n
  fraction := []
  exponent := []
  whole_ne := Nat.toDigits_ne_nil
  whole_digits := fun _ => Nat.isDigit_of_mem_toDigits (by decide) (by decide)
  no_leading_zero := digits_no_leading_zero n
  fraction_form := .absent
  exponent_form := .absent

theorem count_short {n : Nat} (h : n < 2 ^ 64) : (countLiteral n).Short := by
  have hlen : (Nat.toDigits 10 n).length ≤ 20 :=
    (Nat.length_toDigits_le_iff (by decide) (by decide)).mpr (h.trans (by decide))
  refine ⟨rfl, List.countP_le_length.trans ?_⟩
  simp only [Literal.chars, Literal.sign, countLiteral, List.append_nil]
  exact hlen.trans (by decide)

theorem count_denoted {n : Nat} (h : n < 2 ^ 64) : (countLiteral n).denoted = .integer n := by
  rw [denoted_eq]
  have hfit : n ≤ Decimal.maxSignificand := Nat.le_pred_of_lt h
  simp [countLiteral, numberDocument, wholeDocument, Nat.ofDigitChars_ten_toDigits, hfit,
    Number.integerDocument]

theorem count_derived {n : Nat} (h : n < 2 ^ 64) :
    Value Literal.Short (toString n).toList (.integer n) := by
  have hv := @Value.number Literal.Short _ (count_short h)
  rw [count_denoted h] at hv
  rw [Nat.toString_eq_ofList_toDigits, String.toList_ofList]
  simpa [Literal.chars, Literal.sign, countLiteral] using hv

theorem newLine_blanks (depth : Nat) : Blanks (newLine depth) := by
  intro c hc
  rcases List.mem_cons.mp hc with rfl | hc
  · simp
  · exact Or.inl (List.eq_of_mem_replicate hc)

theorem items_derived {depth : Nat} {first : Tree} {rest : List Tree} {closing : List Char}
    (hc : Blanks closing)
    (h : ∀ item ∈ first :: rest, Value Literal.Short (treeChars depth item) item.document) :
    Elements Literal.Short
      (newLine depth ++ treeChars depth first ++ itemChars depth rest ++ closing)
      (Tree.documents (first :: rest)) := by
  have hb := newLine_blanks depth
  induction rest generalizing first with
  | nil =>
    rw [itemChars, List.append_nil]
    exact .last (.surrounded hb (h first List.mem_cons_self) hc)
  | cons second rest ih =>
    have hfirst := Element.surrounded hb (h first List.mem_cons_self) blanks_nil
    have hrest := ih fun item hi => h item (List.mem_cons_of_mem _ hi)
    have hall := Elements.more hfirst hrest
    rw [List.append_nil] at hall
    rw [itemChars, List.append_assoc _ (_ :: _), List.cons_append]
    exact hall

theorem field_derived {depth : Nat} {name : String} {value : Tree} {closing : List Char}
    (hc : Blanks closing)
    (hv : Value Literal.Short (treeChars depth value) value.document) :
    Pair Literal.Short
      (newLine depth ++ stringChars name ++ [':', ' '] ++ treeChars depth value ++ closing)
      (name, value.document) := by
  have hspace : Blanks [' '] := by simp [Blanks]
  have hpair := Pair.named (newLine_blanks depth) (body_escaped name.toList) blanks_nil
    (.surrounded hspace hv hc)
  rw [String.ofList_toList] at hpair
  have hshape : newLine depth ++ stringChars name ++ [':', ' '] ++ treeChars depth value ++
      closing = newLine depth ++ '"' :: (name.toList.flatMap escapeChar ++ '"' :: ([] ++ ':' ::
        ([' '] ++ treeChars depth value ++ closing))) := by
    simp [stringChars]
  rw [hshape]
  exact hpair

theorem fields_derived {depth : Nat} {name : String} {value : Tree} {rest : List (String × Tree)}
    {closing : List Char} (hc : Blanks closing)
    (h : ∀ field ∈ (name, value) :: rest,
      Value Literal.Short (treeChars depth field.2) field.2.document) :
    Pairs Literal.Short
      (newLine depth ++ stringChars name ++ [':', ' '] ++ treeChars depth value ++
        memberChars depth rest ++ closing)
      (Tree.members ((name, value) :: rest)) := by
  induction rest generalizing name value with
  | nil =>
    rw [memberChars, List.append_nil]
    exact .last (field_derived hc (h _ List.mem_cons_self))
  | cons second rest ih =>
    have hfirst := @field_derived depth name value [] blanks_nil (h _ List.mem_cons_self)
    have hrest := ih fun field hf => h field (List.mem_cons_of_mem _ hf)
    have hall := Pairs.more hfirst hrest
    rw [List.append_nil] at hall
    rw [memberChars, List.append_assoc _ (_ :: _), List.cons_append]
    exact hall

theorem tree_derived {tree : Tree} (h : tree.Printable) (depth : Nat) :
    Value Literal.Short (treeChars depth tree) tree.document := by
  induction h generalizing depth with
  | @flag value =>
    cases value
    · exact .no
    · exact .yes
  | count hn => exact count_derived hn
  | text => exact string_derived Literal.Short _
  | @list items _ ih =>
    cases items with
    | nil => exact .emptyArray blanks_nil
    | cons first rest =>
      have hi := items_derived (newLine_blanks depth) fun item hi => ih item hi (depth + 1)
      rw [treeChars]
      exact .array hi
  | @record fields hn _ ih =>
    cases fields with
    | nil => exact .emptyObject blanks_nil
    | cons field rest =>
      have hp := fields_derived (newLine_blanks depth) fun field hf => ih field hf (depth + 1)
      have hkept : collapsed (Tree.members (field :: rest)) = Tree.members (field :: rest) := by
        apply collapsed_eq_self
        rwa [Tree.names_members]
      have hv := Value.object hp
      rw [hkept] at hv
      rw [treeChars]
      exact hv

theorem read_print {tree : Tree} (h : tree.Printable) : read (print tree) = .ok tree.document := by
  apply read_complete
  have hv := element_of_value (tree_derived h 0) blanks_nil
  rw [print, String.toList_ofList]
  rwa [List.append_nil] at hv

end CaptureAudit.Json
