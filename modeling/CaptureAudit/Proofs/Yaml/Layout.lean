import CaptureAudit.Proofs.Yaml.Scalars
import CaptureAudit.Yaml.Printer
import Std.Data.String.ToNat

/-! # Trees of one shape are uniquely readable

Records and lists have no end of their own. What follows a value shows where it ends: it starts
further out, or in the same column, where the next name stands and an item would start with a
dash. Two trees printed from values of one type are therefore equal if what is printed is.
-/
namespace CaptureAudit.Yaml

open Report (Tree)
open Text (separated_unique count_chars)

/-- What may stand behind a field in `column`: a line further out, or one in the same column
that is no list item. -/
def AfterField (column : Nat) (rest : List Char) : Prop :=
  Outside column rest ∨
    ∃ c tail, isSpace c = false ∧ isBreak c = false ∧ c ≠ '-' ∧ rest = spaces column ++ c :: tail

section Columns

variable {column : Nat} {rest : List Char}

theorem Outside.no_line (h : Outside column rest) (c : Char) (x : List Char) :
    rest ≠ spaces column ++ c :: x := by
  intro hrest
  obtain rfl | ⟨n, d, tail, hn, hspace, -, rfl⟩ := h
  · simp at hrest
  · exact fewer_spaces hn hspace hrest

theorem Outside.further (h : Outside column rest) : Outside (column + 2) rest := by
  obtain rfl | ⟨n, d, tail, hn, hspace, hbreak, rfl⟩ := h
  · exact .inl rfl
  · exact .inr ⟨n, d, tail, by omega, hspace, hbreak, rfl⟩

theorem outside_line {c : Char} (hspace : isSpace c = false) (hbreak : isBreak c = false)
    (tail : List Char) : Outside (column + 2) (spaces column ++ c :: tail) :=
  .inr ⟨column, c, tail, by omega, hspace, hbreak, rfl⟩

theorem AfterField.outside (h : AfterField column rest) : Outside (column + 2) rest := by
  obtain h | ⟨c, tail, hspace, hbreak, -, rfl⟩ := h
  · exact h.further
  · exact outside_line hspace hbreak tail

theorem AfterField.no_item (h : AfterField column rest) (x : List Char) :
    rest ≠ spaces column ++ '-' :: x := by
  intro hrest
  obtain h | ⟨c, tail, -, -, hdash, rfl⟩ := h
  · exact h.no_line '-' x hrest
  · exact hdash (List.cons.inj (List.append_cancel_left hrest)).1

end Columns

def isNameChar (c : Char) : Bool := c.isLower || c = '_'

def PlainName (name : String) : Prop := name.toList ≠ [] ∧ name.toList.all isNameChar = true

instance (name : String) : Decidable (PlainName name) :=
  inferInstanceAs (Decidable (_ ∧ _))

def PlainNames (fields : List (String × Tree)) : Prop := ∀ f ∈ fields, PlainName f.1

theorem plainNames_nil : PlainNames [] := fun _ hf => nomatch hf

theorem plainNames_cons {name : String} {tree : Tree} {fields : List (String × Tree)} :
    PlainNames ((name, tree) :: fields) ↔ PlainName name ∧ PlainNames fields :=
  List.forall_mem_cons

theorem plainNames_append {fields others : List (String × Tree)} :
    PlainNames (fields ++ others) ↔ PlainNames fields ∧ PlainNames others :=
  List.forall_mem_append

/-- Trees that are printed from values of one type. Records may lack fields that others have. -/
inductive Alike : Tree → Tree → Prop where
  | flag {a b} : Alike (.flag a) (.flag b)
  | count {a b} : Alike (.count a) (.count b)
  | text {a b} : Alike (.text a) (.text b)
  | list {items others} (each : ∀ t ∈ items, ∀ u ∈ others, Alike t u) :
      Alike (.list items) (.list others)
  | record {fields others} (names : PlainNames (fields ++ others))
      (each : ∀ f ∈ fields, ∀ g ∈ others, f.1 = g.1 → Alike f.2 g.2) :
      Alike (.record fields) (.record others)

/-- Two trees are equal if the reports from them on are, be it behind a name or behind a dash. -/
structure Unique (t u : Tree) : Prop where
  field : ∀ {column : Nat} {r₁ r₂ : List Char}, AfterField column r₁ → AfterField column r₂ →
    fieldValue column t ++ r₁ = fieldValue column u ++ r₂ → t = u ∧ r₁ = r₂
  item : ∀ {column : Nat} {r₁ r₂ : List Char}, Outside column r₁ → Outside column r₂ →
    itemValue column t ++ r₁ = itemValue column u ++ r₂ → t = u ∧ r₁ = r₂

section Names

variable {name : String}

theorem ne_of_nameChar {c d : Char} (hc : isNameChar c = true) (hd : isNameChar d = false) :
    c ≠ d := by
  rintro rfl
  rw [hc] at hd
  cases hd

theorem PlainName.start (h : PlainName name) :
    ∃ c rest, name.toList = c :: rest ∧ isNameChar c = true ∧ isSpace c = false ∧
      isBreak c = false := by
  obtain ⟨hne, hchars⟩ := h
  obtain ⟨c, rest, hname⟩ := List.exists_cons_of_ne_nil hne
  have hc : isNameChar c = true := List.all_eq_true.mp hchars c (hname ▸ List.mem_cons_self)
  have hother {d : Char} (hd : isNameChar d = false) : c ≠ d := ne_of_nameChar hc hd
  refine ⟨c, rest, hname, hc, decide_eq_false (hother (by decide)), ?_⟩
  simp only [isBreak, Bool.or_eq_false_iff, decide_eq_false_iff_not]
  exact ⟨⟨⟨⟨hother (by decide), hother (by decide)⟩, hother (by decide)⟩, hother (by decide)⟩,
    hother (by decide)⟩

theorem PlainName.no_colon (h : PlainName name) : ':' ∉ name.toList := by
  intro hmem
  have hcolon : isNameChar ':' = true := List.all_eq_true.mp h.2 ':' hmem
  cases hcolon

end Names

section Items

variable {items others : List Tree} {column : Nat} {r₁ r₂ : List Char}

theorem outside_items (h : AfterField column r₁) (items : List Tree) :
    Outside (column + 2) (itemLines column items ++ r₁) := by
  cases items with
  | nil => exact h.outside
  | cons item items =>
    rw [itemLines, List.append_assoc]
    exact outside_line (by decide) (by decide) _

theorem items_unique (each : ∀ t ∈ items, ∀ u ∈ others, Unique t u)
    (h₁ : AfterField column r₁) (h₂ : AfterField column r₂)
    (h : itemLines column items ++ r₁ = itemLines column others ++ r₂) :
    items = others ∧ r₁ = r₂ := by
  -- A list ends where no dash stands in its column.
  induction items generalizing others with
  | nil =>
    cases others with
    | nil => exact ⟨rfl, h⟩
    | cons u others =>
      rw [itemLines, itemLines, List.nil_append, List.append_assoc] at h
      exact absurd h (h₁.no_item _)
  | cons t items ih =>
    cases others with
    | nil =>
      rw [itemLines, itemLines, List.nil_append, List.append_assoc] at h
      exact absurd h.symm (h₂.no_item _)
    | cons u others =>
      simp only [itemLines, List.append_assoc, List.cons_append, List.append_cancel_left_eq,
        List.cons.injEq, true_and] at h
      obtain ⟨rfl, hrest⟩ := (each t List.mem_cons_self u List.mem_cons_self).item
        (outside_items h₁ items) (outside_items h₂ others) h
      obtain ⟨rfl, hr⟩ := ih
        (fun v hv w hw => each v (List.mem_cons_of_mem _ hv) w (List.mem_cons_of_mem _ hw)) hrest
      exact ⟨rfl, hr⟩

end Items

section Fields

variable {fields others : List (String × Tree)} {column : Nat} {r₁ r₂ : List Char}

theorem fieldLines_start {f : String × Tree} (name : PlainName f.1) (fields : List (String × Tree))
    (rest : List Char) :
    ∃ c tail, isSpace c = false ∧ isBreak c = false ∧ c ≠ '-' ∧
      fieldLines column (f :: fields) ++ rest = spaces column ++ c :: tail := by
  obtain ⟨c, more, hname, hc, hspace, hbreak⟩ := name.start
  refine ⟨c, more ++ ':' :: (fieldValue column f.2 ++ fieldLines column fields ++ rest),
    hspace, hbreak, ne_of_nameChar hc (by decide), ?_⟩
  rw [fieldLines, hname]
  simp only [List.append_assoc, List.cons_append]

theorem afterField_fields (names : PlainNames fields) (h : Outside column r₁) :
    AfterField column (fieldLines column fields ++ r₁) := by
  cases fields with
  | nil => exact .inl h
  | cons f fields => exact .inr (fieldLines_start (names f List.mem_cons_self) fields r₁)

/-- A record ends where the next line starts further out. -/
theorem fields_unique (names : PlainNames fields)
    (otherNames : PlainNames others)
    (each : ∀ f ∈ fields, ∀ g ∈ others, f.1 = g.1 → Unique f.2 g.2)
    (h₁ : Outside column r₁) (h₂ : Outside column r₂)
    (h : fieldLines column fields ++ r₁ = fieldLines column others ++ r₂) :
    fields = others ∧ r₁ = r₂ := by
  induction fields generalizing others with
  | nil =>
    cases others with
    | nil => exact ⟨rfl, h⟩
    | cons g others =>
      obtain ⟨c, tail, -, -, -, hline⟩ :=
        fieldLines_start (otherNames g List.mem_cons_self) others r₂
      rw [hline] at h
      exact absurd h (h₁.no_line c tail)
  | cons f fields ih =>
    cases others with
    | nil =>
      obtain ⟨c, tail, -, -, -, hline⟩ :=
        fieldLines_start (names f List.mem_cons_self) fields r₁
      rw [hline] at h
      exact absurd h.symm (h₂.no_line c tail)
    | cons g others =>
      obtain ⟨name, value⟩ := f
      obtain ⟨otherName, otherValue⟩ := g
      obtain ⟨plain, moreNames⟩ := plainNames_cons.mp names
      obtain ⟨otherPlain, moreOthers⟩ := plainNames_cons.mp otherNames
      have moreEach : ∀ f ∈ fields, ∀ g ∈ others, f.1 = g.1 → Unique f.2 g.2 :=
        fun f hf g hg => each f (List.mem_cons_of_mem _ hf) g (List.mem_cons_of_mem _ hg)
      simp only [fieldLines, List.append_assoc, List.cons_append, List.append_cancel_left_eq] at h
      obtain ⟨hname, hvalue⟩ := separated_unique plain.no_colon otherPlain.no_colon h
      obtain rfl := String.toList_inj.mp hname
      obtain ⟨rfl, hrest⟩ := (each _ List.mem_cons_self _ List.mem_cons_self rfl).field
        (afterField_fields moreNames h₁) (afterField_fields moreOthers h₂) hvalue
      obtain ⟨rfl, hr⟩ := ih moreNames moreOthers moreEach hrest
      exact ⟨rfl, hr⟩

end Fields

section Values

variable {items others : List Tree} {fields otherFields : List (String × Tree)}

theorem flag_no_break (a : Bool) : '\n' ∉ (toString a).toList := by
  cases a <;> decide

theorem flag_text_injective {a b : Bool} (h : toString a = toString b) : a = b := by
  revert a b
  decide

/-- A scalar that is shown as it is ends with its line. -/
theorem shown_unique {a b : String} {r₁ r₂ : List Char} (ha : '\n' ∉ a.toList)
    (hb : '\n' ∉ b.toList) (h : a.toList ++ ['\n'] ++ r₁ = b.toList ++ ['\n'] ++ r₂) :
    a = b ∧ r₁ = r₂ := by
  rw [List.append_assoc, List.append_assoc] at h
  obtain ⟨hab, hr⟩ := separated_unique ha hb h
  exact ⟨String.toList_inj.mp hab, hr⟩

theorem flag_unique (a b : Bool) : Unique (.flag a) (.flag b) where
  field _ _ h := by
    rw [fieldValue, fieldValue] at h
    obtain ⟨hab, hr⟩ := shown_unique (flag_no_break a) (flag_no_break b) (List.cons.inj h).2
    exact ⟨congrArg Tree.flag (flag_text_injective hab), hr⟩
  item _ _ h := by
    rw [itemValue, itemValue] at h
    obtain ⟨hab, hr⟩ := shown_unique (flag_no_break a) (flag_no_break b) h
    exact ⟨congrArg Tree.flag (flag_text_injective hab), hr⟩

theorem count_no_break (n : Nat) : '\n' ∉ (toString n).toList := count_chars (by decide) n

theorem count_unique (m n : Nat) : Unique (.count m) (.count n) where
  field _ _ h := by
    rw [fieldValue, fieldValue] at h
    obtain ⟨hmn, hr⟩ := shown_unique (count_no_break m) (count_no_break n) (List.cons.inj h).2
    exact ⟨congrArg Tree.count (Nat.repr_inj.mp hmn), hr⟩
  item _ _ h := by
    rw [itemValue, itemValue] at h
    obtain ⟨hmn, hr⟩ := shown_unique (count_no_break m) (count_no_break n) h
    exact ⟨congrArg Tree.count (Nat.repr_inj.mp hmn), hr⟩

theorem text_unique (a b : String) : Unique (.text a) (.text b) where
  field h₁ h₂ h := by
    rw [fieldValue, fieldValue, List.cons_append, List.cons_append] at h
    obtain ⟨hab, hr⟩ := scalar_unique h₁.outside h₂.outside (List.cons.inj h).2
    exact ⟨congrArg Tree.text (String.toList_inj.mp hab), hr⟩
  item h₁ h₂ h := by
    rw [itemValue, itemValue] at h
    obtain ⟨hab, hr⟩ := scalar_unique h₁ h₂ h
    exact ⟨congrArg Tree.text (String.toList_inj.mp hab), hr⟩

theorem list_item (column : Nat) (t : Tree) (items : List Tree) :
    spaces column ++ itemValue column (.list (t :: items)) = itemLines column (t :: items) := rfl

theorem record_item (column : Nat) (f : String × Tree) (fields : List (String × Tree)) :
    spaces column ++ itemValue column (.record (f :: fields)) = fieldLines column (f :: fields) := by
  rw [itemValue, fieldLines]
  simp only [List.append_assoc]

/-- An empty record is no name. -/
theorem record_no_brace {f : String × Tree} (name : PlainName f.1) {column : Nat}
    {fields : List (String × Tree)} (rest x : List Char) :
    itemValue column (.record (f :: fields)) ++ rest ≠ '\x7b' :: x := by
  intro h
  obtain ⟨c, more, hname, hc, -, -⟩ := name.start
  rw [itemValue, hname] at h
  exact ne_of_nameChar hc (by decide) (List.cons.inj h).1

theorem list_unique (each : ∀ t ∈ items, ∀ u ∈ others, Unique t u) :
    Unique (.list items) (.list others) where
  field {column r₁ r₂} h₁ h₂ h := by
    cases items with
    | nil =>
      cases others with
      | nil => exact ⟨rfl, List.append_cancel_left h⟩
      | cons u others => cases (List.cons.inj h).1
    | cons t items =>
      cases others with
      | nil => cases (List.cons.inj h).1
      | cons u others =>
        rw [fieldValue, fieldValue] at h
        obtain ⟨hitems, hr⟩ := items_unique each h₁ h₂ (List.cons.inj h).2
        exact ⟨congrArg Tree.list hitems, hr⟩
  item {column r₁ r₂} h₁ h₂ h := by
    cases items with
    | nil =>
      cases others with
      | nil => exact ⟨rfl, List.append_cancel_left h⟩
      | cons u others => cases (List.cons.inj h).1
    | cons t items =>
      cases others with
      | nil => cases (List.cons.inj h).1
      | cons u others =>
        have hlines := congrArg (spaces column ++ ·) h
        simp only [← List.append_assoc, list_item] at hlines
        obtain ⟨hitems, hr⟩ := items_unique each (.inl h₁) (.inl h₂) hlines
        exact ⟨congrArg Tree.list hitems, hr⟩

theorem record_unique (names : PlainNames fields)
    (otherNames : PlainNames otherFields)
    (each : ∀ f ∈ fields, ∀ g ∈ otherFields, f.1 = g.1 → Unique f.2 g.2) :
    Unique (.record fields) (.record otherFields) where
  field {column r₁ r₂} h₁ h₂ h := by
    cases fields with
    | nil =>
      cases otherFields with
      | nil => exact ⟨rfl, List.append_cancel_left h⟩
      | cons g otherFields => cases (List.cons.inj h).1
    | cons f fields =>
      cases otherFields with
      | nil => cases (List.cons.inj h).1
      | cons g otherFields =>
        obtain ⟨hfields, hr⟩ :=
          fields_unique names otherNames each h₁.outside h₂.outside (List.cons.inj h).2
        exact ⟨congrArg Tree.record hfields, hr⟩
  item {column r₁ r₂} h₁ h₂ h := by
    cases fields with
    | nil =>
      cases otherFields with
      | nil => exact ⟨rfl, List.append_cancel_left h⟩
      | cons g otherFields => exact absurd h.symm (record_no_brace (otherNames g List.mem_cons_self) _ _)
    | cons f fields =>
      cases otherFields with
      | nil => exact absurd h (record_no_brace (names f List.mem_cons_self) _ _)
      | cons g otherFields =>
        have hlines := congrArg (spaces column ++ ·) h
        simp only [← List.append_assoc, record_item] at hlines
        obtain ⟨hfields, hr⟩ := fields_unique names otherNames each h₁ h₂ hlines
        exact ⟨congrArg Tree.record hfields, hr⟩

end Values

theorem alike_unique {t u : Tree} (h : Alike t u) : Unique t u := by
  induction h with
  | flag => exact flag_unique _ _
  | count => exact count_unique _ _
  | text => exact text_unique _ _
  | list _ ih => exact list_unique ih
  | record names _ ih =>
    obtain ⟨names, otherNames⟩ := plainNames_append.mp names
    exact record_unique names otherNames ih

/-- A tree is known from its report among all that are printed from the same type. -/
theorem print_unique {t u : Tree} (h : Alike t u) (hprint : print t = print u) : t = u := by
  have hlines : itemValue 0 t ++ [] = itemValue 0 u ++ [] := by
    rw [List.append_nil, List.append_nil]
    exact String.ofList_injective hprint
  exact ((alike_unique h).item (.inl rfl) (.inl rfl) hlines).1

end CaptureAudit.Yaml
