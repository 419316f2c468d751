import CaptureAudit.Proofs.Json.Steps
import CaptureAudit.Proofs.Json.Strings

/-! # Where a text stands

Quotes, backslashes and digits tell for every point of a text whether it lies inside a string
literal, and how many digits of an integer part have been read. No value is needed for that, so
it can be said both of a derivation and of a reader. -/
namespace CaptureAudit.Json

open Grammar

inductive Place where
  /-- Between two literals, or inside a literal name or behind the sign of a number. -/
  | outside
  /-- Inside an integer part, after so many digits of it. -/
  | whole (digits : Nat)
  /-- Behind the integer part of a number. -/
  | part
  | quoted
  | escaped
  deriving DecidableEq, Repr

namespace Place

def next (place : Place) (c : Char) : Place :=
  match place with
  | outside => if c = '"' then quoted else if c.isDigit then whole 1 else outside
  | whole digits =>
    if c.isDigit then whole (digits + 1)
    else if c = '.' ∨ c = 'e' ∨ c = 'E' then part else outside
  | part => if c.isDigit ∨ c = 'e' ∨ c = 'E' ∨ c = '+' ∨ c = '-' then part else outside
  | quoted => if c = '"' then outside else if c = '\\' then escaped else quoted
  | escaped => quoted

def after (place : Place) (cs : List Char) : Place := cs.foldl next place

def Within (limit : Nat) : Place → Prop
  | whole digits => digits ≤ limit
  | _ => True

def Unquoted : Place → Prop
  | quoted | escaped => False
  | _ => True

theorem after_append (place : Place) (cs ds : List Char) :
    place.after (cs ++ ds) = (place.after cs).after ds := List.foldl_append

end Place

def Narrow (limit : Nat) (l : Literal) : Prop := l.whole.length ≤ limit

/-- No integer part has more digits than the limit, wherever the text is cut. -/
def Limited (limit : Nat) (place : Place) (cs : List Char) : Prop :=
  ∀ cut, cut <+: cs → (place.after cut).Within limit

/-- Reading leads from one place to another, past no integer part over the limit. -/
structure Passes (limit : Nat) (start : Place) (cs : List Char) (stop : Place) : Prop where
  limited : Limited limit start cs
  reaches : start.after cs = stop

/-- Reading from outside leads to a place where a literal may end. -/
def Closed (limit : Nat) (cs : List Char) : Prop :=
  ∃ stop, Passes limit .outside cs stop ∧ stop.Unquoted

variable {limit : Nat} {start middle stop : Place} {c : Char} {cs ds : List Char}

theorem Passes.nil (h : start.Within limit) : Passes limit start [] start := by
  refine ⟨?_, rfl⟩
  intro cut hcut
  rw [List.prefix_nil.mp hcut]
  exact h

theorem Passes.cons (hstart : start.Within limit) (h : Passes limit (start.next c) cs stop) :
    Passes limit start (c :: cs) stop := by
  refine ⟨?_, h.reaches⟩
  intro cut hcut
  rcases List.prefix_cons_iff.mp hcut with rfl | ⟨more, rfl, hmore⟩
  · exact hstart
  · exact h.limited more hmore

theorem Passes.append (h : Passes limit start cs middle) (hrest : Passes limit middle ds stop) :
    Passes limit start (cs ++ ds) stop := by
  obtain ⟨hlimited, rfl⟩ := h
  refine ⟨?_, by rw [Place.after_append, hrest.reaches]⟩
  intro cut hcut
  rcases List.prefix_or_prefix_of_prefix hcut (List.prefix_append cs ds) with hshort | ⟨more, rfl⟩
  · exact hlimited cut hshort
  · rw [Place.after_append]
    exact hrest.limited more ((List.prefix_append_right_inj cs).mp hcut)

theorem ends_value_next (hplace : start.Unquoted) (hc : EndsValue c) :
    start.next c = .outside := by
  rcases hc with hblank | rfl | rfl | rfl
  · rcases (isBlank_iff c).mp hblank with rfl | rfl | rfl | rfl
    all_goals cases start <;> first | rfl | cases hplace
  all_goals cases start <;> first | rfl | cases hplace

theorem stay_pass (hstart : start.Within limit) (h : ∀ c ∈ cs, start.next c = start) :
    Passes limit start cs start := by
  induction cs with
  | nil => exact .nil hstart
  | cons c cs ih =>
    obtain ⟨hc, hrest⟩ := List.forall_mem_cons.mp h
    refine .cons hstart ?_
    rw [hc]
    exact ih hrest

theorem blank_next (h : c = ' ' ∨ c = '\t' ∨ c = '\n' ∨ c = '\r') :
    Place.outside.next c = .outside := by
  have houtside : Place.outside.Unquoted := trivial
  exact ends_value_next houtside (Or.inl ((isBlank_iff c).mpr h))

theorem blanks_pass {blanks : List Char} (h : Blanks blanks) :
    Passes limit .outside blanks .outside :=
  stay_pass trivial fun c hc => blank_next (h c hc)

theorem letter_next {word : List Char} (hword : word ∈ words) (hc : c ∈ word) :
    Place.outside.next c = .outside := by
  have hall : (words.all fun word => word.all fun letter =>
      Place.outside.next letter == .outside) = true := rfl
  exact beq_iff_eq.mp (letter_of_word hall hword hc)

theorem plain_next (hquote : c ≠ '"') (hback : c ≠ '\\') : Place.quoted.next c = .quoted := by
  simp [Place.next, hquote, hback]

theorem hex_digit_next {n : Nat} (h : hexValue? c = some n) : Place.quoted.next c = .quoted := by
  refine plain_next ?_ ?_
  · rintro rfl
    cases h
  · rintro rfl
    cases h

theorem escape_passes (h : Passes limit .quoted cs .quoted) (c : Char) :
    Passes limit .quoted ('\\' :: c :: cs) .quoted :=
  .cons trivial (.cons trivial h)

theorem unit_passes {n : Nat} (h : HexUnit ds n) (hrest : Passes limit .quoted cs .quoted) :
    Passes limit .quoted ('\\' :: 'u' :: (ds ++ cs)) .quoted := by
  refine escape_passes (.append (stay_pass trivial ?_) hrest) 'u'
  obtain ⟨ha, hb, hc, hd⟩ := h
  have hnext {c : Char} {n : Nat} (h : HexDigit c n) : Place.quoted.next c = .quoted :=
    hex_digit_next ((hex_digit_iff c n).mpr h)
  simp only [List.mem_cons, List.not_mem_nil, or_false, forall_eq_or_imp, forall_eq]
  exact ⟨hnext ha, hnext hb, hnext hc, hnext hd⟩

theorem body_passes {text : List Char} (h : StringBody cs text) :
    Passes limit .quoted cs .quoted := by
  induction h with
  | nil => exact .nil trivial
  | plain hquote hback _ _ ih =>
    refine .cons trivial ?_
    rw [plain_next hquote hback]
    exact ih
  | escape _ _ ih => exact escape_passes ih _
  | unit hunit _ _ _ ih => exact unit_passes hunit ih
  | pair hhigh _ hlow _ _ ih => exact unit_passes hhigh (unit_passes hlow ih)

theorem string_passes {text : List Char} (h : StringBody cs text) :
    Passes limit .outside ('"' :: (cs ++ ['"'])) .outside :=
  .cons trivial ((body_passes h).append (.cons trivial (.nil trivial)))

theorem whole_digits_pass {n : Nat} (hds : Digits ds) (hlimit : n + ds.length ≤ limit) :
    Passes limit (.whole n) ds (.whole (n + ds.length)) := by
  induction ds generalizing n with
  | nil => exact .nil hlimit
  | cons c ds ih =>
    obtain ⟨hc, hrest⟩ := List.forall_mem_cons.mp hds
    rw [List.length_cons, Nat.add_comm ds.length, ← Nat.add_assoc] at hlimit ⊢
    refine .cons (Nat.le_trans (by omega) hlimit) ?_
    simpa [Place.next, hc] using ih hrest hlimit

theorem part_digits_pass (hds : Digits ds) : Passes limit .part ds .part := by
  refine stay_pass trivial ?_
  intro c hc
  simp [Place.next, hds c hc]

/-- A literal may end behind its integer part, or behind a part after it. -/
def Place.BehindWhole (n : Nat) (place : Place) : Prop := place = .whole n ∨ place = .part

theorem behind_whole_within {n : Nat} (hn : n ≤ limit) (h : start.BehindWhole n) :
    start.Within limit := by
  rcases h with rfl | rfl
  · exact hn
  · trivial

theorem fraction_passes {n : Nat} {fraction : List Char} (hn : n ≤ limit)
    (h : Fraction fraction) :
    ∃ stop, Passes limit (.whole n) fraction stop ∧ stop.BehindWhole n := by
  cases h with
  | absent => exact ⟨_, .nil hn, Or.inl rfl⟩
  | digits _ hds => exact ⟨_, .cons hn (part_digits_pass hds), Or.inr rfl⟩

theorem exponent_passes {n : Nat} {exponent : List Char} (hn : n ≤ limit)
    (hstart : start.BehindWhole n) (h : Exponent exponent) :
    ∃ stop, Passes limit start exponent stop ∧ stop.BehindWhole n := by
  have hwithin := behind_whole_within hn hstart
  cases h with
  | absent => exact ⟨_, .nil hwithin, hstart⟩
  | @digits mark sign ds hmark hsign _ hds =>
    have hpart : start.next mark = .part := by
      rcases hstart with rfl | rfl <;> rcases hmark with rfl | rfl <;> rfl
    have hrest : Passes limit .part (sign ++ ds) .part := by
      rcases hsign with rfl | rfl | rfl
      · exact part_digits_pass hds
      · exact .cons trivial (part_digits_pass hds)
      · exact .cons trivial (part_digits_pass hds)
    refine ⟨_, .cons hwithin ?_, Or.inr rfl⟩
    rw [hpart]
    exact hrest

theorem sign_passes (l : Literal) : Passes limit .outside l.sign .outside := by
  rw [Literal.sign]
  cases l.negative with
  | true => exact .cons trivial (.nil trivial)
  | false => exact .nil trivial

theorem whole_passes {l : Literal} (hlimit : l.whole.length ≤ limit) :
    Passes limit .outside l.whole (.whole l.whole.length) := by
  have hdigits := l.whole_digits
  cases hwhole : l.whole with
  | nil => exact absurd hwhole l.whole_ne
  | cons c ds =>
    rw [hwhole] at hdigits hlimit
    rw [List.length_cons, Nat.add_comm] at hlimit ⊢
    obtain ⟨hc, hrest⟩ := List.forall_mem_cons.mp hdigits
    have hquote : c ≠ '"' := by
      rintro rfl
      cases hc
    refine .cons trivial ?_
    simpa [Place.next, hc, hquote] using whole_digits_pass hrest hlimit

theorem literal_closed {l : Literal} (hlimit : l.whole.length ≤ limit) :
    Closed limit l.chars := by
  obtain ⟨middle, hfraction, hmiddle⟩ := fraction_passes hlimit l.fraction_form
  obtain ⟨stop, hexponent, hstop⟩ := exponent_passes hlimit hmiddle l.exponent_form
  refine ⟨stop, (((sign_passes l).append (whole_passes hlimit)).append hfraction).append hexponent,
    ?_⟩
  rcases hstop with rfl | rfl <;> trivial

theorem closed_of_outside (h : Passes limit .outside cs .outside) : Closed limit cs :=
  ⟨.outside, h, trivial⟩

theorem word_closed (h : cs ∈ words) : Closed limit cs :=
  closed_of_outside (stay_pass trivial fun _ hc => letter_next h hc)

/-- What follows a value leads back outside. -/
theorem Closed.followed (h : Closed limit cs) (hc : EndsValue c)
    (hrest : Passes limit .outside ds stop) : Passes limit .outside (cs ++ c :: ds) stop := by
  obtain ⟨place, hpasses, hplace⟩ := h
  have hwithin := hpasses.limited cs (List.prefix_refl cs)
  rw [hpasses.reaches] at hwithin
  refine hpasses.append (.cons hwithin ?_)
  rw [ends_value_next hplace hc]
  exact hrest

theorem Closed.before (hbefore : Passes limit .outside ds .outside) (h : Closed limit cs) :
    Closed limit (ds ++ cs) := by
  obtain ⟨place, hpasses, hplace⟩ := h
  exact ⟨place, hbefore.append hpasses, hplace⟩

theorem Closed.blanks {after : List Char} (h : Closed limit cs) (hafter : Blanks after) :
    Closed limit (cs ++ after) := by
  cases after with
  | nil =>
    rw [List.append_nil]
    exact h
  | cons c after =>
    obtain ⟨hc, hrest⟩ := List.forall_mem_cons.mp hafter
    have hends : EndsValue c := Or.inl ((isBlank_iff c).mpr hc)
    exact closed_of_outside (h.followed hends (blanks_pass hrest))

/-- A value in brackets, from the place in which the opening one leaves the text. -/
theorem bracketed_closed {opening closing : Char} (hopening : Place.outside.next opening = .outside)
    (hclosing : EndsValue closing) (h : Closed limit cs) :
    Closed limit (opening :: (cs ++ [closing])) := by
  refine closed_of_outside (.cons trivial ?_)
  rw [hopening]
  exact h.followed hclosing (.nil trivial)

theorem array_closed (h : Closed limit cs) : Closed limit ('[' :: (cs ++ [']'])) :=
  bracketed_closed rfl (by simp [EndsValue]) h

theorem object_closed (h : Closed limit cs) : Closed limit ('\x7b' :: (cs ++ ['\x7d'])) :=
  bracketed_closed rfl (by simp [EndsValue]) h

theorem list_closed (h : Closed limit cs) (hrest : Closed limit ds) :
    Closed limit (cs ++ ',' :: ds) := by
  obtain ⟨place, hpasses, hplace⟩ := hrest
  have hends : EndsValue ',' := by simp [EndsValue]
  exact ⟨place, h.followed hends hpasses, hplace⟩

theorem named_closed {before ns name after : List Char} (hbefore : Blanks before)
    (hn : StringBody ns name) (hafter : Blanks after) (h : Closed limit cs) :
    Closed limit (before ++ '"' :: (ns ++ '"' :: (after ++ ':' :: cs))) := by
  have hname : Passes limit .outside (before ++ '"' :: (ns ++ ['"'])) .outside :=
    (blanks_pass hbefore).append (string_passes hn)
  have hcolon : Passes limit .outside (after ++ [':']) .outside :=
    (blanks_pass hafter).append (.cons trivial (.nil trivial))
  have hall := Closed.before (hname.append hcolon) h
  simpa using hall

mutual

theorem value_closed {cs : List Char} {v : Document} : Value (Narrow limit) cs v → Closed limit cs
  | .null => word_closed (by simp [words])
  | .yes => word_closed (by simp [words])
  | .no => word_closed (by simp [words])
  | .number hl => literal_closed hl
  | .string hs => closed_of_outside (string_passes hs)
  | .emptyArray hb => array_closed (closed_of_outside (blanks_pass hb))
  | .array hi => array_closed (elements_closed hi)
  | .emptyObject hb => object_closed (closed_of_outside (blanks_pass hb))
  | .object hp => object_closed (pairs_closed hp)

theorem element_closed {cs : List Char} {v : Document} :
    Element (Narrow limit) cs v → Closed limit cs
  | .surrounded hbefore hv hafter =>
    ((value_closed hv).before (blanks_pass hbefore)).blanks hafter

theorem elements_closed {cs : List Char} {items : List Document} :
    Elements (Narrow limit) cs items → Closed limit cs
  | .last he => element_closed he
  | .more he hi => list_closed (element_closed he) (elements_closed hi)

theorem pair_closed {cs : List Char} {pair : String × Document} :
    Pair (Narrow limit) cs pair → Closed limit cs
  | .named hbefore hn hafter he => named_closed hbefore hn hafter (element_closed he)

theorem pairs_closed {cs : List Char} {pairs : List (String × Document)} :
    Pairs (Narrow limit) cs pairs → Closed limit cs
  | .last hp => pair_closed hp
  | .more hp hps => list_closed (pair_closed hp) (pairs_closed hps)

end

end CaptureAudit.Json
