import CaptureAudit.Proofs.Json.NumberForms
import CaptureAudit.Proofs.Json.Strings

/-! # Accepted texts are JSON

What is read as a value is one, and the document is what it denotes. The containers are read with
their values taken for granted as long as these are shorter than a bound; the bound is then
raised by one. -/
namespace CaptureAudit.Json

open Grammar

abbrev AnyLiteral (_ : Literal) : Prop := True

/-- What is read from a first character on, with fewer than `n` characters after it, begins with
a value. -/
def ReadsValues (n : Nat) : Prop :=
  ∀ {context : List Frame} {c : Char} {tail : List Char} {document : Document}, tail.length < n →
    follow (beginValue context c) tail = some document →
    ∃ cs value rest, c :: tail = cs ++ rest ∧ rest.length ≤ tail.length ∧
      Value AnyLiteral cs value ∧ resume value context rest = some document

variable {context : List Frame} {c : Char} {tail : List Char} {document : Document}

theorem blanks_nil : Blanks [] := by
  intro c hc
  cases hc

theorem blanks_append {before after : List Char} (hb : Blanks before) (ha : Blanks after) :
    Blanks (before ++ after) := by
  intro c hc
  rcases List.mem_append.mp hc with hc | hc
  · exact hb c hc
  · exact ha c hc

variable {allowed : Literal → Prop}

theorem element_blanks {blanks cs : List Char} {v : Document} (hb : Blanks blanks)
    (h : Element allowed cs v) : Element allowed (blanks ++ cs) v := by
  obtain ⟨hbefore, hv, hafter⟩ := h
  rw [List.append_assoc, ← List.append_assoc, ← List.append_assoc]
  exact .surrounded (blanks_append hb hbefore) hv hafter

theorem elements_blanks {blanks cs : List Char} {items : List Document} (hb : Blanks blanks)
    (h : Elements allowed cs items) : Elements allowed (blanks ++ cs) items := by
  cases h with
  | last he => exact .last (element_blanks hb he)
  | more he hrest =>
    rw [← List.append_assoc]
    exact .more (element_blanks hb he) hrest

theorem pairs_blanks {blanks cs : List Char} {pairs : List (String × Document)}
    (hb : Blanks blanks) (h : Pairs allowed cs pairs) : Pairs allowed (blanks ++ cs) pairs := by
  have hpair {cs : List Char} {pair : String × Document} (h : Pair allowed cs pair) :
      Pair allowed (blanks ++ cs) pair := by
    obtain ⟨hbefore, hn, hafter, he⟩ := h
    rw [← List.append_assoc]
    exact .named (blanks_append hb hbefore) hn hafter he
  cases h with
  | last hp => exact .last (hpair hp)
  | more hp hrest =>
    rw [← List.append_assoc]
    exact .more (hpair hp) hrest

theorem element_of_value {cs after : List Char} {v : Document} (h : Value allowed cs v)
    (ha : Blanks after) : Element allowed (cs ++ after) v :=
  .surrounded blanks_nil h ha

/-- In a gap in which no text can end, a token begins. -/
theorem token_begins {gap : Gap} {cs : List Char} (hend : ∀ d, gap.finish ≠ .ok d)
    (h : accepted (.gap gap) context cs = some document) : ∃ blanks c tail,
      cs = blanks ++ c :: tail ∧ Blanks blanks ∧ tail.length < cs.length ∧
      follow (beginToken gap context c) tail = some document := by
  obtain ⟨blanks, rest, rfl, hb, ⟨_, hf⟩ | ⟨c, tail, rfl, _, hf⟩⟩ := gap_cases h
  · exact (hend _ hf).elim
  · refine ⟨blanks, c, tail, rfl, hb, ?_, hf⟩
    simp only [List.length_append, List.length_cons]
    omega

theorem items_sound {n : Nat} (hvalues : ReadsValues n) {before : List Document}
    (hlen : tail.length < n)
    (h : follow (beginValue (.array before :: context) c) tail = some document) :
    ∃ cs items rest, c :: tail = cs ++ ']' :: rest ∧ rest.length ≤ tail.length ∧
      Elements AnyLiteral cs items ∧
      resume (.array (before.reverse ++ items)) context rest = some document := by
  induction hm : tail.length using Nat.strong_induction_on generalizing c tail before with
  | h m ih =>
    subst hm
    obtain ⟨cs, value, rest, he, hr, hv, h⟩ := hvalues hlen h
    obtain ⟨blanks, c', tail', rfl, hb, ht, h⟩ := token_begins (by simp [deliver, Gap.finish]) h
    have hel := element_of_value hv hb
    simp only [deliver, beginToken] at h
    split at h
    · rename_i hc
      refine ⟨cs ++ blanks, [value], tail', ?_, ht.le.trans hr, .last hel, ?_⟩
      · rw [he, hc, List.append_assoc]
      · simpa using h
    split at h
    · rename_i hc
      obtain ⟨blanks', c'', tail'', rfl, hb', ht', h⟩ := token_begins (by simp [Gap.finish]) h
      simp only [beginToken] at h
      split at h
      · cases h
      have hless : tail''.length < tail.length := (ht'.trans ht).trans_le hr
      obtain ⟨es, items, rest, he', hr', hes, h⟩ := ih _ hless (hless.trans hlen) h rfl
      refine ⟨cs ++ blanks ++ ',' :: (blanks' ++ es), value :: items, rest, ?_,
        hr'.trans hless.le, .more hel (elements_blanks hb' hes), ?_⟩
      · rw [he, hc, he']
        simp
      · simpa using h
    · cases h

theorem pair_sound {n : Nat} (hvalues : ReadsValues n) {before : Members}
    (hlen : tail.length < n)
    (h : accepted (.string (.name before) [] .none) context tail = some document) :
    ∃ cs name value c rest, '"' :: tail = cs ++ c :: rest ∧ rest.length < tail.length ∧
      Pair AnyLiteral cs (name, value) ∧
      follow (beginToken (.afterMember (before.put name value)) context c) rest =
        some document := by
  obtain ⟨body, name, afterName, rfl, hn, h⟩ := string_sound h
  have hname : afterName.length < (body ++ '"' :: afterName).length := by
    simp only [List.length_append, List.length_cons]
    omega
  simp only [endString, List.append_nil, List.reverse_reverse, follow_stand] at h
  obtain ⟨blanks, c, afterColon, rfl, hb, hcolon, h⟩ := token_begins (by simp [Gap.finish]) h
  simp only [beginToken] at h
  split at h
  on_goal 2 => cases h
  rename_i hc
  obtain ⟨blanks', c', afterFirst, rfl, hb', hfirst, h⟩ := token_begins (by simp [Gap.finish]) h
  have hless := (hfirst.trans hcolon).trans hname
  obtain ⟨cs, value, rest, he, hr, hv, h⟩ := hvalues (hless.trans hlen) h
  obtain ⟨blanks'', next, after, rfl, hb'', ht, h⟩ := token_begins (by simp [deliver, Gap.finish]) h
  refine ⟨_, _, value, next, after, ?_, ht.trans_le (hr.trans hless.le),
    .named blanks_nil hn hb (element_blanks hb' (element_of_value hv hb'')), h⟩
  simp [hc, he]

theorem pairs_sound {n : Nat} (hvalues : ReadsValues n) {before : Members}
    (hlen : tail.length < n)
    (h : accepted (.string (.name before) [] .none) context tail = some document) :
    ∃ cs pairs rest, '"' :: tail = cs ++ '\x7d' :: rest ∧ rest.length ≤ tail.length ∧
      Pairs AnyLiteral cs pairs ∧
      resume (.object (putAll before pairs)) context rest = some document := by
  induction hm : tail.length using Nat.strong_induction_on generalizing tail before with
  | h m ih =>
    subst hm
    obtain ⟨cs, name, value, c, rest, he, hr, hpair, h⟩ := pair_sound hvalues hlen h
    rw [he]
    simp only [beginToken] at h
    split at h
    · rename_i hc
      exact ⟨cs, [(name, value)], rest, by rw [hc], hr.le, .last hpair, h⟩
    split at h
    · rename_i hc
      obtain ⟨blanks, c', tail', rfl, hb, ht, h⟩ := token_begins (by simp [Gap.finish]) h
      simp only [beginToken] at h
      split at h
      · rename_i hq
        have hshort := ht.trans hr
        obtain ⟨ps, pairs, rest, he', hr', hps, h⟩ := ih _ hshort (hshort.trans hlen) h rfl
        refine ⟨cs ++ ',' :: (blanks ++ ps), (name, value) :: pairs, rest, ?_,
          hr'.trans hshort.le, .more hpair (pairs_blanks hb hps), h⟩
        rw [hc, hq, he']
        simp
      · split at h <;> cases h
    · cases h

theorem array_sound {n : Nat} (hvalues : ReadsValues n) (hlen : tail.length ≤ n)
    (h : accepted (.gap .firstItem) context tail = some document) :
    ∃ cs items rest, '[' :: tail = '[' :: (cs ++ [']']) ++ rest ∧ rest.length ≤ tail.length ∧
      Value AnyLiteral ('[' :: (cs ++ [']'])) (.array items) ∧
      resume (.array items) context rest = some document := by
  obtain ⟨blanks, c, tail', rfl, hb, ht, h⟩ := token_begins (by simp [Gap.finish]) h
  simp only [beginToken] at h
  split at h
  · rename_i hc
    exact ⟨blanks, [], tail', by simp [hc], ht.le, .emptyArray hb, h⟩
  · obtain ⟨cs, items, rest, he, hr, hi, h⟩ := items_sound hvalues (ht.trans_le hlen) h
    exact ⟨blanks ++ cs, items, rest, by simp [he], hr.trans ht.le,
      .array (elements_blanks hb hi), h⟩

theorem object_sound {n : Nat} (hvalues : ReadsValues n) (hlen : tail.length ≤ n)
    (h : accepted (.gap .firstName) context tail = some document) :
    ∃ cs members rest, '\x7b' :: tail = '\x7b' :: (cs ++ ['\x7d']) ++ rest ∧
      rest.length ≤ tail.length ∧
      Value AnyLiteral ('\x7b' :: (cs ++ ['\x7d'])) (.object members) ∧
      resume (.object members) context rest = some document := by
  obtain ⟨blanks, c, tail', rfl, hb, ht, h⟩ := token_begins (by simp [Gap.finish]) h
  simp only [beginToken] at h
  split at h
  · rename_i hc
    exact ⟨blanks, [], tail', by simp [hc], ht.le, .emptyObject hb, h⟩
  split at h
  · rename_i hq
    obtain ⟨cs, pairs, rest, he, hr, hp, h⟩ := pairs_sound hvalues (ht.trans_le hlen) h
    rw [putAll_nil] at h
    exact ⟨blanks ++ cs, collapsed pairs, rest, by simp [hq, he], hr.trans ht.le,
      .object (pairs_blanks hb hp), h⟩
  · cases h

theorem word_sound {expected : Char} {after : List Char} {denotes : Document}
    (h : accepted (.word expected after denotes) context tail = some document) :
    ∃ rest, tail = expected :: (after ++ rest) ∧ rest.length ≤ tail.length ∧
      resume denotes context rest = some document := by
  obtain ⟨rest, rfl, hnext⟩ := (accepted_word ..).mp h
  refine ⟨rest, rfl, ?_, hnext⟩
  simp only [List.length_cons, List.length_append]
  omega

theorem value_sound (n : Nat) : ReadsValues n := by
  induction n with
  | zero =>
    intro _ _ _ _ hlen
    cases hlen
  | succ n ih =>
    intro context c tail document hlen h
    have hlen := Nat.le_of_lt_succ hlen
    unfold beginValue at h
    split at h
    · obtain ⟨cs, items, rest, he, hr, hv, h⟩ := array_sound ih hlen h
      exact ⟨_, _, rest, he, hr, hv, h⟩
    · obtain ⟨cs, members, rest, he, hr, hv, h⟩ := object_sound ih hlen h
      exact ⟨_, _, rest, he, hr, hv, h⟩
    · obtain ⟨body, text, rest, rfl, hs, h⟩ := string_sound h
      refine ⟨_, .string (String.ofList text), rest, ?_, ?_, .string hs, ?_⟩
      · simp
      · simp only [List.length_append, List.length_cons]
        omega
      · simpa [endString] using h
    · obtain ⟨rest, rfl, hr, hnext⟩ := word_sound h
      exact ⟨_, _, rest, rfl, hr, .yes, hnext⟩
    · obtain ⟨rest, rfl, hr, hnext⟩ := word_sound h
      exact ⟨_, _, rest, rfl, hr, .no, hnext⟩
    · obtain ⟨rest, rfl, hr, hnext⟩ := word_sound h
      exact ⟨_, _, rest, rfl, hr, .null, hnext⟩
    · split at h
      · rename_i number hn
        rw [follow_enter, accepted_number] at h
        obtain ⟨⟨value, rest⟩, hs, h⟩ := Option.bind_eq_some_iff.mp h
        obtain ⟨l, he, rfl⟩ := number_sound hn hs
        refine ⟨l.chars, l.denoted, rest, he, ?_, .number trivial, h⟩
        have hpos : 0 < l.chars.length := by
          have := List.length_pos_iff.mpr l.whole_ne
          simp only [Literal.chars, List.length_append]
          omega
        have htotal := congrArg List.length he
        simp only [List.length_append, List.length_cons] at htotal
        omega
      · cases h

theorem finished_sound {value : Document} {cs : List Char}
    (h : accepted (.gap (.finished value)) context cs = some document) :
    Blanks cs ∧ document = value := by
  obtain ⟨blanks, rest, rfl, hb, ⟨rfl, hf⟩ | ⟨c, tail, rfl, _, hf⟩⟩ := gap_cases h
  · cases hf
    rw [List.append_nil]
    exact ⟨hb, rfl⟩
  · cases hf

theorem text_sound {cs : List Char} (h : accepted (.gap .value) [] cs = some document) :
    Element AnyLiteral cs document := by
  obtain ⟨blanks, c, tail, rfl, hb, _, h⟩ := token_begins (by simp [Gap.finish]) h
  obtain ⟨cs, value, rest, he, _, hv, h⟩ := value_sound _ (Nat.lt_succ_self _) h
  obtain ⟨hafter, rfl⟩ := finished_sound h
  rw [he]
  exact element_blanks hb (element_of_value hv hafter)

/-- The names in every object of a document that was read are different. -/
theorem read_distinct {text : String} {document : Document} (h : read text = .ok document) :
    document.DistinctNames :=
  element_distinct (text_sound ((read_iff_accepted text document).mp h))

end CaptureAudit.Json
