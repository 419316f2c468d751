import CaptureAudit.Proofs.Json.ShortNumbers
import CaptureAudit.Proofs.Json.Soundness

/-! # JSON is read

Every text of the grammar whose number literals are short is read, at any depth: by induction on
its derivation, one production at a time. What stands around a value decides only that the value
has an end. -/
namespace CaptureAudit.Json

open Grammar

variable {context outer : List Frame} {gap : Gap} {rest : List Char} {document : Document}

theorem ends_nil : Ends [] := by
  intro c hc
  cases hc

theorem ends_blanks {blanks : List Char} (hb : Blanks blanks) (hr : Ends rest) :
    Ends (blanks ++ rest) := by
  cases blanks with
  | nil => exact hr
  | cons b blanks =>
    intro c hc
    cases hc
    exact Or.inl ((isBlank_iff b).mpr (hb b List.mem_cons_self))

theorem ends_mark {c : Char} (hc : c = ',' ∨ c = ']' ∨ c = '\x7d') : Ends (c :: rest) := by
  intro d hd
  cases hd
  exact Or.inr hc

theorem resume_blanks {v : Document} {blanks : List Char} (hb : Blanks blanks)
    (h : resume v context rest = some document) :
    resume v context (blanks ++ rest) = some document := by
  rw [resume] at h ⊢
  rw [accepted_blanks _ _ hb]
  exact h

/-- A value is read from its first character on, which neither is a blank nor closes an array. -/
def Begins (cs : List Char) (v : Document) : Prop :=
  ∃ c tail, cs = c :: tail ∧ isBlank c = false ∧ c ≠ ']' ∧
    ∀ {context : List Frame} {rest : List Char} {document : Document}, Ends rest →
      resume v context rest = some document →
      follow (beginValue context c) (tail ++ rest) = some document

theorem begins_word {c expected : Char} {after : List Char} {v : Document}
    (hc : isBlank c = false) (hclose : c ≠ ']')
    (hb : ∀ context, beginValue context c = .enter (.word expected after v) context) :
    Begins (c :: expected :: after) v := by
  refine ⟨c, expected :: after, rfl, hc, hclose, ?_⟩
  intro context rest document _ h
  rw [hb, follow_enter]
  exact (accepted_word ..).mpr ⟨rest, rfl, h⟩

theorem begins_string {cs text : List Char} (hs : StringBody cs text) :
    Begins ('"' :: (cs ++ ['"'])) (.string (String.ofList text)) := by
  refine ⟨'"', cs ++ ['"'], rfl, by decide, by decide, ?_⟩
  intro context rest document _ h
  rw [List.append_assoc]
  refine string_complete hs rest ?_
  simpa [endString] using h

theorem start_number {c : Char} {number : Number} (h : Number.start? c = some number)
    (context : List Frame) : isBlank c = false ∧ c ≠ ']' ∧
      beginValue context c = .enter (.number number) context := by
  have hc {x : Char} (hx : Number.start? x = none) : c ≠ x := by
    rintro rfl
    rw [h] at hx
    cases hx
  have hblank : isBlank c = false := by
    have h1 : c ≠ ' ' := hc rfl
    have h2 : c ≠ '\n' := hc rfl
    have h3 : c ≠ '\t' := hc rfl
    have h4 : c ≠ '\r' := hc rfl
    simp [isBlank, h1, h2, h3, h4]
  refine ⟨hblank, hc rfl, ?_⟩
  unfold beginValue
  split
  on_goal 7 => rw [h]
  all_goals cases h

theorem begins_number {l : Literal} (hl : l.Short) : Begins l.chars l.denoted := by
  obtain ⟨c, cs, number, hchars, hstart, _⟩ := number_complete hl ends_nil
  obtain ⟨hblank, hclose, _⟩ := start_number hstart []
  refine ⟨c, cs, hchars, hblank, hclose, ?_⟩
  intro context rest document hr h
  -- The scan depends on what follows the literal, its first character does not.
  obtain ⟨c', cs', number', hchars', hstart', hscan⟩ := number_complete hl hr
  rw [hchars] at hchars'
  cases hchars'
  rw [hstart] at hstart'
  cases hstart'
  rw [(start_number hstart context).2.2, follow_enter, accepted_number, hscan]
  exact h

/-- Wherever a value can begin and end, the element is read. -/
def ReadsElement (cs : List Char) (v : Document) : Prop :=
  ∀ {context outer : List Frame} {gap : Gap} {rest : List Char} {document : Document},
    (∀ c, c ≠ ']' → beginToken gap outer c = beginValue context c) → Ends rest →
    resume v context rest = some document → accepted (.gap gap) outer (cs ++ rest) = some document

def ReadsItems (cs : List Char) (items : List Document) : Prop :=
  ∀ {context : List Frame} {gap : Gap} {rest : List Char} {before : List Document}
    {document : Document},
    (∀ c, c ≠ ']' → beginToken gap context c = beginValue (.array before :: context) c) →
    resume (.array (before.reverse ++ items)) context rest = some document →
    accepted (.gap gap) context (cs ++ ']' :: rest) = some document

def ReadsPair (cs : List Char) (pair : String × Document) : Prop :=
  ∀ {context : List Frame} {gap : Gap} {rest : List Char} {before : Members}
    {document : Document},
    beginToken gap context '"' = .enter (.string (.name before) [] .none) context → Ends rest →
    accepted (.gap (.afterMember (before.put pair.1 pair.2))) context rest = some document →
    accepted (.gap gap) context (cs ++ rest) = some document

def ReadsPairs (cs : List Char) (pairs : List (String × Document)) : Prop :=
  ∀ {context : List Frame} {gap : Gap} {rest : List Char} {before : Members}
    {document : Document},
    beginToken gap context '"' = .enter (.string (.name before) [] .none) context →
    resume (.object (putAll before pairs)) context rest = some document →
    accepted (.gap gap) context (cs ++ '\x7d' :: rest) = some document

theorem begins_emptyArray {cs : List Char} (hb : Blanks cs) :
    Begins ('[' :: (cs ++ [']'])) (.array []) := by
  refine ⟨'[', cs ++ [']'], rfl, by decide, by decide, ?_⟩
  intro context rest document _ h
  rw [List.append_assoc, beginValue, follow_stand, accepted_blanks _ _ hb]
  exact h

theorem begins_array {cs : List Char} {items : List Document} (hi : ReadsItems cs items) :
    Begins ('[' :: (cs ++ [']'])) (.array items) := by
  refine ⟨'[', cs ++ [']'], rfl, by decide, by decide, ?_⟩
  intro context rest document _ h
  have hgap : ∀ c, c ≠ ']' →
      beginToken .firstItem context c = beginValue (.array [] :: context) c := by
    intro c hc
    rw [beginToken, if_neg hc]
  rw [List.append_assoc, beginValue, follow_stand]
  exact hi hgap h

theorem begins_emptyObject {cs : List Char} (hb : Blanks cs) :
    Begins ('\x7b' :: (cs ++ ['\x7d'])) (.object []) := by
  refine ⟨'\x7b', cs ++ ['\x7d'], rfl, by decide, by decide, ?_⟩
  intro context rest document _ h
  rw [List.append_assoc, beginValue, follow_stand, accepted_blanks _ _ hb]
  exact h

theorem begins_object {cs : List Char} {pairs : List (String × Document)}
    (hp : ReadsPairs cs pairs) :
    Begins ('\x7b' :: (cs ++ ['\x7d'])) (.object (collapsed pairs)) := by
  refine ⟨'\x7b', cs ++ ['\x7d'], rfl, by decide, by decide, ?_⟩
  intro context rest document _ h
  rw [← putAll_nil] at h
  rw [List.append_assoc, beginValue, follow_stand]
  exact hp rfl h

theorem reads_surrounded {before cs after : List Char} {v : Document} (hbefore : Blanks before)
    (hv : Begins cs v) (hafter : Blanks after) : ReadsElement (before ++ cs ++ after) v := by
  intro context outer gap rest document hgap hr h
  obtain ⟨c, tail, rfl, hblank, hclose, hread⟩ := hv
  rw [List.append_assoc, List.append_assoc, accepted_blanks _ _ hbefore, List.cons_append,
    accepted_token _ _ hblank, hgap c hclose]
  exact hread (ends_blanks hafter hr) (resume_blanks hafter h)

theorem reads_lastItem {cs : List Char} {v : Document} (he : ReadsElement cs v) :
    ReadsItems cs [v] := by
  intro context gap rest before document hgap h
  have hends : Ends (']' :: rest) := ends_mark (by simp)
  refine he hgap hends ?_
  rw [resume, deliver, accepted_token _ _ (by decide)]
  simpa [beginToken] using h

theorem reads_moreItems {cs others : List Char} {v : Document} {items : List Document}
    (he : ReadsElement cs v) (hi : ReadsItems others items) :
    ReadsItems (cs ++ ',' :: others) (v :: items) := by
  intro context gap rest before document hgap h
  have hends : Ends (',' :: (others ++ ']' :: rest)) := ends_mark (by simp)
  have hnext : ∀ c, c ≠ ']' → beginToken (.nextItem (v :: before)) context c =
      beginValue (.array (v :: before) :: context) c := by
    intro c hc
    rw [beginToken, if_neg hc]
  rw [List.append_assoc, List.cons_append]
  refine he hgap hends ?_
  rw [resume, deliver, accepted_token _ _ (by decide)]
  exact hi hnext (by simpa using h)

theorem reads_named {blanks ns after cs name : List Char} {v : Document} (hblanks : Blanks blanks)
    (hn : StringBody ns name) (hafter : Blanks after) (he : ReadsElement cs v) :
    ReadsPair (blanks ++ '"' :: (ns ++ '"' :: (after ++ ':' :: cs))) (String.ofList name, v) := by
  intro context gap rest before document hgap hr h
  have hshape : blanks ++ '"' :: (ns ++ '"' :: (after ++ ':' :: cs)) ++ rest =
      blanks ++ '"' :: (ns ++ '"' :: (after ++ ':' :: (cs ++ rest))) := by
    simp
  rw [hshape, accepted_blanks _ _ hblanks, accepted_token _ _ (by decide), hgap, follow_enter]
  refine string_complete hn _ ?_
  rw [endString, follow_stand, accepted_blanks _ _ hafter, accepted_token _ _ (by decide),
    beginToken, if_pos rfl, follow_stand, List.append_nil, List.reverse_reverse]
  exact he (fun _ _ => rfl) hr h

theorem reads_lastPair {cs : List Char} {pair : String × Document} (hp : ReadsPair cs pair) :
    ReadsPairs cs [pair] := by
  intro context gap rest before document hgap h
  have hends : Ends ('\x7d' :: rest) := ends_mark (by simp)
  refine hp hgap hends ?_
  rw [accepted_token _ _ (by decide)]
  exact h

theorem reads_morePairs {cs others : List Char} {pair : String × Document}
    {pairs : List (String × Document)} (hp : ReadsPair cs pair) (hps : ReadsPairs others pairs) :
    ReadsPairs (cs ++ ',' :: others) (pair :: pairs) := by
  intro context gap rest before document hgap h
  have hends : Ends (',' :: (others ++ '\x7d' :: rest)) := ends_mark (by simp)
  rw [List.append_assoc, List.cons_append]
  refine hp hgap hends ?_
  rw [accepted_token _ _ (by decide)]
  exact hps rfl h

mutual

theorem value_complete {cs : List Char} {v : Document} : Value Literal.Short cs v → Begins cs v
  | .null => begins_word (by decide) (by decide) fun _ => rfl
  | .yes => begins_word (by decide) (by decide) fun _ => rfl
  | .no => begins_word (by decide) (by decide) fun _ => rfl
  | .number hl => begins_number hl
  | .string hs => begins_string hs
  | .emptyArray hb => begins_emptyArray hb
  | .array hi => begins_array (items_complete hi)
  | .emptyObject hb => begins_emptyObject hb
  | .object hp => begins_object (pairs_complete hp)

theorem element_complete {cs : List Char} {v : Document} :
    Element Literal.Short cs v → ReadsElement cs v
  | .surrounded hbefore hv hafter => reads_surrounded hbefore (value_complete hv) hafter

theorem items_complete {cs : List Char} {items : List Document} :
    Elements Literal.Short cs items → ReadsItems cs items
  | .last he => reads_lastItem (element_complete he)
  | .more he hi => reads_moreItems (element_complete he) (items_complete hi)

theorem pair_complete {cs : List Char} {pair : String × Document} :
    Pair Literal.Short cs pair → ReadsPair cs pair
  | .named hbefore hn hafter he => reads_named hbefore hn hafter (element_complete he)

theorem pairs_complete {cs : List Char} {pairs : List (String × Document)} :
    Pairs Literal.Short cs pairs → ReadsPairs cs pairs
  | .last hp => reads_lastPair (pair_complete hp)
  | .more hp hps => reads_morePairs (pair_complete hp) (pairs_complete hps)

end

theorem read_complete {text : String} {document : Document}
    (h : Element Literal.Short text.toList document) : read text = .ok document := by
  have hgap : ∀ c, c ≠ ']' → beginToken .value [] c = beginValue [] c := fun _ _ => rfl
  have haccepted := element_complete h hgap ends_nil rfl
  rw [List.append_nil] at haccepted
  exact (read_iff_accepted text document).mpr haccepted

/-- Reading accepts JSON and nothing else: what is read is what the text denotes, and no text
with short number literals is refused, however deep. -/
theorem reads_exactly_json (text : String) :
    (∀ document, read text = .ok document → Element AnyLiteral text.toList document) ∧
      ∀ document, Element Literal.Short text.toList document → read text = .ok document := by
  constructor
  · intro document h
    exact text_sound ((read_iff_accepted text document).mp h)
  · intro document h
    exact read_complete h

def repeatedMember : String := "\x7b\"a\":[],\"a\":7\x7d"

theorem repeated_member_derived :
    Element Literal.Short repeatedMember.toList (.object [("a", .integer 7)]) := by
  have hname : StringBody ['a'] ['a'] := .plain (by decide) (by decide) (by decide) .nil
  have hfirst : Element Literal.Short ['[', ']'] (.array []) :=
    element_of_value (.emptyArray blanks_nil) blanks_nil
  let seven : Literal := ⟨false, ['7'], [], [], by simp, by simp [Digits], by simp, .absent, .absent⟩
  have hshort : seven.Short := ⟨rfl, by decide⟩
  have hlast : Element Literal.Short ['7'] (.integer 7) :=
    element_of_value (.number hshort) blanks_nil
  exact element_of_value (.object (.more (.named blanks_nil hname blanks_nil hfirst)
    (.last (.named blanks_nil hname blanks_nil hlast)))) blanks_nil

theorem repeated_member_read_exactly :
    Element AnyLiteral repeatedMember.toList (.object [("a", .integer 7)]) ∧
      read repeatedMember = .ok (.object [("a", .integer 7)]) := by
  have hexact := reads_exactly_json repeatedMember
  exact ⟨hexact.1 _ rfl, hexact.2 _ repeated_member_derived⟩

end CaptureAudit.Json
