import CaptureAudit.Proofs.Yaml.Scalars

/-! # Texts without quotes

A text is written without quotes only if no reader can take it for anything else: not for a value of
another type, and not for a piece of the structure around it. -/
namespace CaptureAudit.Yaml

section Characters

variable {c : Char}

def isControl (c : Char) : Bool := c.toNat < 0x20 || (0x7F ≤ c.toNat && c.toNat ≤ 0x9F)

/-- The byte order mark, and two code points that are no characters. -/
def isMark (c : Char) : Bool := c = '\uFEFF' || c = '\uFFFE' || c = '\uFFFF'

theorem isPrintable_iff (h : isBreak c = false) :
    isPrintable c = true ↔ isControl c = false ∧ isMark c = false := by
  have hfeed : c ≠ '\n' := by
    rintro rfl
    cases h
  have hFEFF : c = '\uFEFF' ↔ c.toNat = 0xFEFF := Char.toNat_inj.symm
  have hFFFE : c = '\uFFFE' ↔ c.toNat = 0xFFFE := Char.toNat_inj.symm
  have hFFFF : c = '\uFFFF' ↔ c.toNat = 0xFFFF := Char.toNat_inj.symm
  simp only [isPrintable, isControl, isMark, hfeed, hFEFF, hFFFE, hFFFF, decide_false,
    Bool.false_or, Bool.or_eq_true, Bool.and_eq_true, Bool.or_eq_false_iff, Bool.and_eq_false_iff,
    decide_eq_true_eq, decide_eq_false_iff_not]
  omega

theorem isSeparator_iff (hbreak : isBreak c = false) (hcontrol : isControl c = false) :
    isSeparator c = true ↔ c = ' ' := by
  have htab : c ≠ '\t' := by
    rintro rfl
    cases hcontrol
  have hzero : c ≠ '\x00' := by
    rintro rfl
    cases hcontrol
  simp [isSeparator, hbreak, htab, hzero]

end Characters

section Scans

variable {text rest : List Char}

/-- On one line and without control characters, so that only spaces separate. -/
def Clean (text : List Char) : Prop := ∀ c ∈ text, isBreak c = false ∧ isControl c = false

theorem clean_cons {c : Char} :
    Clean (c :: rest) ↔ (isBreak c = false ∧ isControl c = false) ∧ Clean rest :=
  List.forall_mem_cons

theorem no_pair {first second : Char → Bool} (h : ∀ c ∈ text, second c = false) :
    hasPair first second text = false := by
  induction text using hasPair.induct with
  | case1 a b rest ih =>
    have hb : second b = false := h b (by simp)
    rw [hasPair, ih fun c hc => h c (List.mem_cons_of_mem a hc), hb]
    simp
  | case2 text hshort =>
    rw [hasPair]
    exact hshort

theorem needsEscapes_iff (h : ∀ c ∈ text, isBreak c = false) :
    needsEscapes text = false ↔ ∀ c ∈ text, isControl c = false ∧ isMark c = false := by
  rw [needsEscapes, no_pair h, Bool.false_or, List.any_eq_false]
  refine forall₂_congr fun c hc => ?_
  rw [← isPrintable_iff (h c hc), Bool.not_eq_true', Bool.not_eq_false]

theorem separatorNext_iff (h : Clean rest) :
    separatorNext rest = true ↔ rest = [] ∨ [' '] <+: rest := by
  cases rest with
  | nil => simp [separatorNext]
  | cons c rest =>
    obtain ⟨⟨hbreak, hcontrol⟩, -⟩ := clean_cons.mp h
    rw [separatorNext, isSeparator_iff hbreak hcontrol]
    simp [List.cons_prefix_cons, eq_comm]

theorem startsConstruct_iff (h : Clean text) : startsConstruct text = true ↔
    (∃ c ∈ indicators, text.head? = some c) ∨
      (['-', '-', '-'] <+: text ∨ ['.', '.', '.'] <+: text) ∨
      ∃ c ∈ ['-', '?', ':'], text = [c] ∨ [c, ' '] <+: text := by
  unfold startsConstruct
  split
  · simp
  · exact iff_of_true rfl (.inr (.inl (.inl (List.prefix_append ['-', '-', '-'] _))))
  · exact iff_of_true rfl (.inr (.inl (.inr (List.prefix_append ['.', '.', '.'] _))))
  · rename_i c rest hdashes hdots
    have hrest : Clean rest := (clean_cons.mp h).2
    have hdashes' : ¬['-', '-', '-'] <+: c :: rest := by
      rintro ⟨tail, htail⟩
      obtain ⟨rfl, rfl⟩ := List.cons.inj htail
      exact hdashes tail rfl rfl
    have hdots' : ¬['.', '.', '.'] <+: c :: rest := by
      rintro ⟨tail, htail⟩
      obtain ⟨rfl, rfl⟩ := List.cons.inj htail
      exact hdots tail rfl rfl
    have hentry : (∃ d ∈ ['-', '?', ':'], c :: rest = [d] ∨ [d, ' '] <+: c :: rest) ↔
        ((c = '?' ∨ c = ':') ∨ c = '-') ∧ (rest = [] ∨ [' '] <+: rest) := by
      have hd (d : Char) : (c :: rest = [d] ∨ [d, ' '] <+: c :: rest) ↔
          d = c ∧ (rest = [] ∨ [' '] <+: rest) := by
        rw [List.cons.injEq, List.cons_prefix_cons, eq_comm (a := c), and_or_left]
      simp only [hd, ← and_assoc, exists_and_right, exists_eq_right]
      simp [or_comm]
    have hfirst : (∃ d ∈ indicators, (c :: rest).head? = some d) ↔ c ∈ indicators := by simp
    rw [Bool.or_eq_true, Bool.and_eq_true, List.contains_iff_mem, separatorNext_iff hrest, hentry,
      hfirst]
    simp [hdashes', hdots']

theorem pair_infix_cons {a b c : Char} :
    [a, b] <:+: c :: rest ↔ c = a ∧ [b] <+: rest ∨ [a, b] <:+: rest := by
  rw [List.infix_cons_iff, List.cons_prefix_cons, eq_comm (a := a)]

theorem last_colon_cons {c : Char} :
    (c :: rest).getLast? = some ':' ↔ c = ':' ∧ rest = [] ∨ rest.getLast? = some ':' := by
  cases rest <;> simp

/-- The scan behind the first character finds a colon that a space or the end follows, or a `#` that
follows a space. -/
theorem innerIndicator_iff {before : Char} (h : Clean (before :: rest)) :
    hasInnerIndicator before rest = true ↔
      ([':', ' '] <:+: rest ∨ rest.getLast? = some ':') ∨ [' ', '#'] <:+: before :: rest := by
  induction rest generalizing before with
  | nil => simp [hasInnerIndicator, List.infix_cons_iff, List.cons_prefix_cons]
  | cons c rest ih =>
    obtain ⟨⟨hbreak, hcontrol⟩, hrest⟩ := clean_cons.mp h
    rw [hasInnerIndicator, Bool.or_eq_true, Bool.or_eq_true, Bool.and_eq_true, Bool.and_eq_true,
      decide_eq_true_eq, decide_eq_true_eq, separatorNext_iff (clean_cons.mp hrest).2,
      isSeparator_iff hbreak hcontrol, ih hrest, last_colon_cons, pair_infix_cons (c := c) (a := ':'),
      pair_infix_cons (c := before), List.cons_prefix_cons, and_iff_left List.nil_prefix,
      eq_comm (a := '#'), and_or_left, and_comm (a := c = '#')]
    simp only [or_assoc, or_comm, or_left_comm]

/-- A colon that is read as the start of a construct is found by the scan from the first character,
so the two scans together look at the whole text. -/
theorem hasIndicator_iff (h : Clean text) : hasIndicator text = true ↔
    startsConstruct text = true ∨ ([':', ' '] <:+: text ∨ text.getLast? = some ':') ∨
      [' ', '#'] <:+: text := by
  cases text with
  | nil => simp [hasIndicator, startsConstruct]
  | cons first rest =>
    have hcolon (hfirst : first = ':') (hnext : rest = [] ∨ [' '] <+: rest) :
        startsConstruct (first :: rest) = true := by
      rw [startsConstruct_iff h]
      subst hfirst
      refine .inr (.inr ⟨':', by simp, ?_⟩)
      rwa [List.cons.injEq, List.cons_prefix_cons, eq_self, true_and, true_and]
    rw [hasIndicator, Bool.or_eq_true, innerIndicator_iff h, pair_infix_cons (a := ':'),
      last_colon_cons]
    constructor
    · rintro (hstart | (hpair | hlast) | hhash)
      · exact .inl hstart
      · exact .inr (.inl (.inl (.inr hpair)))
      · exact .inr (.inl (.inr (.inr hlast)))
      · exact .inr (.inr hhash)
    · rintro (hstart | ((⟨hfirst, hnext⟩ | hpair) | (⟨hfirst, hnext⟩ | hlast)) | hhash)
      · exact .inl hstart
      · exact .inl (hcolon hfirst (.inr hnext))
      · exact .inr (.inl (.inl hpair))
      · exact .inl (hcolon hfirst (.inl hnext))
      · exact .inr (.inl (.inr hlast))
      · exact .inr (.inr hhash)

end Scans

section Plain

variable {indent : Nat} {text : List Char}

/-- What keeps an unquoted text apart from the structure around it and from values of other types. -/
structure Unmistakable (text : List Char) : Prop where
  nonempty : text ≠ []
  no_space_first : text.head? ≠ some ' '
  no_space_last : text.getLast? ≠ some ' '
  no_break : ∀ c ∈ text, c ∉ ['\n', '\r', '\u0085', '\u2028', '\u2029']
  no_control : ∀ c ∈ text, isControl c = false
  no_mark : ∀ c ∈ text, c ∉ ['\uFEFF', '\uFFFE', '\uFFFF']
  no_indicator : ∀ c ∈ indicators, text.head? ≠ some c
  no_document : ¬['-', '-', '-'] <+: text ∧ ¬['.', '.', '.'] <+: text
  no_entry : ∀ c ∈ ['-', '?', ':'], text ≠ [c] ∧ ¬[c, ' '] <+: text
  no_value : ¬[':', ' '] <:+: text
  no_colon_last : text.getLast? ≠ some ':'
  no_comment : ¬[' ', '#'] <:+: text
  not_null : String.ofList text ∉ ["null", "Null", "NULL", "~"]
  not_truth_value : String.ofList text ∉ ["true", "True", "TRUE", "false", "False", "FALSE"]
  not_integer : isInteger text = false
  not_float : isFloat text = false
  not_padded : hasLeadingZero text = false

theorem no_break_iff : (∀ c ∈ text, isBreak c = false) ↔
    ∀ c ∈ text, c ∉ ['\n', '\r', '\u0085', '\u2028', '\u2029'] := by
  simp [isBreak, and_assoc]

theorem no_mark_iff : (∀ c ∈ text, isMark c = false) ↔
    ∀ c ∈ text, c ∉ ['\uFEFF', '\uFFFE', '\uFFFF'] := by
  simp [isMark, and_assoc]

theorem not_null_iff : isNull text = false ↔
    text ≠ [] ∧ String.ofList text ∉ ["null", "Null", "NULL", "~"] := by
  rw [← Bool.not_eq_true, isNull_iff, not_or]

theorem not_truth_value_iff : isTruthValue text = false ↔
    String.ofList text ∉ ["true", "True", "TRUE", "false", "False", "FALSE"] := by
  rw [← Bool.not_eq_true, isTruthValue_iff]

theorem startsOrEnds_space_iff :
    startsOrEnds isSpace text = false ↔ text.head? ≠ some ' ' ∧ text.getLast? ≠ some ' ' := by
  rw [startsOrEnds, Bool.or_eq_false_iff]
  cases text.head? <;> cases text.getLast? <;> simp [isSpace]

theorem plainAllowed_iff : plainAllowed text = true ↔ Unmistakable text := by
  simp only [plainAllowed, needsQuotes, Bool.not_eq_true', Bool.or_eq_false_iff, List.any_eq_false,
    Bool.not_eq_true, startsOrEnds_space_iff]
  constructor
  · rintro ⟨⟨⟨⟨⟨⟨⟨⟨hnull, htruth⟩, hpadded⟩, hinteger⟩, hfloat⟩, hindicator⟩, hescapes⟩, hbreak⟩,
      hfirst, hlast⟩
    have hshown := (needsEscapes_iff hbreak).mp hescapes
    have hclean : Clean text := fun c hc => ⟨hbreak c hc, (hshown c hc).1⟩
    rw [← Bool.not_eq_true, hasIndicator_iff hclean, startsConstruct_iff hclean] at hindicator
    simp only [not_or, not_exists, not_and] at hindicator
    obtain ⟨⟨hindicator, hdocument, hentry⟩, ⟨hvalue, hcolon⟩, hcomment⟩ := hindicator
    exact {
      nonempty := (not_null_iff.mp hnull).1
      no_space_first := hfirst
      no_space_last := hlast
      no_break := no_break_iff.mp hbreak
      no_control := fun c hc => (hshown c hc).1
      no_mark := no_mark_iff.mp fun c hc => (hshown c hc).2
      no_indicator := hindicator
      no_document := hdocument
      no_entry := hentry
      no_value := hvalue
      no_colon_last := hcolon
      no_comment := hcomment
      not_null := (not_null_iff.mp hnull).2
      not_truth_value := not_truth_value_iff.mp htruth
      not_integer := hinteger
      not_float := hfloat
      not_padded := hpadded }
  · intro h
    have hbreak := no_break_iff.mpr h.no_break
    have hmark := no_mark_iff.mpr h.no_mark
    have hclean : Clean text := fun c hc => ⟨hbreak c hc, h.no_control c hc⟩
    have hindicator : hasIndicator text = false := by
      rw [← Bool.not_eq_true, hasIndicator_iff hclean, startsConstruct_iff hclean]
      simp only [not_or, not_exists, not_and]
      exact ⟨⟨h.no_indicator, h.no_document, h.no_entry⟩, ⟨h.no_value, h.no_colon_last⟩,
        h.no_comment⟩
    have hescapes := (needsEscapes_iff hbreak).mpr fun c hc => ⟨h.no_control c hc, hmark c hc⟩
    have hnull : isNull text = false := not_null_iff.mpr ⟨h.nonempty, h.not_null⟩
    have htruth := not_truth_value_iff.mpr h.not_truth_value
    exact ⟨⟨⟨⟨⟨⟨⟨⟨hnull, htruth⟩, h.not_padded⟩, h.not_integer⟩, h.not_float⟩,
      hindicator⟩, hescapes⟩, hbreak⟩, h.no_space_first, h.no_space_last⟩

theorem styleOf_plain_iff : styleOf text = .plain ↔ Unmistakable text := by
  constructor
  · intro h
    exact plainAllowed_iff.mp (styleOf_plain h).2
  · intro h
    have hfeed : text.contains '\n' = false := by
      rw [← Bool.not_eq_true, List.contains_iff_mem]
      intro hmem
      exact h.no_break _ hmem (by simp)
    rw [styleOf, hfeed, plainAllowed_iff.mpr h]
    rfl

theorem singleQuotedBody_length (afterBreak : Bool) (text : List Char) :
    text.length ≤ (singleQuotedBody indent afterBreak text).length := by
  induction text generalizing afterBreak with
  | nil => exact Nat.zero_le _
  | cons c text ih =>
    rw [singleQuotedBody]
    have htrue := ih true
    have hfalse := ih false
    split_ifs <;> simp only [List.length_cons, List.length_append, List.length_nil] <;> omega

theorem literalBody_length (afterBreak : Bool) (text : List Char) :
    text.length ≤ (literalBody indent afterBreak text).length := by
  induction text generalizing afterBreak with
  | nil => exact Nat.zero_le _
  | cons c text ih =>
    rw [literalBody]
    have htrue := ih true
    have hfalse := ih false
    split_ifs <;> simp only [List.length_cons, List.length_append, List.length_nil] <;> omega

theorem doubleQuoted_length (text : List Char) : text.length + 2 ≤ (doubleQuoted text).length := by
  have hbody : text.length ≤ (text.flatMap doubleQuotedChar).length := by
    induction text with
    | nil => exact Nat.zero_le _
    | cons c text ih =>
      have hchar : 1 ≤ (doubleQuotedChar c).length := by
        rcases doubleQuotedChar_cases c with h | ⟨h, -⟩
        · rw [h, escaped_eq]
          simp
        · rw [h]
          exact Nat.le_refl 1
      rw [List.flatMap_cons, List.length_append, List.length_cons]
      omega
  simp only [doubleQuoted, List.length_cons, List.length_append, List.length_nil]
  omega

/-- Every other style adds something to the text, so the bare text is seen to be plain. -/
theorem bare_iff : scalarLine indent text = text ++ ['\n'] ↔ Unmistakable text := by
  rw [← styleOf_plain_iff]
  constructor
  · intro h
    have hlength := congrArg List.length h
    rw [List.length_append, List.length_singleton, scalarLine] at hlength
    cases hstyle : styleOf text with
    | plain => rfl
    | singleQuoted =>
      have hbody : text.length ≤ (singleQuotedBody indent false text).length :=
        singleQuotedBody_length false text
      simp only [hstyle, singleQuoted, List.length_cons, List.length_append, List.length_nil]
        at hlength
      omega
    | doubleQuoted =>
      have hbody := doubleQuoted_length text
      simp only [hstyle, List.length_append, List.length_singleton] at hlength
      omega
    | literal =>
      have hbody : text.length ≤ (literalBody indent true text).length :=
        literalBody_length true text
      simp only [hstyle, literal, List.length_cons, List.length_append] at hlength
      omega
  · intro h
    rw [scalarLine, h]

end Plain

end CaptureAudit.Yaml
