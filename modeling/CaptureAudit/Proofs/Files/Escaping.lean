import CaptureAudit.Files.Listing
import CaptureAudit.Proofs.Files.Spelling

/-! # Escaped names

An escaped name is read as a pattern with one token for each of its characters, and only the name
itself fits it. Slashes are not escaped and nothing is put around them, so a path that is escaped
as a whole has the escaped names of the path. -/
namespace CaptureAudit.Glob

theorem special_iff (c : Char) : isSpecial c = true ↔ c = '?' ∨ c = '*' ∨ c = '[' ∨ c = ']' := by
  simp [isSpecial]

/-- What the escape of a character is read as. -/
def escaped (c : Char) : Token := if isSpecial c then .within [⟨c, c⟩] else .char c

theorem read_plain {c : Char} (hc : isSpecial c = false) (rest : List Char) :
    read (c :: rest) = (read rest).map (.char c :: ·) := by
  have hnot := mt (special_iff c).mpr (by simp [hc])
  simp only [not_or] at hnot
  obtain ⟨hany, hstar, hopen, -⟩ := hnot
  rw [read] <;> simp_all

theorem read_escape_char (c : Char) (rest : List Char) :
    read (escapeChar c ++ rest) = (read rest).map (escaped c :: ·) := by
  cases hc : isSpecial c with
  | false =>
    rw [escapeChar, escaped, hc]
    exact read_plain hc rest
  | true => rcases (special_iff c).mp hc with rfl | rfl | rfl | rfl <;> rfl

theorem read_escape (cs : List Char) : read (cs.flatMap escapeChar) = some (cs.map escaped) := by
  induction cs with
  | nil => rfl
  | cons c rest ih => rw [List.flatMap_cons, read_escape_char, ih, Option.map_some, List.map_cons]

theorem accepts_escaped (c d : Char) : (escaped c).accepts d = true ↔ d = c := by
  rw [escaped]
  split
  · simp only [Token.accepts, CharRange.holds, List.any_cons, List.any_nil, Bool.or_false,
      Bool.and_eq_true, decide_eq_true_eq]
    exact ⟨fun h => Char.le_antisymm h.2 h.1, fun h => h ▸ ⟨Char.le_refl _, Char.le_refl _⟩⟩
  · exact beq_iff_eq

/-- No character of an escaped name stands for anything but itself. -/
theorem fits_escape (cs name : List Char) : fits (cs.map escaped) name = true ↔ name = cs := by
  induction cs generalizing name with
  | nil => simp [fits]
  | cons c rest ih =>
    have hstep (d : Char) (others : List Char) : fits (escaped c :: rest.map escaped) (d :: others) =
        ((escaped c).accepts d && fits (rest.map escaped) others) := by
      rw [escaped]
      split <;> rfl
    cases name with
    | nil =>
      rw [List.map_cons, escaped]
      split <;> simp [fits]
    | cons d others =>
      rw [List.map_cons, hstep, Bool.and_eq_true, accepts_escaped, ih, List.cons.injEq]

def isPlain (cs : List Char) : Bool := cs.all fun c => !isSpecial c

/-- A name without special characters is spelled by its pattern, and others are not. -/
theorem literal_escape (cs : List Char) :
    literal? (cs.map escaped) = if isPlain cs then some cs else none := by
  induction cs with
  | nil => rfl
  | cons c rest ih =>
    cases hc : isSpecial c with
    | true => simp [isPlain, escaped, hc, literal?]
    | false =>
      have hplain : isPlain (c :: rest) = isPlain rest := by simp [isPlain, hc]
      rw [List.map_cons, escaped, hc, if_neg (by simp), literal?, ih, hplain]
      split <;> rfl

theorem some_end_iff (test : List Char → Bool) (cs : List Char) :
    someEnd test cs = true ↔ ∃ tail, tail <:+ cs ∧ test tail = true := by
  induction cs with
  | nil => simp [someEnd]
  | cons c rest ih =>
    rw [someEnd, Bool.or_eq_true, ih]
    constructor
    · rintro (h | ⟨tail, ht, h⟩)
      · exact ⟨_, List.suffix_rfl, h⟩
      · exact ⟨tail, ht.trans (List.suffix_cons c rest), h⟩
    · rintro ⟨tail, ht, h⟩
      rcases List.suffix_cons_iff.mp ht with rfl | ht
      · exact .inl h
      · exact .inr ⟨tail, ht, h⟩

def jsonPattern : Pattern := .anySequence :: ".json".toList.map escaped

theorem fits_json (name : List Char) : fits jsonPattern name = true ↔ ".json".toList <:+ name := by
  rw [jsonPattern, fits, some_end_iff]
  constructor
  · rintro ⟨tail, ht, h⟩
    rwa [(fits_escape _ _).mp h] at ht
  · intro h
    exact ⟨_, h, (fits_escape _ _).mpr rfl⟩

open Text

theorem slash_not_escape {c : Char} (hc : c ≠ '/') : '/' ∉ escapeChar c := by
  rw [escapeChar]
  split <;> simp [Ne.symm hc]

theorem pieces_escape (cs : List Char) :
    pieces '/' (cs.flatMap escapeChar) = (pieces '/' cs).map fun piece => piece.flatMap escapeChar := by
  induction cs with
  | nil => rfl
  | cons c rest ih =>
    by_cases hc : c = '/'
    · subst hc
      have hslash : ('/' :: rest).flatMap escapeChar = '/' :: rest.flatMap escapeChar := rfl
      rw [hslash, pieces, pieces, if_pos rfl, if_pos rfl, ih]
      rfl
    · obtain ⟨piece, others, hp, hfront⟩ :=
        pieces_front (slash_not_escape hc) (rest.flatMap escapeChar)
      rw [List.flatMap_cons, hfront, pieces, if_neg hc]
      rw [ih] at hp
      obtain ⟨first, more, hrest, rfl, rfl⟩ := List.map_eq_cons_iff.mp hp
      rw [hrest]
      rfl

theorem piecesOf_escape (path : String) :
    piecesOf '/' (escape path) = (piecesOf '/' path).map escape := by
  rw [piecesOf, escape, String.toList_ofList, pieces_escape, piecesOf, List.map_map, List.map_map]
  refine List.map_congr_left fun piece _ => ?_
  simp [escape]

theorem pieces_pattern (directory : String) :
    piecesOf '/' (escape directory ++ "/*.json") =
      (piecesOf '/' directory).map escape ++ ["*.json"] := by
  have hcut : escape directory ++ "/*.json" = escape directory ++ "/" ++ "*.json" := by
    rw [String.append_assoc]
    rfl
  rw [hcut, piecesOf_append, piecesOf_escape]
  rfl

theorem read_pattern (names : List String) :
    (names.map escape ++ ["*.json"]).mapM (fun piece => read piece.toList) =
      some ((names.map fun name => name.toList.map escaped) ++ [jsonPattern]) := by
  induction names with
  | nil => rfl
  | cons name rest ih =>
    rw [List.map_cons, List.cons_append, List.mapM_cons, escape, String.toList_ofList, read_escape, ih]
    rfl

/-- The pattern starts at the root if the directory does, or if it is empty. -/
theorem absolute_pattern (directory : String) :
    Files.isAbsolute (escape directory ++ "/*.json") =
      (decide (directory = "") || Files.isAbsolute directory) := by
  have hchars : (escape directory ++ "/*.json").toList =
      directory.toList.flatMap escapeChar ++ "/*.json".toList := by
    rw [String.toList_append, escape, String.toList_ofList]
  rw [Files.isAbsolute, Files.isAbsolute, hchars]
  cases hd : directory.toList with
  | nil =>
    rw [String.toList_eq_nil_iff.mp hd]
    rfl
  | cons c rest =>
    have hne : directory ≠ "" := by
      rintro rfl
      cases hd
    have hhead : (escapeChar c).head? = some '/' ↔ c = '/' := by
      rw [escapeChar]
      split
      · rename_i hc
        refine iff_of_false (by simp) ?_
        rintro rfl
        exact absurd hc (by decide)
      · simp
    obtain ⟨first, more, hfirst⟩ : ∃ first more, escapeChar c = first :: more := by
      rw [escapeChar]
      split <;> exact ⟨_, _, rfl⟩
    rw [hfirst, List.head?_cons, Option.some_inj] at hhead
    rw [List.flatMap_cons, hfirst]
    simp [hhead, hne]

end CaptureAudit.Glob
