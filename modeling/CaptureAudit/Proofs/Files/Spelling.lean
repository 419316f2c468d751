import CaptureAudit.Files.Listing
import CaptureAudit.Proofs.Files.Walking

/-! # Spellings of a path

A path is cut at its slashes. Two spellings that differ only in empty names and in `.` lead to the
same place, so a grammar is found under the spelling that its listing gives the directory. One
directory has no such spelling: an empty name after nothing but `.` leads nowhere. -/
namespace CaptureAudit.Text

theorem pieces_ne_nil (cut : Char) (cs : List Char) : pieces cut cs ≠ [] := by
  cases cs with
  | nil => simp [pieces]
  | cons c rest =>
    rw [pieces]
    split
    · simp
    · split <;> simp

theorem pieces_append (cut : Char) (first second : List Char) :
    pieces cut (first ++ cut :: second) = pieces cut first ++ pieces cut second := by
  induction first with
  | nil => simp [pieces]
  | cons c rest ih =>
    rw [List.cons_append, pieces, pieces]
    split
    · rw [ih, List.cons_append]
    · rw [ih]
      cases hr : pieces cut rest with
      | nil => exact (pieces_ne_nil cut rest hr).elim
      | cons piece others => rfl

theorem pieces_of_not_mem {cut : Char} {cs : List Char} (h : cut ∉ cs) :
    pieces cut cs = [cs] := by
  induction cs with
  | nil => rfl
  | cons c rest ih =>
    simp only [List.mem_cons, not_or] at h
    rw [pieces, if_neg (Ne.symm h.1), ih h.2]

theorem pieces_front {cut : Char} {front : List Char} (h : cut ∉ front) (cs : List Char) :
    ∃ piece others, pieces cut cs = piece :: others ∧
      pieces cut (front ++ cs) = (front ++ piece) :: others := by
  induction front with
  | nil =>
    obtain ⟨piece, others, hp⟩ := List.exists_cons_of_ne_nil (pieces_ne_nil cut cs)
    exact ⟨piece, others, hp, hp⟩
  | cons c rest ih =>
    simp only [List.mem_cons, not_or] at h
    obtain ⟨piece, others, hp, hrest⟩ := ih h.2
    refine ⟨piece, others, hp, ?_⟩
    rw [List.cons_append, pieces, if_neg (Ne.symm h.1), hrest]
    rfl

theorem mem_pieces {cut : Char} {cs piece : List Char} (h : piece ∈ pieces cut cs) :
    cut ∉ piece ∧ ∀ c ∈ piece, c ∈ cs := by
  induction cs generalizing piece with
  | nil =>
    rw [pieces, List.mem_singleton] at h
    simp [h]
  | cons c rest ih =>
    rw [pieces] at h
    split at h
    · rcases List.mem_cons.mp h with rfl | h
      · simp
      · exact ⟨(ih h).1, fun d hd => List.mem_cons_of_mem _ ((ih h).2 d hd)⟩
    · rename_i hc
      cases hr : pieces cut rest with
      | nil => exact (pieces_ne_nil cut rest hr).elim
      | cons first others =>
        simp only [hr] at h
        rcases List.mem_cons.mp h with rfl | h
        · have hfirst := @ih first (hr ▸ List.mem_cons_self)
          refine ⟨?_, ?_⟩
          · simp only [List.mem_cons, not_or]
            exact ⟨Ne.symm hc, hfirst.1⟩
          · intro d hd
            rcases List.mem_cons.mp hd with rfl | hd
            · exact List.mem_cons_self
            · exact List.mem_cons_of_mem _ (hfirst.2 d hd)
        · have hother := @ih piece (hr ▸ List.mem_cons_of_mem _ h)
          exact ⟨hother.1, fun d hd => List.mem_cons_of_mem _ (hother.2 d hd)⟩

theorem exists_piece {cut c : Char} {cs : List Char} (hc : c ∈ cs) (hcut : c ≠ cut) :
    ∃ piece ∈ pieces cut cs, c ∈ piece := by
  induction cs with
  | nil => cases hc
  | cons d rest ih =>
    rw [pieces]
    split
    · rename_i hd
      rcases List.mem_cons.mp hc with rfl | hrest
      · exact absurd hd hcut
      · obtain ⟨piece, hpiece, hmem⟩ := ih hrest
        exact ⟨piece, List.mem_cons_of_mem _ hpiece, hmem⟩
    · cases hr : pieces cut rest with
      | nil => exact (pieces_ne_nil cut rest hr).elim
      | cons first others =>
        rcases List.mem_cons.mp hc with rfl | hrest
        · exact ⟨c :: first, List.mem_cons_self, List.mem_cons_self⟩
        · obtain ⟨piece, hpiece, hmem⟩ := ih hrest
          rw [hr] at hpiece
          rcases List.mem_cons.mp hpiece with rfl | hother
          · exact ⟨d :: piece, List.mem_cons_self, List.mem_cons_of_mem _ hmem⟩
          · exact ⟨piece, List.mem_cons_of_mem _ hother, hmem⟩

theorem piecesOf_ne_nil (cut : Char) (text : String) : piecesOf cut text ≠ [] := by
  simp [piecesOf, pieces_ne_nil]

theorem piecesOf_append (first second : String) :
    piecesOf '/' (first ++ "/" ++ second) = piecesOf '/' first ++ piecesOf '/' second := by
  have hchars : (first ++ "/" ++ second).toList = first.toList ++ '/' :: second.toList := by
    simp
  rw [piecesOf, hchars, pieces_append, List.map_append]
  rfl

theorem piecesOf_of_not_mem {name : String} (h : '/' ∉ name.toList) :
    piecesOf '/' name = [name] := by
  rw [piecesOf, pieces_of_not_mem h, List.map_singleton, String.ofList_toList]

theorem mem_piecesOf {path piece : String} (h : piece ∈ piecesOf '/' path) :
    '/' ∉ piece.toList ∧ ∀ c ∈ piece.toList, c ∈ path.toList := by
  obtain ⟨chars, hc, rfl⟩ := List.mem_map.mp h
  rw [String.toList_ofList]
  exact mem_pieces hc

end CaptureAudit.Text

namespace CaptureAudit.Files

open Text

/-- As `extendPath`, but an empty name leads nowhere from the directory `.`. -/
def extendPath? (path name : String) : Option String :=
  if path = "." && name = "" then none else some (extendPath path name)

/-- The path of a directory as its listing spells it: a leading `.` is dropped and slashes at
the end become one. -/
def listedPath? (directory : String) : Option String :=
  let pieces := Text.piecesOf '/' directory
  if directory = "" || isAbsolute directory then pieces.tail.foldlM extendPath? "/"
  else pieces.foldlM extendPath? "."

def stepNames (path : String) : List String := (pathNames path).filter (· != ".")

theorem step_names_eq (path : String) :
    stepNames path = (piecesOf '/' path).filter fun name => name != "" && name != "." := by
  rw [stepNames, pathNames, List.filter_append, List.filter_filter]
  cases endsInSlash path <;> simp [Bool.and_comm]

theorem ends_in_slash {path : String} (h : endsInSlash path = true) :
    ∃ front, path = front ++ "/" := by
  simp only [endsInSlash, decide_eq_true_eq] at h
  obtain ⟨front, hf⟩ := List.getLast?_eq_some_iff.mp h
  refine ⟨String.ofList front, ?_⟩
  rw [← String.toList_inj, hf]
  simp

theorem extend_suffix (path name : String) : ∃ front, extendPath path name = front ++ name := by
  rw [extendPath]
  split
  · exact ⟨"", by simp⟩
  split
  · exact ⟨path, rfl⟩
  · exact ⟨path ++ "/", rfl⟩

/-- The pieces of a path that is one name longer: those before the name do not depend on it. -/
theorem pieces_extend (path : String) : ∃ before,
    (before.filter fun piece => piece != "" && piece != ".") = stepNames path ∧
    ∀ name : String, '/' ∉ name.toList → piecesOf '/' (extendPath path name) = before ++ [name] := by
  by_cases hdot : path = "."
  · subst hdot
    refine ⟨[], rfl, fun name hn => ?_⟩
    rw [extendPath, if_pos rfl]
    exact piecesOf_of_not_mem hn
  by_cases hend : endsInSlash path = true
  · obtain ⟨front, rfl⟩ := ends_in_slash hend
    refine ⟨piecesOf '/' front, ?_, fun name hn => ?_⟩
    · have hfront := piecesOf_append front ""
      rw [String.append_empty] at hfront
      rw [step_names_eq, hfront, List.filter_append]
      simp [piecesOf, pieces]
    · rw [extendPath, if_neg hdot, if_pos hend, piecesOf_append, piecesOf_of_not_mem hn]
  · refine ⟨piecesOf '/' path, (step_names_eq path).symm, fun name hn => ?_⟩
    rw [extendPath, if_neg hdot, if_neg hend, piecesOf_append, piecesOf_of_not_mem hn]

theorem step_names_extend (path : String) {name : String} (hn : '/' ∉ name.toList) :
    stepNames (extendPath path name) = stepNames path ++ stepNames name := by
  obtain ⟨before, hf, hp⟩ := pieces_extend path
  rw [step_names_eq, hp name hn, List.filter_append, hf, step_names_eq name, piecesOf_of_not_mem hn]

theorem extend_absolute {path name extended : String} (hn : '/' ∉ name.toList) (hp : path ≠ "")
    (h : extendPath? path name = some extended) :
    extended ≠ "" ∧ isAbsolute extended = isAbsolute path := by
  rw [extendPath?] at h
  split at h
  · cases h
  rename_i hempty
  cases h
  simp only [Bool.and_eq_true, decide_eq_true_eq, not_and] at hempty
  cases hc : path.toList with
  | nil => exact (hp (String.toList_eq_nil_iff.mp hc)).elim
  | cons c rest =>
    rw [extendPath]
    split
    · rename_i hdot
      refine ⟨hempty hdot, ?_⟩
      have hname : name.toList.head? ≠ some '/' := fun h => hn (List.mem_of_mem_head? h)
      rw [hdot, isAbsolute, decide_eq_false hname]
      rfl
    split <;> simp [isAbsolute, hc, ← String.toList_eq_nil_iff]

theorem mem_extend {path name : String} {c : Char} (h : c ∈ (extendPath path name).toList) :
    c ∈ path.toList ∨ c ∈ name.toList ∨ c = '/' := by
  rw [extendPath] at h
  split at h
  · exact Or.inr (Or.inl h)
  split at h
  · rw [String.toList_append, List.mem_append] at h
    rcases h with h | h
    · exact Or.inl h
    · exact Or.inr (Or.inl h)
  · simp only [String.toList_append, List.mem_append] at h
    rcases h with (h | h) | h
    · exact Or.inl h
    · exact Or.inr (Or.inr (by simpa using h))
    · exact Or.inr (Or.inl h)

/-- What is kept while the listing spells a path name by name. -/
theorem extend_all {names : List String} {path listed : String}
    (hn : ∀ name ∈ names, '/' ∉ name.toList) (hp : path ≠ "")
    (h : names.foldlM extendPath? path = some listed) :
    listed ≠ "" ∧ isAbsolute listed = isAbsolute path ∧
      stepNames listed = stepNames path ++ names.flatMap stepNames ∧
      ∀ c ∈ listed.toList, c ∈ path.toList ∨ c = '/' ∨ ∃ name ∈ names, c ∈ name.toList := by
  induction names generalizing path with
  | nil =>
    cases h
    exact ⟨hp, rfl, by simp, fun c hc => Or.inl hc⟩
  | cons name rest ih =>
    rw [List.foldlM_cons] at h
    obtain ⟨extended, he, h⟩ := Option.bind_eq_some_iff.mp h
    have hname := hn name List.mem_cons_self
    obtain ⟨hne, habs⟩ := extend_absolute hname hp he
    have hext : extended = extendPath path name := by
      unfold extendPath? at he
      split at he
      · cases he
      · exact (Option.some.inj he).symm
    obtain ⟨hl, ha, hs, hc⟩ := ih (fun n hm => hn n (List.mem_cons_of_mem _ hm)) hne h
    refine ⟨hl, ha.trans habs, ?_, ?_⟩
    · rw [hs, hext, step_names_extend path hname, List.append_assoc, List.flatMap_cons]
    · intro c hm
      rcases hc c hm with hm | hm | ⟨n, hn', hm⟩
      · rw [hext] at hm
        rcases mem_extend hm with hm | hm | hm
        · exact Or.inl hm
        · exact Or.inr (Or.inr ⟨name, List.mem_cons_self, hm⟩)
        · exact Or.inr (Or.inl hm)
      · exact Or.inr (Or.inl hm)
      · exact Or.inr (Or.inr ⟨n, List.mem_cons_of_mem _ hn', hm⟩)

theorem step_names_flatMap {names : List String} (hn : ∀ name ∈ names, '/' ∉ name.toList) :
    names.flatMap stepNames = names.filter fun name => name != "" && name != "." := by
  induction names with
  | nil => rfl
  | cons name rest ih =>
    have hname := piecesOf_of_not_mem (hn name List.mem_cons_self)
    rw [List.flatMap_cons, ih fun n hm => hn n (List.mem_cons_of_mem _ hm), step_names_eq, hname,
      ← List.filter_append, List.singleton_append]

theorem pieces_absolute {path : String} (h : isAbsolute path = true) :
    ∃ rest, piecesOf '/' path = "" :: rest := by
  simp only [isAbsolute, decide_eq_true_eq] at h
  obtain ⟨rest, hr⟩ := List.head?_eq_some_iff.mp h
  exact ⟨(pieces '/' rest).map String.ofList, by simp [piecesOf, hr, pieces]⟩

theorem pieces_empty_head {path : String} {rest : List String}
    (h : piecesOf '/' path = "" :: rest) : path = "" ∨ isAbsolute path = true := by
  cases hp : path.toList with
  | nil => exact Or.inl (String.toList_eq_nil_iff.mp hp)
  | cons c tail =>
    by_cases hc : c = '/'
    · exact Or.inr (by simp [isAbsolute, hp, hc])
    · rw [piecesOf, hp, pieces, if_neg hc] at h
      cases hr : pieces '/' tail with
      | nil => exact (pieces_ne_nil '/' tail hr).elim
      | cons piece others => simp [hr, ← String.toList_eq_nil_iff] at h

/-- The listing spells a directory with the steps of its path. -/
theorem listed_spells {directory listed : String} (hd : directory ≠ "")
    (h : listedPath? directory = some listed) :
    listed ≠ "" ∧ isAbsolute listed = isAbsolute directory ∧
      stepNames listed = stepNames directory ∧
      ∀ c ∈ listed.toList, c ∈ directory.toList ∨ c = '.' ∨ c = '/' := by
  have hpieces : ∀ piece ∈ piecesOf '/' directory, '/' ∉ piece.toList := fun _ hm =>
    (mem_piecesOf hm).1
  rw [listedPath?] at h
  simp only [hd, decide_false, Bool.false_or] at h
  cases habs : isAbsolute directory with
  | true =>
    rw [habs, if_pos rfl] at h
    obtain ⟨rest, hr⟩ := pieces_absolute habs
    have htail : ∀ piece ∈ rest, '/' ∉ piece.toList := fun piece hm =>
      hpieces piece (hr ▸ List.mem_cons_of_mem _ hm)
    rw [hr, List.tail_cons] at h
    obtain ⟨hne, ha, hs, hc⟩ := extend_all htail (by decide) h
    refine ⟨hne, ha, ?_, ?_⟩
    · rw [hs, step_names_flatMap htail, step_names_eq directory, hr]
      rfl
    · intro c hm
      rcases hc c hm with hm | hm | ⟨piece, hp, hm⟩
      · exact Or.inr (Or.inr (by simpa using hm))
      · exact Or.inr (Or.inr hm)
      · exact Or.inl ((mem_piecesOf (hr ▸ List.mem_cons_of_mem _ hp)).2 c hm)
  | false =>
    rw [habs, if_neg (by decide)] at h
    obtain ⟨hne, ha, hs, hc⟩ := extend_all hpieces (by decide) h
    refine ⟨hne, ha, ?_, ?_⟩
    · rw [hs, step_names_flatMap hpieces, step_names_eq directory]
      rfl
    · intro c hm
      rcases hc c hm with hm | hm | ⟨piece, hp, hm⟩
      · exact Or.inr (Or.inl (by simpa using hm))
      · exact Or.inr (Or.inr hm)
      · exact Or.inl ((mem_piecesOf hp).2 c hm)

theorem listed_nonempty {directory listed : String} (h : listedPath? directory = some listed) :
    listed ≠ "" := by
  have hpieces : ∀ piece ∈ piecesOf '/' directory, '/' ∉ piece.toList := fun _ hm =>
    (mem_piecesOf hm).1
  rw [listedPath?] at h
  split at h
  · exact (extend_all (fun piece hm => hpieces piece (List.mem_of_mem_tail hm)) (by decide) h).1
  · exact (extend_all hpieces (by decide) h).1

/-- Of a directory's characters, the listing leaves out only dots and slashes. -/
theorem listed_keeps {directory listed : String} (hd : directory ≠ "")
    (h : listedPath? directory = some listed) {c : Char} (hc : c ∈ directory.toList)
    (hslash : c ≠ '/') (hdot : c ≠ '.') : c ∈ listed.toList := by
  obtain ⟨chars, hchars, hmem⟩ := exists_piece hc hslash
  have hpiece : String.ofList chars ∈ piecesOf '/' directory := List.mem_map_of_mem hchars
  have hmem' : c ∈ (String.ofList chars).toList := by rwa [String.toList_ofList]
  have hstep : String.ofList chars ∈ stepNames directory := by
    rw [step_names_eq, List.mem_filter, Bool.and_eq_true, bne_iff_ne, bne_iff_ne]
    refine ⟨hpiece, ?_, ?_⟩
    · intro hempty
      rw [hempty] at hmem'
      cases hmem'
    · intro hone
      rw [hone] at hmem'
      exact hdot (List.mem_singleton.mp hmem')
  rw [← (listed_spells hd h).2.2.1, step_names_eq, List.mem_filter] at hstep
  exact (mem_piecesOf hstep.1).2 c hmem'

/-- The directory is spelled `./`, once or more often, and then nothing or a slash. -/
def DotsThenEmpty (directory : String) : Prop :=
  ∃ n rest, piecesOf '/' directory = List.replicate (n + 1) "." ++ "" :: rest

theorem extend_past_dot {path name : String} (hp : path ≠ ".") :
    ∃ extended, extendPath? path name = some extended ∧ extended ≠ "." := by
  refine ⟨extendPath path name, by simp [extendPath?, hp], ?_⟩
  have hslash : '/' ∈ (extendPath path name).toList := by
    rw [extendPath]
    rw [if_neg hp]
    split
    · rename_i hs
      obtain ⟨front, rfl⟩ := ends_in_slash hs
      simp
    · simp
  intro he
  rw [he] at hslash
  simp at hslash

theorem extend_all_past_dot {names : List String} {path : String} (hp : path ≠ ".") :
    names.foldlM extendPath? path ≠ none := by
  induction names generalizing path with
  | nil => simp
  | cons name rest ih =>
    obtain ⟨extended, he, hne⟩ := @extend_past_dot path name hp
    rw [List.foldlM_cons, he]
    exact ih hne

theorem extend_all_none_iff (names : List String) : names.foldlM extendPath? "." = none ↔
    ∃ n rest, names = List.replicate n "." ++ "" :: rest := by
  induction names with
  | nil => simp
  | cons name rest ih =>
    rw [List.foldlM_cons]
    by_cases hempty : name = ""
    · subst hempty
      exact iff_of_true rfl ⟨0, rest, rfl⟩
    have hext : extendPath? "." name = some name := by simp [extendPath?, hempty, extendPath]
    rw [hext]
    by_cases hdot : name = "."
    · subst hdot
      refine ih.trans ⟨?_, ?_⟩
      · rintro ⟨n, others, rfl⟩
        exact ⟨n + 1, others, rfl⟩
      · rintro ⟨n, others, he⟩
        cases n with
        | zero => simp at he
        | succ n => exact ⟨n, others, (List.cons.inj he).2⟩
    · refine iff_of_false (extend_all_past_dot hdot) ?_
      rintro ⟨n, others, he⟩
      cases n with
      | zero => exact hempty (List.cons.inj he).1
      | succ n => exact hdot (List.cons.inj he).1

/-- Only that spelling of a directory leads its listing nowhere. -/
theorem listed_none_iff (directory : String) :
    listedPath? directory = none ↔ DotsThenEmpty directory := by
  rw [listedPath?, DotsThenEmpty]
  simp only [Bool.or_eq_true, decide_eq_true_eq]
  split
  · rename_i hroot
    refine iff_of_false (extend_all_past_dot (by decide)) ?_
    rintro ⟨n, rest, he⟩
    rcases hroot with rfl | habs
    · simp [piecesOf, pieces, List.replicate_succ] at he
    · obtain ⟨tail, ht⟩ := pieces_absolute habs
      simp [ht, List.replicate_succ] at he
  · rename_i hroot
    rw [extend_all_none_iff]
    constructor
    · rintro ⟨n, rest, he⟩
      cases n with
      | zero => exact (hroot (pieces_empty_head he)).elim
      | succ n => exact ⟨n, rest, he⟩
    · rintro ⟨n, rest, he⟩
      exact ⟨n + 1, rest, he⟩

theorem not_dots_of_listed {directory listed : String} (hl : listedPath? directory = some listed) :
    ¬DotsThenEmpty directory := by
  rw [← listed_none_iff, hl]
  exact Option.some_ne_none listed

end CaptureAudit.Files
