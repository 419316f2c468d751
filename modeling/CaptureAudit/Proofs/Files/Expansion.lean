import CaptureAudit.Proofs.Files.Escaping
import CaptureAudit.Proofs.Files.Resolving
import Mathlib.Data.List.Basic

/-! # What an escaped directory expands to

The pattern for the grammars of a directory is expanded name by name. Where the directory has
special characters the names are matched, and where it has none they are taken as they are; what
is found is the same, so the expansion is that of `.json` names in one directory, which its listed
path leads to. -/
namespace CaptureAudit.Files

open Glob (escaped jsonPattern)
open Text (piecesOf)

theorem filterM_run {α : Type} (test : α → Id Bool) (all : List α) :
    (all.filterM test).run = all.filter fun a => (test a).run := by
  have haux (held : List α) : (all.filterAuxM test held).run =
      (all.filter fun a => (test a).run).reverse ++ held := by
    induction all generalizing held with
    | nil => rfl
    | cons a rest ih =>
      rw [List.filterAuxM, List.filter_cons]
      cases h : (test a).run <;> simp_all
  simp [List.filterM, haux]

namespace Volume

variable {volume : Volume} {path name : String}

def isGrammarName (name : String) : Bool := ".json".toList.isSuffixOf name.toList

def isFile (volume : Volume) (path : String) : Bool := volume.kind? path = some .file

def grammarNames (volume : Volume) (listed : String) : List String :=
  sortNames <| ((volume.names? listed).getD []).filter fun name =>
    isGrammarName name && volume.isFile (extendPath listed name)

def patternOf (name : String) : Glob.Pattern := name.toList.map escaped

theorem expand_cons (volume : Volume) (path : String) (pattern : Glob.Pattern)
    (rest : List Glob.Pattern) : (expand volume.access path (pattern :: rest)).run =
      (pick volume.access path pattern).run.flatMap fun name =>
        (expand volume.access (extendPath path name) rest).run := by
  rw [expand, List.flatMap_def]
  simp [List.idRun_mapM]

theorem reaches_run (volume : Volume) (path name : String) :
    (reaches volume.access path name).run =
      if isDotName name then decide (volume.kind? path = some .directory)
      else (volume.kind? (extendPath path name)).isSome := by
  rw [reaches]
  split <;> rfl

theorem pick_literal (hplain : Glob.isPlain name.toList = true) :
    (pick volume.access path (patternOf name)).run =
      if (reaches volume.access path name).run then [name] else [] := by
  rw [pick, patternOf, Glob.literal_escape, if_pos hplain]
  simp [pickLiteral]

theorem fits_name (name other : String) :
    Glob.fits (patternOf name) other.toList = decide (other = name) := by
  rw [Bool.eq_iff_iff, patternOf, Glob.fits_escape, String.toList_inj, decide_eq_true_eq]

/-- Only the name itself fits an escaped name with special characters. -/
theorem fitting_special (hspecial : Glob.isPlain name.toList = false)
    {names : List String} (hn : names.Nodup) :
    fittingNames (patternOf name) names = if name ∈ names then [name] else [] := by
  have hdots (dots : List String) (hd : ∀ dot ∈ dots, dot = "." ∨ dot = "..") :
      (dots.filter fun dot => decide (dot = name)) = [] := by
    rw [List.filter_eq_nil_iff]
    intro dot hdot
    rw [decide_eq_true_eq]
    rintro rfl
    rcases hd _ hdot with rfl | rfl <;> cases hspecial
  have hsorted : (sortNames names).Perm names := List.mergeSort_perm _ _
  simp only [fittingNames, fits_name, List.filter_append]
  rw [hdots _ (by split <;> simp), List.nil_append, List.filter_eq, hsorted.count_eq]
  split
  · rename_i hm
    rw [hn.count, if_pos hm, List.replicate_one]
  · rename_i hm
    rw [List.count_eq_zero.mpr hm, List.replicate_zero]

theorem pick_special (hspecial : Glob.isPlain name.toList = false) :
    (pick volume.access path (patternOf name)).run =
      if name ∈ (volume.names? path).getD [] then [name] else [] := by
  have hpick : (pick volume.access path (patternOf name)).run =
      ((volume.names? path).map (fittingNames (patternOf name))).getD [] := by
    rw [pick, patternOf, Glob.literal_escape, if_neg (by simp [hspecial])]
    rfl
  rw [hpick]
  cases hnames : volume.names? path with
  | none => simp
  | some names =>
    obtain ⟨place, entries, -, -, rfl⟩ := names_some_iff.mp hnames
    rw [Option.map_some, Option.getD_some, Option.getD_some]
    exact fitting_special hspecial (Entries.nodup_names entries)

/-- Whatever characters a name has, it is picked if it leads to a directory below. -/
theorem pick_name {extended : String} (hslash : '/' ∉ name.toList) (hpath : path ≠ "")
    (hext : extendPath? path name = some extended) (h : volume.names? extended ≠ none) :
    (pick volume.access path (patternOf name)).run = [name] := by
  obtain ⟨names, hnames, hmem⟩ := names_of_extended hslash hpath hext h
  by_cases hplain : Glob.isPlain name.toList = true
  · have hreaches : (reaches volume.access path name).run = true := by
      rw [reaches_run]
      split
      · rw [decide_eq_true_eq, directory_kind_iff, hnames]
        simp
      · rw [← extend_eq hext, directory_kind_iff.mpr h]
        rfl
    rw [pick_literal hplain, if_pos hreaches]
  · have hne : name ≠ "" := by
      rintro rfl
      exact hplain rfl
    have hdot : name ≠ "." := by
      rintro rfl
      exact hplain rfl
    have hup : name ≠ ".." := by
      rintro rfl
      exact hplain rfl
    rw [pick_special (Bool.eq_false_iff.mpr hplain), hnames, Option.getD_some, if_pos (hmem hne hdot hup)]

/-- A name picks itself or nothing, and what it picks can be followed. -/
theorem pick_subset (volume : Volume) (path name : String) :
    (pick volume.access path (patternOf name)).run = [] ∨
      (pick volume.access path (patternOf name)).run = [name] := by
  by_cases hplain : Glob.isPlain name.toList = true
  · rw [pick_literal hplain]
    split
    · exact .inr rfl
    · exact .inl rfl
  · rw [pick_special (Bool.eq_false_iff.mpr hplain)]
    split
    · exact .inr rfl
    · exact .inl rfl

/-- An empty name leads nowhere from `.`, so it is not picked there. -/
theorem pick_nowhere (h : extendPath? path name = none) :
    (pick volume.access path (patternOf name)).run = [] := by
  rw [extendPath?] at h
  split at h
  · rename_i hempty
    simp only [Bool.and_eq_true, decide_eq_true_eq] at hempty
    obtain ⟨rfl, rfl⟩ := hempty
    have hnowhere : (reaches volume.access "." "").run = false := rfl
    rw [pick_literal rfl, hnowhere]
    rfl
  · cases h

theorem names_of_listed {names : List String} {listed : String}
    (hslash : ∀ name ∈ names, '/' ∉ name.toList) (hpath : path ≠ "")
    (hl : names.foldlM extendPath? path = some listed) (h : volume.names? listed ≠ none) :
    volume.names? path ≠ none := by
  induction names generalizing path with
  | nil =>
    cases hl
    exact h
  | cons name rest ih =>
    rw [List.foldlM_cons] at hl
    obtain ⟨extended, hext, hl⟩ := Option.bind_eq_some_iff.mp hl
    have hname := hslash name List.mem_cons_self
    have hne := (extend_absolute hname hpath hext).1
    have hnames := ih (fun other ho => hslash other (List.mem_cons_of_mem _ ho)) hne hl
    obtain ⟨found, hfound, -⟩ := names_of_extended hname hpath hext hnames
    simp [hfound]

theorem pick_json (volume : Volume) (listed : String) :
    (pick volume.access listed jsonPattern).run =
      (sortNames ((volume.names? listed).getD [])).filter isGrammarName := by
  have hpick : (pick volume.access listed jsonPattern).run =
      ((volume.names? listed).map (fittingNames jsonPattern)).getD [] := rfl
  have hfits (name : String) : Glob.fits jsonPattern name.toList = isGrammarName name := by
    rw [Bool.eq_iff_iff, Glob.fits_json, isGrammarName, List.isSuffixOf_iff_suffix]
  rw [hpick]
  cases volume.names? listed with
  | none => simp [sortNames]
  | some names =>
    have hdots : jsonPattern.head? ≠ some (.char '.') := by decide
    simp only [Option.map_some, Option.getD_some, fittingNames, hfits, if_neg hdots]
    rfl

theorem expand_json (volume : Volume) (listed : String) :
    (expand volume.access listed [jsonPattern]).run =
      ((sortNames ((volume.names? listed).getD [])).filter isGrammarName).map
        (extendPath listed) := by
  have hlast (name : String) : (expand volume.access (extendPath listed name) []).run =
      [extendPath listed name] := rfl
  rw [expand_cons, pick_json, List.map_eq_flatMap]
  simp only [hlast]

theorem expand_names {names : List String} (hslash : ∀ name ∈ names, '/' ∉ name.toList)
    (hpath : path ≠ "") :
    (expand volume.access path (names.map patternOf ++ [jsonPattern])).run =
      match names.foldlM extendPath? path with
      | none => []
      | some listed => (expand volume.access listed [jsonPattern]).run := by
  induction names generalizing path with
  | nil => rfl
  | cons name rest ih =>
    have hname := hslash name List.mem_cons_self
    have hrest : ∀ other ∈ rest, '/' ∉ other.toList := fun other ho =>
      hslash other (List.mem_cons_of_mem _ ho)
    rw [List.map_cons, List.cons_append, expand_cons, List.foldlM_cons]
    cases hext : extendPath? path name with
    | none =>
      rw [pick_nowhere hext]
      rfl
    | some extended =>
      have hne := (extend_absolute hname hpath hext).1
      rw [Option.bind_eq_bind, Option.bind_some]
      rcases pick_subset volume path name with hpick | hpick
      · -- Nothing is found on the way, so there is no directory at the end of it.
        rw [hpick, List.flatMap_nil]
        cases hl : rest.foldlM extendPath? extended with
        | none => rfl
        | some listed =>
          have hnone : volume.names? listed = none := by
            refine Classical.byContradiction fun h => ?_
            have hpicked := pick_name hname hpath hext (names_of_listed hrest hne hl h)
            rw [hpick] at hpicked
            cases hpicked
          simp [expand_json, hnone, sortNames]
      · rw [hpick, List.flatMap_singleton, ← extend_eq hext]
        exact ih hrest hne

/-- The pattern for the grammars of a directory expands to the `.json` names under its listed path. -/
theorem glob_escape (volume : Volume) (directory : String) :
    (glob volume.access (Glob.escape directory ++ "/*.json")).run =
      match listedPath? directory with
      | none => []
      | some listed => ((sortNames ((volume.names? listed).getD [])).filter isGrammarName).map
          (extendPath listed) := by
  have hslash : ∀ piece ∈ piecesOf '/' directory, '/' ∉ piece.toList := fun _ hm =>
    (Text.mem_piecesOf hm).1
  obtain ⟨piece, others, hp⟩ := List.exists_cons_of_ne_nil (Text.piecesOf_ne_nil '/' directory)
  rw [glob, Glob.absolute_pattern, Glob.pieces_pattern, listedPath?]
  by_cases hroot : (decide (directory = "") || isAbsolute directory) = true
  · have htail : ∀ piece ∈ others, '/' ∉ piece.toList := fun piece hm =>
      hslash piece (hp ▸ List.mem_cons_of_mem _ hm)
    simp only [if_pos hroot]
    rw [hp, List.map_cons, List.cons_append, List.drop_succ_cons, List.drop_zero, Glob.read_pattern,
      List.tail_cons]
    simp only [← expand_json]
    exact expand_names htail (by decide)
  · simp only [if_neg hroot]
    rw [List.drop_zero, Glob.read_pattern]
    simp only [← expand_json]
    exact expand_names hslash (by decide)

end Volume

end CaptureAudit.Files
