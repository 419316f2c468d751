import CaptureAudit.Proofs.Files.Spelling

/-! # What a path leads to

A path is resolved by walking its names from the root or from the working directory. So a path
that leads to a directory has been at a directory after each of its names, and each name that is
not made of dots is a name of the directory before it. -/
namespace CaptureAudit.Files

namespace Entries

theorem mem_names {entries : Entries} {name : String} :
    name ∈ entries.names ↔ name ∈ entries.map Prod.fst := List.mem_eraseDups

theorem nodup_eraseDups (names : List String) : names.eraseDups.Nodup := by
  -- What follows a name is filtered first, so the induction is on the length.
  induction h : names.length using Nat.strongRecOn generalizing names with
  | ind n ih =>
    cases names with
    | nil => simp
    | cons name rest =>
      rw [List.eraseDups_cons, List.nodup_cons]
      refine ⟨by simp, ih _ ?_ _ rfl⟩
      subst h
      exact Nat.lt_succ_of_le (List.length_filter_le _ _)

theorem nodup_names (entries : Entries) : entries.names.Nodup := nodup_eraseDups _

end Entries

namespace Volume

variable {volume : Volume} {path name extended : String} {place : Route}

def start (volume : Volume) (path : String) : Route := pathStart path volume.home

theorem start_of_absolute {first second : String} (h : isAbsolute first = isAbsolute second) :
    volume.start first = volume.start second := by
  rw [start, start, pathStart, pathStart, h]

theorem resolve_ok (h : volume.resolve path = .ok place) :
    '\x00' ∉ path.toList ∧ path ≠ "" ∧ path.utf8ByteSize < maxPathSize ∧
      volume.walk maxLinks (volume.start path) (pathNames path) = .ok place := by
  rw [resolve] at h
  split at h
  · cases h
  rename_i hnul
  split at h
  · cases h
  rename_i hempty
  split at h
  · cases h
  rename_i hsize
  exact ⟨by simpa using hnul, hempty, Nat.lt_of_not_le hsize, h⟩

theorem resolve_eq (hnul : '\x00' ∉ path.toList) (hempty : path ≠ "")
    (hsize : path.utf8ByteSize < maxPathSize) : volume.resolve path =
      volume.walk maxLinks (volume.start path) (pathNames path) := by
  rw [resolve]
  rw [if_neg (by simpa using hnul), if_neg hempty, if_neg (Nat.not_le_of_lt hsize)]
  rfl

/-- Two paths with the same steps lead to the same places below any last name. -/
theorem same_steps {first second : String} (h : stepNames first = stepNames second)
    (last : String) :
    volume.SameWalk (pathNames first ++ [last]) (pathNames second ++ [last]) := by
  intro links place
  rw [same_without_dots (pathNames first), same_without_dots (pathNames second)]
  exact congrArg (fun names => volume.walk links place (names ++ [last])) h

theorem names_some_iff {names : List String} : volume.names? path = some names ↔
    ∃ place entries, volume.resolve path = .ok place ∧
      volume.nodeAt? place = some (.directory entries) ∧ names = Entries.names entries := by
  rw [names?, node?]
  cases hr : volume.resolve path with
  | error error => simp
  | ok place =>
    cases hn : volume.nodeAt? place with
    | none => simp [hn]
    | some node => cases node <;> simp [hn, eq_comm]

theorem kind_some {kind : FileKind} (h : volume.kind? path = some kind) :
    ∃ place, volume.resolve path = .ok place := by
  rw [kind?, node?] at h
  cases hr : volume.resolve path with
  | error error => simp [hr] at h
  | ok place => exact ⟨place, rfl⟩

theorem directory_kind_iff :
    volume.kind? path = some .directory ↔ volume.names? path ≠ none := by
  rw [kind?, names?]
  cases volume.node? path with
  | none => simp
  | some node => cases node <;> simp [Node.kind]

theorem file_kind_iff : volume.kind? path = some .file ↔
    ∃ place bytes, volume.resolve path = .ok place ∧
      volume.nodeAt? place = some (.file bytes) := by
  rw [kind?, node?]
  cases hr : volume.resolve path with
  | error error => simp
  | ok place =>
    cases hn : volume.nodeAt? place with
    | none => simp [hn]
    | some node => cases node <;> simp [hn, Node.kind]

theorem leads_by_steps (hnul : '\x00' ∉ path.toList) (hempty : path ≠ "")
    (hsize : path.utf8ByteSize < maxPathSize) :
    volume.resolve path = .ok place ∧ volume.IsDirectory place ↔
      volume.walk maxLinks (volume.start path) (stepNames path ++ ["."]) = .ok place := by
  rw [resolve_eq hnul hempty hsize, ← walk_to_directory, same_without_dots]
  rfl

theorem size_extend (h : extendPath? path name = some extended) :
    path.utf8ByteSize ≤ extended.utf8ByteSize := by
  rw [extendPath?] at h
  split at h
  · cases h
  rename_i hempty
  simp only [Bool.and_eq_true, decide_eq_true_eq, not_and] at hempty
  cases h
  rw [extendPath]
  split
  · rename_i hp
    have hpos : name.utf8ByteSize ≠ 0 := fun h => hempty hp (String.utf8ByteSize_eq_zero_iff.mp h)
    have hone : ".".utf8ByteSize = 1 := rfl
    rw [hp, hone]
    exact Nat.one_le_iff_ne_zero.mpr hpos
  split
  · rw [String.utf8ByteSize_append]
    exact Nat.le_add_right _ _
  · rw [String.utf8ByteSize_append, String.utf8ByteSize_append, Nat.add_assoc]
    exact Nat.le_add_right _ _

theorem extend_keeps {c : Char} (hdot : path ≠ ".") (hc : c ∈ path.toList) :
    c ∈ (extendPath path name).toList := by
  rw [extendPath, if_neg hdot]
  split <;> simp [hc]

theorem extend_eq (h : extendPath? path name = some extended) :
    extended = extendPath path name := by
  rw [extendPath?] at h
  split at h
  · cases h
  · exact (Option.some.inj h).symm

/-- A path that leads to a directory has been at a directory before its last name, and there that name is
found, unless it is empty or made of dots. -/
theorem names_of_extended (hslash : '/' ∉ name.toList) (hpath : path ≠ "")
    (hext : extendPath? path name = some extended) (h : volume.names? extended ≠ none) :
    ∃ names, volume.names? path = some names ∧
      (name ≠ "" → name ≠ "." → name ≠ ".." → name ∈ names) := by
  obtain ⟨_, hnames⟩ := Option.ne_none_iff_exists'.mp h
  obtain ⟨target, inner, hr, hinner, -⟩ := names_some_iff.mp hnames
  obtain ⟨hnul, hempty, hsize, -⟩ := resolve_ok hr
  have habs := (extend_absolute hslash hpath hext).2
  have hwalk := (leads_by_steps hnul hempty hsize).mp ⟨hr, inner, hinner⟩
  have hextended := extend_eq hext
  rw [start_of_absolute habs, hextended, step_names_extend path hslash, List.append_assoc] at hwalk
  have hnul' : '\x00' ∉ path.toList := by
    intro hc
    by_cases hdot : path = "."
    · rw [hdot] at hc
      simp at hc
    · exact hnul (hextended ▸ extend_keeps hdot hc)
  have hsize' := Nat.lt_of_le_of_lt (size_extend hext) hsize
  cases cut_names volume maxLinks (volume.start path) (stepNames path) with
  | failed error hw =>
    rw [hw] at hwalk
    cases hwalk
  | arrived there fewer hok hw =>
    rw [hw] at hwalk
    have hdirectory : volume.IsDirectory there := by
      obtain ⟨next, rest, hrest⟩ : ∃ next rest, stepNames name ++ ["."] = next :: rest :=
        List.exists_cons_of_ne_nil (by simp)
      refine Classical.byContradiction fun hd => ?_
      rw [hrest, walk_not_directory hd] at hwalk
      cases hwalk
    obtain ⟨hplace, entries, hentries⟩ :=
      (leads_by_steps hnul' hpath hsize').mpr (walk_to_directory.mpr ⟨hok, hdirectory⟩)
    refine ⟨_, names_some_iff.mpr ⟨there, entries, hplace, hentries, rfl⟩, ?_⟩
    intro hne hdot hup
    have hstep : stepNames name = [name] := by
      rw [step_names_eq, Text.piecesOf_of_not_mem hslash]
      simp [hne, hdot]
    rw [hstep, List.singleton_append] at hwalk
    obtain ⟨entries', hentries', hmem⟩ := walk_names hdot hup hwalk
    rw [hentries] at hentries'
    cases hentries'
    exact Entries.mem_names.mpr hmem

end Volume

end CaptureAudit.Files
