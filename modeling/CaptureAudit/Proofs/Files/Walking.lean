import CaptureAudit.Files.Tree

/-! # Walks

A walk only depends on the names it still has to follow. So it can be cut after any of them, and
names that change nothing can be left out. The inductions are on the links that may be followed,
and then on the names. -/
namespace CaptureAudit.Files

namespace Entries

theorem inside_iff {entries inner : Entries} {name : String} :
    entries.inside name = some inner ↔ entries.lookup name = some (.directory inner) := by
  rw [inside]
  split
  · rename_i there hl
    simp [hl]
  · rename_i hl
    exact iff_of_false (by simp) (hl inner)

theorem mem_of_lookup {entries : Entries} {name : String} {node : Node}
    (h : entries.lookup name = some node) : (name, node) ∈ entries := by
  obtain ⟨before, after, rfl, -⟩ := List.lookup_eq_some_iff.mp h
  simp

theorem at_cons (entries : Entries) (name : String) {rest : List String} (hr : rest ≠ []) :
    entries.at? (name :: rest) = (entries.inside name).bind fun inner => at? inner rest := by
  obtain ⟨next, others, rfl⟩ := List.exists_cons_of_ne_nil hr
  rw [at?]
  · cases entries.inside name <;> rfl
  · simp

/-- What stands further down stands in a directory. -/
theorem at_append {entries : Entries} {route rest : Route} {node : Node} (hr : rest ≠ []) :
    entries.at? (route ++ rest) = some node ↔
      ∃ inner, entries.at? route = some (.directory inner) ∧ at? inner rest = some node := by
  induction route generalizing entries with
  | nil =>
    constructor
    · intro h
      exact ⟨entries, rfl, h⟩
    · rintro ⟨inner, h, hrest⟩
      cases h
      exact hrest
  | cons name others ih =>
    rw [List.cons_append, at_cons _ _ (by simp [hr]), Option.bind_eq_some_iff]
    simp only [ih]
    cases others with
    | nil =>
      simp only [at?, inside_iff]
      constructor
      · rintro ⟨there, hl, inner, he, h⟩
        cases he
        exact ⟨there, hl, h⟩
      · rintro ⟨inner, hl, h⟩
        exact ⟨inner, hl, inner, rfl, h⟩
    | cons next more =>
      rw [at_cons _ _ (by simp)]
      simp only [Option.bind_eq_some_iff]
      constructor
      · rintro ⟨there, hi, inner, hat, h⟩
        exact ⟨inner, ⟨there, hi, hat⟩, h⟩
      · rintro ⟨inner, ⟨there, hi, hat⟩, h⟩
        exact ⟨there, hi, inner, hat, h⟩

end Entries

namespace Volume

variable {volume : Volume}

def IsDirectory (volume : Volume) (place : Route) : Prop :=
  ∃ entries, volume.nodeAt? place = some (.directory entries)

/-- What one name does: it ends the walk, leads to a place, or stands for the names of a link. -/
inductive NameStep (volume : Volume) (links : Nat) (place : Route) (name : String) : Prop
  | fails (error : FileError) :
      (∀ rest, volume.walk links place (name :: rest) = .error error) →
      NameStep volume links place name
  | leads (next : Route) : volume.IsDirectory place →
      (∀ rest, volume.walk links place (name :: rest) = volume.walk links next rest) →
      NameStep volume links place name
  | follows (fewer : Nat) (next : Route) (names : List String) : volume.IsDirectory place →
      fewer < links →
      (∀ rest, volume.walk links place (name :: rest) = volume.walk fewer next (names ++ rest)) →
      NameStep volume links place name

theorem walk_not_directory {links : Nat} {place : Route} (hd : ¬volume.IsDirectory place)
    (name : String) (rest : List String) :
    volume.walk links place (name :: rest) = .error .notDirectory := by
  rw [walk]
  split
  · rename_i entries he
    exact (hd ⟨entries, he⟩).elim
  · rfl

theorem walk_entry {links : Nat} {place : Route} {entries : Entries} {name : String}
    {node : Node} (he : volume.nodeAt? place = some (.directory entries))
    (hdot : name ≠ ".") (hup : name ≠ "..") (hsize : ¬name.utf8ByteSize > maxNameSize)
    (hl : entries.lookup name = some node) (hnode : ∀ target, node ≠ .link target)
    (rest : List String) :
    volume.walk links place (name :: rest) = volume.walk links (place ++ [name]) rest := by
  rw [walk, he]
  cases node with
  | link target => exact (hnode target rfl).elim
  | file | directory => simp only [hdot, hup, hsize, hl, if_false]

theorem walk_link {links : Nat} {place : Route} {entries : Entries} {name target : String}
    (he : volume.nodeAt? place = some (.directory entries))
    (hdot : name ≠ ".") (hup : name ≠ "..") (hsize : ¬name.utf8ByteSize > maxNameSize)
    (hl : entries.lookup name = some (.link target)) (rest : List String) :
    volume.walk (links + 1) place (name :: rest) =
      volume.walk links (pathStart target place) (pathNames target ++ rest) := by
  rw [walk, he]
  simp only [hdot, hup, hsize, hl, if_false]

theorem name_step (volume : Volume) (links : Nat) (place : Route) (name : String) :
    NameStep volume links place name := by
  by_cases hd : ¬volume.IsDirectory place
  · exact .fails .notDirectory (walk_not_directory hd name)
  obtain ⟨entries, he⟩ := Classical.not_not.mp hd
  by_cases hdot : name = "."
  · refine .leads place ⟨entries, he⟩ fun rest => ?_
    rw [walk, he]
    simp only [hdot, if_true]
  by_cases hup : name = ".."
  · refine .leads place.dropLast ⟨entries, he⟩ fun rest => ?_
    rw [walk, he]
    simp only
    rw [if_neg hdot, if_pos hup]
  by_cases hlong : name.utf8ByteSize > maxNameSize
  · refine .fails .nameTooLong fun rest => ?_
    rw [walk, he]
    simp only [hdot, hup, hlong, if_false, if_true]
  cases hl : entries.lookup name with
  | none =>
    refine .fails .notFound fun rest => ?_
    rw [walk, he]
    simp only [hdot, hup, hlong, hl, if_false]
  | some node =>
    cases node with
    | link target =>
      cases links with
      | zero =>
        refine .fails .tooManyLinks fun rest => ?_
        rw [walk, he]
        simp only [hdot, hup, hlong, hl, if_false]
      | succ links =>
        exact .follows links (pathStart target place) (pathNames target)
          ⟨entries, he⟩ (Nat.lt_succ_self links) (walk_link he hdot hup hlong hl)
    | file | directory =>
      exact .leads (place ++ [name]) ⟨entries, he⟩ (walk_entry he hdot hup hlong hl (by simp))

/-- How a walk goes on after some names: it has failed, or it is at a place and has some links left. -/
inductive Cut (volume : Volume) (links : Nat) (place : Route) (names : List String) : Prop
  | failed (error : FileError) :
      (∀ rest, volume.walk links place (names ++ rest) = .error error) →
      Cut volume links place names
  | arrived (target : Route) (fewer : Nat) : volume.walk links place names = .ok target →
      (∀ rest, volume.walk links place (names ++ rest) = volume.walk fewer target rest) →
      Cut volume links place names

theorem cut_names (volume : Volume) (links : Nat) (place : Route) (names : List String) :
    Cut volume links place names := by
  -- A link leaves fewer links and any number of names, so the names are free in the outer step.
  induction links using Nat.strongRecOn generalizing place names with
  | ind links outer =>
    induction names generalizing place with
    | nil => exact .arrived place links (by rw [walk]) fun _ => rfl
    | cons name rest ih =>
      cases name_step volume links place name with
      | fails error hw => exact .failed error fun more => hw (rest ++ more)
      | leads next _ hw =>
        cases ih next with
        | failed error h => exact .failed error fun more => (hw _).trans (h more)
        | arrived target fewer hok h =>
          exact .arrived target fewer ((hw _).trans hok) fun more => (hw _).trans (h more)
      | follows fewer next names _ hless hw =>
        have hw' (more : List String) : volume.walk links place (name :: rest ++ more) =
            volume.walk fewer next ((names ++ rest) ++ more) := by
          rw [List.append_assoc]
          exact hw (rest ++ more)
        cases outer fewer hless next (names ++ rest) with
        | failed error h => exact .failed error fun more => (hw' more).trans (h more)
        | arrived target left hok h =>
          exact .arrived target left ((hw rest).trans hok) fun more => (hw' more).trans (h more)

def SameWalk (volume : Volume) (first second : List String) : Prop :=
  ∀ links place, volume.walk links place first = volume.walk links place second

theorem same_append (names : List String) {first second : List String}
    (h : volume.SameWalk first second) : volume.SameWalk (names ++ first) (names ++ second) := by
  intro links place
  cases cut_names volume links place names with
  | failed error hw => rw [hw, hw]
  | arrived target fewer _ hw => rw [hw, hw, h]

theorem walk_dot {links : Nat} {place : Route} (hd : volume.IsDirectory place)
    (rest : List String) :
    volume.walk links place ("." :: rest) = volume.walk links place rest := by
  obtain ⟨entries, he⟩ := hd
  rw [walk, he]
  simp only [if_true]

theorem walk_up {links : Nat} {place : Route} (hd : volume.IsDirectory place)
    (rest : List String) :
    volume.walk links place (".." :: rest) = volume.walk links place.dropLast rest := by
  obtain ⟨entries, he⟩ := hd
  rw [walk, he]
  simp

theorem same_dot {rest : List String} (hr : rest ≠ []) : volume.SameWalk ("." :: rest) rest := by
  intro links place
  by_cases hd : volume.IsDirectory place
  · exact walk_dot hd rest
  · cases rest with
    | nil => exact (hr rfl).elim
    | cons name others => rw [walk_not_directory hd, walk_not_directory hd]

/-- Every `.` before the last name can be left out. -/
theorem same_without_dots (names : List String) (last : String) :
    volume.SameWalk (names ++ [last]) (names.filter (· != ".") ++ [last]) := by
  induction names with
  | nil => exact fun _ _ => rfl
  | cons name rest ih =>
    by_cases hn : name = "."
    · subst hn
      intro links place
      rw [List.filter_cons_of_neg (by simp), List.cons_append, same_dot (by simp)]
      exact ih links place
    · rw [List.filter_cons_of_pos (by simp [hn])]
      exact same_append [name] ih

/-- A `.` at the end asks for a directory and changes nothing else. -/
theorem walk_to_directory {names : List String} {links : Nat} {place target : Route} :
    volume.walk links place (names ++ ["."]) = .ok target ↔
      volume.walk links place names = .ok target ∧ volume.IsDirectory target := by
  cases cut_names volume links place names with
  | failed error hw =>
    have hnames := hw []
    rw [List.append_nil] at hnames
    rw [hw, hnames]
    simp
  | arrived there fewer hok hw =>
    rw [hw, hok]
    by_cases hd : volume.IsDirectory there
    · rw [walk_dot hd, walk]
      refine ⟨fun h => ⟨h, ?_⟩, fun h => h.1⟩
      cases h
      exact hd
    · rw [walk_not_directory hd]
      refine iff_of_false (by simp) ?_
      rintro ⟨h, ht⟩
      cases h
      exact hd ht

theorem walk_names {name : String} {rest : List String} {links : Nat} {place target : Route}
    (hdot : name ≠ ".") (hup : name ≠ "..")
    (h : volume.walk links place (name :: rest) = .ok target) :
    ∃ entries, volume.nodeAt? place = some (.directory entries) ∧
      name ∈ entries.map Prod.fst := by
  by_cases hd : volume.IsDirectory place
  · obtain ⟨entries, he⟩ := hd
    refine ⟨entries, he, ?_⟩
    rw [walk, he] at h
    simp only [hdot, hup, if_false] at h
    split at h
    · cases h
    cases hl : entries.lookup name with
    | none => simp [hl] at h
    | some node => exact List.mem_map_of_mem (Entries.mem_of_lookup hl)
  · rw [walk_not_directory hd] at h
    cases h

def Plain (name : String) : Prop := name ≠ "." ∧ name ≠ ".." ∧ ¬name.utf8ByteSize > maxNameSize

instance (name : String) : Decidable (Plain name) := inferInstanceAs (Decidable (_ ∧ _ ∧ ¬_))

theorem walk_route {names : List String} {links : Nat} {place : Route} {node : Node}
    (hn : ∀ name ∈ names, Plain name) (h : volume.nodeAt? (place ++ names) = some node)
    (hnode : ∀ target, node ≠ .link target) (rest : List String) :
    volume.walk links place (names ++ rest) = volume.walk links (place ++ names) rest := by
  induction names generalizing place with
  | nil => rw [List.append_nil, List.nil_append]
  | cons name others ih =>
    obtain ⟨hdot, hup, hsize⟩ := hn name List.mem_cons_self
    obtain ⟨inner, hplace, hinner⟩ := (Entries.at_append (by simp)).mp h
    obtain ⟨found, hl, hfound⟩ : ∃ found, inner.lookup name = some found ∧
        ∀ target, found ≠ .link target := by
      cases others with
      | nil => exact ⟨node, hinner, hnode⟩
      | cons next more =>
        rw [Entries.at_cons _ _ (by simp), Option.bind_eq_some_iff] at hinner
        obtain ⟨deeper, hl, -⟩ := hinner
        exact ⟨_, Entries.inside_iff.mp hl, by simp⟩
    have hothers := @ih (place ++ [name]) (fun other ho => hn other (List.mem_cons_of_mem _ ho))
    rw [List.append_assoc, List.singleton_append] at hothers
    rw [List.cons_append, walk_entry hplace hdot hup hsize hl hfound, hothers h]

end Volume

end CaptureAudit.Files
