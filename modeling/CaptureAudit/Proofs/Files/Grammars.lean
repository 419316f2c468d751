import CaptureAudit.Proofs.Files.Expansion
import CaptureAudit.Proofs.Files.PathOrder

/-! # The grammars of a directory

A listing finds what stands in the directory: the entries whose names end in `.json` and that lead
to regular files. What can keep it from a grammar is only how the directory is spelled, or that
the path to the grammar is too long for the system. -/
namespace CaptureAudit.Files

/-- The path to the grammar, as the listing spells it, is short enough for the system. -/
def Fits (directory name : String) : Prop :=
  ∀ listed, listedPath? directory = some listed →
    (extendPath listed name).utf8ByteSize < maxPathSize

theorem fits_iff {directory listed name : String} (hl : listedPath? directory = some listed) :
    Fits directory name ↔ (extendPath listed name).utf8ByteSize < maxPathSize := by
  simp [Fits, hl]

mutual

def Node.proper : Node → Bool
  | .directory entries => properEntries entries
  | _ => true

def properEntries : List (String × Node) → Bool
  | [] => true
  | (name, node) :: rest =>
    !name.toList.contains '/' && !name.toList.contains '\x00' && node.proper && properEntries rest

end

theorem properEntries_iff {entries : Entries} : properEntries entries = true ↔
    ∀ entry ∈ entries, ('/' ∉ entry.1.toList ∧ '\x00' ∉ entry.1.toList) ∧ entry.2.proper = true := by
  induction entries with
  | nil => simp [properEntries]
  | cons entry rest ih =>
    obtain ⟨name, node⟩ := entry
    rw [properEntries, Bool.and_eq_true, ih, List.forall_mem_cons]
    simp

theorem proper_below {entries inner : Entries} {route : Route} (h : properEntries entries = true)
    (hat : entries.at? route = some (.directory inner)) : properEntries inner = true := by
  induction route generalizing entries with
  | nil =>
    cases hat
    exact h
  | cons name rest ih =>
    have hinside (deeper : Entries) (hl : entries.lookup name = some (.directory deeper)) :
        properEntries deeper = true :=
      (properEntries_iff.mp h _ (Entries.mem_of_lookup hl)).2
    cases rest with
    | nil => exact hinside inner hat
    | cons next others =>
      rw [Entries.at_cons _ _ (by simp), Option.bind_eq_some_iff] at hat
      obtain ⟨deeper, hdeeper, hat⟩ := hat
      exact ih (hinside deeper (Entries.inside_iff.mp hdeeper)) hat

namespace Volume

/-- No name holds a slash or NUL, as in every file system. -/
def ProperNames (volume : Volume) : Prop :=
  ∀ {place : Route} {entries : Entries}, volume.nodeAt? place = some (.directory entries) →
    ∀ name ∈ entries.map Prod.fst, '/' ∉ name.toList ∧ '\x00' ∉ name.toList

theorem proper_of_check {volume : Volume} (h : properEntries volume.entries = true) :
    volume.ProperNames := by
  intro place entries hat name hm
  obtain ⟨entry, he, rfl⟩ := List.mem_map.mp hm
  exact (properEntries_iff.mp (proper_below h hat) entry he).1

/-- The path of a directory leads to a directory with the name, the name ends in `.json`, and from
there it leads to a regular file with the bytes. Links are followed. -/
structure HoldsGrammar (volume : Volume) (directory name : String) (bytes : ByteArray) :
    Prop where
  entry : ∃ place entries, volume.resolve directory = .ok place ∧
    volume.nodeAt? place = some (.directory entries) ∧ name ∈ entries.map Prod.fst
  suffix : ".json".toList <:+ name.toList
  file : ∃ target, volume.walk maxLinks (volume.start directory)
    (pathNames directory ++ [name]) = .ok target ∧ volume.nodeAt? target = some (.file bytes)

/-- Where the names in a text lead, however long the text is. -/
def follow (volume : Volume) (text : String) : Except FileError Route :=
  if text.toList.contains '\x00' then .error .nulInPath
  else volume.walk maxLinks (volume.start text) (pathNames text)

def followEntry (volume : Volume) (directory name : String) : Except FileError Route :=
  volume.walk maxLinks (volume.start directory) (pathNames directory ++ [name])

structure IsGrammar (volume : Volume) (directory name : String) : Prop where
  entry : ∃ place entries, volume.follow directory = .ok place ∧
    volume.nodeAt? place = some (.directory entries) ∧ name ∈ entries.map Prod.fst
  suffix : ".json".toList <:+ name.toList
  file : ∃ target bytes, volume.followEntry directory name = .ok target ∧
    volume.nodeAt? target = some (.file bytes)

variable {volume : Volume} {directory name listed : String} {place : Route}

theorem follow_ok (h : volume.follow directory = .ok place) : '\x00' ∉ directory.toList ∧
    volume.walk maxLinks (volume.start directory) (pathNames directory) = .ok place := by
  rw [follow] at h
  split at h
  · cases h
  · rename_i hnul
    exact ⟨by simpa using hnul, h⟩

theorem follow_eq (hnul : '\x00' ∉ directory.toList) : volume.follow directory =
    volume.walk maxLinks (volume.start directory) (pathNames directory) := by
  rw [follow, if_neg (by simpa using hnul)]

theorem follow_of_resolve (h : volume.resolve directory = .ok place) :
    volume.follow directory = .ok place := by
  obtain ⟨hnul, -, -, hwalk⟩ := resolve_ok h
  rw [follow_eq hnul, hwalk]

theorem isGrammar_iff (hd : volume.resolve directory = .ok place) :
    volume.IsGrammar directory name ↔ ∃ bytes, volume.HoldsGrammar directory name bytes := by
  constructor
  · rintro ⟨⟨there, entries, hthere, hentries, hm⟩, hjson, target, bytes, hr, hf⟩
    rw [follow_of_resolve hd] at hthere
    cases hthere
    exact ⟨bytes, ⟨place, entries, hd, hentries, hm⟩, hjson, target, hr, hf⟩
  · rintro ⟨bytes, ⟨there, entries, hthere, hentries, hm⟩, hjson, target, hr, hf⟩
    exact ⟨⟨there, entries, follow_of_resolve hthere, hentries, hm⟩, hjson, target, bytes, hr, hf⟩

theorem no_nul (hd : directory ≠ "") (hl : listedPath? directory = some listed)
    (hnul : '\x00' ∉ directory.toList) : '\x00' ∉ listed.toList := by
  intro hc
  rcases (listed_spells hd hl).2.2.2 _ hc with hc | hc | hc
  · exact hnul hc
  · exact absurd hc (by decide)
  · exact absurd hc (by decide)

/-- As directories, a path and its listed spelling are the same. -/
theorem listed_leads (hl : listedPath? directory = some listed) (hempty : directory ≠ "")
    (hsize : listed.utf8ByteSize < maxPathSize) (target : Route) :
    volume.resolve listed = .ok target ∧ volume.IsDirectory target ↔
      volume.follow directory = .ok target ∧ volume.IsDirectory target := by
  obtain ⟨hne, habs, hsteps, _⟩ := listed_spells hempty hl
  by_cases hnul : '\x00' ∈ directory.toList
  · have hlisted := listed_keeps hempty hl hnul (by decide) (by decide)
    refine iff_of_false ?_ ?_
    · rintro ⟨h, -⟩
      exact (resolve_ok h).1 hlisted
    · rintro ⟨h, -⟩
      exact (follow_ok h).1 hnul
  · have hstart : volume.start listed = volume.start directory := start_of_absolute habs
    rw [resolve_eq (no_nul hempty hl hnul) hne hsize, ← walk_to_directory, hstart,
      same_steps hsteps, walk_to_directory, follow_eq hnul]

theorem ne_of_json {other : String} (hjson : ".json".toList <:+ name.toList)
    (hother : ¬".json".toList <:+ other.toList) : name ≠ other := by
  rintro rfl
  exact hother hjson

/-- A name that ends in `.json` is not empty, and no slash is added after it. -/
theorem names_extend (path : String) (hslash : '/' ∉ name.toList)
    (hjson : ".json".toList <:+ name.toList) : ∃ before,
      pathNames (extendPath path name) = before ++ [name] ∧
      before.filter (· != ".") = stepNames path := by
  have hne : name ≠ "" := ne_of_json hjson (by decide)
  obtain ⟨front, hf⟩ := hjson
  obtain ⟨outer, ho⟩ := extend_suffix path name
  obtain ⟨before, hs, hp⟩ := pieces_extend path
  have hend : endsInSlash (extendPath path name) = false := by
    rw [endsInSlash, ho, String.toList_append, ← hf]
    simp
  refine ⟨before.filter (· != ""), ?_, ?_⟩
  · rw [pathNames, hp name hslash, hend, List.filter_append]
    simp [hne]
  · rw [List.filter_filter, ← hs]
    congr 1
    funext piece
    exact Bool.and_comm _ _

theorem resolve_grammar (hl : listedPath? directory = some listed) (hempty : directory ≠ "")
    (hnul : '\x00' ∉ directory.toList) (hslash : '/' ∉ name.toList)
    (hname : '\x00' ∉ name.toList) (hjson : ".json".toList <:+ name.toList)
    (hsize : (extendPath listed name).utf8ByteSize < maxPathSize) :
    volume.resolve (extendPath listed name) = volume.followEntry directory name := by
  obtain ⟨hne, habs, hsteps, _⟩ := listed_spells hempty hl
  obtain ⟨before, hnames, hbefore⟩ := names_extend listed hslash hjson
  have hname' : name ≠ "" := ne_of_json hjson (by decide)
  have hextend : extendPath? listed name = some (extendPath listed name) := by
    simp [extendPath?, hname']
  obtain ⟨hne', habs'⟩ := extend_absolute hslash hne hextend
  have hnul' : '\x00' ∉ (extendPath listed name).toList := by
    intro hc
    rcases mem_extend hc with hc | hc | hc
    · exact no_nul hempty hl hnul hc
    · exact hname hc
    · exact absurd hc (by decide)
  have hstart : volume.start (extendPath listed name) = volume.start directory :=
    start_of_absolute (habs'.trans habs)
  rw [resolve_eq hnul' hne' hsize, hstart, hnames, same_without_dots before, hbefore, hsteps]
  exact (same_without_dots (pathNames directory) name maxLinks _).symm

/-- The names of a proper directory that end in `.json` stand for themselves. -/
theorem grammar_stands (hv : volume.ProperNames) {names : List String}
    (hnames : volume.names? listed = some names) (hm : name ∈ names)
    (hjson : isGrammarName name = true) : StandsForItself name := by
  obtain ⟨place, entries, -, hentries, rfl⟩ := names_some_iff.mp hnames
  rw [isGrammarName, List.isSuffixOf_iff_suffix] at hjson
  exact ⟨(hv hentries name (Entries.mem_names.mp hm)).1, ne_of_json hjson (by decide),
    ne_of_json hjson (by decide), ne_of_json hjson (by decide)⟩

/-- Though a pattern is expanded, the listing takes the names that end in `.json` and lead to regular
files, from the directory that is read, in the order of the names. -/
theorem grammarFiles_eq (hv : volume.ProperNames) (directory : String) :
    volume.grammarFiles directory = match listedPath? directory with
      | none => []
      | some listed => (volume.grammarNames listed).map fun name => (name, extendPath listed name) := by
  have hrun : volume.grammarFiles directory =
      (sortPaths ((glob volume.access (Glob.escape directory ++ "/*.json")).run.filter
        volume.isFile)).map fun path => (fileName path, path) := by
    rw [grammarFiles, Files.grammarFiles]
    simp only [Id.run_bind, filterM_run]
    rfl
  rw [hrun, glob_escape]
  cases hl : listedPath? directory with
  | none => simp [sortPaths]
  | some listed =>
    have hpath := listed_nonempty hl
    dsimp only
    cases hnames : volume.names? listed with
    | none => simp [grammarNames, hnames, sortNames, sortPaths]
    | some names =>
      have hstands : ∀ name ∈ ((sortNames names).filter isGrammarName).filter
          (volume.isFile ∘ extendPath listed), StandsForItself name := by
        intro name hm
        simp only [List.mem_filter, sortNames, List.mem_mergeSort] at hm
        exact grammar_stands hv hnames hm.1.1 hm.1.2
      have hsame : sortNames (((sortNames names).filter isGrammarName).filter
          (volume.isFile ∘ extendPath listed)) = volume.grammarNames listed := by
        rw [List.filter_filter, sortNames_filter, grammarNames, hnames, Option.getD_some]
        simp only [Bool.and_comm, Function.comp_apply]
      rw [Option.getD_some, List.filter_map, sortPaths_extend hpath hstands, List.map_map]
      rw [← hsame]
      refine List.map_congr_left fun name hm => ?_
      rw [sortNames, List.mem_mergeSort] at hm
      rw [Function.comp_apply, fileName_extend hpath (hstands name hm)]

theorem json_suffix_iff : isGrammarName name = true ↔ ".json".toList <:+ name.toList :=
  List.isSuffixOf_iff_suffix

theorem is_file_iff (path : String) : volume.isFile path = true ↔
    ∃ place bytes, volume.resolve path = .ok place ∧
      volume.nodeAt? place = some (.file bytes) := by
  rw [isFile, decide_eq_true_eq, file_kind_iff]

theorem listed_iff (hv : volume.ProperNames) (hl : listedPath? directory = some listed)
    (hempty : directory ≠ "") : name ∈ volume.grammarNames listed ↔
      (extendPath listed name).utf8ByteSize < maxPathSize ∧ volume.IsGrammar directory name := by
  simp only [grammarNames, sortNames, List.mem_mergeSort, List.mem_filter, Bool.and_eq_true,
    json_suffix_iff, is_file_iff]
  constructor
  · rintro ⟨hm, hjson, target, bytes, hr, hf⟩
    cases hnames : volume.names? listed with
    | none => simp [hnames] at hm
    | some names =>
      rw [hnames, Option.getD_some] at hm
      obtain ⟨there, entries, hthere, hentries, rfl⟩ := names_some_iff.mp hnames
      obtain ⟨_, _, hshort, _⟩ := resolve_ok hthere
      obtain ⟨_, _, hsize, _⟩ := resolve_ok hr
      obtain ⟨hplace, _⟩ := (listed_leads hl hempty hshort there).mp ⟨hthere, entries, hentries⟩
      have hm := Entries.mem_names.mp hm
      obtain ⟨hslash, hnul⟩ := hv hentries name hm
      rw [resolve_grammar hl hempty (follow_ok hplace).1 hslash hnul hjson hsize] at hr
      exact ⟨hsize, ⟨there, entries, hplace, hentries, hm⟩, hjson, target, bytes, hr, hf⟩
  · rintro ⟨hsize, ⟨there, entries, hplace, hentries, hm⟩, hjson, target, bytes, hr, hf⟩
    have hname : name ≠ "" := by
      rintro rfl
      simp at hjson
    obtain ⟨hslash, hnul⟩ := hv hentries name hm
    have hextend : extendPath? listed name = some (extendPath listed name) := by
      simp [extendPath?, hname]
    have hshort := Nat.lt_of_le_of_lt (size_extend hextend) hsize
    obtain ⟨hthere, _⟩ := (listed_leads hl hempty hshort there).mpr ⟨hplace, entries, hentries⟩
    have hnames := names_some_iff.mpr ⟨there, entries, hthere, hentries, rfl⟩
    refine ⟨?_, hjson, target, bytes, ?_, hf⟩
    · rw [hnames]
      exact Entries.mem_names.mpr hm
    · rw [resolve_grammar hl hempty (follow_ok hplace).1 hslash hnul hjson hsize]
      exact hr

theorem mem_grammarNames (hv : volume.ProperNames) (hl : listedPath? directory = some listed)
    (hd : volume.resolve directory = .ok place) : name ∈ volume.grammarNames listed ↔
      (extendPath listed name).utf8ByteSize < maxPathSize ∧
        ∃ bytes, volume.HoldsGrammar directory name bytes := by
  rw [listed_iff hv hl (resolve_ok hd).2.1, isGrammar_iff hd]

def decoded (bytes : ByteArray) : Except FileError String :=
  match String.fromUTF8? bytes with
  | some text => .ok text
  | none => .error .notText

theorem grammar_text (hv : volume.ProperNames) (hl : listedPath? directory = some listed)
    {bytes : ByteArray} (h : volume.HoldsGrammar directory name bytes)
    (hsize : (extendPath listed name).utf8ByteSize < maxPathSize) :
    volume.readText (extendPath listed name) = decoded bytes := by
  obtain ⟨⟨there, entries, hthere, hentries, hm⟩, hjson, target, hr, hf⟩ := h
  obtain ⟨hslash, hnul⟩ := hv hentries name hm
  obtain ⟨hpath, hempty, -, -⟩ := resolve_ok hthere
  rw [readText, resolve_grammar hl hempty hpath hslash hnul hjson hsize, followEntry, hr]
  cases hb : String.fromUTF8? bytes <;> simp [hf, hb, decoded]

theorem contents_iff (hv : volume.ProperNames) (hd : volume.resolve directory = .ok place)
    (content : Except FileError String) :
    (∃ grammar ∈ volume.grammarFiles directory, volume.readText grammar.2 = content) ↔
      ¬DotsThenEmpty directory ∧ ∃ name bytes, volume.HoldsGrammar directory name bytes ∧
        Fits directory name ∧ decoded bytes = content := by
  rw [← listed_none_iff, grammarFiles_eq hv]
  cases hl : listedPath? directory with
  | none => simp
  | some listed =>
    constructor
    · rintro ⟨grammar, hg, rfl⟩
      obtain ⟨name, hn, rfl⟩ := List.mem_map.mp hg
      obtain ⟨hsize, bytes, h⟩ := (mem_grammarNames hv hl hd).mp hn
      exact ⟨by simp, name, bytes, h, (fits_iff hl).mpr hsize, (grammar_text hv hl h hsize).symm⟩
    · rintro ⟨_, name, bytes, h, hsize, rfl⟩
      have hsize := (fits_iff hl).mp hsize
      have hn := (mem_grammarNames hv hl hd).mpr ⟨hsize, bytes, h⟩
      exact ⟨(name, extendPath listed name), List.mem_map.mpr ⟨name, hn, rfl⟩,
        grammar_text hv hl h hsize⟩

/-- The text of a directory leads to a place, and names behind it are followed from there. -/
structure Leads (volume : Volume) (directory : String) (place : Route) : Prop where
  nonempty : directory ≠ ""
  no_nul : '\x00' ∉ directory.toList
  short : directory.utf8ByteSize < maxPathSize
  walk : ∀ rest, volume.walk maxLinks (volume.start directory) (pathNames directory ++ rest) =
    volume.walk maxLinks place rest

namespace Leads

theorem resolve (h : volume.Leads directory place) : volume.resolve directory = .ok place := by
  have hwalk := h.walk []
  rw [List.append_nil, Volume.walk] at hwalk
  rw [resolve_eq h.no_nul h.nonempty h.short, hwalk]

theorem holds (h : volume.Leads directory place) {entries : Entries} {bytes : ByteArray}
    (hplace : volume.nodeAt? place = some (.directory entries))
    (hjson : ".json".toList <:+ name.toList) (hsize : ¬name.utf8ByteSize > maxNameSize)
    (hfile : entries.lookup name = some (.file bytes)) :
    volume.HoldsGrammar directory name bytes := by
  have hmem : name ∈ entries.map Prod.fst := List.mem_map_of_mem (Entries.mem_of_lookup hfile)
  have hdot : name ≠ "." := ne_of_json hjson (by decide)
  have hup : name ≠ ".." := ne_of_json hjson (by decide)
  have hat : volume.nodeAt? (place ++ [name]) = some (.file bytes) :=
    (Entries.at_append (by simp)).mpr ⟨entries, hplace, hfile⟩
  refine ⟨⟨_, _, h.resolve, hplace, hmem⟩, hjson, place ++ [name], ?_, hat⟩
  rw [h.walk, walk_entry hplace hdot hup hsize hfile (by simp), Volume.walk]

/-- A link with an absolute target is followed from the root. -/
theorem holds_link (h : volume.Leads directory place) {entries : Entries} {bytes : ByteArray}
    {target : String} {route : Route} (hplace : volume.nodeAt? place = some (.directory entries))
    (hjson : ".json".toList <:+ name.toList) (hsize : ¬name.utf8ByteSize > maxNameSize)
    (hlink : entries.lookup name = some (.link target)) (habs : isAbsolute target = true)
    (hnames : pathNames target = route) (hroute : ∀ name ∈ route, Plain name)
    (hfile : volume.nodeAt? route = some (.file bytes)) :
    volume.HoldsGrammar directory name bytes := by
  have hmem : name ∈ entries.map Prod.fst := List.mem_map_of_mem (Entries.mem_of_lookup hlink)
  have hdot : name ≠ "." := ne_of_json hjson (by decide)
  have hup : name ≠ ".." := ne_of_json hjson (by decide)
  have hstart : pathStart target place = [] := if_pos habs
  have hroot : volume.nodeAt? ([] ++ route) = some (.file bytes) := hfile
  refine ⟨⟨_, _, h.resolve, hplace, hmem⟩, hjson, route, ?_, hfile⟩
  rw [h.walk, maxLinks, walk_link hplace hdot hup hsize hlink, hstart, hnames,
    walk_route hroute hroot (by simp), List.nil_append, Volume.walk]

end Leads

section Leading

variable (hnul : '\x00' ∉ directory.toList) (hsize : directory.utf8ByteSize < maxPathSize)
include hnul hsize

/-- An absolute path leads to where its names stand below the root. -/
theorem leads_absolute (habs : isAbsolute directory = true) {route : Route}
    (hnames : pathNames directory = route) (hplain : ∀ name ∈ route, Plain name)
    (hd : volume.IsDirectory route) : volume.Leads directory route := by
  obtain ⟨entries, he⟩ := hd
  have hempty : directory ≠ "" := by
    rintro rfl
    cases habs
  refine ⟨hempty, hnul, hsize, fun rest => ?_⟩
  rw [start, pathStart, if_pos habs, hnames]
  exact walk_route hplain he (by simp) rest

/-- One name of dots after another leads nowhere else. -/
theorem leads_here (hempty : directory ≠ "") (habs : isAbsolute directory = false) {count : Nat}
    (hnames : pathNames directory = List.replicate count ".")
    (hd : volume.IsDirectory volume.home) : volume.Leads directory volume.home := by
  refine ⟨hempty, hnul, hsize, fun rest => ?_⟩
  rw [start, pathStart, if_neg (by simp [habs]), hnames]
  clear hnames
  induction count with
  | zero => rfl
  | succ count ih => rw [List.replicate_succ, List.cons_append, walk_dot hd, ih]

/-- A path may lead up first, out of the working directory. -/
theorem leads_up (hempty : directory ≠ "") (habs : isAbsolute directory = false) {route : Route}
    (hnames : pathNames directory = ".." :: route) (hplain : ∀ name ∈ route, Plain name)
    (hhome : volume.IsDirectory volume.home)
    (hd : volume.IsDirectory (volume.home.dropLast ++ route)) :
    volume.Leads directory (volume.home.dropLast ++ route) := by
  obtain ⟨entries, he⟩ := hd
  refine ⟨hempty, hnul, hsize, fun rest => ?_⟩
  rw [start, pathStart, if_neg (by simp [habs]), hnames, List.cons_append, walk_up hhome]
  exact walk_route hplain he (by simp) rest

end Leading

theorem leads_dot_slash (hd : volume.IsDirectory volume.home) : volume.Leads "./" volume.home := by
  have hnames : pathNames "./" = List.replicate 2 "." := by decide
  exact leads_here (by decide) (by decide) (by decide) (by decide) hnames hd

end Volume

end CaptureAudit.Files
