import CaptureAudit.Proofs.Files.Contents

/-! # What a listing finds

A listing has the grammars directly in the directory, in the order of their bytes, and nothing
else. The text of the directory becomes a pattern, but whatever characters it has, only the
directory fits. A grammar is missed only where the directory has no listed spelling, or where the
path to the grammar is too long for the system. -/
namespace CaptureAudit.Files.Volume

variable {volume : Volume} {directory name : String}

def listedNames (volume : Volume) (directory : String) : List String :=
  (volume.grammarFiles directory).map Prod.fst

theorem grammarFiles_none (hp : volume.ProperNames) (h : listedPath? directory = none) :
    volume.grammarFiles directory = [] := by
  rw [grammarFiles_eq hp, h]

theorem listedNames_some (hp : volume.ProperNames) {listed : String}
    (h : listedPath? directory = some listed) :
    volume.listedNames directory = volume.grammarNames listed := by
  rw [listedNames, grammarFiles_eq hp, h]
  dsimp only
  rw [List.map_map]
  exact List.map_id _

theorem listedNames_increasing (hp : volume.ProperNames) (directory : String) :
    (volume.listedNames directory).Pairwise fun a b => textBytes a < textBytes b := by
  cases hl : listedPath? directory with
  | none =>
    rw [listedNames, grammarFiles_none hp hl]
    exact .nil
  | some listed =>
    rw [listedNames_some hp hl]
    exact grammarNames_increasing volume listed

theorem mem_listedNames (hp : volume.ProperNames) (hempty : directory ≠ "") :
    name ∈ volume.listedNames directory ↔
      ¬DotsThenEmpty directory ∧ Fits directory name ∧ volume.IsGrammar directory name := by
  rw [← listed_none_iff]
  cases hl : listedPath? directory with
  | none =>
    rw [listedNames, grammarFiles_none hp hl]
    exact iff_of_false List.not_mem_nil fun h => h.1 rfl
  | some listed =>
    rw [listedNames_some hp hl, listed_iff hp hl hempty, fits_iff hl]
    simp

/-- A listed path ends in the name it is listed under, and leads where the name in the directory
leads. -/
theorem listed_path (hp : volume.ProperNames) (hempty : directory ≠ "") {file : String × String}
    (h : file ∈ volume.grammarFiles directory) :
    (pathNames file.2).getLast? = some file.1 ∧
      volume.resolve file.2 = volume.followEntry directory file.1 := by
  rw [grammarFiles_eq hp] at h
  cases hl : listedPath? directory with
  | none =>
    rw [hl] at h
    cases h
  | some listed =>
    rw [hl] at h
    obtain ⟨name, hname, rfl⟩ := List.mem_map.mp h
    obtain ⟨hsize, hgrammar⟩ := (listed_iff hp hl hempty).mp hname
    obtain ⟨place, entries, hplace, hentries, hm⟩ := hgrammar.entry
    obtain ⟨hslash, hnul⟩ := hp hentries name hm
    obtain ⟨before, hnames, -⟩ := names_extend listed hslash hgrammar.suffix
    constructor
    · rw [hnames]
      exact List.getLast?_concat
    · exact resolve_grammar hl hempty (follow_ok hplace).1 hslash hnul hgrammar.suffix hsize

theorem listed_nowhere (hp : volume.ProperNames) (hempty : directory ≠ "")
    (h : ∀ place, volume.follow directory = .ok place → ¬volume.IsDirectory place) :
    volume.grammarFiles directory = [] := by
  rw [← List.map_eq_nil_iff (f := Prod.fst), List.eq_nil_iff_forall_not_mem]
  intro name hname
  obtain ⟨-, -, hgrammar⟩ := (mem_listedNames hp hempty).mp hname
  obtain ⟨place, entries, hplace, hentries, -⟩ := hgrammar.entry
  exact h place hplace ⟨entries, hentries⟩

def OnlyFits (pattern : Glob.Pattern) (name : String) : Prop :=
  ∀ other : String, Glob.fits pattern other.toList = true ↔ other = name

theorem escaped_only_fits (name : String) :
    ∃ pattern, Glob.read (Glob.escape name).toList = some pattern ∧ OnlyFits pattern name := by
  refine ⟨patternOf name, ?_, fun other => ?_⟩
  · rw [Glob.escape, String.toList_ofList, Glob.read_escape]
    rfl
  · rw [fits_name, decide_eq_true_eq]

/-- The names listed are those of the grammars of the directory, each once and in the order of their
bytes, unless the directory is spelled so that it has no listing or the path to a grammar is too long.
Each path leads to the grammar that it is listed for. Where the text leads to no directory, there is
nothing to list. Between the slashes of the text stand patterns that only the names there fit. -/
theorem listing_exact (hp : volume.ProperNames) (hempty : directory ≠ "") :
    ((volume.listedNames directory).Pairwise fun a b => textBytes a < textBytes b) ∧
    (∀ name, name ∈ volume.listedNames directory ↔
      ¬DotsThenEmpty directory ∧ Fits directory name ∧ volume.IsGrammar directory name) ∧
    (∀ file ∈ volume.grammarFiles directory, (pathNames file.2).getLast? = some file.1 ∧
      volume.resolve file.2 = volume.followEntry directory file.1) ∧
    ((∀ place, volume.follow directory = .ok place → ¬volume.IsDirectory place) →
      volume.grammarFiles directory = []) ∧
    Text.piecesOf '/' (Glob.escape directory) = (Text.piecesOf '/' directory).map Glob.escape ∧
    ∀ name, ∃ pattern, Glob.read (Glob.escape name).toList = some pattern ∧ OnlyFits pattern name := by
  refine ⟨listedNames_increasing hp directory, ?_, ?_, ?_, ?_, escaped_only_fits⟩
  · intro name
    exact mem_listedNames hp hempty
  · intro file h
    exact listed_path hp hempty h
  · intro h
    exact listed_nowhere hp hempty h
  · exact Glob.piecesOf_escape directory

/-- Beside the working directory, a directory that is named like a pattern, and one that would fit
the pattern. -/
def linked : Volume where
  entries :=
    [ ("audit", .directory [(".json", .file .empty)]),
      ("[b]*", .directory [("[c].json", .link "/audit/.json"), ("a.json", .link "nothing")]),
      ("b1", .directory [("no.json", .file .empty)]) ]
  home := ["audit"]

theorem linked_proper : linked.ProperNames := proper_of_check (by decide)

theorem linked_leads : linked.Leads "../[b]*" ["[b]*"] := by
  have hnames : pathNames "../[b]*" = ".." :: ["[b]*"] := by decide
  exact leads_up (by decide) (by decide) (by decide) (by decide) hnames (by decide) ⟨_, rfl⟩ ⟨_, rfl⟩

theorem linked_grammar : linked.IsGrammar "../[b]*" "[c].json" := by
  have hnames : pathNames "/audit/.json" = ["audit", ".json"] := by decide
  exact (isGrammar_iff linked_leads.resolve).mpr ⟨_,
    linked_leads.holds_link rfl (by decide) (by decide) rfl (by decide) hnames (by decide) rfl⟩

theorem linked_missing : linked.follow "/missing" = .error .notFound := by
  have hstart : linked.start "/missing" = [] := by decide
  have hnames : pathNames "/missing" = ["missing"] := by decide
  have hroot : linked.nodeAt? [] = some (.directory linked.entries) := rfl
  have hnone : linked.entries.lookup "missing" = none := by decide
  rw [follow_eq (by decide), hstart, hnames, walk, hroot]
  simp only [hnone]
  rfl

/-- A link with special characters is listed in a directory that is named like a pattern, though a
directory stands beside it that fits the pattern. -/
theorem linked_listing_exact : linked.ProperNames ∧ "../[b]*" ≠ "" ∧
    (∃ file ∈ linked.grammarFiles "../[b]*", file.1 = "[c].json" ∧
      linked.resolve file.2 = linked.followEntry "../[b]*" "[c].json") ∧
    "no.json" ∉ linked.listedNames "../[b]*" ∧ linked.IsGrammar "/b1" "no.json" ∧
    "/missing" ≠ "" ∧ linked.grammarFiles "/missing" = [] := by
  have hempty : "../[b]*" ≠ "" := by decide
  have hmissing : "/missing" ≠ "" := by decide
  have hlisted : listedPath? "../[b]*" = some "../[b]*" := by decide
  have hfits : Fits "../[b]*" "[c].json" := (fits_iff hlisted).mpr (by decide)
  obtain ⟨-, hnames, hpaths, -⟩ := listing_exact linked_proper hempty
  obtain ⟨file, hfile, hname⟩ :=
    List.mem_map.mp ((hnames "[c].json").mpr ⟨not_dots_of_listed hlisted, hfits, linked_grammar⟩)
  have hpath := (hpaths file hfile).2
  rw [hname] at hpath
  have hother : "no.json" ∉ linked.listedNames "../[b]*" := by
    intro h
    obtain ⟨place, entries, hplace, hentries, hm⟩ := ((hnames "no.json").mp h).2.2.entry
    rw [follow_of_resolve linked_leads.resolve] at hplace
    cases hplace
    cases hentries
    exact absurd hm (by decide)
  have hnothing : linked.grammarFiles "/missing" = [] := by
    refine (listing_exact linked_proper hmissing).2.2.2.1 ?_
    intro place hplace
    rw [linked_missing] at hplace
    cases hplace
  have hbeside : linked.IsGrammar "/b1" "no.json" := by
    have hnames : pathNames "/b1" = ["b1"] := by decide
    have hleads : linked.Leads "/b1" ["b1"] :=
      leads_absolute (by decide) (by decide) (by decide) hnames (by decide) ⟨_, rfl⟩
    exact (isGrammar_iff hleads.resolve).mpr ⟨_, hleads.holds rfl (by decide) (by decide) rfl⟩
  exact ⟨linked_proper, hempty, ⟨file, hfile, hname, hpath⟩, hother, hbeside, hmissing, hnothing⟩

theorem dot_slash_not_listed : ¬∀ name, linked.IsGrammar "./" name →
    name ∈ linked.listedNames "./" := by
  intro h
  have hnone : listedPath? "./" = none := by decide
  have hhere : linked.Leads "./" ["audit"] := leads_dot_slash ⟨_, rfl⟩
  have hgrammar : linked.IsGrammar "./" ".json" :=
    (isGrammar_iff hhere.resolve).mpr ⟨_, hhere.holds rfl (by decide) (by decide) rfl⟩
  have hmem := h ".json" hgrammar
  rw [listedNames, grammarFiles_none linked_proper hnone] at hmem
  cases hmem

end CaptureAudit.Files.Volume
