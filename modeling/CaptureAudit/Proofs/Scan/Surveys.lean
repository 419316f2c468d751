import CaptureAudit.Proofs.Files.Resolving
import CaptureAudit.Scan

/-! # Surveys of a tree

What is taken from a tree when a scan of it is to be made. A directory that does not exist is not
listed. -/
namespace CaptureAudit

open Files (FileKind Volume)

def GrammarFile.ofPath (volume : Volume) (name path : String) : GrammarFile :=
  ⟨name, path, volume.readText path⟩

def shownDirectory (volume : Volume) (directory : String) : String :=
  (volume.canonical? directory).getD directory

namespace Survey

variable {volume : Volume} {directory : String}

theorem ofVolume_missing (h : volume.kind? directory = none) :
    ofVolume volume directory = ⟨directory, none, []⟩ := by
  have hkind : volume.access.kind? directory = (pure none : Id (Option FileKind)) := h
  rw [ofVolume, take, hkind]
  rfl

theorem ofVolume_found {kind : FileKind} (h : volume.kind? directory = some kind) :
    ofVolume volume directory = ⟨directory, some (shownDirectory volume directory),
      (volume.grammarFiles directory).map fun file => .ofPath volume file.1 file.2⟩ := by
  have hkind : volume.access.kind? directory = (pure (some kind) : Id (Option FileKind)) := h
  have hfiles (files : List (String × String)) :
      (files.mapM fun file => GrammarFile.read volume.access file.1 file.2).run =
        files.map fun file => .ofPath volume file.1 file.2 := List.idRun_mapM
  rw [ofVolume, take, hkind]
  simp only [pure_bind, Id.run_bind, Id.run_pure, hfiles]
  rfl

theorem ofVolume_directory : (ofVolume volume directory).directory = directory := by
  cases h : volume.kind? directory with
  | none => rw [ofVolume_missing h]
  | some kind => rw [ofVolume_found h]

end Survey

end CaptureAudit
