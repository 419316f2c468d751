import CaptureAudit.Proofs.Files.Grammars
import CaptureAudit.Proofs.Text.ByteOrder
import Mathlib.Data.List.Nodup

/-! # The grammars of a directory, in order

The listing has each grammar once, in the order of the bytes of the names, and every listed path
leads to the bytes of its grammar. -/
namespace CaptureAudit.Files

namespace Volume

variable {volume : Volume} {directory listed name : String} {place : Route}

theorem grammarNames_nodup (volume : Volume) (listed : String) :
    (volume.grammarNames listed).Nodup := by
  rw [grammarNames, sortNames, (List.mergeSort_perm _ _).nodup_iff]
  refine List.Nodup.filter _ ?_
  cases hnames : volume.names? listed with
  | none => exact List.nodup_nil
  | some names =>
    obtain ⟨place, entries, -, -, rfl⟩ := names_some_iff.mp hnames
    exact Entries.nodup_names entries

theorem grammarNames_increasing (volume : Volume) (listed : String) :
    (volume.grammarNames listed).Pairwise fun a b => textBytes a < textBytes b := by
  have hsorted : (volume.grammarNames listed).Pairwise fun a b => a ≤ b := sortNames_sorted _
  refine (hsorted.and (grammarNames_nodup volume listed)).imp fun h => ?_
  exact bytes_lt (lt_of_le_of_ne h.1 h.2)

def bytesAt (volume : Volume) (path : String) : ByteArray :=
  match volume.node? path with
  | some (.file bytes) => bytes
  | _ => .empty

def contents (volume : Volume) (listed : String) : List (String × ByteArray) :=
  (volume.grammarNames listed).map fun name => (name, volume.bytesAt (extendPath listed name))

theorem contents_names (volume : Volume) (listed : String) :
    (volume.contents listed).map Prod.fst = volume.grammarNames listed := by
  rw [contents, List.map_map]
  exact List.map_id _

theorem bytes_of_grammar (hv : volume.ProperNames) (hl : listedPath? directory = some listed)
    {bytes : ByteArray} (h : volume.HoldsGrammar directory name bytes)
    (hsize : (extendPath listed name).utf8ByteSize < maxPathSize) :
    volume.bytesAt (extendPath listed name) = bytes := by
  obtain ⟨⟨there, entries, hthere, hentries, hm⟩, hjson, target, hr, hf⟩ := h
  obtain ⟨hslash, hnul⟩ := hv hentries name hm
  obtain ⟨hpath, hempty, -, -⟩ := resolve_ok hthere
  rw [bytesAt, node?, resolve_grammar hl hempty hpath hslash hnul hjson hsize, followEntry, hr]
  simp only [hf]

theorem mem_contents (hv : volume.ProperNames) (hl : listedPath? directory = some listed)
    (hd : volume.resolve directory = .ok place) {bytes : ByteArray} :
    (name, bytes) ∈ volume.contents listed ↔
      volume.HoldsGrammar directory name bytes ∧ Fits directory name := by
  rw [fits_iff hl]
  constructor
  · intro h
    obtain ⟨found, hn, he⟩ := List.mem_map.mp h
    cases he
    obtain ⟨hsize, bytes, hholds⟩ := (mem_grammarNames hv hl hd).mp hn
    rw [bytes_of_grammar hv hl hholds hsize]
    exact ⟨hholds, hsize⟩
  · rintro ⟨hholds, hsize⟩
    have hn := (mem_grammarNames hv hl hd).mpr ⟨hsize, bytes, hholds⟩
    rw [← bytes_of_grammar hv hl hholds hsize]
    exact List.mem_map.mpr ⟨name, hn, rfl⟩

theorem contents_increasing (volume : Volume) (listed : String) :
    (volume.contents listed).Pairwise fun a b => textBytes a.1 < textBytes b.1 :=
  List.pairwise_map.mpr (grammarNames_increasing volume listed)

theorem contents_read (hv : volume.ProperNames) (hl : listedPath? directory = some listed)
    (hd : volume.resolve directory = .ok place) {grammar : String × ByteArray}
    (h : grammar ∈ volume.contents listed) :
    volume.readText (extendPath listed grammar.1) = decoded grammar.2 := by
  obtain ⟨hholds, hfits⟩ := (mem_contents hv hl hd).mp h
  exact grammar_text hv hl hholds (hfits listed hl)

end Volume

end CaptureAudit.Files
