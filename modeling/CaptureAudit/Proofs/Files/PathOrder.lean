import CaptureAudit.Proofs.Files.Spelling
import CaptureAudit.Proofs.Text.ByteOrder
import Mathlib.Data.List.Sort

/-! # The order of paths

Paths are compared name by name. Those of one directory are in the order of their last names, and
these are in the order of their bytes. -/
namespace CaptureAudit.Files

open Text (piecesOf)

theorem sortNames_sorted (names : List String) : (sortNames names).Pairwise fun a b => a ≤ b := by
  have hsorted : (sortNames names).Pairwise fun a b => (compare a b).isLE = true := by
    apply List.pairwise_mergeSort
    · intro a b c hab hbc
      rw [compare_le_iff] at *
      exact String.le_trans hab hbc
    · intro a b
      rw [Bool.or_eq_true, compare_le_iff, compare_le_iff]
      exact String.le_total a b
  exact hsorted.imp fun {a b} h => (compare_le_iff a b).mp h

/-- Names that are sorted already may be sorted again after some were left out. -/
theorem sortNames_filter (names : List String) (test : String → Bool) :
    sortNames ((sortNames names).filter test) = sortNames (names.filter test) := by
  have hperm : (sortNames ((sortNames names).filter test)).Perm (sortNames (names.filter test)) := by
    refine (List.mergeSort_perm _ _).trans (List.Perm.trans ?_ (List.mergeSort_perm _ _).symm)
    exact (List.mergeSort_perm _ _).filter test
  exact hperm.eq_of_pairwise (fun a b _ _ hab hba => String.le_antisymm hab hba)
    (sortNames_sorted _) (sortNames_sorted _)

namespace Component

theorem order_self (component : Component) : component.order component = .eq := by
  rw [order, Std.compare_self, Std.compare_self]
  rfl

theorem order_names (a b : String) : (name a).order (name b) = compare a b := by
  have hrank : compare (name a).rank (name b).rank = .eq := Std.compare_self
  rw [order, hrank]
  rfl

theorem order_front (front first second : List Component) :
    List.compareLex order (front ++ first) (front ++ second) = List.compareLex order first second := by
  induction front with
  | nil => rfl
  | cons component rest ih =>
    rw [List.cons_append, List.cons_append, List.compareLex_cons_cons, order_self, ih]
    rfl

end Component

structure StandsForItself (name : String) : Prop where
  slash : '/' ∉ name.toList
  nonempty : name ≠ ""
  dot : name ≠ "."
  up : name ≠ ".."

/-- The paths of one directory differ in their last component, which is their name. -/
theorem components_extend {path : String} (hpath : path ≠ "") :
    ∃ front, ∀ name, StandsForItself name →
      components (extendPath path name) = front ++ [.name name] := by
  obtain ⟨before, -, hpieces⟩ := pieces_extend path
  let kept := before.filter (· != "")
  refine ⟨(if isAbsolute path then [.root] else if kept.head? = some "." then [.here] else []) ++
    (kept.filter (· != ".")).map Component.ofPiece, fun name hname => ?_⟩
  have habs : isAbsolute (extendPath path name) = isAbsolute path :=
    (extend_absolute hname.slash hpath (by simp [extendPath?, hname.nonempty])).2
  have hkept : (piecesOf '/' (extendPath path name)).filter (· != "") = kept ++ [name] := by
    rw [hpieces name hname.slash, List.filter_append]
    simp [kept, hname.nonempty]
  have hhead : (kept ++ [name]).head? = some "." ↔ kept.head? = some "." := by
    cases kept with
    | nil => simp [hname.dot]
    | cons first rest => rfl
  have hlast : Component.ofPiece name = .name name := by
    rw [Component.ofPiece, if_neg hname.dot, if_neg hname.up]
  simp only [components, habs, hkept, hhead, List.filter_append, List.map_append,
    List.append_assoc]
  simp [hname.dot, hlast]

theorem fileName_extend {path name : String} (hpath : path ≠ "") (hname : StandsForItself name) :
    fileName (extendPath path name) = name := by
  obtain ⟨front, hfront⟩ := components_extend hpath
  rw [fileName, hfront name hname, List.getLast?_concat]
  rfl

theorem sortPaths_extend {path : String} (hpath : path ≠ "") {names : List String}
    (hnames : ∀ name ∈ names, StandsForItself name) :
    sortPaths (names.map (extendPath path)) = (sortNames names).map (extendPath path) := by
  obtain ⟨front, hfront⟩ := components_extend hpath
  refine (List.map_mergeSort fun a ha b hb => ?_).symm
  have horder : pathOrder (extendPath path a) (extendPath path b) = compare a b := by
    rw [pathOrder, hfront a (hnames a ha), hfront b (hnames b hb), Component.order_front,
      List.compareLex_cons_cons, Component.order_names]
    exact Ordering.then_eq
  rw [horder]

end CaptureAudit.Files
