import CaptureAudit.Proofs.Capture.Correspondence
import CaptureAudit.Proofs.Text.Codes
import Std.Data.String.ToNat

/-! # Paths that name one place

A path renders a position step by step. A dot begins a step to a member and a bracket a step to an
item. As long as no name holds either of these marks, a step ends where the next one begins, and
the position can be read off its path. -/
namespace CaptureAudit

open Text (WordEnds wordEnds_nil wordEnds_cons word_unique separated_unique count_chars Legible
  Closes)

/-- No step begins within the name. Brackets that close, digits and no characters at all are fine. -/
def UnmarkedName (name : String) : Prop := '.' ∉ name.toList ∧ '[' ∉ name.toList

instance (name : String) : Decidable (UnmarkedName name) :=
  inferInstanceAs (Decidable (_ ∧ _))

def staysInName (c : Char) : Bool := c ≠ '.' && c ≠ '['

theorem unmarked_chars {name : String} (h : UnmarkedName name) :
    ∀ c ∈ name.toList, staysInName c = true := by
  intro c hc
  have hdot : c ≠ '.' := ne_of_mem_of_not_mem hc h.1
  have hbracket : c ≠ '[' := ne_of_mem_of_not_mem hc h.2
  simp [staysInName, hdot, hbracket]

namespace PathStep

def Unmarked : PathStep → Prop
  | member name => UnmarkedName name
  | item _ => True

theorem member_chars (name : String) : (member name).rendered.toList = '.' :: name.toList := by
  simp [rendered]

theorem item_chars (index : Nat) :
    (item index).rendered.toList = '[' :: ((toString index).toList ++ [']']) := by
  simp [rendered]

theorem rendered_start (step : PathStep) :
    ∃ c rest, step.rendered.toList = c :: rest ∧ staysInName c = false := by
  cases step with
  | member name => exact ⟨'.', _, member_chars name, by decide⟩
  | item index => exact ⟨'[', _, item_chars index, by decide⟩

/-- The mark tells the kind of step. A name ends at the next mark, an index at its bracket. -/
theorem rendered_unique {s t : PathStep} (hs : s.Unmarked) (ht : t.Unmarked) {r₁ r₂ : List Char}
    (h₁ : WordEnds staysInName r₁) (h₂ : WordEnds staysInName r₂)
    (h : s.rendered.toList ++ r₁ = t.rendered.toList ++ r₂) : s = t ∧ r₁ = r₂ := by
  cases s with
  | member name =>
    rw [member_chars] at h
    cases t with
    | member other =>
      rw [member_chars] at h
      obtain ⟨hname, hrest⟩ :=
        word_unique (unmarked_chars hs) (unmarked_chars ht) h₁ h₂ (List.cons.inj h).2
      exact ⟨congrArg member (String.toList_inj.mp hname), hrest⟩
    | item index =>
      rw [item_chars] at h
      cases (List.cons.inj h).1
  | item index =>
    rw [item_chars] at h
    cases t with
    | member name =>
      rw [member_chars] at h
      cases (List.cons.inj h).1
    | item other =>
      simp only [item_chars, List.cons_append, List.append_assoc, List.cons.injEq, true_and,
        List.nil_append] at h
      have hdigits : ∀ n : Nat, ']' ∉ (toString n).toList := count_chars (by decide)
      obtain ⟨hindex, hrest⟩ := separated_unique (hdigits index) (hdigits other) h
      have hindex : index = other := Nat.repr_inj.mp (String.toList_inj.mp hindex)
      exact ⟨congrArg item hindex, hrest⟩

/-- The next step ends a name with its mark. -/
theorem steps_legible :
    Legible (fun step : PathStep => step.rendered.toList) Unmarked (WordEnds staysInName) where
  read hs ht h₁ h₂ h := rendered_unique hs ht h₁ h₂ h
  next step x := by
    obtain ⟨c, rest, hstep, hc⟩ := step.rendered_start
    rw [hstep]
    exact wordEnds_cons hc

theorem steps_closed :
    Closes (fun step : PathStep => step.rendered.toList) (WordEnds staysInName) [] where
  may_follow := wordEnds_nil _
  no_entry step x h := by
    obtain ⟨c, rest, hstep, -⟩ := step.rendered_start
    rw [hstep] at h
    cases h

end PathStep

namespace Position

def Unmarked (p : Position) : Prop := ∀ step ∈ p, step.Unmarked

theorem rendered_chars (p : Position) :
    p.rendered.toList = p.flatMap fun step => step.rendered.toList := by
  rw [rendered, String.toList_join, List.flatMap_map]

theorem rendered_injective {p q : Position} (hp : p.Unmarked) (hq : q.Unmarked)
    (h : p.rendered = q.rendered) : p = q := by
  have hchars := congrArg String.toList h
  rw [rendered_chars, rendered_chars, ← List.append_nil (List.flatMap _ p),
    ← List.append_nil (List.flatMap _ q)] at hchars
  exact (PathStep.steps_legible.unique hp hq PathStep.steps_closed PathStep.steps_closed hchars).1

end Position

namespace Document

inductive UnmarkedNames : Document → Prop
  | scalar {v : Document} : v.isContainer = false → UnmarkedNames v
  | array {items : List Document} :
      (∀ item ∈ items, UnmarkedNames item) → UnmarkedNames (.array items)
  | object {members : Members} : (∀ member ∈ members, UnmarkedName member.1) →
      (∀ member ∈ members, UnmarkedNames member.2) → UnmarkedNames (.object members)

theorem unmarked_object {members : Members} : UnmarkedNames (.object members) ↔
    ∀ member ∈ members, UnmarkedName member.1 ∧ member.2.UnmarkedNames := by
  constructor
  · intro h
    cases h with
    | scalar h => cases h
    | object hnames hvalues => exact fun member hm => ⟨hnames member hm, hvalues member hm⟩
  · intro h
    exact .object (fun member hm => (h member hm).1) fun member hm => (h member hm).2

theorem unmarked_array {items : List Document} :
    UnmarkedNames (.array items) ↔ ∀ item ∈ items, item.UnmarkedNames := by
  constructor
  · intro h
    cases h with
    | scalar h => cases h
    | array h => exact h
  · exact .array

theorem mem_of_lookup {α : Type} {entries : List (String × α)} {name : String} {value : α}
    (h : entries.lookup name = some value) : (name, value) ∈ entries := by
  obtain ⟨before, after, rfl, -⟩ := List.lookup_eq_some_iff.mp h
  simp

theorem unmarked_step {v w : Document} (h : v.UnmarkedNames) {step : PathStep}
    (hstep : v.step? step = some w) : step.Unmarked ∧ w.UnmarkedNames := by
  cases v with
  | object members =>
    cases step with
    | member name => exact unmarked_object.mp h (name, w) (mem_of_lookup hstep)
    | item index => cases hstep
  | array items =>
    cases step with
    | member name => cases hstep
    | item index => exact ⟨trivial, unmarked_array.mp h w (List.mem_of_getElem? hstep)⟩
  | _ => cases step <;> cases hstep

theorem unmarked_position {v : Document} (h : v.UnmarkedNames) {p : Position}
    (hp : (v.at? p).isSome) : p.Unmarked := by
  induction p generalizing v with
  | nil => exact fun _ hm => nomatch hm
  | cons step p ih =>
    rw [at?] at hp
    cases hstep : v.step? step with
    | none =>
      rw [hstep] at hp
      cases hp
    | some w =>
      rw [hstep] at hp
      obtain ⟨hmark, hw⟩ := unmarked_step h hstep
      exact List.forall_mem_cons.mpr ⟨hmark, ih hw hp⟩

/-- Each capture object is reported under the label and the rendering of its own position, from
which its steps lead to the object. If no name holds a mark, no two paths are the same, and no
other position of the document has the path. -/
theorem paths_identify_captures {v : Document} (hv : v.DistinctNames) (label : String) :
    ∃ positions : List Position, positions.Nodup ∧
      List.Forall₂ (fun capture p => v.at? p = some (.object capture.members) ∧
        capture.path = label ++ p.rendered) (v.captureObjects label) positions ∧
      (v.UnmarkedNames →
        ((v.captureObjects label).map CaptureObject.path).Nodup ∧
        ∀ p ∈ positions, ∀ q : Position, (v.at? q).isSome →
          label ++ q.rendered = label ++ p.rendered → q = p) := by
  have hcaptures := capture_objects_eq_findings v label
  refine ⟨(findings true v).map Prod.fst, positions_nodup hv true, ?_, ?_⟩
  · rw [hcaptures, List.forall₂_map_left_iff, List.forall₂_map_right_iff, List.forall₂_same]
    intro finding hf
    exact ⟨finding_at hv hf, rfl⟩
  · intro hmarks
    have hunmarked : ∀ p ∈ (findings true v).map Prod.fst, p.Unmarked := by
      intro p hp
      obtain ⟨finding, hf, rfl⟩ := List.mem_map.mp hp
      apply unmarked_position hmarks
      rw [finding_at hv hf]
      rfl
    constructor
    · have hpaths : (v.captureObjects label).map CaptureObject.path =
          ((findings true v).map Prod.fst).map fun p => label ++ p.rendered := by
        rw [hcaptures, List.map_map, List.map_map]
        rfl
      rw [hpaths]
      apply (positions_nodup hv true).map_on
      intro p hp q hq h
      exact Position.rendered_injective (hunmarked p hp) (hunmarked q hq)
        ((String.append_right_inj label).mp h)
    · intro p hp q hq h
      exact Position.rendered_injective (unmarked_position hmarks hq) (hunmarked p hp)
        ((String.append_right_inj label).mp h)

/-- An empty name, a name that closes a bracket, and an array in which a digit is an index. -/
def bracketedNames : Document :=
  .object [("", .object [("captures", .object [("1", .null)])]),
    ("0]", .array [.object [("captures", .object [("x", .null)])]])]

theorem bracketed_paths_identify : bracketedNames.DistinctNames ∧ bracketedNames.UnmarkedNames ∧
    ((bracketedNames.captureObjects "root").map CaptureObject.path).Nodup ∧
    ∀ q : Position, (bracketedNames.at? q).isSome →
      "root" ++ q.rendered = "root.0][0].captures" →
        q = [.member "0]", .item 0, .member "captures"] := by
  have hscalar : DistinctNames null := .scalar rfl
  have hdistinct : bracketedNames.DistinctNames := by
    simp [bracketedNames, distinct_object, distinct_array, hscalar]
  have hmarks : bracketedNames.UnmarkedNames := by
    have hnull : UnmarkedNames null := .scalar rfl
    simp [bracketedNames, unmarked_object, unmarked_array, hnull, UnmarkedName]
  obtain ⟨positions, -, hpositions, hpaths⟩ := paths_identify_captures hdistinct "root"
  obtain ⟨hnodup, hdetermined⟩ := hpaths hmarks
  refine ⟨hdistinct, hmarks, hnodup, fun q hq hrendered => ?_⟩
  have hcaptures : bracketedNames.captureObjects "root" =
      [⟨"root..captures", [("1", .null)]⟩, ⟨"root.0][0].captures", [("x", .null)]⟩] := by
    rw [capture_objects_eq_findings]
    rfl
  rw [hcaptures] at hpositions
  obtain _ | ⟨-, _ | ⟨⟨-, hpath⟩, -⟩⟩ := hpositions
  have hdetermined := hdetermined _ (List.mem_cons_of_mem _ List.mem_cons_self)
  rw [hdetermined q hq (hrendered.trans hpath)]
  exact (hdetermined [.member "0]", .item 0, .member "captures"] rfl hpath).symm

end Document

end CaptureAudit
