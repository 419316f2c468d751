import CaptureAudit.Proofs.Capture.Correspondence
import Mathlib.Data.List.Forall2

/-! # The order of members

Two documents that differ only in the order of members have the same positions, since a position
asks for a member by its name. What is found depends on positions, so the same is found in both, in
some other order. -/
namespace CaptureAudit

section Matching

variable {α β γ δ : Type} {R : α → β → Prop} {S : γ → δ → Prop} {l : List α} {m : List β}

theorem related_entry (h : List.Forall₂ R l m) {b : β} (hb : b ∈ m) : ∃ a ∈ l, R a b := by
  induction h with
  | nil => cases hb
  | cons hab _ ih =>
    rcases List.mem_cons.mp hb with rfl | hb
    · exact ⟨_, List.mem_cons_self, hab⟩
    · obtain ⟨a, ha, hab⟩ := ih hb
      exact ⟨a, List.mem_cons_of_mem _ ha, hab⟩

/-- The lists have as many entries, and in some order of the second they are related in pairs. -/
def Matched (R : α → β → Prop) (l : List α) (m : List β) : Prop :=
  ∃ shuffled, List.Forall₂ R l shuffled ∧ shuffled.Perm m

theorem Matched.length_eq (h : Matched R l m) : l.length = m.length := by
  obtain ⟨shuffled, hpairs, hperm⟩ := h
  exact hpairs.length_eq.trans hperm.length_eq

theorem Matched.append {l' : List α} {m' : List β} (h : Matched R l m) (h' : Matched R l' m') :
    Matched R (l ++ l') (m ++ m') := by
  obtain ⟨shuffled, hpairs, hperm⟩ := h
  obtain ⟨shuffled', hpairs', hperm'⟩ := h'
  exact ⟨shuffled ++ shuffled', List.rel_append hpairs hpairs', hperm.append hperm'⟩

theorem Matched.flatMap {f : α → List γ} {g : β → List δ} (h : Matched R l m)
    (hfg : ∀ a b, R a b → Matched S (f a) (g b)) : Matched S (l.flatMap f) (m.flatMap g) := by
  obtain ⟨shuffled, hpairs, hperm⟩ := h
  have hpieces : Matched S (l.flatMap f) (shuffled.flatMap g) := by
    induction hpairs generalizing m with
    | nil => exact ⟨[], .nil, .nil⟩
    | cons hab _ ih => exact (hfg _ _ hab).append (ih (.refl _))
  obtain ⟨parts, hparts, hmoved⟩ := hpieces
  exact ⟨parts, hparts, hmoved.trans (hperm.flatMap_right g)⟩

theorem Matched.filterMap {f : α → Option γ} {g : β → Option δ} (h : Matched R l m)
    (hfg : ∀ a b, R a b → Option.Rel S (f a) (g b)) :
    Matched S (l.filterMap f) (m.filterMap g) := by
  obtain ⟨shuffled, hpairs, hperm⟩ := h
  exact ⟨shuffled.filterMap g, List.rel_filterMap hfg hpairs, hperm.filterMap g⟩

/-- What is the same for both of a pair comes out the same, in some order. -/
theorem Matched.filterMap_perm {f : α → Option γ} {g : β → Option γ} (h : Matched R l m)
    (hfg : ∀ a b, R a b → f a = g b) : (l.filterMap f).Perm (m.filterMap g) := by
  have hrel : ∀ a b, R a b → Option.Rel Eq (f a) (g b) := by
    intro a b hab
    rw [hfg a b hab]
    cases g b with
    | none => exact .none
    | some c => exact .some rfl
  obtain ⟨shuffled, hpairs, hperm⟩ := h.filterMap hrel
  have hsame : l.filterMap f = shuffled := by rwa [List.forall₂_eq_eq_eq] at hpairs
  rwa [hsame]

end Matching

namespace Document

/-- The second document has the members of each object in some order, and is otherwise the first:
the same scalars, and as many items in the same order in each array. -/
inductive Reordered : Document → Document → Prop
  | scalar {v : Document} : v.isContainer = false → Reordered v v
  | array {items others : List Document} : List.Forall₂ Reordered items others →
      Reordered (.array items) (.array others)
  | object {members shuffled others : Members} : members.Perm shuffled →
      shuffled.map Prod.fst = others.map Prod.fst →
      List.Forall₂ Reordered (shuffled.map Prod.snd) (others.map Prod.snd) →
      Reordered (.object members) (.object others)

section Lookup

variable {members shuffled others : Members}

theorem lookup_shuffled (hd : (members.map Prod.fst).Nodup) (h : members.Perm shuffled)
    (name : String) : members.lookup name = shuffled.lookup name := by
  have hd' : (shuffled.map Prod.fst).Nodup := (h.map Prod.fst).nodup_iff.mp hd
  apply Option.ext
  intro value
  rw [← mem_iff_lookup hd, ← mem_iff_lookup hd', h.mem_iff]

theorem lookup_related {R : Document → Document → Prop}
    (hnames : shuffled.map Prod.fst = others.map Prod.fst)
    (hvalues : List.Forall₂ R (shuffled.map Prod.snd) (others.map Prod.snd)) (name : String) :
    Option.Rel R (shuffled.lookup name) (others.lookup name) := by
  induction shuffled generalizing others with
  | nil =>
    obtain rfl : others = [] := by simpa using hnames.symm
    exact .none
  | cons first rest ih =>
    cases others with
    | nil => cases hnames
    | cons other more =>
      obtain ⟨first, value⟩ := first
      obtain ⟨other, changed⟩ := other
      obtain ⟨rfl, hrest⟩ := List.cons.inj hnames
      obtain ⟨hvalue, hmore⟩ := List.forall₂_cons.mp hvalues
      rw [lookup_cons_ite, lookup_cons_ite]
      by_cases hname : name = first
      · rw [if_pos hname, if_pos hname]
        exact .some hvalue
      · rw [if_neg hname, if_neg hname]
        exact ih hrest hmore

end Lookup

variable {v w : Document}

theorem distinct_step (hv : v.DistinctNames) {step : PathStep} (h : v.step? step = some w) :
    w.DistinctNames := by
  cases hv with
  | scalar hs => cases v <;> cases step <;> first | cases h | cases hs
  | array hitems =>
    cases step with
    | member name => cases h
    | item index => exact hitems w (List.mem_of_getElem? h)
  | object hd hvalues =>
    cases step with
    | member name => exact hvalues (name, w) ((mem_iff_lookup hd name w).mpr h)
    | item index => cases h

theorem Reordered.step (h : Reordered v w) (hv : v.DistinctNames) (step : PathStep) :
    Option.Rel Reordered (v.step? step) (w.step? step) := by
  cases h with
  | scalar hs => cases v <;> cases step <;> first | exact .none | cases hs
  | @array items others hitems =>
    cases step with
    | member name => exact .none
    | item index =>
      have hlength := hitems.length_eq
      by_cases hindex : index < items.length
      · have hindex' : index < others.length := hlength ▸ hindex
        rw [step?, step?, List.getElem?_eq_getElem hindex, List.getElem?_eq_getElem hindex']
        exact .some (hitems.get hindex hindex')
      · have hindex' : ¬ index < others.length := hlength ▸ hindex
        rw [step?, step?, List.getElem?_eq_none (by omega), List.getElem?_eq_none (by omega)]
        exact .none
  | object hperm hnames hvalues =>
    cases step with
    | member name =>
      rw [step?, step?, lookup_shuffled (distinct_object.mp hv).1 hperm name]
      exact lookup_related hnames hvalues name
    | item index => exact .none

theorem Reordered.at (h : Reordered v w) (hv : v.DistinctNames) (p : Position) :
    Option.Rel Reordered (v.at? p) (w.at? p) := by
  induction p generalizing v w with
  | nil => exact .some h
  | cons step p ih =>
    have hstep := h.step hv step
    rw [at?, at?]
    cases hv' : v.step? step with
    | none =>
      rw [hv'] at hstep
      cases hw' : w.step? step with
      | none => exact .none
      | some b =>
        rw [hw'] at hstep
        cases hstep
    | some a =>
      rw [hv'] at hstep
      cases hw' : w.step? step with
      | none =>
        rw [hw'] at hstep
        cases hstep
      | some b =>
        rw [hw'] at hstep
        cases hstep with
        | some hab => exact ih hab (distinct_step hv hv')

/-- The members of the object at a position; none where no object stands. -/
def membersAt (v : Document) (p : Position) : Members :=
  match v.at? p with
  | some (.object members) => members
  | _ => []

theorem Reordered.names_at (h : Reordered v w) (hv : v.DistinctNames) (p : Position) :
    ((v.membersAt p).map Prod.fst).Perm ((w.membersAt p).map Prod.fst) := by
  have hat := h.at hv p
  rw [membersAt, membersAt]
  generalize v.at? p = a at hat
  generalize w.at? p = b at hat
  cases hat with
  | none => exact .refl _
  | some hab =>
    cases hab with
    | scalar _ => exact .refl _
    | array _ => exact .refl _
    | object hperm hnames _ => exact hnames ▸ hperm.map Prod.fst

theorem Reordered.object_at_iff (h : Reordered v w) (hv : v.DistinctNames) (p : Position) :
    (∃ members, v.at? p = some (.object members)) ↔ ∃ members, w.at? p = some (.object members) := by
  have hat := h.at hv p
  generalize v.at? p = a at hat
  generalize w.at? p = b at hat
  cases hat with
  | none => simp
  | some hab =>
    cases hab with
    | scalar _ => exact Iff.rfl
    | array _ => simp
    | object => simp

theorem Reordered.distinct (h : Reordered v w) (hv : v.DistinctNames) : w.DistinctNames := by
  induction hv generalizing w with
  | scalar hs =>
    cases h with
    | scalar _ => exact .scalar hs
    | array _ => cases hs
    | object => cases hs
  | array _ ih =>
    cases h with
    | scalar hs => cases hs
    | array hitems =>
      apply DistinctNames.array
      intro other ho
      obtain ⟨item, hi, hitem⟩ := related_entry hitems ho
      exact ih item hi hitem
  | object hd _ ih =>
    cases h with
    | scalar hs => cases hs
    | object hperm hnames hvalues =>
      apply DistinctNames.object
      · rw [← hnames]
        exact (hperm.map Prod.fst).nodup_iff.mp hd
      · intro other ho
        obtain ⟨value, hv, hvalue⟩ := related_entry hvalues (List.mem_map_of_mem ho)
        obtain ⟨member, hm, rfl⟩ := List.mem_map.mp hv
        exact ih member (hperm.mem_iff.mpr hm) hvalue

theorem Reordered.positions (h : Reordered v w) (hv : v.DistinctNames) :
    ((findings true v).map Prod.fst).Perm ((findings true w).map Prod.fst) := by
  have hw := h.distinct hv
  rw [List.perm_ext_iff_of_nodup (positions_nodup hv true) (positions_nodup hw true)]
  intro q
  rw [mem_positions_iff hv, mem_positions_iff hw]
  have hcapture (p : Position) (key : String) : v.CaptureAt p key ↔ w.CaptureAt p key := by
    have hholder := h.object_at_iff hv p
    have hvalue := h.object_at_iff hv (p ++ [.member key])
    constructor
    · intro hc
      exact ⟨hholder.mp hc.holder, hc.key_mem, hvalue.mp hc.value, hc.rule⟩
    · intro hc
      exact ⟨hholder.mpr hc.holder, hc.key_mem, hvalue.mpr hc.value, hc.rule⟩
  simp only [hcapture]

theorem captures_at (hv : v.DistinctNames) (label : String) : v.captureObjects label =
    ((findings true v).map Prod.fst).map fun p => ⟨label ++ p.rendered, v.membersAt p⟩ := by
  rw [capture_objects_eq_findings, List.map_map]
  apply List.map_congr_left
  intro finding hf
  rw [Function.comp_apply, membersAt, finding_at hv hf]
  rfl

end Document

structure CaptureObject.SameKeys (capture other : CaptureObject) : Prop where
  path : capture.path = other.path
  keys : capture.keys.Perm other.keys

theorem Document.Reordered.captures {v w : Document} (h : Reordered v w) (hv : v.DistinctNames)
    (label : String) :
    Matched CaptureObject.SameKeys (v.captureObjects label) (w.captureObjects label) := by
  rw [captures_at hv, captures_at (h.distinct hv)]
  refine ⟨_, ?_, (h.positions hv).map _⟩
  rw [List.forall₂_map_left_iff, List.forall₂_map_right_iff, List.forall₂_same]
  intro p _
  exact ⟨rfl, h.names_at hv p⟩

end CaptureAudit
