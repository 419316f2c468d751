import CaptureAudit.Proofs.Capture.Findings

/-! # Findings and positions

What the walk finds is told by positions alone. A value is examined as a rule unless an odd number
of steps into collections ends its position, since every second collection in a row is itself a
rule of the one above it. -/
namespace CaptureAudit.Document

/-- Whether the value at a position is examined, given whether the value above all is. -/
def examined (rule : Bool) (p : Position) : Bool :=
  p.foldl (fun rule step => !(rule && step.isCollection)) rule

theorem examined_cons (rule : Bool) (step : PathStep) (p : Position) :
    examined rule (step :: p) = examined (!(rule && step.isCollection)) p := rfl

theorem examined_iff_even (p : Position) :
    examined true p = true ↔ Even p.trailingCollections := by
  induction p using List.reverseRecOn with
  | nil => simp [examined, Position.trailingCollections]
  | append_singleton p step ih =>
    rw [Position.trailing_concat]
    have hlast : examined true (p ++ [step]) = !(examined true p && step.isCollection) := by
      simp [examined]
    rw [hlast]
    by_cases hs : step.isCollection = true
    · rw [if_pos hs, hs, Bool.and_true, Nat.even_add_one, ← ih]
      simp
    · simp [hs]

theorem mem_itemFindings {index : Nat} {items : List Document} {q : Position} {inner : Members} :
    (q, inner) ∈ itemFindings index items ↔ ∃ i item p, items[i]? = some item ∧
      q = .item (index + i) :: p ∧ (p, inner) ∈ findings true item := by
  induction items generalizing index with
  | nil => simp [itemFindings]
  | cons first rest ih =>
    rw [itemFindings, List.mem_append, ih]
    constructor
    · rintro (h | ⟨i, item, p, hi, rfl, hp⟩)
      · obtain ⟨⟨p, found⟩, hp, he⟩ := List.mem_map.mp h
        cases he
        exact ⟨0, first, p, rfl, rfl, hp⟩
      · exact ⟨i + 1, item, p, hi, by rw [Nat.add_assoc, Nat.add_comm 1 i], hp⟩
    · rintro ⟨i, item, p, hi, rfl, hp⟩
      cases i with
      | zero =>
        cases hi
        exact Or.inl (List.mem_map.mpr ⟨(p, inner), hp, rfl⟩)
      | succ i => exact Or.inr ⟨i, item, p, hi, by rw [Nat.add_assoc, Nat.add_comm 1 i], hp⟩

theorem mem_memberFindings {rule : Bool} {members : Members} {q : Position} {inner : Members} :
    (q, inner) ∈ memberFindings rule members ↔ ∃ name value p, (name, value) ∈ members ∧
      q = .member name :: p ∧
      (p, inner) ∈ findings (!(rule && (PathStep.member name).isCollection)) value := by
  induction members with
  | nil => simp [memberFindings]
  | cons first rest ih =>
    rw [memberFindings, List.mem_append, ih]
    constructor
    · rintro (h | ⟨name, value, p, hm, rfl, hp⟩)
      · obtain ⟨⟨p, found⟩, hp, he⟩ := List.mem_map.mp h
        cases he
        exact ⟨first.1, first.2, p, List.mem_cons_self, rfl, hp⟩
      · exact ⟨name, value, p, List.mem_cons_of_mem _ hm, rfl, hp⟩
    · rintro ⟨name, value, p, hm, rfl, hp⟩
      rcases List.mem_cons.mp hm with rfl | hm
      · exact Or.inl (List.mem_map.mpr ⟨(p, inner), hp, rfl⟩)
      · exact Or.inr ⟨name, value, p, hm, rfl, hp⟩

theorem mem_heldFindings {members : Members} {q : Position} {inner : Members} :
    (q, inner) ∈ heldFindings members ↔ ∃ key ∈ captureKeys,
      members.lookup key = some (.object inner) ∧ q = [.member key] := by
  simp only [heldFindings, List.mem_filterMap, held_finding_iff]

theorem mem_findings {v : Document} (hv : v.DistinctNames) {rule : Bool} {q : Position}
    {inner : Members} : (q, inner) ∈ findings rule v ↔ ∃ p key outer, q = p ++ [.member key] ∧
      key ∈ captureKeys ∧ v.at? p = some (.object outer) ∧
      outer.lookup key = some (.object inner) ∧ examined rule p = true := by
  induction hv generalizing rule q with
  | @scalar v hs =>
    rw [findings_scalar hs]
    constructor
    · intro h
      cases h
    · rintro ⟨p, key, outer, rfl, _, hat, _, _⟩
      rw [← at_scalar hs hat] at hs
      cases hs
  | @array items _ ih =>
    -- An item is examined whether or not its array was taken for a rule.
    rw [findings, mem_itemFindings]
    constructor
    · rintro ⟨i, item, p, hi, rfl, hp⟩
      obtain ⟨p, key, outer, rfl, hkey, hat, hl, hex⟩ :=
        (ih item (List.mem_of_getElem? hi)).mp hp
      refine ⟨.item i :: p, key, outer, by simp, hkey, ?_, hl, ?_⟩
      · simp [at?, step?, hi, hat]
      · simpa [examined_cons, PathStep.isCollection] using hex
    · rintro ⟨p, key, outer, rfl, hkey, hat, hl, hex⟩
      cases p with
      | nil => cases hat
      | cons step p =>
        cases step with
        | member name => cases hat
        | item i =>
          obtain ⟨item, hi, hat⟩ := Option.bind_eq_some_iff.mp hat
          rw [examined_cons, PathStep.isCollection, Bool.and_false, Bool.not_false] at hex
          exact ⟨i, item, p ++ [.member key], hi, by simp,
            (ih item (List.mem_of_getElem? hi)).mpr ⟨p, key, outer, rfl, hkey, hat, hl, hex⟩⟩
  | @object members hd _ ih =>
    rw [findings, List.mem_append, mem_memberFindings]
    constructor
    · rintro (h | ⟨name, value, p, hm, rfl, hp⟩)
      · cases rule with
        | false => cases h
        | true =>
          obtain ⟨key, hkey, hl, rfl⟩ := mem_heldFindings.mp h
          exact ⟨[], key, members, rfl, hkey, rfl, hl, rfl⟩
      · obtain ⟨p, key, outer, rfl, hkey, hat, hl, hex⟩ := (ih _ hm).mp hp
        have hn := (mem_iff_lookup hd name value).mp hm
        exact ⟨.member name :: p, key, outer, by simp, hkey, by simp [at?, step?, hn, hat], hl, hex⟩
    · rintro ⟨p, key, outer, rfl, hkey, hat, hl, hex⟩
      cases p with
      | nil =>
        cases hat
        have hrule : rule = true := hex
        left
        rw [hrule, if_pos rfl]
        exact mem_heldFindings.mpr ⟨key, hkey, hl, rfl⟩
      | cons step p =>
        cases step with
        | item i => cases hat
        | member name =>
          obtain ⟨value, hn, hat⟩ := Option.bind_eq_some_iff.mp hat
          have hm := (mem_iff_lookup hd name value).mpr hn
          exact Or.inr ⟨name, value, p ++ [.member key], hm, by simp,
            (ih _ hm).mpr ⟨p, key, outer, rfl, hkey, hat, hl, hex⟩⟩

theorem positions_below (step : PathStep) (found : List Finding) :
    (found.map (Finding.below step)).map Prod.fst = (found.map Prod.fst).map (step :: ·) := by
  simp [Finding.below]

theorem below_nodup {found : List Finding} (step : PathStep)
    (h : (found.map Prod.fst).Nodup) : ((found.map (Finding.below step)).map Prod.fst).Nodup := by
  rw [positions_below]
  exact h.map fun _ _ he => (List.cons.inj he).2

theorem item_positions_nodup (index : Nat) {items : List Document}
    (h : ∀ item ∈ items, ((findings true item).map Prod.fst).Nodup) :
    ((itemFindings index items).map Prod.fst).Nodup := by
  induction items generalizing index with
  | nil => simp [itemFindings]
  | cons first rest ih =>
    rw [itemFindings, List.map_append]
    refine List.Nodup.append (below_nodup _ (h first List.mem_cons_self))
      (ih _ fun item hi => h item (List.mem_cons_of_mem _ hi)) ?_
    intro q hq hr
    rw [positions_below] at hq
    obtain ⟨p, _, rfl⟩ := List.mem_map.mp hq
    obtain ⟨⟨r, inner⟩, hr, rfl⟩ := List.mem_map.mp hr
    obtain ⟨i, _, _, _, he, _⟩ := mem_itemFindings.mp hr
    simp only [List.cons.injEq, PathStep.item.injEq] at he
    omega

theorem member_positions_nodup (rule : Bool) {members : Members}
    (hd : (members.map Prod.fst).Nodup)
    (h : ∀ member ∈ members, ∀ rule, ((findings rule member.2).map Prod.fst).Nodup) :
    ((memberFindings rule members).map Prod.fst).Nodup := by
  induction members with
  | nil => simp [memberFindings]
  | cons first rest ih =>
    rw [List.map_cons, List.nodup_cons] at hd
    rw [memberFindings, List.map_append]
    refine List.Nodup.append (below_nodup _ (h first List.mem_cons_self _))
      (ih hd.2 fun member hm => h member (List.mem_cons_of_mem _ hm)) ?_
    intro q hq hr
    rw [positions_below] at hq
    obtain ⟨p, _, rfl⟩ := List.mem_map.mp hq
    obtain ⟨⟨r, inner⟩, hr, rfl⟩ := List.mem_map.mp hr
    obtain ⟨name, value, _, hm, he, _⟩ := mem_memberFindings.mp hr
    simp only [List.cons.injEq, PathStep.member.injEq] at he
    exact hd.1 (he.1 ▸ List.mem_map_of_mem hm)

theorem held_positions_nodup (members : Members) :
    ((heldFindings members).map Prod.fst).Nodup := by
  have hkeys : captureKeys.Nodup := by decide
  rw [heldFindings, List.map_filterMap]
  refine hkeys.filterMap ?_
  intro a b q ha hb
  have key_of {key : String} (h : q ∈ (heldFinding? members key).map Prod.fst) :
      q = [.member key] := by
    obtain ⟨⟨_, inner⟩, hf, rfl⟩ := Option.map_eq_some_iff.mp h
    exact (held_finding_iff.mp hf).2
  have he := (key_of ha).symm.trans (key_of hb)
  simpa using he

/-- No position is found twice. What an object holds itself is one step away, and what is found
in its members is farther. -/
theorem positions_nodup {v : Document} (hv : v.DistinctNames) (rule : Bool) :
    ((findings rule v).map Prod.fst).Nodup := by
  induction hv generalizing rule with
  | scalar hs => simp [findings_scalar hs]
  | array _ ih => exact item_positions_nodup 0 fun item hi => ih item hi true
  | @object members hd hm ih =>
    rw [findings, List.map_append]
    refine List.Nodup.append ?_ (member_positions_nodup rule hd ih) ?_
    · cases rule
      · exact List.nodup_nil
      · exact held_positions_nodup members
    -- A position below a member has two steps at least.
    intro q hq hr
    obtain ⟨⟨_, inner⟩, hf, rfl⟩ := List.mem_map.mp hr
    obtain ⟨name, value, p, hin, rfl, hp⟩ := mem_memberFindings.mp hf
    obtain ⟨p, key, _, rfl, _⟩ := (mem_findings (hm _ hin)).mp hp
    cases rule with
    | false => cases hq
    | true =>
      obtain ⟨⟨_, found⟩, hf, rfl⟩ := List.mem_map.mp hq
      obtain ⟨_, _, _, he⟩ := mem_heldFindings.mp hf
      simp at he

/-- The value under the name `key` in the object at `p` is a capture object: `p` is examined as a
rule, and `key` is one of the four names. -/
structure CaptureAt (v : Document) (p : Position) (key : String) : Prop where
  holder : ∃ outer, v.at? p = some (.object outer)
  key_mem : key ∈ ["captures", "beginCaptures", "endCaptures", "whileCaptures"]
  value : ∃ inner, v.at? (p ++ [.member key]) = some (.object inner)
  rule : Even p.trailingCollections

theorem mem_positions_iff {v : Document} (hv : v.DistinctNames) (q : Position) :
    q ∈ (findings true v).map Prod.fst ↔ ∃ p key, q = p ++ [.member key] ∧ v.CaptureAt p key := by
  constructor
  · intro h
    obtain ⟨⟨q, inner⟩, hq, rfl⟩ := List.mem_map.mp h
    obtain ⟨p, key, outer, rfl, hkey, hat, hl, hex⟩ := (mem_findings hv).mp hq
    refine ⟨p, key, rfl, ⟨outer, hat⟩, hkey, ⟨inner, ?_⟩, (examined_iff_even p).mp hex⟩
    rw [at_concat, hat]
    exact hl
  · rintro ⟨p, key, rfl, ⟨outer, hat⟩, hkey, ⟨inner, hin⟩, heven⟩
    rw [at_concat, hat] at hin
    exact List.mem_map.mpr ⟨(p ++ [.member key], inner), (mem_findings hv).mpr
      ⟨p, key, outer, rfl, hkey, hat, hin, (examined_iff_even p).mpr heven⟩, rfl⟩

theorem finding_at {v : Document} (hv : v.DistinctNames) {finding : Finding}
    (h : finding ∈ findings true v) : v.at? finding.1 = some (.object finding.2) := by
  obtain ⟨p, key, outer, he, _, hat, hl, _⟩ := (mem_findings hv).mp h
  rw [he, at_concat, hat]
  exact hl

/-- The capture objects of a document are its capture positions, each one once: the walk lists
them one for one, with the object that stands there and the path that spells the position. -/
theorem captures_match_positions {v : Document} (hv : v.DistinctNames) (label : String) :
    ∃ positions : List Position, positions.Nodup ∧
      (∀ q, q ∈ positions ↔ ∃ p key, q = p ++ [.member key] ∧ v.CaptureAt p key) ∧
      List.Forall₂ (fun capture q => v.at? q = some (.object capture.members) ∧
        capture.path = label ++ q.rendered) (v.captureObjects label) positions := by
  refine ⟨(findings true v).map Prod.fst, positions_nodup hv true, mem_positions_iff hv, ?_⟩
  rw [capture_objects_eq_findings, List.forall₂_map_left_iff, List.forall₂_map_right_iff,
    List.forall₂_same]
  intro finding h
  exact ⟨finding_at hv h, rfl⟩

/-- Collections in a row: the object under the first `captures` is a capture object, and the one
under the second is a rule of that name. -/
def nestedCollections : Document :=
  .object [("patterns", .object [("patterns", .object
    [ ("captures", .object [("1", .null)]),
      ("repository", .object [("captures", .object [("x", .null)])]) ])])]

theorem nested_collections_match_positions : nestedCollections.DistinctNames ∧
    ∃ positions : List Position, positions.Nodup ∧
      (∀ q, q ∈ positions ↔ ∃ p key, q = p ++ [.member key] ∧
        nestedCollections.CaptureAt p key) ∧
      List.Forall₂ (fun capture q =>
        nestedCollections.at? q = some (.object capture.members) ∧
        capture.path = "root" ++ q.rendered) (nestedCollections.captureObjects "root")
        positions := by
  have hn : DistinctNames null := .scalar rfl
  have hv : nestedCollections.DistinctNames := by
    simp [nestedCollections, distinct_object, hn]
  exact ⟨hv, captures_match_positions hv "root"⟩

end CaptureAudit.Document
