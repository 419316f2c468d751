import CaptureAudit.Proofs.Capture.Positions
import CaptureAudit.Proofs.Json.Grammar

/-! # Repeated names

Putting the members of an object one after the other gives each name its last value, in the place
where the name came first. -/
namespace CaptureAudit.Json.Grammar

theorem put_of_mem {members : Members} (hd : (members.map Prod.fst).Nodup) {name : String}
    (hn : name ∈ members.map Prod.fst) (value : Document) : members.put name value =
      members.map fun member => if member.1 = name then (name, value) else member := by
  induction members with
  | nil => cases hn
  | cons first rest ih =>
    obtain ⟨other, old⟩ := first
    simp only [List.map_cons, List.nodup_cons] at hd
    by_cases he : other = name
    · subst he
      have hrest : (rest.map fun member => if member.1 = other then (other, value) else member) =
          rest := by
        refine (List.map_congr_left fun member hm => ?_).trans (List.map_id _)
        have : member.1 ≠ other := fun he => hd.1 (he ▸ List.mem_map_of_mem hm)
        simp [this]
      simp [Members.put, hrest]
    · have hr : name ∈ rest.map Prod.fst :=
        (List.mem_cons.mp hn).resolve_left fun h => he h.symm
      simp [Members.put, he, ih hd.2 hr]

theorem put_of_not_mem {members : Members} {name : String} (hn : name ∉ members.map Prod.fst)
    (value : Document) : members.put name value = members ++ [(name, value)] := by
  induction members with
  | nil => rfl
  | cons first rest ih =>
    simp only [List.map_cons, List.mem_cons, not_or] at hn
    simp [Members.put, Ne.symm hn.1, ih hn.2]

theorem eraseDups_concat (names : List String) (name : String) :
    (names ++ [name]).eraseDups =
      if name ∈ names then names.eraseDups else names.eraseDups ++ [name] := by
  rw [List.eraseDups_append]
  split
  · rename_i hn
    have hnone : [name].removeAll names = [] := by simp [List.removeAll, hn]
    simp [hnone]
  · rename_i hn
    have hone : [name].removeAll names = [name] := by simp [List.removeAll, hn]
    rw [hone, List.eraseDups_cons]
    rfl

theorem eraseDups_nodup (names : List String) : names.eraseDups.Nodup := by
  induction names using List.reverseRecOn with
  | nil => exact List.nodup_nil
  | append_singleton names name ih =>
    rw [eraseDups_concat]
    split
    · exact ih
    · rename_i hn
      rw [List.nodup_append]
      refine ⟨ih, by simp, ?_⟩
      intro a ha b hb he
      rw [List.mem_singleton.mp hb] at he
      exact hn (he ▸ List.mem_eraseDups.mp ha)

theorem lookup_reverse_some {pairs : List (String × Document)} {name : String}
    (hn : name ∈ pairs.map Prod.fst) : ∃ value, pairs.reverse.lookup name = some value := by
  obtain ⟨pair, hp, rfl⟩ := List.mem_map.mp hn
  rw [← Option.isSome_iff_exists, List.lookup_isSome_iff]
  exact ⟨pair, List.mem_reverse.mpr hp, by simp⟩

theorem names_collapsed (pairs : List (String × Document)) :
    (collapsed pairs).map Prod.fst = (pairs.map Prod.fst).eraseDups := by
  have hall : ∀ name ∈ (pairs.map Prod.fst).eraseDups,
      ((pairs.reverse.lookup name).map fun value => (name, value)).map Prod.fst = some name := by
    intro name hn
    obtain ⟨value, hv⟩ := lookup_reverse_some (List.mem_eraseDups.mp hn)
    simp [hv]
  rw [collapsed, List.map_filterMap, List.filterMap_congr hall, List.filterMap_some]

theorem collapsed_nodup (pairs : List (String × Document)) :
    ((collapsed pairs).map Prod.fst).Nodup := by
  rw [names_collapsed]
  exact eraseDups_nodup _

theorem collapsed_concat (pairs : List (String × Document)) (name : String) (value : Document) :
    collapsed (pairs ++ [(name, value)]) = (collapsed pairs).put name value := by
  have hlookup (other : String) : (pairs ++ [(name, value)]).reverse.lookup other =
      if other = name then some value else pairs.reverse.lookup other := by
    rw [List.reverse_append, List.reverse_singleton, List.singleton_append, lookup_cons_ite]
  have hnames : collapsed (pairs ++ [(name, value)]) =
      ((pairs.map Prod.fst) ++ [name]).eraseDups.filterMap fun other =>
        (if other = name then some value else pairs.reverse.lookup other).map fun value =>
          (other, value) := by
    simp only [collapsed, hlookup, List.map_append, List.map_cons, List.map_nil]
  rw [hnames, eraseDups_concat]
  by_cases hn : name ∈ pairs.map Prod.fst
  -- A name that is there already keeps its place; a new one goes to the end.
  · have hmem : name ∈ (collapsed pairs).map Prod.fst := by
      rw [names_collapsed]
      exact List.mem_eraseDups.mpr hn
    rw [if_pos hn, put_of_mem (collapsed_nodup pairs) hmem, collapsed, List.map_filterMap]
    refine List.filterMap_congr fun other ho => ?_
    by_cases he : other = name
    · obtain ⟨old, hold⟩ := lookup_reverse_some hn
      simp [he, hold]
    · cases pairs.reverse.lookup other <;> simp [he]
  · have hmem : name ∉ (collapsed pairs).map Prod.fst := by
      rw [names_collapsed]
      exact fun h => hn (List.mem_eraseDups.mp h)
    rw [if_neg hn, put_of_not_mem hmem, List.filterMap_append, collapsed]
    congr 1
    · refine List.filterMap_congr fun other ho => ?_
      have hne : other ≠ name := by
        rintro rfl
        exact hn (List.mem_eraseDups.mp ho)
      rw [if_neg hne]
    · simp

def putAll (before : Members) : List (String × Document) → Members
  | [] => before
  | (name, value) :: rest => putAll (before.put name value) rest

theorem putAll_collapsed (before pairs : List (String × Document)) :
    putAll (collapsed before) pairs = collapsed (before ++ pairs) := by
  induction pairs generalizing before with
  | nil => simp [putAll]
  | cons pair rest ih =>
    rw [putAll, ← collapsed_concat, ih, List.append_assoc]
    rfl

theorem putAll_nil (pairs : List (String × Document)) : putAll [] pairs = collapsed pairs :=
  putAll_collapsed [] pairs

theorem collapsed_eq_self {pairs : List (String × Document)} (h : (pairs.map Prod.fst).Nodup) :
    collapsed pairs = pairs := by
  induction pairs using List.reverseRecOn with
  | nil => rfl
  | append_singleton pairs pair ih =>
    rw [List.map_append, List.nodup_append] at h
    have hn : pair.1 ∉ pairs.map Prod.fst := fun hn => h.2.2 _ hn _ (by simp) rfl
    rw [collapsed_concat, ih h.1, put_of_not_mem hn]

theorem mem_collapsed {pairs : List (String × Document)} {member : String × Document}
    (h : member ∈ collapsed pairs) : member ∈ pairs := by
  obtain ⟨name, _, hm⟩ := List.mem_filterMap.mp h
  obtain ⟨value, hv, rfl⟩ := Option.map_eq_some_iff.mp hm
  obtain ⟨before, after, he, _⟩ := List.lookup_eq_some_iff.mp hv
  rw [← List.mem_reverse, he]
  exact List.mem_append_right _ List.mem_cons_self

theorem scalar_denoted (l : Literal) : l.denoted.isContainer = false := by
  rw [Literal.denoted]
  split <;> rfl

variable {allowed : Literal → Prop}

mutual

/-- No document that a text denotes has two members of one name in an object. -/
theorem value_distinct {cs : List Char} {v : Document} : Value allowed cs v → v.DistinctNames
  | .null | .yes | .no | .string _ => .scalar rfl
  | .number _ => .scalar (scalar_denoted _)
  | .emptyArray _ => .array (by simp)
  | .array hi => .array (items_distinct hi)
  | .emptyObject _ => .object (by simp) (by simp)
  | .object hp => .object (collapsed_nodup _) fun _ hm => pairs_distinct hp _ (mem_collapsed hm)

theorem element_distinct {cs : List Char} {v : Document} :
    Element allowed cs v → v.DistinctNames
  | .surrounded _ hv _ => value_distinct hv

theorem items_distinct {cs : List Char} {items : List Document} :
    Elements allowed cs items → ∀ item ∈ items, item.DistinctNames
  | .last he => List.forall_mem_singleton.mpr (element_distinct he)
  | .more he hi => List.forall_mem_cons.mpr ⟨element_distinct he, items_distinct hi⟩

theorem pair_distinct {cs : List Char} {pair : String × Document} :
    Pair allowed cs pair → pair.2.DistinctNames
  | .named _ _ _ he => element_distinct he

theorem pairs_distinct {cs : List Char} {pairs : List (String × Document)} :
    Pairs allowed cs pairs → ∀ pair ∈ pairs, pair.2.DistinctNames
  | .last hp => List.forall_mem_singleton.mpr (pair_distinct hp)
  | .more hp hps => List.forall_mem_cons.mpr ⟨pair_distinct hp, pairs_distinct hps⟩

end

end CaptureAudit.Json.Grammar
