import CaptureAudit.Proofs.Yaml.Layout

/-! # The YAML report is faithful

Different reports have different texts: the directory and every field of the summary, the whole
result of each flagged file included, are determined by what is printed. -/
namespace CaptureAudit

open Yaml (Alike plainNames_nil plainNames_cons plainNames_append)

namespace Report.Tree

theorem alike_list {α : Type} {tree : α → Tree} (each : ∀ a b, Alike (tree a) (tree b))
    (values others : List α) : Alike (list (values.map tree)) (list (others.map tree)) := by
  refine .list fun t ht u hu => ?_
  obtain ⟨a, -, rfl⟩ := List.mem_map.mp ht
  obtain ⟨b, -, rfl⟩ := List.mem_map.mp hu
  exact each a b

theorem alike_texts (values others : List String) : Alike (texts values) (texts others) :=
  alike_list (fun _ _ => .text) values others

theorem alike_violation (a b : Violation) : Alike (ofViolation a) (ofViolation b) := by
  refine .record ?_ ?_
  · simp only [plainNames_append, plainNames_cons, plainNames_nil, and_true]
    decide
  · simp [Alike.text, alike_texts]

/-- Also if only one of the two has an error. -/
theorem alike_result (a b : FileResult) : Alike (ofResult a) (ofResult b) := by
  rw [ofResult, ofResult]
  refine .record ?_ ?_
  · cases a.error <;> cases b.error <;>
      simp only [plainNames_append, plainNames_cons, plainNames_nil, and_true] <;>
      decide
  · cases a.error <;> cases b.error <;>
      simp [Alike.text, Alike.count, alike_texts, alike_list alike_violation]

theorem alike_flagged (a b : FlaggedFile) : Alike (ofFlaggedFile a) (ofFlaggedFile b) := by
  refine .record ?_ ?_
  · simp only [plainNames_append, plainNames_cons, plainNames_nil, and_true]
    decide
  · simp [Alike.text, alike_result]

theorem alike_failed (a b : FailedFile) : Alike (ofFailedFile a) (ofFailedFile b) := by
  refine .record ?_ ?_
  · simp only [plainNames_append, plainNames_cons, plainNames_nil, and_true]
    decide
  · simp [Alike.text]

/-- Also if only one of the two has a range. -/
theorem alike_summary (d₁ d₂ : String) (s₁ s₂ : Summary) :
    Alike (ofSummary d₁ s₁) (ofSummary d₂ s₂) := by
  rw [ofSummary, ofSummary, rangeFields, rangeFields, summaryFields, summaryFields]
  refine .record ?_ ?_
  · cases s₁.numericRange <;> cases s₂.numericRange <;>
      simp only [plainNames_append, plainNames_cons, plainNames_nil, and_true] <;>
      decide
  · cases s₁.numericRange <;> cases s₂.numericRange <;>
      simp [Alike.text, Alike.count, Alike.flag, alike_texts, alike_list alike_flagged,
        alike_list alike_failed]

theorem text_injective : Function.Injective text := fun _ _ h => Tree.text.inj h

theorem list_injective {α : Type} {tree : α → Tree} (h : Function.Injective tree)
    {values others : List α} (heq : list (values.map tree) = list (others.map tree)) :
    values = others :=
  List.map_injective_iff.mpr h (Tree.list.inj heq)

theorem texts_injective {values others : List String} (h : texts values = texts others) :
    values = others :=
  list_injective text_injective h

theorem numericKeys_injective {a b : NumericKeys}
    (h : texts (a.toList.map NumericKey.text) = texts (b.toList.map NumericKey.text)) :
    a = b := by
  have htext : Function.Injective NumericKey.text := fun _ _ => NumericKey.text_injective
  have hlist : a.toList = b.toList := List.map_injective_iff.mpr htext (texts_injective h)
  exact Std.ExtTreeSet.toList_inj.mp hlist

theorem specialKeys_injective {a b : SpecialKeys} (h : texts a.toList = texts b.toList) :
    a = b :=
  Std.ExtTreeSet.toList_inj.mp (texts_injective h)

theorem violation_injective : Function.Injective ofViolation := by
  intro a b h
  obtain ⟨location, key, keys⟩ := a
  simp only [ofViolation, record.injEq, List.cons.injEq, Prod.mk.injEq, text.injEq, true_and,
    and_true] at h
  obtain ⟨rfl, rfl, hkeys⟩ := h
  rw [texts_injective hkeys]

theorem result_injective : Function.Injective ofResult := by
  intro a b h
  obtain ⟨captures, numeric, special, violations, error⟩ := a
  obtain ⟨captures', numeric', special', violations', error'⟩ := b
  have herror : error = error' := by
    cases error <;> cases error' <;> simp_all [ofResult]
  subst herror
  have hfields := List.append_cancel_right (Tree.record.inj h)
  simp only [List.cons.injEq, Prod.mk.injEq, count.injEq, true_and, and_true] at hfields
  obtain ⟨rfl, hnumeric, hspecial, hviolations⟩ := hfields
  rw [numericKeys_injective hnumeric, specialKeys_injective hspecial,
    list_injective violation_injective hviolations]

theorem flagged_injective : Function.Injective ofFlaggedFile := by
  intro a b h
  obtain ⟨name, result⟩ := a
  simp only [ofFlaggedFile, record.injEq, List.cons.injEq, Prod.mk.injEq, text.injEq, true_and,
    and_true] at h
  obtain ⟨rfl, hresult⟩ := h
  rw [result_injective hresult]

theorem failed_injective : Function.Injective ofFailedFile := by
  intro a b h
  obtain ⟨name, error⟩ := a
  simp only [ofFailedFile, record.injEq, List.cons.injEq, Prod.mk.injEq, text.injEq, true_and,
    and_true] at h
  obtain ⟨rfl, rfl⟩ := h
  rfl

theorem summaryFields_injective : Function.Injective summaryFields := by
  intro a b h
  obtain ⟨files, captures, violations, numeric, special, flagged, failed⟩ := a
  simp only [summaryFields, List.cons.injEq, Prod.mk.injEq, count.injEq, true_and, and_true] at h
  obtain ⟨rfl, rfl, rfl, hnumeric, hspecial, hflagged, hfailed⟩ := h
  rw [numericKeys_injective hnumeric, specialKeys_injective hspecial,
    list_injective flagged_injective hflagged, list_injective failed_injective hfailed]

/-- Verdict and range say nothing that the fields behind them do not. -/
theorem summary_injective {d₁ d₂ : String} {s₁ s₂ : Summary}
    (h : ofSummary d₁ s₁ = ofSummary d₂ s₂) : d₁ = d₂ ∧ s₁ = s₂ := by
  obtain ⟨hhead, hsummary⟩ := List.append_inj' (Tree.record.inj h) rfl
  have hdirectory : text d₁ = text d₂ := (Prod.mk.inj (List.cons.inj hhead).1).2
  exact ⟨Tree.text.inj hdirectory, summaryFields_injective hsummary⟩

end Report.Tree

theorem yaml_report_faithful (d₁ d₂ : String) (s₁ s₂ : Summary) :
    Yaml.print (.ofSummary d₁ s₁) = Yaml.print (.ofSummary d₂ s₂) ↔ d₁ = d₂ ∧ s₁ = s₂ := by
  constructor
  · intro h
    exact Report.Tree.summary_injective (Yaml.print_unique (Report.Tree.alike_summary d₁ d₂ s₁ s₂) h)
  · rintro ⟨rfl, rfl⟩
    rfl

end CaptureAudit
