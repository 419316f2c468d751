import CaptureAudit.Analysis
import CaptureAudit.Proofs.Capture.Reordering

/-! # An analysis does not depend on scalars

Two documents that differ only in scalars are walked side by side. Wherever a scalar is put off for
later, one is put off in the other document, and neither holds a capture object; so in each step the
values still to be visited stay alike, and the same keys are met under the same paths. -/
namespace CaptureAudit

namespace Document

/-- The same objects and arrays, with the same names in the same order; where the one document has
a scalar, the other has some scalar too. -/
inductive SameSkeleton : Document → Document → Prop
  | scalar {v w : Document} : v.isContainer = false → w.isContainer = false → SameSkeleton v w
  | array {items others : List Document} : List.Forall₂ SameSkeleton items others →
      SameSkeleton (.array items) (.array others)
  | object {members others : Members} : members.map Prod.fst = others.map Prod.fst →
      List.Forall₂ SameSkeleton (members.map Prod.snd) (others.map Prod.snd) →
      SameSkeleton (.object members) (.object others)

structure SameMember (member other : String × Document) : Prop where
  name : member.1 = other.1
  value : SameSkeleton member.2 other.2

structure SamePending (pending other : Pending) : Prop where
  value : SameSkeleton pending.1 other.1
  path : pending.2 = other.2

end Document

/-- Capture objects of one path, with the same keys in the same order. -/
structure CaptureObject.SameListing (capture other : CaptureObject) : Prop where
  path : capture.path = other.path
  keys : capture.keys = other.keys

namespace Document

variable {v w : Document} {path key : String} {members others : Members}

theorem SameSkeleton.isContainer_eq (h : SameSkeleton v w) : v.isContainer = w.isContainer := by
  cases h with
  | scalar hv hw => rw [hv, hw]
  | array _ => rfl
  | object _ _ => rfl

theorem children_scalar (h : v.isContainer = false) (path : String) : v.children path = [] := by
  cases v <;> first | rfl | cases h

theorem collected_scalar (h : v.isContainer = false) (path : String) : collected path v = [] := by
  cases v <;> first | rfl | cases h

theorem held_scalar (h : v.isContainer = false) (path : String) : v.held path = [] := by
  cases v <;> first | rfl | cases h

def capture? (path : String) : Option Document → Option CaptureObject
  | some (.object inner) => some ⟨path, inner⟩
  | _ => none

theorem heldCaptures_eq (path : String) (members : Members) : heldCaptures path members =
    captureKeys.filterMap fun key => capture? (memberPath path key) (members.lookup key) := rfl

theorem capture_scalar (h : v.isContainer = false) (path : String) :
    capture? path (some v) = none := by
  cases v <;> first | rfl | cases h

theorem items_alike {items others : List Document} (h : List.Forall₂ SameSkeleton items others)
    (index : Nat) :
    List.Forall₂ SamePending (pendingItems path index items) (pendingItems path index others) := by
  induction h generalizing index with
  | nil => exact .nil
  | cons hitem _ ih => exact .cons ⟨hitem, rfl⟩ (ih (index + 1))

theorem members_paired (hnames : members.map Prod.fst = others.map Prod.fst)
    (hvalues : List.Forall₂ SameSkeleton (members.map Prod.snd) (others.map Prod.snd)) :
    List.Forall₂ SameMember members others := by
  induction members generalizing others with
  | nil =>
    obtain rfl : others = [] := by simpa using hnames.symm
    exact .nil
  | cons first rest ih =>
    cases others with
    | nil => cases hnames
    | cons second more =>
      obtain ⟨hname, hrest⟩ := List.cons.inj hnames
      obtain ⟨hvalue, hmore⟩ := List.forall₂_cons.mp hvalues
      exact .cons ⟨hname, hvalue⟩ (ih hrest hmore)

theorem named_alike (h : List.Forall₂ SameMember members others) :
    List.Forall₂ SamePending (members.map fun (name, value) => (value, memberPath path name))
      (others.map fun (name, value) => (value, memberPath path name)) := by
  induction h with
  | nil => exact .nil
  | cons hmember _ ih =>
    exact .cons ⟨hmember.value, congrArg (memberPath path) hmember.name⟩ ih

theorem collected_alike (h : SameSkeleton v w) :
    List.Forall₂ SamePending (collected path v) (collected path w) := by
  cases h with
  | scalar hv hw =>
    rw [collected_scalar hv, collected_scalar hw]
    exact .nil
  | array hitems => exact items_alike hitems 0
  | object hnames hvalues => exact named_alike (members_paired hnames hvalues)

theorem member_alike (h : SameSkeleton v w) :
    List.Forall₂ SamePending (pendingMember path key v) (pendingMember path key w) := by
  rw [pendingMember, pendingMember, h.isContainer_eq]
  split
  · exact collected_alike h
  · split
    · exact .cons ⟨h, rfl⟩ .nil
    · exact .nil

theorem members_alike (h : List.Forall₂ SameMember members others) :
    List.Forall₂ SamePending (pendingMembers path members) (pendingMembers path others) := by
  induction h with
  | nil => exact .nil
  | cons hmember _ ih =>
    rw [pendingMembers, pendingMembers, hmember.name]
    exact List.rel_append (member_alike hmember.value) ih

theorem SameSkeleton.children (h : SameSkeleton v w) (path : String) :
    List.Forall₂ SamePending (v.children path) (w.children path) := by
  cases h with
  | scalar hv hw =>
    rw [children_scalar hv, children_scalar hw]
    exact .nil
  | array hitems => exact items_alike hitems 0
  | object hnames hvalues => exact members_alike (members_paired hnames hvalues)

/-- A scalar under a capture key is no capture object, and neither is the one in its place. -/
theorem capture_alike (path : String) {found found' : Option Document}
    (h : Option.Rel SameSkeleton found found') :
    Option.Rel CaptureObject.SameListing (capture? path found) (capture? path found') := by
  cases h with
  | none => exact .none
  | some hvalue =>
    cases hvalue with
    | scalar hv hw =>
      rw [capture_scalar hv, capture_scalar hw]
      exact .none
    | array _ => exact .none
    | object hnames _ => exact .some ⟨rfl, hnames⟩

theorem SameSkeleton.held (h : SameSkeleton v w) (path : String) :
    List.Forall₂ CaptureObject.SameListing (v.held path) (w.held path) := by
  cases h with
  | scalar hv hw =>
    rw [held_scalar hv, held_scalar hw]
    exact .nil
  | array _ => exact .nil
  | object hnames hvalues =>
    rw [held, held, heldCaptures_eq, heldCaptures_eq]
    have hkeys : List.Forall₂ Eq captureKeys captureKeys := List.forall₂_refl _
    refine List.rel_filterMap ?_ hkeys
    rintro key _ rfl
    exact capture_alike (memberPath path key) (lookup_related hnames hvalues key)

theorem walk_alike {found found' : List CaptureObject} {pending pending' : List Pending}
    (hfound : List.Forall₂ CaptureObject.SameListing found found')
    (h : List.Forall₂ SamePending pending pending') :
    List.Forall₂ CaptureObject.SameListing (walk found pending) (walk found' pending') := by
  -- Each visit finds the same keys and puts off values alike.
  induction found, pending using walk.induct generalizing found' pending' with
  | case1 found =>
    cases h
    rw [walk, walk]
    exact List.rel_reverse hfound
  | case2 found value path rest ih =>
    cases h with
    | @cons _ other _ _ hfirst hrest =>
      obtain ⟨value', path'⟩ := other
      obtain ⟨hvalue, rfl⟩ := hfirst
      rw [walk, walk]
      exact ih (List.rel_append (List.rel_reverse (hvalue.held _)) hfound)
        (List.rel_append (hvalue.children _) hrest)

theorem SameSkeleton.captures (h : SameSkeleton v w) (label : String) :
    List.Forall₂ CaptureObject.SameListing (v.captureObjects label) (w.captureObjects label) :=
  walk_alike .nil (.cons ⟨h, rfl⟩ .nil)

end Document

structure Occurrence.SameEntry (occurrence other : Occurrence) : Prop where
  capture : occurrence.capture.SameListing other.capture
  key : occurrence.key = other.key

theorem occurrences_alike {capture other : CaptureObject} (h : capture.SameListing other) :
    List.Forall₂ Occurrence.SameEntry capture.occurrences other.occurrences := by
  rw [CaptureObject.occurrences, CaptureObject.occurrences, ← h.keys, List.forall₂_map_left_iff,
    List.forall₂_map_right_iff, List.forall₂_same]
  intro key _
  exact ⟨h, rfl⟩

theorem Document.SameSkeleton.occurrences {v w : Document} (h : SameSkeleton v w) :
    List.Forall₂ Occurrence.SameEntry v.occurrences w.occurrences :=
  List.rel_flatMap (h.captures rootLabel) fun _ _ => occurrences_alike

theorem filterMap_related {α β γ : Type} {R : α → β → Prop} {l : List α} {m : List β}
    {f : α → Option γ} {g : β → Option γ} (h : List.Forall₂ R l m)
    (hfg : ∀ a b, R a b → f a = g b) : l.filterMap f = m.filterMap g := by
  induction h with
  | nil => rfl
  | cons hab _ ih => rw [List.filterMap_cons, List.filterMap_cons, hfg _ _ hab, ih]

/-- Scalars decide nothing: whatever scalars stand in a document, the analysis of it has the same
result and logs the same records. -/
theorem scalars_immaterial {v w : Document} (h : v.SameSkeleton w) (source : String) :
    Analysis.ofDocument source v = Analysis.ofDocument source w := by
  have hcount : (v.captureObjects rootLabel).length = (w.captureObjects rootLabel).length :=
    (h.captures rootLabel).length_eq
  have hnumeric : v.occurrences.filterMap Occurrence.numericKey? =
      w.occurrences.filterMap Occurrence.numericKey? := by
    apply filterMap_related h.occurrences
    intro a b hab
    rw [Occurrence.numericKey?, Occurrence.numericKey?, hab.key]
  have hspecial : v.occurrences.filterMap Occurrence.specialKey? =
      w.occurrences.filterMap Occurrence.specialKey? := by
    apply filterMap_related h.occurrences
    intro a b hab
    rw [Occurrence.specialKey?, Occurrence.specialKey?, hab.key]
  have hviolations : v.occurrences.filterMap Occurrence.violation? =
      w.occurrences.filterMap Occurrence.violation? := by
    apply filterMap_related h.occurrences
    intro a b hab
    rw [Occurrence.violation?, Occurrence.violation?, hab.key, hab.capture.path, hab.capture.keys]
  rw [Analysis.ofDocument, Analysis.ofDocument, hcount, hnumeric, hspecial, hviolations]

/-- Scalars in each place where the walk meets one: under a plain key and under a capture key, as an
item, as a rule, in place of a collection and in a capture object. -/
def scalarsEverywhere : Document :=
  .object [("name", .null), ("beginCaptures", .string "x"), ("repository", .bool true),
    ("patterns", .array [.integer 1, .object [("captures", .object [("y", .float)])]])]

def otherScalars : Document :=
  .object [("name", .float), ("beginCaptures", .integer 0), ("repository", .string "captures"),
    ("patterns", .array [.null, .object [("captures", .object [("y", .bool false)])]])]

theorem other_scalars_immaterial : scalarsEverywhere.SameSkeleton otherScalars ∧
    Analysis.ofDocument "a.json" scalarsEverywhere = Analysis.ofDocument "a.json" otherScalars := by
  have hkeys : (Document.object [("y", .float)]).SameSkeleton (.object [("y", .bool false)]) :=
    .object rfl (.cons (.scalar rfl rfl) .nil)
  have hrule : (Document.object [("captures", .object [("y", .float)])]).SameSkeleton
      (.object [("captures", .object [("y", .bool false)])]) :=
    .object rfl (.cons hkeys .nil)
  have hpatterns : (Document.array [.integer 1,
        .object [("captures", .object [("y", .float)])]]).SameSkeleton
      (.array [.null, .object [("captures", .object [("y", .bool false)])]]) :=
    .array (.cons (.scalar rfl rfl) (.cons hrule .nil))
  have hskeleton : scalarsEverywhere.SameSkeleton otherScalars :=
    .object rfl (.cons (.scalar rfl rfl) (.cons (.scalar rfl rfl)
      (.cons (.scalar rfl rfl) (.cons hpatterns .nil))))
  exact ⟨hskeleton, scalars_immaterial hskeleton "a.json"⟩

end CaptureAudit
