import Uplift.Files.Disk
import Uplift.Proofs.Text.Splitting

/-!
# Paths below a place

A path is joined to a place by writing it behind the place, so its parts come behind the
parts of the place (`parts_join`). From this follows what the components and the names of a
joined path are, and that different paths stay different below a place.
-/

namespace Uplift

namespace Path

def parts (p : Path) : List (List Char) := Text.splitAll '/' p.text.toList

theorem parts_ne_nil (p : Path) : p.parts ≠ [] := Text.splitAll_ne_nil _ _

/-- The parts of a path below a place are those of the place, but for a blank one at its end,
and then those of the path. -/
theorem parts_join (p q : Path) (relative : q.isAbsolute = false) :
    ∃ front blank, (p.join q).parts = front ++ q.parts ∧ p.parts = front ++ blank ∧
      (blank = [] ∨ blank = [[]]) ∧ (front = [] → p.text = "") := by
  unfold join
  rw [relative, if_neg Bool.false_ne_true]
  split
  · rename_i empty
    have none : p.text = "" := String.isEmpty_iff.mp empty
    refine ⟨[], [[]], rfl, ?_, .inr rfl, fun _ => none⟩
    rw [parts, none]
    rfl
  · split
    · rename_i ends
      obtain ⟨before, same⟩ := List.getLast?_eq_some_iff.mp ends
      refine ⟨Text.splitAll '/' before, [[]], ?_, ?_, .inr rfl, fun none => ?_⟩
      · simp [parts, same, Text.splitAll_append]
      · simp [parts, same, Text.splitAll_append, Text.splitAll]
      · exact absurd none (Text.splitAll_ne_nil _ _)
    · refine ⟨p.parts, [], ?_, (List.append_nil _).symm, .inl rfl, fun none => ?_⟩
      · simp [parts, Text.splitAll_append]
      · exact absurd none p.parts_ne_nil

theorem join_of_empty {p q : Path} (empty : p.text = "") : p.join q = q := by
  unfold join
  rw [empty]
  split <;> rfl

theorem isAbsolute_join {p q : Path} (relative : q.isAbsolute = false) (given : p.text ≠ "") :
    (p.join q).isAbsolute = p.isAbsolute := by
  obtain ⟨c, rest, same⟩ := List.exists_cons_of_ne_nil (mt String.toList_eq_nil_iff.mp given)
  have blank : p.text.isEmpty = false := Bool.eq_false_iff.mpr (mt String.isEmpty_iff.mp given)
  unfold join
  rw [relative, blank, if_neg Bool.false_ne_true, if_neg Bool.false_ne_true]
  split <;> simp [isAbsolute, same]

/-! ### Components -/

/-- The component that only the start of a path can have. -/
def lead (p : Path) : List Component :=
  if p.isAbsolute then [.root] else if p.parts.head? = some ['.'] then [.here] else []

theorem components_eq (p : Path) : p.components = p.lead ++ p.parts.filterMap componentOf := by
  unfold components lead
  change (if p.isAbsolute = true then .root :: p.parts.filterMap componentOf
    else if p.parts.head? = some ['.'] then .here :: p.parts.tail.filterMap componentOf
    else p.parts.filterMap componentOf) = _
  split
  · rfl
  · split
    · rename_i dotted
      obtain ⟨rest, same⟩ := List.head?_eq_some_iff.mp dotted
      rw [same]
      rfl
    · rfl

/-- A relative path that does not start with the component `.`: written behind a place, it adds
its components to those of the place. -/
structure Plain (p : Path) : Prop where
  relative : p.isAbsolute = false
  undotted : p.components.head? ≠ some .here

theorem Plain.components_eq {p : Path} (plain : p.Plain) :
    p.components = p.parts.filterMap componentOf := by
  have lead : p.lead = [] := by
    have undotted := plain.undotted
    rw [Path.components_eq] at undotted
    unfold Path.lead at undotted ⊢
    rw [plain.relative, if_neg Bool.false_ne_true] at undotted ⊢
    split
    · rename_i dotted
      rw [if_pos dotted] at undotted
      exact absurd rfl undotted
    · rfl
  rw [Path.components_eq, lead, List.nil_append]

theorem components_join (p : Path) {q : Path} (plain : q.Plain) :
    (p.join q).components = p.components ++ q.components := by
  obtain ⟨front, blank, joined, own, none, empty⟩ := parts_join p q plain.relative
  have vanishes : blank.filterMap componentOf = [] := by
    rcases none with rfl | rfl <;> rfl
  by_cases nowhere : p.text = ""
  · have own : p.components = [] := by
      unfold components isAbsolute
      rw [nowhere]
      rfl
    rw [join_of_empty nowhere, own, List.nil_append]
  · have lead : (p.join q).lead = p.lead := by
      obtain ⟨part, rest, same⟩ := List.exists_cons_of_ne_nil (mt empty nowhere)
      unfold Path.lead
      rw [isAbsolute_join plain.relative nowhere, joined, own, same]
      rfl
    rw [Path.components_eq, lead, joined, p.components_eq, own, plain.components_eq]
    simp [vanishes]

theorem same_join_iff (place : Path) {p q : Path} (plain : p.Plain) (plain' : q.Plain) :
    (place.join p).same (place.join q) = p.same q := by
  unfold same
  rw [components_join place plain, components_join place plain']
  simp

theorem components_of_same {p q : Path} (same : p.same q = true) :
    p.components = q.components := by
  simpa [Path.same] using same

def Holds (place p : Path) : Prop := place.components <+: p.components

instance (place p : Path) : Decidable (place.Holds p) :=
  inferInstanceAs (Decidable (place.components <+: p.components))

theorem holds_join (place : Path) {p : Path} (plain : p.Plain) : place.Holds (place.join p) := by
  rw [Holds, components_join place plain]
  exact List.prefix_append _ _

theorem Holds.congr {place p q : Path} (same : p.same q = true) (holds : place.Holds p) :
    place.Holds q := by
  rw [Holds, ← components_of_same same]
  exact holds

end Path

end Uplift
