import Uplift.Proofs.Files.Contents

/-!
# The order of the files

Paths are compared component by component, and the files of a memory store stand in
ascending order. Every change keeps that order, so each file is listed once
(`pairwise_of_listed`).
-/

namespace Uplift

open Std

/-! ### Comparing paths -/

namespace Component

def text : Component → String
  | name s => s
  | root | here | up => ""

/-- Components compare by their rank first, and names then by their text. -/
theorem cmp_eq_compareLex : cmp = compareLex (compareOn rank) (compareOn text) := by
  funext a b
  cases a with
  | name s =>
    cases b with
    | name t => exact (congrArg (Ordering.then · (compare s t)) (Nat.compare_eq_eq.mpr rfl)).symm
    | root | here | up => rfl
  | root | here | up => cases b <;> rfl

instance : TransCmp cmp := by
  rw [cmp_eq_compareLex]
  infer_instance

instance : LawfulEqCmp cmp where
  eq_of_compare {a b} same := by
    rw [cmp_eq_compareLex, compareLex_eq_eq, compareOn, compareOn] at same
    have rank := LawfulEqOrd.eq_of_compare same.1
    have text := LawfulEqOrd.eq_of_compare same.2
    cases a <;> cases b <;> simp_all [Component.rank, Component.text]

end Component

namespace Path

theorem cmpComponents_eq_compareLex (as bs : List Component) :
    cmpComponents as bs = List.compareLex Component.cmp as bs := by
  induction as generalizing bs with
  | nil => cases bs <;> rfl
  | cons a as ih =>
    cases bs with
    | nil => rfl
    | cons b bs => rw [cmpComponents, List.compareLex_cons_cons, ih]

theorem cmp_eq_compareLex (p q : Path) :
    p.cmp q = List.compareLex Component.cmp p.components q.components :=
  cmpComponents_eq_compareLex _ _

theorem same_iff_cmp {p q : Path} : p.same q = true ↔ p.cmp q = .eq := by
  rw [cmp_eq_compareLex, LawfulEqCmp.compare_eq_iff_eq, same, decide_eq_true_eq]

theorem lt_iff {p q : Path} : p.lt q = true ↔ p.cmp q = .lt := by
  rw [lt, beq_iff_eq]

theorem lt_trans {p q r : Path} (first : p.lt q = true) (second : q.lt r = true) :
    p.lt r = true := by
  rw [lt_iff, cmp_eq_compareLex] at *
  exact TransCmp.lt_trans first second

theorem same_of_lt {p q : Path} (less : p.lt q = true) : p.same q = false := by
  rw [Bool.eq_false_iff]
  intro same
  rw [lt_iff, same_iff_cmp.mp same] at less
  cases less

theorem lt_of_other {p q : Path} (other : p.same q = false) (less : p.lt q = false) :
    q.lt p = true := by
  rw [Bool.eq_false_iff, ne_eq, same_iff_cmp] at other
  rw [Bool.eq_false_iff, ne_eq, lt_iff] at less
  rw [cmp_eq_compareLex] at other less
  rw [lt_iff, cmp_eq_compareLex, ← OrientedCmp.gt_iff_lt]
  cases order : List.compareLex Component.cmp p.components q.components with
  | lt => exact absurd order less
  | eq => exact absurd order other
  | gt => rfl

theorem lt_congr_right {p q : Path} (same : p.same q = true) (r : Path) : r.lt p = r.lt q := by
  rw [Path.same, decide_eq_true_eq] at same
  unfold lt cmp
  rw [same]

end Path

/-! ### Files in order -/

namespace Files

def Ascending (files : Files) : Prop := files.Pairwise fun a b => a.1.lt b.1 = true

theorem mem_put {p : Path} {content : String} {files : Files} {entry : Path × String}
    (member : entry ∈ put p content files) :
    entry.1.same p = true ∨ entry ∈ files := by
  fun_induction put p content files with
  | case1 =>
    rw [List.mem_singleton.mp member]
    exact .inl p.same_refl
  | case2 q old rest same =>
    rcases List.mem_cons.mp member with rfl | among
    · exact .inl (Path.same_symm same)
    · exact .inr (List.mem_cons_of_mem _ among)
  | case3 q old rest other less =>
    rcases List.mem_cons.mp member with rfl | among
    · exact .inl p.same_refl
    · exact .inr among
  | case4 q old rest other notLess ih =>
    rcases List.mem_cons.mp member with rfl | among
    · exact .inr List.mem_cons_self
    · exact (ih among).imp_right (List.mem_cons_of_mem _)

theorem ascending_put {files : Files} (ascending : Ascending files) (p : Path)
    (content : String) : Ascending (put p content files) := by
  fun_induction put p content files with
  | case1 => exact List.pairwise_singleton ..
  | case2 q old rest same =>
    obtain ⟨above, others⟩ := List.pairwise_cons.mp ascending
    exact List.pairwise_cons.mpr ⟨above, others⟩
  | case3 q old rest other less =>
    refine List.pairwise_cons.mpr ⟨fun entry member => ?_, ascending⟩
    rcases List.mem_cons.mp member with rfl | among
    · exact less
    · exact Path.lt_trans less ((List.pairwise_cons.mp ascending).1 entry among)
  | case4 q old rest other notLess ih =>
    obtain ⟨above, others⟩ := List.pairwise_cons.mp ascending
    refine List.pairwise_cons.mpr ⟨fun entry member => ?_, ih others⟩
    rcases mem_put member with new | among
    · rw [Path.lt_congr_right new]
      exact Path.lt_of_other (Bool.eq_false_iff.mpr other) (Bool.eq_false_iff.mpr notLess)
    · exact above entry among

theorem ascending_erase {files : Files} (ascending : Ascending files) (p : Path) :
    Ascending (erase p files) := List.Pairwise.filter _ ascending

theorem ascending_ofList (pairs : List (Path × String)) : Ascending (ofList pairs) := by
  suffices from_any : ∀ files : Files, Ascending files →
      Ascending (pairs.foldl (fun files pair => files.put pair.1 pair.2) files) from
    from_any [] List.Pairwise.nil
  induction pairs with
  | nil => exact fun _ ascending => ascending
  | cons pair rest ih => exact fun files ascending => ih _ (ascending_put ascending ..)

end Files

namespace Memory

theorem ascending_of_listed {m : Memory} (ascending : m.files.Ascending) {r : Request}
    {listed : List Path} (scanned : FileStore.list m r = .ok listed) :
    listed.Pairwise fun p q => p.lt q = true := by
  obtain ⟨filter, rfl⟩ := list_ok scanned
  exact List.Pairwise.filter _ (List.pairwise_map.mpr ascending)

theorem pairwise_of_listed {m : Memory} (ascending : m.files.Ascending) {r : Request}
    {listed : List Path} (scanned : FileStore.list m r = .ok listed) :
    listed.Pairwise fun p q => p.same q = false :=
  (ascending_of_listed ascending scanned).imp Path.same_of_lt

end Memory

end Uplift
