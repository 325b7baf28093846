import Mathlib.Data.List.Nodup
import Uplift.Pattern.Catalog

/-!
# Catalogs are lists of patterns

A catalog keeps its patterns in a table and the order of their ids beside it. Edits change both
or neither, so a catalog holds a list of patterns with distinct ids (`Catalog.Holds`), and every
edit does to it what it does to the list (`Holds.perform`). What stands in a catalog is therefore
what its history says (`edits_refine_list`). The built-in patterns are registered one by one, and
none of them is refused (`builtin_registered`).
-/

namespace Uplift

namespace Catalog

/-! ### Edits -/

inductive Edit where
  | register (p : Pattern)
  | remove (id : String)

/-- What comes back from an edit: the pattern that it takes out, if any, or why it is refused. -/
abbrev Answer := Except PatternError (Option Pattern)

/-- An edit that is refused gives no new catalog, and so the old one stays. -/
def perform (c : Catalog) : Edit → Answer × Catalog
  | .register p =>
    match c.register p with
    | .ok after => (.ok none, after)
    | .error e => (.error e, c)
  | .remove id =>
    match c.remove id with
    | .ok (p, after) => (.ok (some p), after)
    | .error e => (.error e, c)

abbrev Log := List (Edit × Answer)

def performAll (c : Catalog) : List Edit → Log × Catalog
  | [] => ([], c)
  | edit :: rest =>
    let (answer, after) := c.perform edit
    let (log, last) := after.performAll rest
    ((edit, answer) :: log, last)

theorem perform_refused {c : Catalog} {edit : Edit} {refusal : PatternError}
    (refused : (c.perform edit).1 = .error refusal) : (c.perform edit).2 = c := by
  cases edit with
  | register p =>
    rw [perform] at refused ⊢
    cases done : c.register p with
    | ok after =>
      rw [done] at refused
      cases refused
    | error e => rfl
  | remove id =>
    rw [perform] at refused ⊢
    cases done : c.remove id with
    | ok taken =>
      rw [done] at refused
      cases refused
    | error e => rfl

/-! ### Edits of a list -/

/-- What an edit does to a list of patterns: a new pattern goes to the end. -/
def editList (ps : List Pattern) : Edit → Answer × List Pattern
  | .register p =>
    if p.id ∈ ps.map (·.id) then (.error (.duplicate p.id), ps)
    else
      match p.selfTest with
      | .ok () => (.ok none, ps ++ [p])
      | .error e => (.error e, ps)
  | .remove id =>
    match ps.find? (·.id = id) with
    | some p => (.ok (some p), ps.filter (·.id ≠ id))
    | none => (.error (.notFound id), ps)

def editListAll (ps : List Pattern) : List Edit → Log × List Pattern
  | [] => ([], ps)
  | edit :: rest =>
    let (answer, after) := editList ps edit
    let (log, last) := editListAll after rest
    ((edit, answer) :: log, last)

/-! ### What a history leaves -/

def takesOut (id : String) : Edit × Answer → Bool
  | (.remove id', .ok _) => id' = id
  | _ => false

/-- The patterns that were registered and not taken out since, in the order of their
registrations. -/
def standing : Log → List Pattern
  | [] => []
  | (.register p, .ok _) :: later =>
    if later.any (takesOut p.id) then standing later else p :: standing later
  | _ :: later => standing later

theorem editListAll_standing (ps : List Pattern) (edits : List Edit) :
    let (log, last) := editListAll ps edits
    last = (ps.filter fun p => !log.any (takesOut p.id)) ++ standing log := by
  induction edits generalizing ps with
  | nil => simp [editListAll, standing]
  | cons edit rest ih =>
    have later := ih (editList ps edit).2
    rw [editListAll]
    dsimp only at later ⊢
    generalize (editListAll (editList ps edit).2 rest).1 = log at later ⊢
    rw [later]
    cases edit with
    | register p =>
      simp only [editList]
      split
      · simp [standing, takesOut]
      · split
        · cases removed : log.any (takesOut p.id) <;>
            simp [standing, takesOut, removed, List.filter_append]
        · simp [standing, takesOut]
    | remove id =>
      simp only [editList]
      split
      · simp [standing, takesOut, List.filter_filter, Bool.and_comm, eq_comm]
      · simp [standing, takesOut]

/-! ### The list that a catalog holds -/

structure Holds (c : Catalog) (ps : List Pattern) : Prop where
  order : c.order = ps.map (·.id)
  lookup : ∀ id, c.get? id = ps.find? (·.id = id)
  distinct : (ps.map (·.id)).Nodup
  tested : ∀ p ∈ ps, p.selfTest = .ok ()

variable {c : Catalog} {ps : List Pattern}

theorem find?_of_distinct (distinct : (ps.map (·.id)).Nodup) (id : String) (p : Pattern) :
    ps.find? (·.id = id) = some p ↔ p ∈ ps ∧ p.id = id := by
  constructor
  · intro found
    exact ⟨List.mem_of_find?_eq_some found, by simpa using List.find?_some found⟩
  · rintro ⟨member, rfl⟩
    cases found : ps.find? (·.id = p.id) with
    | none => simpa using List.find?_eq_none.mp found p member
    | some q =>
      have same : q.id = p.id := by simpa using List.find?_some found
      rw [List.inj_on_of_nodup_map distinct (List.mem_of_find?_eq_some found) member same]

theorem Holds.get?_iff (holds : c.Holds ps) (id : String) (p : Pattern) :
    c.get? id = some p ↔ p ∈ ps ∧ p.id = id := by
  rw [holds.lookup, find?_of_distinct holds.distinct]

theorem Holds.all_eq (holds : c.Holds ps) : c.all = ps := by
  have own : ∀ p ∈ ps, c.get? p.id = some p := fun p member =>
    (holds.get?_iff p.id p).mpr ⟨member, rfl⟩
  rw [all, holds.order, List.filterMap_map]
  exact (List.filterMap_congr own).trans (List.filterMap_some ..)

theorem Holds.failing_eq (holds : c.Holds ps) : c.failing = [] := by
  rw [failing, holds.all_eq, List.filterMap_eq_nil_iff]
  intro p member
  rw [holds.tested p member]

theorem holds_empty : Holds {} [] := ⟨rfl, fun _ => rfl, .nil, by simp⟩

/-! ### One edit -/

theorem get?_register (c : Catalog) (p : Pattern) (id : String) :
    get? { byId := (p.id, p) :: c.byId, order := c.order ++ [p.id] } id =
      if p.id = id then some p else c.get? id := by
  unfold get?
  rw [List.find?_cons]
  by_cases same : p.id = id <;> simp [same]

theorem get?_remove (c : Catalog) (id other : String) :
    get? { byId := c.byId.filter (·.1 ≠ id), order := c.order.filter (· ≠ id) } other =
      if other = id then none else c.get? other := by
  unfold get?
  rw [List.find?_filter]
  split
  · rename_i same
    rw [List.find?_eq_none.mpr, Option.map_none]
    simp [same]
  · rename_i different
    congr 2
    funext entry
    by_cases found : entry.1 = other <;> simp [found, different]

theorem Holds.registered (holds : c.Holds ps) {p : Pattern} (new : p.id ∉ ps.map (·.id))
    (passes : p.selfTest = .ok ()) :
    Holds { byId := (p.id, p) :: c.byId, order := c.order ++ [p.id] } (ps ++ [p]) := by
  refine ⟨?_, fun id => ?_, ?_, fun q member => ?_⟩
  · rw [holds.order, List.map_append, List.map_singleton]
  · rw [get?_register, holds.lookup, List.find?_append]
    split
    · rename_i same
      have absent : ps.find? (·.id = id) = none := by
        rw [List.find?_eq_none]
        intro q member found
        exact new (same ▸ of_decide_eq_true found ▸ List.mem_map_of_mem member)
      simp [absent, same]
    · rename_i different
      simp [different]
  · rw [List.map_append, List.nodup_append]
    exact ⟨holds.distinct, List.nodup_singleton _, by simpa using new⟩
  · rcases List.mem_append.mp member with among | last
    · exact holds.tested q among
    · exact List.mem_singleton.mp last ▸ passes

theorem Holds.removed (holds : c.Holds ps) (id : String) :
    Holds { byId := c.byId.filter (·.1 ≠ id), order := c.order.filter (· ≠ id) }
      (ps.filter (·.id ≠ id)) := by
  refine ⟨?_, fun other => ?_, ?_, fun q member => holds.tested q (List.mem_filter.mp member).1⟩
  · rw [holds.order, List.filter_map]
    rfl
  · rw [get?_remove, holds.lookup, List.find?_filter]
    split
    · rename_i same
      rw [eq_comm, List.find?_eq_none]
      simp [same]
    · rename_i different
      congr 1
      funext q
      by_cases found : q.id = other <;> simp [found, different]
  · exact holds.distinct.sublist (List.Sublist.map _ List.filter_sublist)

/-- An edit does to the catalog what it does to the list, and its answer is the same. -/
theorem Holds.perform (holds : c.Holds ps) (edit : Edit) :
    (c.perform edit).1 = (editList ps edit).1 ∧
      (c.perform edit).2.Holds (editList ps edit).2 := by
  cases edit with
  | register p =>
    have known : (c.get? p.id).isSome = true ↔ p.id ∈ ps.map (·.id) := by
      rw [holds.lookup, List.find?_isSome]
      simp
    unfold Catalog.perform register editList
    dsimp only
    by_cases there : p.id ∈ ps.map (·.id)
    · rw [if_pos there, if_pos (known.mpr there)]
      exact ⟨rfl, holds⟩
    · rw [if_neg there, if_neg (there ∘ known.mp)]
      cases tested : p.selfTest with
      | ok _ => exact ⟨rfl, holds.registered there tested⟩
      | error e => exact ⟨rfl, holds⟩
  | remove id =>
    unfold Catalog.perform remove editList
    dsimp only
    rw [holds.lookup]
    cases ps.find? (·.id = id) with
    | none => exact ⟨rfl, holds⟩
    | some p => exact ⟨rfl, holds.removed id⟩

/-! ### Edits in a row -/

theorem Holds.performAll (holds : c.Holds ps) (edits : List Edit) :
    (c.performAll edits).1 = (editListAll ps edits).1 ∧
      (c.performAll edits).2.Holds (editListAll ps edits).2 := by
  induction edits generalizing c ps with
  | nil => exact ⟨rfl, holds⟩
  | cons edit rest ih =>
    obtain ⟨answer, after⟩ := holds.perform edit
    obtain ⟨log, last⟩ := ih after
    refine ⟨?_, last⟩
    rw [Catalog.performAll, editListAll]
    dsimp only
    rw [answer, log]

/-- Patterns that pass their self-tests and have new and distinct ids all get in. -/
theorem Holds.all_registered (holds : c.Holds ps) (more : List Pattern)
    (distinct : ((ps ++ more).map (·.id)).Nodup) (passes : ∀ p ∈ more, p.selfTest = .ok ()) :
    ∃ after, more.foldlM (fun c p => c.register p) c = .ok after ∧ after.Holds (ps ++ more) := by
  induction more generalizing c ps with
  | nil => exact ⟨c, rfl, (List.append_nil ps).symm ▸ holds⟩
  | cons p rest ih =>
    have new : p.id ∉ ps.map (·.id) := by
      rw [List.map_append, List.map_cons, List.nodup_append] at distinct
      exact fun member => distinct.2.2 _ member _ List.mem_cons_self rfl
    have unknown : ¬(c.get? p.id).isSome = true := by
      rw [holds.lookup, List.find?_isSome]
      simpa using new
    have tested := passes p List.mem_cons_self
    obtain ⟨after, others, held⟩ := ih (holds.registered new tested) (by simpa using distinct)
      fun q member => passes q (List.mem_cons_of_mem p member)
    refine ⟨after, ?_, by simpa using held⟩
    rw [List.foldlM_cons, register, if_neg unknown, tested]
    exact others

/-- No built-in pattern is refused, and the catalog holds them in the order of their list. -/
theorem builtin_registered : withBuiltin = .ok builtin ∧ builtin.Holds Pattern.builtin := by
  have passes : ∀ p ∈ Pattern.builtin, p.selfTest = .ok () := by
    have all : (Pattern.builtin.all fun p => p.selfTest.toOption.isSome) = true := by
      decide +kernel
    intro p member
    have passes := List.all_eq_true.mp all p member
    cases tested : p.selfTest with
    | ok _ => rfl
    | error e =>
      rw [tested] at passes
      cases passes
  have distinct : (Pattern.builtin.map (·.id)).Nodup := by decide
  obtain ⟨after, accepted, held⟩ := holds_empty.all_registered Pattern.builtin distinct passes
  have whole : withBuiltin = .ok after := accepted
  rw [builtin, whole]
  exact ⟨rfl, held⟩

/-- Whatever is registered and removed, refused edits included, the catalog behaves as a list of
patterns with distinct ids. It gives the answers of the list and holds what was registered and not
removed since, in the order of the registrations; lookups, size and categories are read off that
list, and every pattern in it passes its self-test. -/
theorem edits_refine_list (edits : List Edit) :
    let log := (performAll {} edits).1
    let c := (performAll {} edits).2
    (log, c.all) = editListAll [] edits ∧ c.all = standing log ∧ (c.all.map (·.id)).Nodup ∧
      (∀ id p, c.get? id = some p ↔ p ∈ c.all ∧ p.id = id) ∧ c.size = c.all.length ∧
      (∀ category, (c.ofCategory category).Sublist c.all ∧
        ∀ p, p ∈ c.ofCategory category ↔ p ∈ c.all ∧ p.category = category) ∧
      c.failing = [] ∧
      ∀ edit refusal, (c.perform edit).1 = .error refusal → (c.perform edit).2 = c := by
  intro log c
  obtain ⟨answers, holds⟩ := holds_empty.performAll edits
  have all : c.all = (editListAll [] edits).2 := holds.all_eq
  have left := editListAll_standing [] edits
  refine ⟨Prod.ext answers all, ?_, ?_, fun id p => ?_, ?_, fun category => ?_,
    holds.failing_eq, fun edit refusal refused => ?_⟩
  · rw [all, left, ← answers]
    rfl
  · rw [all]
    exact holds.distinct
  · rw [all]
    exact holds.get?_iff id p
  · rw [all, size, holds.order, List.length_map]
  · refine ⟨List.filter_sublist, fun p => ?_⟩
    rw [ofCategory, List.mem_filter, decide_eq_true_eq]
  · exact perform_refused refused

end Catalog

end Uplift
