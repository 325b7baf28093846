import Uplift.Keyed

/-!
# Order of keys

Putting a value under a key keeps the keys in ascending order and forgets no other key. What
the keys lead to decides such a map (`ext`). A sorted set holds what was put into it.
-/

namespace Uplift

namespace Keyed

variable {α : Type}

def Ascending (m : Keyed α) : Prop := m.Pairwise (·.1 < ·.1)

instance (m : Keyed α) : Decidable (Ascending m) :=
  inferInstanceAs (Decidable (m.Pairwise (·.1 < ·.1)))

theorem mem_insert {key : String} {value : α} {m : Keyed α} {pair : String × α}
    (member : pair ∈ insert key value m) : pair = (key, value) ∨ pair ∈ m := by
  induction m with
  | nil => exact .inl (List.mem_singleton.mp member)
  | cons own rest ih =>
    rw [insert] at member
    split at member
    · rcases List.mem_cons.mp member with same | among
      · exact .inl same
      · exact .inr (List.mem_cons_of_mem _ among)
    · split at member
      · exact List.mem_cons.mp member
      · rcases List.mem_cons.mp member with rfl | among
        · exact .inr List.mem_cons_self
        · exact (ih among).imp_right (List.mem_cons_of_mem _)

theorem mem_of_get? {key : String} {value : α} {m : Keyed α} (held : get? key m = some value) :
    (key, value) ∈ m := by
  induction m with
  | nil => cases held
  | cons pair rest ih =>
    rw [get?] at held
    split at held
    case isTrue same =>
      cases held
      rw [← same]
      exact List.mem_cons_self
    case isFalse => exact List.mem_cons_of_mem _ (ih held)

theorem ascending_insert {m : Keyed α} (ascending : Ascending m) (key : String) (value : α) :
    Ascending (insert key value m) := by
  induction m with
  | nil => exact List.pairwise_singleton _ _
  | cons own rest ih =>
    obtain ⟨above, others⟩ := List.pairwise_cons.mp ascending
    rw [insert]
    split
    case isTrue same =>
      subst same
      exact List.pairwise_cons.mpr ⟨above, others⟩
    case isFalse different =>
      split
      case isTrue before =>
        refine List.pairwise_cons.mpr ⟨fun pair member => ?_, ascending⟩
        rcases List.mem_cons.mp member with rfl | among
        · exact before
        · exact String.lt_trans before (above pair among)
      case isFalse behind =>
        have less : own.1 < key := Classical.byContradiction fun above =>
          different (String.le_antisymm (String.not_lt.mp behind) (String.not_lt.mp above))
        refine List.pairwise_cons.mpr ⟨fun pair member => ?_, ih others⟩
        rcases mem_insert member with rfl | among
        · exact less
        · exact above pair among

theorem insert_behind {m : Keyed α} {key : String} (above : ∀ pair ∈ m, pair.1 < key)
    (value : α) : insert key value m = m ++ [(key, value)] := by
  induction m with
  | nil => rfl
  | cons own rest ih =>
    have less : own.1 < key := above own List.mem_cons_self
    have different : own.1 ≠ key := fun same => String.lt_irrefl key (same ▸ less)
    rw [insert, if_neg different, if_neg (String.lt_asymm less),
      ih fun pair member => above pair (List.mem_cons_of_mem _ member)]
    rfl

theorem has_insert {key other : String} {value : α} {m : Keyed α}
    (held : has other m = true ∨ other = key) :
    has other (insert key value m) = true := by
  unfold has at held ⊢
  by_cases same : other = key
  · rw [same, get?_insert_self]
    rfl
  · rw [get?_insert_other same]
    exact held.resolve_right same

/-! ### Equal maps -/

theorem insert_insert (key : String) (value other : α) (m : Keyed α) :
    insert key value (insert key other m) = insert key value m := by
  induction m with
  | nil => simp [insert]
  | cons own rest ih =>
    rw [insert]
    split
    case isTrue same => simp [insert, same]
    case isFalse different =>
      split
      case isTrue before => simp [insert, different, before]
      case isFalse behind => simp [insert, different, behind, ih]

theorem get?_of_above {key : String} {m : Keyed α} (above : ∀ pair ∈ m, key < pair.1) :
    get? key m = none := by
  induction m with
  | nil => rfl
  | cons own rest ih =>
    have different : own.1 ≠ key := by
      intro same
      exact String.lt_irrefl key (same ▸ above own List.mem_cons_self)
    rw [get?, if_neg different]
    exact ih fun pair member => above pair (List.mem_cons_of_mem _ member)

theorem not_below_of_get? {own : String × α} {rest : Keyed α}
    (ascending : Ascending (own :: rest)) {key : String} {value : α}
    (held : get? key (own :: rest) = some value) : ¬key < own.1 := by
  intro below
  have above := (List.pairwise_cons.mp ascending).1
  have absent : get? key (own :: rest) = none :=
    get?_of_above (List.forall_mem_cons.mpr
      ⟨below, fun pair member => String.lt_trans below (above pair member)⟩)
  rw [absent] at held
  cases held

theorem ext {m m' : Keyed α} (ascending : Ascending m) (ascending' : Ascending m')
    (same : ∀ key, get? key m = get? key m') : m = m' := by
  induction m generalizing m' with
  | nil =>
    cases m' with
    | nil => rfl
    | cons own' rest' => simpa [get?] using same own'.1
  | cons own rest ih =>
    cases m' with
    | nil => simpa [get?] using same own.1
    | cons own' rest' =>
      have first : get? own.1 (own :: rest) = some own.2 := by rw [get?, if_pos rfl]
      have first' : get? own'.1 (own' :: rest') = some own'.2 := by rw [get?, if_pos rfl]
      have notBelow := not_below_of_get? ascending' ((same own.1).symm.trans first)
      have notAbove := not_below_of_get? ascending ((same own'.1).trans first')
      have keys : own.1 = own'.1 :=
        String.le_antisymm (String.not_lt.mp notAbove) (String.not_lt.mp notBelow)
      have values : own.2 = own'.2 := by
        have found := (same own'.1).trans first'
        rw [← keys, first] at found
        exact Option.some.inj found
      obtain ⟨above, others⟩ := List.pairwise_cons.mp ascending
      obtain ⟨above', others'⟩ := List.pairwise_cons.mp ascending'
      have tails : rest = rest' := by
        refine ih others others' fun key => ?_
        by_cases here : own.1 = key
        · subst here
          rw [get?_of_above above, get?_of_above (keys ▸ above')]
        · have found := same key
          rwa [get?, get?, if_neg here, if_neg (keys ▸ here)] at found
      rw [Prod.ext keys values, tails]

theorem insert_of_get? {m : Keyed α} (ascending : Ascending m) {key : String} {value : α}
    (held : get? key m = some value) : insert key value m = m := by
  refine ext (ascending_insert ascending key value) ascending fun other => ?_
  by_cases here : other = key
  · rw [here, get?_insert_self, held]
  · exact get?_insert_other here value m

theorem insert_comm {m : Keyed α} (ascending : Ascending m) {key key' : String}
    (different : key ≠ key') (value value' : α) :
    insert key value (insert key' value' m) = insert key' value' (insert key value m) := by
  refine ext (ascending_insert (ascending_insert ascending ..) ..)
    (ascending_insert (ascending_insert ascending ..) ..) fun other => ?_
  by_cases here : other = key
  · rw [here, get?_insert_self, get?_insert_other different, get?_insert_self]
  · rw [get?_insert_other here]
    by_cases there : other = key'
    · rw [there, get?_insert_self, get?_insert_self]
    · rw [get?_insert_other there, get?_insert_other there, get?_insert_other here]

end Keyed

/-! ### Sorted sets -/

theorem mem_insertSorted {s x : String} {xs : List String} :
    x ∈ insertSorted s xs ↔ x = s ∨ x ∈ xs := by
  fun_induction insertSorted s xs <;> grind

theorem mem_sortedSet {x : String} {xs : List String} : x ∈ sortedSet xs ↔ x ∈ xs := by
  suffices from_any : ∀ acc, x ∈ xs.foldl (fun acc s => insertSorted s acc) acc ↔
      x ∈ acc ∨ x ∈ xs by simpa [sortedSet] using from_any []
  induction xs with
  | nil => simp
  | cons s rest ih =>
    intro acc
    rw [List.foldl_cons, ih, mem_insertSorted, List.mem_cons]
    grind

end Uplift
