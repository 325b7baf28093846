import Uplift.Collaborator.BuildConfig
import Uplift.Proofs.Json.Decoding
import Uplift.Proofs.Text.Splitting

/-!
# Settings in a build configuration

What a walk does is decided by the member under its first segment, and no other member changes
(`walk_change`). From this follow the laws of a setting: it is found where it was put and
nowhere else, the last one at a key counts, and settings apart from each other may be made in
either order. A walk that is blocked leaves no object behind that it made on its way
(`walk_of_error`).
-/

namespace Uplift

def Json.at? : List String → Json → Option Json
  | [], j => some j
  | key :: rest, j => (j.asObject?.bind (Keyed.get? key)).bind (at? rest)

namespace BuildConfig

open Json (Members Opens)

/-- The first segment that does not lead to an object, though others follow it. -/
def Blocks (root : Members) (path : List String) (segment : String) : Prop :=
  ∃ front back value, path = front ++ segment :: back ∧ back ≠ [] ∧
    (∀ step, step <+: front → ∃ members, (Json.object root).at? step = some (.object members)) ∧
    (Json.object root).at? (front ++ [segment]) = some value ∧ value.asObject? = none

def Apart (path other : List String) : Prop := ¬path <+: other ∧ ¬other <+: path

theorem Apart.symm {path other : List String} (apart : Apart path other) : Apart other path :=
  ⟨apart.2, apart.1⟩

/-! ### Single steps -/

variable {root inner : Members} {segment next : String} {rest path other : List String}
  {value : Json}

theorem walk_of_opens (opens : Opens root segment inner) :
    walk (segment :: next :: rest) value root =
      ((walk (next :: rest) value inner).1,
        root.insert segment (.object (walk (next :: rest) value inner).2)) := by
  rw [walk]
  rcases opens with held | ⟨missing, rfl⟩
  · simp [Keyed.has, held]
  · simp [Keyed.has, missing, Keyed.get?_insert_self, Keyed.insert_insert]

theorem walk_of_blocked {held : Json} (blocked : root.get? segment = some held)
    (scalar : held.asObject? = none) :
    walk (segment :: next :: rest) value root = (.error segment, root) := by
  rw [walk]
  cases held with
  | object => cases scalar
  | _ => simp [Keyed.has, blocked]

theorem at?_of_opens (opens : Opens root segment inner) (goesOn : rest ≠ []) :
    (Json.object root).at? (segment :: rest) = (Json.object inner).at? rest := by
  rcases opens with held | ⟨missing, rfl⟩
  · simp [Json.at?, Json.asObject?, held]
  · obtain ⟨key, others, rfl⟩ := List.exists_cons_of_ne_nil goesOn
    simp [Json.at?, Json.asObject?, missing, Keyed.get?]

theorem at?_of_blocked {held : Json} (blocked : root.get? segment = some held) :
    (Json.object root).at? [segment] = some held := by
  simp [Json.at?, Json.asObject?, blocked]

/-- A walk puts something under its first segment, or leaves the object as it is. Which of it is
decided by what stands under that segment. -/
theorem walk_change (segment : String) (rest : List String) (value : Json) (held : Option Json) :
    ∃ (result : Except String Unit) (change : Members → Members),
      (change = id ∨ ∃ member, change = Keyed.insert segment member) ∧
        ∀ root : Members, root.get? segment = held →
          walk (segment :: rest) value root = (result, change root) := by
  cases rest with
  | nil => exact ⟨.ok (), Keyed.insert segment value, .inr ⟨value, rfl⟩, fun _ _ => rfl⟩
  | cons next rest =>
    match held with
    | none => exact ⟨_, _, .inr ⟨_, rfl⟩, fun root own => walk_of_opens (.inr ⟨own, rfl⟩)⟩
    | some (.object inner) => exact ⟨_, _, .inr ⟨_, rfl⟩, fun root own => walk_of_opens (.inl own)⟩
    | some .null | some (.bool _) | some (.number _) | some (.string _) | some (.array _) =>
      exact ⟨_, id, .inl rfl, fun root own => walk_of_blocked own rfl⟩

theorem get?_change {change : Members → Members} {segment other : String}
    (changes : change = id ∨ ∃ member, change = Keyed.insert segment member)
    (different : other ≠ segment) (root : Members) :
    (change root).get? other = root.get? other := by
  obtain rfl | ⟨member, rfl⟩ := changes
  · rfl
  · exact Keyed.get?_insert_other different member root

/-! ### Lookups -/

theorem apart_tails {rest others : List String}
    (apart : Apart (segment :: rest) (segment :: others)) :
    Apart rest others ∧ rest ≠ [] ∧ others ≠ [] := by
  obtain ⟨no, no'⟩ := apart
  rw [List.prefix_cons_inj] at no no'
  refine ⟨⟨no, no'⟩, ?_, ?_⟩
  · rintro rfl
    exact no List.nil_prefix
  · rintro rfl
    exact no' List.nil_prefix

theorem at?_walk_self (path : List String) (value : Json) (root : Members) (given : path ≠ [])
    (done : (walk path value root).1 = .ok ()) :
    (Json.object (walk path value root).2).at? path = some value := by
  induction path generalizing root with
  | nil => exact absurd rfl given
  | cons segment rest ih =>
    cases rest with
    | nil => exact at?_of_blocked (Keyed.get?_insert_self segment value root)
    | cons next rest =>
      rcases Json.opens_or_other root segment with ⟨inner, opens⟩ | ⟨other, blocked, scalar⟩
      · rw [walk_of_opens opens] at done ⊢
        rw [at?_of_opens (.inl (Keyed.get?_insert_self ..)) (List.cons_ne_nil _ _)]
        exact ih inner (List.cons_ne_nil _ _) done
      · rw [walk_of_blocked blocked scalar] at done
        cases done

theorem at?_walk_apart {path other : List String} (apart : Apart path other) (value : Json)
    (root : Members) :
    (Json.object (walk path value root).2).at? other = (Json.object root).at? other := by
  induction path generalizing other root with
  | nil => exact absurd List.nil_prefix apart.1
  | cons segment rest ih =>
    cases other with
    | nil => exact absurd List.nil_prefix apart.2
    | cons key others =>
      by_cases same : key = segment
      · subst same
        obtain ⟨apart, given, goesOn⟩ := apart_tails apart
        obtain ⟨next, rest, rfl⟩ := List.exists_cons_of_ne_nil given
        rcases Json.opens_or_other root key with ⟨inner, opens⟩ | ⟨held, blocked, scalar⟩
        · rw [walk_of_opens opens, at?_of_opens opens goesOn,
            at?_of_opens (.inl (Keyed.get?_insert_self ..)) goesOn]
          exact ih apart inner
        · rw [walk_of_blocked blocked scalar]
      · obtain ⟨result, change, changes, walks⟩ :=
          walk_change segment rest value (root.get? segment)
        rw [walks root rfl]
        simp only [Json.at?, Json.asObject?, Option.bind_some, get?_change changes same]

/-! ### One setting after another -/

/-- A walk does not meet what an earlier one left that came to the end of its path or went on
behind it. -/
theorem walk_within {path other : List String} (within : path <+: other) (given : path ≠ [])
    (value last : Json) (root : Members) :
    walk path last (walk other value root).2 = walk path last root := by
  induction path generalizing other root with
  | nil => exact absurd rfl given
  | cons segment rest ih =>
    obtain ⟨back, rfl⟩ := within
    cases rest with
    | nil =>
      obtain ⟨result, change, changes, walks⟩ :=
        walk_change segment back value (root.get? segment)
      rw [List.singleton_append, walks root rfl]
      obtain rfl | ⟨member, rfl⟩ := changes
      · rfl
      · exact congrArg (Prod.mk _) (Keyed.insert_insert segment last member root)
    | cons next rest =>
      have within : next :: rest <+: next :: (rest ++ back) := List.prefix_append _ back
      rw [List.cons_append, List.cons_append]
      rcases Json.opens_or_other root segment with ⟨inner, opens⟩ | ⟨other, blocked, scalar⟩
      · rw [walk_of_opens opens, walk_of_opens (.inl (Keyed.get?_insert_self ..)),
          walk_of_opens opens, ih within (List.cons_ne_nil _ _), Keyed.insert_insert]
      · rw [walk_of_blocked blocked scalar, walk_of_blocked blocked scalar]

theorem walk_walk (path : List String) (value last : Json) (root : Members) :
    walk path last (walk path value root).2 = walk path last root := by
  cases path with
  | nil => rfl
  | cons segment rest => exact walk_within List.prefix_rfl (List.cons_ne_nil _ _) value last root

theorem walk_comm {path other : List String} (apart : Apart path other) (value value' : Json)
    {root : Members} (ordered : (Json.object root).Ordered) :
    (walk other value' (walk path value root).2).1 = (walk other value' root).1 ∧
      (walk other value' (walk path value root).2).2 =
        (walk path value (walk other value' root).2).2 := by
  induction path generalizing other root with
  | nil => exact absurd List.nil_prefix apart.1
  | cons segment rest ih =>
    cases other with
    | nil => exact absurd List.nil_prefix apart.2
    | cons key others =>
      -- Both walks go on in one object, or each of them changes a member of its own.
      by_cases same : key = segment
      · subst same
        obtain ⟨apart, given, goesOn⟩ := apart_tails apart
        obtain ⟨next, rest, rfl⟩ := List.exists_cons_of_ne_nil given
        obtain ⟨next', others, rfl⟩ := List.exists_cons_of_ne_nil goesOn
        rcases Json.opens_or_other root key with ⟨inner, opens⟩ | ⟨held, blocked, scalar⟩
        · obtain ⟨results, states⟩ := ih apart (ordered.opens opens)
          rw [walk_of_opens opens, walk_of_opens opens,
            walk_of_opens (.inl (Keyed.get?_insert_self ..)),
            walk_of_opens (.inl (Keyed.get?_insert_self ..)), results, states,
            Keyed.insert_insert, Keyed.insert_insert]
          exact ⟨rfl, rfl⟩
        · rw [walk_of_blocked blocked scalar, walk_of_blocked blocked scalar,
            walk_of_blocked blocked scalar]
          exact ⟨rfl, rfl⟩
      · obtain ⟨result, change, changes, walks⟩ :=
          walk_change segment rest value (root.get? segment)
        obtain ⟨result', change', changes', walks'⟩ :=
          walk_change key others value' (root.get? key)
        rw [walks root rfl, walks' root rfl, walks' _ (get?_change changes same root),
          walks _ (get?_change changes' (Ne.symm same) root)]
        refine ⟨rfl, ?_⟩
        obtain rfl | ⟨member, rfl⟩ := changes
        · rfl
        · obtain rfl | ⟨member', rfl⟩ := changes'
          · rfl
          · cases ordered with
            | object ascending each => exact Keyed.insert_comm ascending same member' member

/-! ### Walks that are blocked -/

theorem not_blocks_single (root : Members) (last segment : String) :
    ¬Blocks root [last] segment := by
  rintro ⟨front, back, value, path, goesOn, -⟩
  cases front with
  | nil => exact goesOn (List.cons.inj path).2.symm
  | cons => simp at path

theorem not_blocks_empty (path : List String) (segment : String) : ¬Blocks [] path segment := by
  rintro ⟨front, back, value, -, -, -, held, -⟩
  cases front <;> simp [Json.at?, Json.asObject?, Keyed.get?] at held

theorem blocks_of_opens {blocking : String} (opens : Opens root segment inner) :
    Blocks root (segment :: rest) blocking ↔ Blocks inner rest blocking := by
  constructor
  · rintro ⟨front, back, value, path, goesOn, steps, held, scalar⟩
    cases front with
    | nil =>
      obtain ⟨rfl, rfl⟩ := List.cons.inj path
      rcases opens with object | ⟨missing, -⟩
      · rw [List.nil_append, at?_of_blocked object] at held
        cases held
        cases scalar
      · simp [Json.at?, Json.asObject?, missing] at held
    | cons key front =>
      obtain ⟨rfl, rfl⟩ := List.cons.inj path
      rw [List.cons_append, at?_of_opens opens (by simp)] at held
      refine ⟨front, back, value, rfl, goesOn, fun step before => ?_, held, scalar⟩
      cases step with
      | nil => exact ⟨inner, rfl⟩
      | cons key step =>
        have behind := steps (segment :: key :: step) (List.cons_prefix_cons.mpr ⟨rfl, before⟩)
        rwa [at?_of_opens opens (List.cons_ne_nil _ _)] at behind
  · intro blocks
    rcases opens with object | ⟨-, rfl⟩
    · obtain ⟨front, back, value, rfl, goesOn, steps, held, scalar⟩ := blocks
      refine ⟨segment :: front, back, value, rfl, goesOn, fun step before => ?_, ?_, scalar⟩
      · cases step with
        | nil => exact ⟨root, rfl⟩
        | cons key step =>
          obtain ⟨rfl, within⟩ := List.cons_prefix_cons.mp before
          cases step with
          | nil => exact ⟨inner, at?_of_blocked object⟩
          | cons next step =>
            rw [at?_of_opens (.inl object) (List.cons_ne_nil _ _)]
            exact steps _ within
      · rw [List.cons_append, at?_of_opens (.inl object) (by simp)]
        exact held
    · exact absurd blocks (not_blocks_empty rest blocking)

theorem blocks_of_blocked {held : Json} {blocking : String}
    (blocked : root.get? segment = some held) (scalar : held.asObject? = none) :
    Blocks root (segment :: next :: rest) blocking ↔ blocking = segment := by
  constructor
  · rintro ⟨front, back, value, path, -, steps, -⟩
    cases front with
    | nil => exact (List.cons.inj path).1.symm
    | cons key front =>
      obtain ⟨rfl, -⟩ := List.cons.inj path
      obtain ⟨members, found⟩ := steps [segment] (List.cons_prefix_cons.mpr ⟨rfl, List.nil_prefix⟩)
      rw [at?_of_blocked blocked] at found
      cases found
      cases scalar
  · rintro rfl
    refine ⟨[], next :: rest, held, rfl, List.cons_ne_nil _ _, fun step before => ?_, ?_, scalar⟩
    · rw [List.prefix_nil.mp before]
      exact ⟨root, rfl⟩
    · exact at?_of_blocked blocked

theorem walk_error_iff (path : List String) (value : Json) (root : Members) (segment : String) :
    (walk path value root).1 = .error segment ↔ Blocks root path segment := by
  induction path generalizing root with
  | nil =>
    refine iff_of_false nofun ?_
    rintro ⟨front, back, value, path, -⟩
    cases front <;> cases path
  | cons first rest ih =>
    cases rest with
    | nil => exact iff_of_false nofun (not_blocks_single root first segment)
    | cons next rest =>
      rcases Json.opens_or_other root first with ⟨inner, opens⟩ | ⟨held, blocked, scalar⟩
      · rw [walk_of_opens opens, blocks_of_opens opens]
        exact ih inner
      · rw [walk_of_blocked blocked scalar, blocks_of_blocked blocked scalar, Except.error.injEq]
        exact eq_comm

theorem walk_of_error {path : List String} {value : Json} {root : Members} {segment : String}
    (ordered : (Json.object root).Ordered)
    (failed : (walk path value root).1 = .error segment) : (walk path value root).2 = root := by
  induction path generalizing root with
  | nil => rfl
  | cons first rest ih =>
    cases rest with
    | nil => cases failed
    | cons next rest =>
      rcases Json.opens_or_other root first with ⟨inner, opens⟩ | ⟨held, blocked, scalar⟩
      · rw [walk_of_opens opens] at failed ⊢
        rcases opens with object | ⟨-, rfl⟩
        · rw [ih (ordered.get? object) failed]
          cases ordered with
          | object ascending each => exact Keyed.insert_of_get? ascending object
        · -- Nothing stands in the way in an object that was just made.
          exact absurd ((walk_error_iff ..).mp failed) (not_blocks_empty _ segment)
      · rw [walk_of_blocked blocked scalar]

/-- What holds of a value and of the object that the walk starts from holds of the object that
it leaves, if it lasts through insertions and on the way into members. -/
theorem walk_keeps {P : Json → Prop}
    (insert : ∀ {members : Members} (_ : P (.object members)) (key : String) {value : Json},
      P value → P (.object (Keyed.insert key value members)))
    (opens : ∀ {members inner : Members}, P (.object members) → ∀ {key : String},
      Opens members key inner → P (.object inner))
    (path : List String) {value : Json} {root : Members} (start : P (.object root))
    (own : P value) : P (.object (walk path value root).2) := by
  induction path generalizing root with
  | nil => exact start
  | cons first rest ih =>
    cases rest with
    | nil => exact insert start first own
    | cons next rest =>
      rcases Json.opens_or_other root first with ⟨inner, way⟩ | ⟨other, blocked, scalar⟩
      · rw [walk_of_opens way]
        exact insert start first (ih (opens start way))
      · rw [walk_of_blocked blocked scalar]
        exact start

theorem ordered_walk (path : List String) {value : Json} {root : Members}
    (ordered : (Json.object root).Ordered) (own : value.Ordered) :
    (Json.object (walk path value root).2).Ordered :=
  walk_keeps Json.Ordered.insert Json.Ordered.opens path ordered own

/-! ### Keys -/

theorem segments_spec (key : String) :
    segments key ≠ [] ∧ (∀ segment ∈ segments key, '.' ∉ segment.toList) ∧
      ".".intercalate (segments key) = key := by
  unfold segments
  refine ⟨by simp [Text.splitAll_ne_nil], fun segment member => ?_, ?_⟩
  · obtain ⟨part, among, rfl⟩ := List.mem_map.mp member
    rw [String.toList_ofList]
    exact Text.notMem_splitAll among
  · rw [← String.toList_inj, String.toList_intercalate, List.map_map]
    simpa [Function.comp_def] using Text.intercalate_splitAll '.' key.toList

/-- A setting that is made is found under its key, and under no other path than that, its
beginnings and what it goes on to does anything change. The last setting at a key counts, and
settings at keys that are apart come to the same in either order, each of them made or not as if
it were alone. A setting that cannot be made changes nothing, and it names the first segment
before its last that leads to something else than an object. -/
theorem assign_lens (key : String) (value : Json) {root : Members}
    (ordered : (Json.object root).Ordered) :
    let path := segments key
    let made := assign key value root
    ((∀ segment ∈ path, '.' ∉ segment.toList) ∧ ".".intercalate path = key) ∧
      (made.1 = .ok () → (Json.object made.2).at? path = some value) ∧
      (∀ other, Apart path other →
        (Json.object made.2).at? other = (Json.object root).at? other) ∧
      (∀ last, assign key last made.2 = assign key last root) ∧
      (∀ key' value', Apart path (segments key') →
        let made' := assign key' value' root
        (assign key' value' made.2).2 = (assign key value made'.2).2 ∧
          (assign key' value' made.2).1 = made'.1 ∧ (assign key value made'.2).1 = made.1) ∧
      (∀ segment, made.1 = .error segment ↔ Blocks root path segment) ∧
      (∀ segment, made.1 = .error segment → made.2 = root) ∧
      (value.Ordered → (Json.object made.2).Ordered) := by
  intro path made
  obtain ⟨given, dotless, joined⟩ := segments_spec key
  refine ⟨⟨dotless, joined⟩, ?_, fun other apart => ?_, fun last => ?_, ?_, ?_, ?_, ?_⟩
  · exact at?_walk_self path value root given
  · exact at?_walk_apart apart value root
  · exact walk_walk path value last root
  · intro key' value' apart
    obtain ⟨results, states⟩ := walk_comm apart value value' ordered
    obtain ⟨results', -⟩ := walk_comm apart.symm value' value ordered
    exact ⟨states, results, results'⟩
  · exact walk_error_iff path value root
  · exact fun segment => walk_of_error ordered
  · exact ordered_walk path ordered

def extendedOptions : Members :=
  [("compilerOptions", .object [("strict", .bool true)]), ("extends", .string "base")]

theorem extendedOptions_set :
    (Json.object extendedOptions).Ordered ∧
      (assign "compilerOptions.paths.lib" .null extendedOptions).1 = .ok () ∧
      (Json.object (assign "compilerOptions.paths.lib" .null extendedOptions).2).at?
        ["compilerOptions", "paths", "lib"] = some .null ∧
      (assign "extends.lib" .null extendedOptions).1 = .error "extends" ∧
      (assign "extends.lib" .null extendedOptions).2 = extendedOptions := by
  have ordered : (Json.object extendedOptions).Ordered := by
    refine .object (by decide +kernel) (List.forall_mem_cons.mpr ⟨?_, ?_⟩)
    · exact .object (by decide +kernel) (by simp [Json.Ordered.bool])
    · simp [Json.Ordered.string]
  have done : (assign "compilerOptions.paths.lib" .null extendedOptions).1 = .ok () := by cbv
  have failed : (assign "extends.lib" .null extendedOptions).1 = .error "extends" := by cbv
  have segments_eq : segments "compilerOptions.paths.lib" =
    ["compilerOptions", "paths", "lib"] := by cbv
  obtain ⟨-, found, -⟩ := assign_lens "compilerOptions.paths.lib" .null ordered
  obtain ⟨-, -, -, -, -, -, unchanged, -⟩ := assign_lens "extends.lib" .null ordered
  rw [segments_eq] at found
  exact ⟨ordered, done, found done, failed, unchanged "extends" failed⟩

end BuildConfig

end Uplift
