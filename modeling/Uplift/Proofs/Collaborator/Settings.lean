import Uplift.Proofs.Collaborator.Additions
import Uplift.Proofs.Collaborator.BuildConfig

/-!
# Setting parameters in a file

The parameters of a step are set one after another (`setAll_of_made`, `setAll_of_failed`). An
update of a build configuration comes through if all of them can be set and the file can be
written; the file is then the printed form of what they give (`update_of_set`,
`set_of_update`).
-/

namespace Uplift

namespace Text

theorem intercalate_prefix {separator : List Char} {parts back : List (List Char)}
    (given : parts ≠ []) : separator.intercalate parts <+: separator.intercalate (parts ++ back) := by
  induction parts with
  | nil => exact absurd rfl given
  | cons part rest ih =>
    cases rest with
    | nil =>
      cases back with
      | nil => exact List.prefix_rfl
      | cons next back =>
        rw [List.singleton_append, List.intercalate_singleton, List.intercalate_cons_cons,
          List.append_assoc]
        exact List.prefix_append _ _
    | cons next rest =>
      rw [List.cons_append, List.cons_append, List.intercalate_cons_cons,
        List.intercalate_cons_cons, List.prefix_append_right_inj]
      exact ih (List.cons_ne_nil _ _)

end Text

namespace JsonFile

variable {m : Memory} {path : Path} {members members' : Json.Members}

/-- The file at this path holds this object, an empty one if it is not there. -/
def Opened (m : Memory) (path : Path) (members : Json.Members) : Prop :=
  Holds m path members ∨ m.get? path = none ∧ members = []

theorem Holds.get?_ne_none (holds : Holds m path members) : m.get? path ≠ none := by
  obtain ⟨content, held, -⟩ := holds
  rw [held]
  exact Option.some_ne_none content

theorem Opened.unique (opened : Opened m path members) (opened' : Opened m path members') :
    members' = members := by
  obtain holds | ⟨missing, rfl⟩ := opened
  · obtain holds' | ⟨missing, -⟩ := opened'
    · exact holds.unique holds'
    · exact absurd missing holds.get?_ne_none
  · obtain holds' | ⟨-, rfl⟩ := opened'
    · exact absurd missing holds'.get?_ne_none
    · rfl

theorem Opened.ordered (opened : Opened m path members) : (Json.object members).Ordered := by
  obtain holds | ⟨-, rfl⟩ := opened
  · exact holds.ordered
  · exact .object .nil (List.forall_mem_nil _)

theorem Opened.fits (opened : Opened m path members) :
    (Json.object members).Fits Json.maxDepth := by
  obtain holds | ⟨-, rfl⟩ := opened
  · exact holds.fits
  · exact .object (List.forall_mem_nil _)

theorem readOrEmpty_eq_ok : readOrEmpty m path = .ok members ↔ Opened m path members := by
  unfold readOrEmpty Opened Holds
  rw [Memory.read?_eq]
  cases held : m.get? path with
  | none => simp [ofFile, bind, Except.bind, pure, Except.pure, eq_comm]
  | some content => simp [ofFile, bind, Except.bind, parse_eq_ok]

def Prints (m : Memory) (path : Path) (members : Json.Members) : Prop :=
  m.get? path = some (render members)

theorem Prints.holds (prints : Prints m path members) (ordered : (Json.object members).Ordered)
    (words : (Json.object members).InWords) (fits : (Json.object members).Fits Json.maxDepth) :
    Holds m path members := ⟨render members, prints, parse?_render ordered words fits⟩

theorem prints_tryPut (members : Json.Members) (writable : m.denies path = false) :
    Prints (m.tryPut path (some (render members))) path members := by
  rw [Prints, Memory.get?_tryPut, if_pos ⟨writable, path.same_refl⟩]

theorem Prints.agrees (prints : Prints m path members) :
    Memory.Agrees m (m.tryPut path (some (render members))) := by
  refine ⟨fun q => ?_, Memory.readOnly_tryPut ..⟩
  rw [Memory.get?_tryPut]
  split
  case isTrue here => rw [Memory.get?_congr m here.2, prints]
  case isFalse => rfl

end JsonFile

namespace BuildConfig

open Json (Members)

variable {params front back : Keyed String} {old mid new : Members} {key other raw : String}

/-! ### Keys that go the same way -/

theorem prefix_of_segments (within : segments other <+: segments key) :
    other.toList <+: key.toList := by
  obtain ⟨given, -, joined⟩ := segments_spec other
  obtain ⟨-, -, joined'⟩ := segments_spec key
  obtain ⟨back, parts⟩ := within
  rw [← joined, ← joined', ← parts, String.toList_intercalate, String.toList_intercalate,
    List.map_append]
  exact Text.intercalate_prefix (by simpa using given)

theorem segments_intercalate {parts : List String} (given : parts ≠ [])
    (dotless : ∀ part ∈ parts, '.' ∉ part.toList) : segments (".".intercalate parts) = parts := by
  have apart : Text.splitAll '.' (".".intercalate parts).toList = parts.map String.toList := by
    rw [String.toList_intercalate]
    exact Text.splitAll_intercalate (by simpa using given) (by simpa using dotless)
  rw [segments, apart, List.map_map]
  simp [Function.comp_def]

theorem segments_not_within (before : key < other) : ¬segments other <+: segments key := by
  intro within
  exact List.not_lt.mpr (prefix_of_segments within).le (String.lt_iff.mp before)

/-! ### One setting after another -/

theorem valueOf_ordered (raw : String) : (valueOf raw).Ordered := by
  unfold valueOf
  split
  case h_1 read => exact Json.ordered_of_parse read
  case h_2 => exact .string raw

theorem valueOf_of_read {value : Json} (read : Json.parse? raw = .ok value) :
    valueOf raw = value := by
  rw [valueOf, read]

theorem valueOf_pretty {value : Json} (ordered : value.Ordered) (words : value.InWords)
    (fits : value.Fits Json.maxDepth) : valueOf value.pretty = value := by
  have read : Json.parse? (value.pretty ++ "") = .ok value :=
    Json.parse?_pretty ordered words fits Json.isBlank_nil
  rw [String.append_empty] at read
  exact valueOf_of_read read

theorem setAll_of_made (made : (assign key (valueOf raw) old).1 = .ok ()) :
    setAll ((key, raw) :: params) old = setAll params (assign key (valueOf raw) old).2 := by
  rw [setAll, List.foldlM_cons]
  dsimp only
  generalize assign key (valueOf raw) old = walked at made ⊢
  obtain ⟨result, after⟩ := walked
  cases made
  rfl

theorem setAll_of_failed {segment : String}
    (failed : (assign key (valueOf raw) old).1 = .error segment) :
    setAll ((key, raw) :: params) old = .error segment := by
  rw [setAll, List.foldlM_cons]
  dsimp only
  generalize assign key (valueOf raw) old = walked at failed ⊢
  obtain ⟨result, after⟩ := walked
  cases failed
  rfl

theorem setAll_cons :
    setAll ((key, raw) :: params) old = .ok new ↔
      (assign key (valueOf raw) old).1 = .ok () ∧
        setAll params (assign key (valueOf raw) old).2 = .ok new := by
  cases result : (assign key (valueOf raw) old).1 with
  | ok =>
    rw [setAll_of_made result, and_iff_right rfl]
  | error segment =>
    rw [setAll_of_failed result]
    exact iff_of_false nofun fun both => nomatch both.1

theorem setAll_append :
    setAll (front ++ back) old = .ok new ↔
      ∃ mid, setAll front old = .ok mid ∧ setAll back mid = .ok new := by
  have runs : setAll (front ++ back) old = setAll front old >>= setAll back := List.foldlM_append
  rw [runs]
  constructor
  · exact bind_ok
  · rintro ⟨mid, first, others⟩
    rw [first]
    exact others

theorem setAll_invariant {P : Members → Prop}
    (step : ∀ {key raw old}, (key, raw) ∈ params → P old → P (assign key (valueOf raw) old).2)
    (set : setAll params old = .ok new) (start : P old) : P new := by
  induction params generalizing old with
  | nil =>
    cases set
    exact start
  | cons param rest ih =>
    obtain ⟨-, others⟩ := setAll_cons.mp set
    exact ih (fun member => step (List.mem_cons_of_mem _ member)) others
      (step List.mem_cons_self start)

theorem ordered_setAll (set : setAll params old = .ok new) (ordered : (Json.object old).Ordered) :
    (Json.object new).Ordered := by
  refine setAll_invariant (P := fun members => (Json.object members).Ordered)
    (fun {key raw old} _ ordered => ?_) set ordered
  exact ordered_walk (segments key) ordered (valueOf_ordered raw)

/-! ### The file -/

variable {m : Memory} {s : Step}

theorem update_of_set (opened : JsonFile.Opened m s.path old)
    (set : setAll s.params old = .ok new) (writable : m.denies s.path = false) :
    update s m = ⟨.ok (), m.tryPut s.path (some (JsonFile.render new)), 0⟩ := by
  refine Call.change_of_ok ?_
  rw [JsonFile.readOrEmpty_eq_ok.mpr opened]
  dsimp only [bind, Except.bind]
  rw [set]
  exact JsonFile.write_of_writable new writable

theorem set_of_update (done : (update s m).result = .ok ()) :
    ∃ old new, JsonFile.Opened m s.path old ∧ setAll s.params old = .ok new ∧
      m.denies s.path = false := by
  obtain ⟨old, read, others⟩ := bind_ok (Call.change_ok done)
  split at others
  case h_1 new set =>
    have put : FileStore.put m s.path (some (JsonFile.render new)) = .ok (update s m).after :=
      Call.ofFile_ok others
    rw [Memory.put_eq] at put
    split at put
    case isTrue => cases put
    case isFalse writable =>
      exact ⟨old, new, JsonFile.readOrEmpty_eq_ok.mp read, set, Bool.eq_false_iff.mpr writable⟩
  case h_2 => cases others

end BuildConfig

end Uplift
