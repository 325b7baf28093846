import Uplift.Proofs.Json.Reading
import Uplift.Proofs.Keyed

/-!
# Typed values of a tree

What a decoder makes of a document is what the tree that it depicts tells: the same value, and a
fault exactly where the tree has none of the kind. Where the tree tells a value that was encoded,
it is the value that was encoded.
-/

namespace Uplift.Json

namespace Tree

def string? : Tree → Option String
  | string s => s
  | _ => none

def bool? : Tree → Option Bool
  | bool b => some b
  | _ => none

def strings? : Tree → Option (List String)
  | array items => items.mapM string?
  | _ => none

/-- A label is a string, or the key of an object whose only member is a null. -/
def label? : Tree → Option String
  | string s => s
  | object [(key, null)] => key
  | _ => none

theorem label?_cons (name : Option String) (value : Tree) (others : List (Option String × Tree)) :
    (object ((name, value) :: others)).label? = name ∧ value = null ∧ others = [] ∨
      (object ((name, value) :: others)).label? = none := by
  cases value <;> cases others <;> simp [label?]

def addEntry (entries : Keyed String) (member : Option String × Tree) : Option (Keyed String) := do
  let key ← member.1
  let value ← member.2.string?
  return Keyed.insert key value entries

/-- Of members with one key the last one counts. -/
def stringMap? : Tree → Option (Keyed String)
  | object members => members.foldlM addEntry []
  | _ => none

end Tree

/-! ### Decoders -/

namespace Decoder

theorem toOption_reject {α : Type} (d : Document) :
    (reject d : Except Misfit α).toOption = none := by
  unfold reject
  split <;> rfl

variable {tree : Tree} {d : Document}

theorem toOption_string (depicts : Depicts tree d) (start : Nat) :
    (string (start, d)).toOption = tree.string? := by
  cases depicts with
  | @string _ value same =>
    rw [Tree.string?, ← same]
    cases value with
    | ok s => rfl
    | error fault => exact toOption_reject (.string (.error fault))
  | number n exponentAt stop => exact toOption_reject (.number _)
  | _ => rfl

theorem toOption_bool (depicts : Depicts tree d) (start : Nat) :
    (bool (start, d)).toOption = tree.bool? := by
  cases depicts with
  | @string _ value same => exact toOption_reject (.string value)
  | number n exponentAt stop => exact toOption_reject (.number _)
  | _ => rfl

theorem toOption_mapM_string {items : List Tree} {placed : List Placed}
    (depicts : DepictsItems items placed) :
    (placed.mapM string).toOption = items.mapM Tree.string? := by
  match depicts with
  | .nil => rfl
  | .cons head tail =>
    rw [List.mapM_cons, List.mapM_cons, toOption_bind, toOption_string head]
    simp only [toOption_bind, toOption_mapM_string tail]
    rfl

theorem toOption_strings (depicts : Depicts tree d) (start : Nat) :
    (list string (start, d)).toOption = tree.strings? := by
  cases depicts with
  | @string _ value same => exact toOption_reject (.string value)
  | number n exponentAt stop => exact toOption_reject (.number _)
  | array shown =>
    rw [Tree.strings?, ← toOption_mapM_string shown, list, toOption_bind]
    exact Option.bind_fun_some _
  | _ => rfl

theorem toOption_foldlM_entries {members : List (Option String × Tree)}
    {placed : List (Except Fault String × Placed)} (depicts : DepictsMembers members placed)
    (entries : Keyed String) :
    (placed.foldlM (m := Except Misfit) (fun entries (key, d) => do
      let key ← readKey key
      let value ← string d
      return Keyed.insert key value entries) entries).toOption =
      members.foldlM Tree.addEntry entries := by
  match depicts with
  | .nil => rfl
  | @DepictsMembers.cons _ key value members start d placed same head tail =>
    rw [List.foldlM_cons, List.foldlM_cons, toOption_bind, ← same]
    cases key with
    | error fault => rfl
    | ok key =>
      change ((string (start, d)) >>= fun value =>
        pure (Keyed.insert key value entries)).toOption.bind _ =
          (value.string?.bind fun value => some (Keyed.insert key value entries)).bind _
      rw [toOption_bind, toOption_string head]
      cases value.string? with
      | none => rfl
      | some given => exact toOption_foldlM_entries tail (Keyed.insert key given entries)

theorem toOption_stringMap (depicts : Depicts tree d) (start : Nat) :
    (stringMap (start, d)).toOption = tree.stringMap? := by
  cases depicts with
  | @string _ value same => exact toOption_reject (.string value)
  | number n exponentAt stop => exact toOption_reject (.number _)
  | object shown room =>
    rw [Tree.stringMap?, ← toOption_foldlM_entries shown, stringMap, toOption_bind]
    exact Option.bind_fun_some _
  | _ => rfl

variable {α : Type} {ofLabel? : String → Option α}

theorem toOption_ofLabel (s : String) :
    (label.ofLabel ofLabel? s).toOption = ofLabel? s := by
  unfold label.ofLabel
  split
  case h_1 given => exact given.symm
  case h_2 none => exact none.symm

/-- The key of the only member of an object is read as a label if all labels have single bytes
only. -/
theorem toOption_inObject (single : ∀ s a, ofLabel? s = some a → ∀ c ∈ s.toList, c.utf8Size = 1)
    {members : List (Option String × Tree)} {body : Cursor}
    {placed : List (Except Fault String × Placed)} (shown : DepictsMembers members placed)
    (room : LabelRoom body placed) :
    (label.inObject ofLabel? body placed none).toOption =
      (Tree.object members).label?.bind ofLabel? := by
  match shown with
  | .nil =>
    rw [label.inObject]
    split
    · exact toOption_reject _
    · rfl
  | @DepictsMembers.cons _ key value others start d placed same head tail =>
    have quoted : ¬body.skipSpace.rest.head? ≠ some '"' := not_not_intro (room.opens nofun)
    rw [label.inObject, if_neg quoted, ← same]
    cases key with
    | error fault =>
      obtain ⟨nameless, -, -⟩ | other := Tree.label?_cons none value others
      · exact congrArg (Option.bind · ofLabel?) nameless.symm
      · exact congrArg (Option.bind · ofLabel?) other.symm
    | ok key =>
      change (label.ofLabel ofLabel? key >>= fun a => _).toOption = _
      rw [toOption_bind, toOption_ofLabel]
      cases known : ofLabel? key with
      | none =>
        obtain ⟨named, -, -⟩ | other := Tree.label?_cons (some key) value others
        · exact (known.symm.trans (congrArg (Option.bind · ofLabel?) named.symm) :)
        · exact congrArg (Option.bind · ofLabel?) other.symm
      | some a =>
        cases head with
        | null =>
          have closes := room.closes rfl (single key a known)
          cases tail with
          | nil =>
            rw [Option.bind_some, closes.mpr rfl]
            exact known.symm
          | cons =>
            cases closed : closeLabel ⟨body.rest.drop (start + 4 - body.consumed), start + 4⟩ with
            | ok => cases closes.mp closed
            | error misfit =>
              rw [Option.bind_some]
              rfl
        | string same => exact toOption_reject _
        | number n exponentAt stop => exact toOption_reject _
        | bool b => rfl
        | array shown => rfl
        | object shown room => rfl

theorem toOption_label (single : ∀ s a, ofLabel? s = some a → ∀ c ∈ s.toList, c.utf8Size = 1)
    (depicts : Depicts tree d) (start : Nat) :
    (label ofLabel? (start, d)).toOption = tree.label?.bind ofLabel? := by
  cases depicts with
  | @string s value same =>
    rw [Tree.label?, ← same]
    cases value with
    | ok s => exact toOption_ofLabel s
    | error fault => rfl
  | object shown room => exact toOption_inObject single shown room
  | _ => rfl

end Decoder

/-! ### Values that were encoded -/

namespace Tells

variable {tree : Tree}

theorem string? {s : String} (told : Tells tree (.string s)) : tree.string? = some s := by
  cases told
  rfl

theorem label? {α : Type} {ofLabel? : String → Option α} {s : String} {a : α}
    (told : Tells tree (.string s)) (known : ofLabel? s = some a) :
    tree.label?.bind ofLabel? = some a := by
  cases told
  exact known

theorem bool? {b : Bool} (told : Tells tree (.bool b)) : tree.bool? = some b := by
  cases told
  rfl

theorem mapM_string? {strings : List String} {trees : List Tree}
    (each : TellsItems trees (strings.map .string)) : trees.mapM Tree.string? = some strings := by
  induction strings generalizing trees with
  | nil =>
    cases each
    rfl
  | cons s strings ih =>
    cases each with
    | cons head tail =>
      rw [List.mapM_cons, head.string?, ih tail]
      rfl

theorem strings? {strings : List String} (told : Tells tree (ofStrings strings)) :
    tree.strings? = some strings := by
  cases told with
  | array each => exact mapM_string? each

theorem foldlM_addEntry {entries : Keyed String} {trees : List (Option String × Tree)}
    (each : TellsMembers trees (entries.map fun (key, value) => (key, .string value)))
    (ascending : entries.Ascending) (sofar : Keyed String)
    (behind : ∀ before ∈ sofar, ∀ pair ∈ entries, before.1 < pair.1) :
    trees.foldlM Tree.addEntry sofar = some (sofar ++ entries) := by
  induction entries generalizing trees sofar with
  | nil =>
    cases each
    rw [List.append_nil]
    rfl
  | cons entry entries ih =>
    cases each with
    | @cons key tree trees _ _ head tail =>
    obtain ⟨above, ascending⟩ := List.pairwise_cons.mp ascending
    have last : Keyed.insert entry.1 entry.2 sofar = sofar ++ [entry] :=
      Keyed.insert_behind (fun before among => behind before among _ List.mem_cons_self) _
    have others := ih tail ascending (sofar ++ [entry]) (by
      intro before among pair member
      rcases List.mem_append.mp among with earlier | new
      · exact behind before earlier pair (List.mem_cons_of_mem _ member)
      · rw [List.mem_singleton.mp new]
        exact above pair member)
    have first : Tree.addEntry sofar (some entry.1, tree) = some (sofar ++ [entry]) := by
      rw [← last, Tree.addEntry, head.string?]
      rfl
    rw [List.append_assoc] at others
    rw [List.foldlM_cons, first]
    exact others

theorem stringMap? {entries : Keyed String} (ascending : entries.Ascending)
    (told : Tells tree (.object (entries.map fun (key, value) => (key, .string value)))) :
    tree.stringMap? = some entries := by
  cases told with
  | object each => exact foldlM_addEntry each ascending [] nofun

end Tells

end Uplift.Json
