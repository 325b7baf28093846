import Uplift.Proofs.Collaborator.Manifest
import Uplift.Proofs.Json.RoundTrip

/-!
# What an update adds to a manifest

Adding packages leaves all that is listed as it is and puts the rest into the main table, each
as it is declared first (`addAll?_added`). A manifest whose numbers fit a word reads as itself
once it is written, so this can be said of the files too (`update_adds_missing`).
-/

namespace Uplift

namespace JsonFile

def Holds (m : Memory) (path : Path) (members : Json.Members) : Prop :=
  ∃ content, m.get? path = some content ∧ Json.parse? content = .ok (.object members)

variable {m : Memory} {path : Path} {members members' : Json.Members}

theorem Holds.unique (holds : Holds m path members) (holds' : Holds m path members') :
    members' = members := by
  obtain ⟨content, held, parsed⟩ := holds
  obtain ⟨content', held', parsed'⟩ := holds'
  obtain rfl : content = content' := Option.some.inj (held.symm.trans held')
  exact Json.object.inj (Except.ok.inj (parsed'.symm.trans parsed))

theorem Holds.ordered (holds : Holds m path members) : (Json.object members).Ordered := by
  obtain ⟨content, -, parsed⟩ := holds
  exact Json.ordered_of_parse parsed

theorem Holds.fits (holds : Holds m path members) : (Json.object members).Fits Json.maxDepth := by
  obtain ⟨content, -, parsed⟩ := holds
  exact Json.fits_of_parse parsed

theorem parse_eq_ok {content : String} :
    parse path content = .ok members ↔ Json.parse? content = .ok (.object members) := by
  unfold parse
  split <;> simp_all

theorem read_eq_ok : read m path = .ok members ↔ Holds m path members := by
  unfold read Holds
  cases held : m.get? path with
  | none =>
    have missing : FileStore.read m path = .error (.missing path) := by
      change m.read path = _
      rw [Memory.read, held]
    simp [missing, ofFile, bind, Except.bind]
  | some content =>
    have found : FileStore.read m path = .ok content := by
      change m.read path = _
      rw [Memory.read, held]
    simp [found, ofFile, bind, Except.bind, parse_eq_ok]

theorem write_of_writable (members : Json.Members) (writable : m.denies path = false) :
    write m path members = .ok (m.tryPut path (some (render members))) := by
  have put := Memory.put_eq m path (some (render members))
  rw [writable, if_neg Bool.false_ne_true] at put
  exact congrArg ofFile put

end JsonFile

namespace Manifest

open Json (Members Opens)

/-! ### Declarations -/

/-- The text declares a package of this name in this range: the version behind its last `@` and
what is compatible with it, or any version. -/
def Asks (declared name range : String) : Prop :=
  (∃ version, declared = name ++ "@" ++ version ∧ name ≠ "" ∧ '@' ∉ version.toList ∧
      range = "^" ++ version) ∨
    (declared = name ∧ '@' ∉ declared.toList.tail ∧ range = "*")

theorem asks_iff {declared name range : String} :
    Asks declared name range ↔
      (Package.parse declared).name = name ∧ (Package.parse declared).range = range := by
  constructor
  · rintro (⟨version, rfl, named, last, rfl⟩ | ⟨rfl, unversioned, rfl⟩)
    · rw [parse_versioned named last]
      exact ⟨rfl, rfl⟩
    · rw [parse_unversioned unversioned]
      exact ⟨rfl, rfl⟩
  · rintro ⟨rfl, rfl⟩
    by_cases versioned : '@' ∈ declared.toList.tail
    · obtain ⟨name, version, rfl, named, last⟩ := exists_version versioned
      rw [parse_versioned named last]
      exact .inl ⟨version, rfl, named, last, rfl⟩
    · rw [parse_unversioned versioned]
      exact .inr ⟨rfl, versioned, rfl⟩

def FirstAsks (declared : List String) (name range : String) : Prop :=
  ∃ front text back, declared = front ++ text :: back ∧ Asks text name range ∧
    ∀ earlier ∈ front, ¬Declares earlier name

/-! ### Adding packages -/

section

variable {old new table : Members} {p : Package} {packages : List Package}

theorem add?_of_listed (listed : Lists old p.name) : add? old p = some old := by
  rw [add?, if_pos (lists_iff.mpr listed)]

theorem add?_of_missing (missing : ¬Lists old p.name) (opens : Opens old mainTable table) :
    add? old p = some (Keyed.insert mainTable
      (.object (Keyed.insert p.name (.string p.range) table)) old) := by
  rw [add?, if_neg (lists_iff.not.mpr missing)]
  rcases opens with held | ⟨none, rfl⟩
  · rw [held]
    rfl
  · rw [none]
    rfl

theorem lists_of_added (opens : Opens old mainTable table) {name other : String} {value : Json}
    (listed : Lists (Keyed.insert mainTable (.object (Keyed.insert name value table)) old) other) :
    Lists old other ∨ other = name := by
  obtain ⟨key, among, listing, found, has⟩ := listed
  by_cases main : key = mainTable
  · subst main
    rw [Keyed.get?_insert_self] at found
    cases found
    by_cases same : other = name
    · exact .inr same
    · rw [Keyed.has, Keyed.get?_insert_other same] at has
      rcases opens with held | ⟨-, rfl⟩
      · exact .inl ⟨mainTable, among, table, held, has⟩
      · cases has
  · rw [Keyed.get?_insert_other main] at found
    exact .inl ⟨key, among, listing, found, has⟩

def entry? (old table : Members) (packages : List Package) (name : String) : Option Json :=
  if lists old name then table.get? name
  else
    match packages.find? (·.name = name) with
    | some p => some (.string p.range)
    | none => table.get? name

theorem entry?_of_listed (listed : ∀ p ∈ packages, Lists old p.name) (name : String) :
    entry? old table packages name = table.get? name := by
  unfold entry?
  split
  case isTrue => rfl
  case isFalse missing =>
    split
    case h_1 p found =>
      have same : p.name = name := by simpa using List.find?_some found
      exact absurd (lists_iff.mpr (same ▸ listed p (List.mem_of_find?_eq_some found))) missing
    case h_2 => rfl

theorem entry?_cons_of_listed (listed : Lists old p.name) (name : String) :
    entry? old table (p :: packages) name = entry? old table packages name := by
  unfold entry?
  split
  case isTrue => rfl
  case isFalse missing =>
    have different : ¬p.name = name := fun same => missing (lists_iff.mpr (same ▸ listed))
    rw [List.find?_cons_of_neg (by simpa using different)]

theorem entry?_cons_of_missing (missing : ¬Lists old p.name) (opens : Opens old mainTable table)
    (name : String) :
    let table' := Keyed.insert p.name (.string p.range) table
    entry? (Keyed.insert mainTable (.object table') old) table' packages name =
      entry? old table (p :: packages) name := by
  intro table'
  obtain ⟨own, kept⟩ := add?_lists (add?_of_missing missing opens)
  unfold entry?
  by_cases same : name = p.name
  · subst same
    rw [if_pos (lists_iff.mpr own), if_neg (lists_iff.not.mpr missing),
      List.find?_cons_of_pos (by simp)]
    exact Keyed.get?_insert_self ..
  · have others : lists (Keyed.insert mainTable (.object table') old) name = true ↔
        lists old name = true := by
      rw [lists_iff, lists_iff]
      exact ⟨fun listed => (lists_of_added opens listed).resolve_right same, kept name⟩
    have unchanged : table'.get? name = table.get? name := Keyed.get?_insert_other same ..
    rw [List.find?_cons_of_neg (by simpa using Ne.symm same), unchanged]
    exact if_congr others rfl rfl

/-- How a manifest stands to the one that packages were added to. -/
inductive Added (old : Members) (packages : List Package) : Members → Prop
  | nothing (listed : ∀ p ∈ packages, Lists old p.name) : Added old packages old
  | some {table table' : Members} (missing : ∃ p ∈ packages, ¬Lists old p.name)
      (opens : Opens old mainTable table)
      (entries : ∀ name, table'.get? name = entry? old table packages name) :
      Added old packages (Keyed.insert mainTable (.object table') old)

theorem addAll?_added (added : addAll? old packages = some new) : Added old packages new := by
  -- The others meet the manifest that the first package leaves, so it stays general.
  induction packages generalizing old with
  | nil =>
    cases added
    exact .nothing nofun
  | cons p rest ih =>
    obtain ⟨next, one, others⟩ := addAll?_cons.mp added
    by_cases listed : Lists old p.name
    · rw [add?_of_listed listed] at one
      cases one
      cases ih others with
      | nothing all => exact .nothing (List.forall_mem_cons.mpr ⟨listed, all⟩)
      | some missing opens entries =>
        obtain ⟨q, member, missing⟩ := missing
        refine .some ⟨q, List.mem_cons_of_mem _ member, missing⟩ opens fun name => ?_
        rw [entries, entry?_cons_of_listed listed]
    · obtain ⟨already, -⟩ | ⟨table, opens, rfl⟩ := add?_cases one
      · exact absurd already listed
      have missing : ∃ q ∈ p :: rest, ¬Lists old q.name := ⟨p, List.mem_cons_self, listed⟩
      cases ih others with
      | nothing all =>
        refine .some missing opens fun name => ?_
        rw [← entry?_cons_of_missing listed opens, entry?_of_listed all]
      | some _ opens' entries =>
        -- The main table is there by now, and it is the one that the first package left.
        rw [Keyed.insert_insert]
        refine .some missing opens fun name => ?_
        obtain held | ⟨none, -⟩ := opens'
        · rw [Keyed.get?_insert_self] at held
          cases held
          rw [entries, entry?_cons_of_missing listed opens]
        · rw [Keyed.get?_insert_self] at none
          cases none

/-- Packages can be added if none is missing or the main table is an object. -/
theorem addAll?_iff :
    (∃ new, addAll? old packages = some new) ↔
      (∀ p ∈ packages, Lists old p.name) ∨ ∃ table, Opens old mainTable table := by
  constructor
  · rintro ⟨new, added⟩
    cases addAll?_added added with
    | nothing listed => exact .inl listed
    | some missing opens entries => exact .inr ⟨_, opens⟩
  · intro can
    induction packages generalizing old with
    | nil => exact ⟨old, rfl⟩
    | cons p rest ih =>
      rw [List.forall_mem_cons] at can
      by_cases listed : Lists old p.name
      · obtain ⟨new, added⟩ := ih (can.imp_left And.right)
        exact ⟨new, addAll?_cons.mpr ⟨old, add?_of_listed listed, added⟩⟩
      · obtain ⟨table, opens⟩ := can.resolve_left fun all => listed all.1
        obtain ⟨new, added⟩ := ih (.inr ⟨_, .inl (Keyed.get?_insert_self ..)⟩)
        exact ⟨new, addAll?_cons.mpr ⟨_, add?_of_missing listed opens, added⟩⟩

theorem addAll?_invariant {P : Members → Prop}
    (step : ∀ {old new : Members} {p : Package}, add? old p = some new → P old → P new)
    (added : addAll? old packages = some new) (start : P old) : P new := by
  induction packages generalizing old with
  | nil =>
    cases added
    exact start
  | cons p rest ih =>
    obtain ⟨next, one, others⟩ := addAll?_cons.mp added
    exact ih others (step one start)

theorem add?_words (added : add? old p = some new) (words : (Json.object old).InWords) :
    (Json.object new).InWords := by
  obtain ⟨-, rfl⟩ | ⟨table, opens, rfl⟩ := add?_cases added
  · exact words
  · exact words.insert _ ((words.opens opens).insert _ (.string _))

theorem add?_fits {depth : Nat} (added : add? old p = some new)
    (fits : (Json.object old).Fits (depth + 1 + 1)) : (Json.object new).Fits (depth + 1 + 1) := by
  obtain ⟨-, rfl⟩ | ⟨table, opens, rfl⟩ := add?_cases added
  · exact fits
  · exact fits.insert _ ((fits.opens opens).insert _ (.string _ _))

end

/-! ### What is missing -/

def Covers (declared : List String) (manifest : Members) : Prop :=
  ∀ text ∈ declared, ∀ name, Declares text name → Lists manifest name

/-- A table has gained the names that were declared and listed nowhere, and no others. -/
structure Gains (declared : List String) (old table table' : Members) : Prop where
  missing : ∀ {name range}, ¬Lists old name → FirstAsks declared name range →
    table'.get? name = some (.string range)
  same : ∀ {name}, (Lists old name ∨ ∀ text ∈ declared, ¬Declares text name) →
    table'.get? name = table.get? name

/-- The main table has gained what was missing, if anything was, and nothing else has changed. -/
structure Completes (declared : List String) (old new : Members) : Prop where
  kept : Covers declared old → new = old
  others : ∀ {key}, key ≠ mainTable → new.get? key = old.get? key
  gained : ¬Covers declared old → ∃ table table', Opens old mainTable table ∧
    new.get? mainTable = some (.object table') ∧ Gains declared old table table'
  covered : Covers declared new

section

variable {declared : List String} {old new table : Members} {name range : String}

theorem covers_iff {manifest : Members} :
    Covers declared manifest ↔ ∀ p ∈ declared.map Package.parse, Lists manifest p.name := by
  rw [List.forall_mem_map]
  refine forall₂_congr fun text _ => ⟨fun all => all _ (declares_iff.mpr rfl), ?_⟩
  intro own name declares
  exact declares_iff.mp declares ▸ own

theorem find?_of_firstAsks (first : FirstAsks declared name range) :
    ∃ p, (declared.map Package.parse).find? (·.name = name) = some p ∧ p.range = range := by
  obtain ⟨front, text, back, rfl, asks, earlier⟩ := first
  obtain ⟨named, ranged⟩ := asks_iff.mp asks
  refine ⟨Package.parse text, ?_, ranged⟩
  rw [List.find?_eq_some_iff_append]
  refine ⟨decide_eq_true named, front.map Package.parse, back.map Package.parse, by simp, ?_⟩
  simpa [declares_iff] using earlier

theorem find?_of_undeclared (undeclared : ∀ text ∈ declared, ¬Declares text name) :
    (declared.map Package.parse).find? (·.name = name) = none := by
  simpa [declares_iff] using undeclared

theorem gains_of_entries {table' : Members}
    (entries : ∀ name, table'.get? name = entry? old table (declared.map Package.parse) name) :
    Gains declared old table table' where
  missing unlisted first := by
    obtain ⟨p, found, ranged⟩ := find?_of_firstAsks first
    rw [entries, entry?, if_neg (lists_iff.not.mpr unlisted), found, ← ranged]
  same none := by
    rw [entries, entry?]
    rcases none with listed | undeclared
    · rw [if_pos (lists_iff.mpr listed)]
    · rw [find?_of_undeclared undeclared, ite_self]

theorem addAll?_completes (added : addAll? old (declared.map Package.parse) = some new)
    (ordered : (Json.object old).Ordered) : Completes declared old new := by
  have covered : Covers declared new := covers_iff.mpr (addAll?_ok added ordered).2.1
  cases addAll?_added added with
  | nothing listed =>
    have all : Covers declared old := covers_iff.mpr listed
    exact ⟨fun _ => rfl, fun _ => rfl, fun some => absurd all some, covered⟩
  | some missing opens entries =>
    obtain ⟨p, member, missing⟩ := missing
    exact ⟨fun all => absurd (covers_iff.mp all p member) missing,
      fun other => Keyed.get?_insert_other other .., fun _ =>
        ⟨_, _, opens, Keyed.get?_insert_self .., gains_of_entries entries⟩, covered⟩

example :
    addAll? [("devDependencies", .object [("b", .string "^1")])]
      (["@s/a@2", "b@3", "@s/a", "c"].map Package.parse) =
    some [("dependencies", .object [("@s/a", .string "^2"), ("c", .string "*")]),
      ("devDependencies", .object [("b", .string "^1")])] := by
  rfl

end

/-! ### The file -/

section

variable {m : Memory} {s : Step}

theorem update_of_added {old new : Members} (holds : JsonFile.Holds m s.path old)
    (added : addAll? old (s.dependencies.map Package.parse) = some new)
    (writable : m.denies s.path = false) :
    update s m = ⟨.ok (), m.tryPut s.path (some (JsonFile.render new)), 0⟩ := by
  refine Call.change_of_ok ?_
  rw [JsonFile.read_eq_ok.mpr holds]
  dsimp only [bind, Except.bind]
  rw [added]
  exact JsonFile.write_of_writable new writable

theorem added_of_update (done : (update s m).result = .ok ()) :
    ∃ old new, JsonFile.Holds m s.path old ∧
      addAll? old (s.dependencies.map Package.parse) = some new ∧ m.denies s.path = false := by
  obtain ⟨old, new, read, added, put⟩ := update_written done
  rw [Memory.put_eq] at put
  split at put
  case isTrue => cases put
  case isFalse writable =>
    exact ⟨old, new, JsonFile.read_eq_ok.mp read, added, Bool.eq_false_iff.mpr writable⟩

theorem holds_of_written {old new : Members} (holds : JsonFile.Holds m s.path old)
    (words : (Json.object old).InWords)
    (added : addAll? old (s.dependencies.map Package.parse) = some new)
    (writable : m.denies s.path = false) :
    JsonFile.Holds (m.tryPut s.path (some (JsonFile.render new))) s.path new := by
  have words : (Json.object new).InWords := addAll?_invariant add?_words added words
  have fits : (Json.object new).Fits Json.maxDepth := addAll?_invariant add?_fits added holds.fits
  have ordered : (Json.object new).Ordered := (addAll?_ok added holds.ordered).1
  refine ⟨JsonFile.render new, ?_, JsonFile.parse?_render ordered words fits⟩
  rw [Memory.get?_tryPut, if_pos ⟨writable, s.path.same_refl⟩]

/-- An update comes through exactly if the file holds an object, what is missing has a table to go
into and the file can be written. It then completes the manifest and leaves every other file as it
is; an update that fails leaves all of them. -/
theorem update_adds_missing (m : Memory) (s : Step) :
    ((update s m).result = .ok () ↔ ∃ old, JsonFile.Holds m s.path old ∧
        (Covers s.dependencies old ∨ ∃ table, Opens old mainTable table) ∧
        m.denies s.path = false) ∧
      ((update s m).result = .ok () → Memory.ChangesAt s.path m (update s m).after ∧
        ∀ old, JsonFile.Holds m s.path old → (Json.object old).InWords →
          ∃ new, JsonFile.Holds (update s m).after s.path new ∧
            Completes s.dependencies old new) ∧
      ∀ e, (update s m).result = .error e → (update s m).after = m := by
  refine ⟨⟨fun done => ?_, ?_⟩, fun done => ⟨update_touches s m, ?_⟩, fun e => Call.change_error⟩
  · obtain ⟨old, new, holds, added, writable⟩ := added_of_update done
    have can := addAll?_iff.mp ⟨new, added⟩
    exact ⟨old, holds, can.imp_left covers_iff.mpr, writable⟩
  · rintro ⟨old, holds, can, writable⟩
    obtain ⟨new, added⟩ := addAll?_iff.mpr (can.imp_left covers_iff.mp)
    rw [update_of_added holds added writable]
  · intro old holds words
    obtain ⟨found, new, holds', added, writable⟩ := added_of_update done
    obtain rfl := holds.unique holds'
    rw [update_of_added holds added writable]
    exact ⟨new, holds_of_written holds words added writable, addAll?_completes added holds.ordered⟩

end

end Manifest

end Uplift
