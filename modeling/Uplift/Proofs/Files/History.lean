import Uplift.Proofs.Files.Order
import Uplift.Proofs.Files.Placement

/-!
# A memory store is its history

Whatever is called on a memory store, its answers can be read off the calls alone. A call comes
through unless its path is read-only by then (`cameThrough`), and what stands at a path are the
contents that it was given since it was last taken away (`standing`): the newest is read, and the
oldest has fixed the spelling under which the file is listed. All spellings of a path share one
history, and the listed files are in path order (`operations_refine_history`).
-/

namespace Uplift

/-! ### Spellings of a path -/

namespace Path

def tells (part : List Char) : Bool := !decide (part = [] ∨ part = ['.'])

def spelled (part : List Char) : Component :=
  if part = ['.', '.'] then .up else .name (String.ofList part)

theorem spelled_injective : Function.Injective spelled := by
  intro part other same
  unfold spelled at same
  split at same <;> split at same
  · simp_all
  · cases same
  · cases same
  · exact String.ofList_injective (Component.name.inj same)

theorem components_eq_spelled (p : Path) :
    p.components = p.lead ++ (p.parts.filter tells).map spelled := by
  rw [components_eq]
  congr 1
  induction p.parts with
  | nil => rfl
  | cons part rest ih =>
    rw [List.filterMap_cons, componentOf, List.filter_cons, tells, ih]
    by_cases silent : part = [] ∨ part = ['.']
    · simp [silent]
    · by_cases up : part = ['.', '.'] <;> simp [silent, up, spelled]

def leads : Component → Bool
  | .root | .here => true
  | .up | .name _ => false

theorem filter_leads (p : Path) :
    p.components.filter leads = p.lead ∧
      p.components.filter (!leads ·) = (p.parts.filter tells).map spelled := by
  have led : ∀ c ∈ p.lead, leads c = true := by
    intro c member
    unfold lead at member
    split at member
    · rw [List.mem_singleton.mp member]; rfl
    · split at member
      · rw [List.mem_singleton.mp member]; rfl
      · cases member
  have told : ∀ c ∈ (p.parts.filter tells).map spelled, leads c = false := by
    intro c member
    obtain ⟨part, -, rfl⟩ := List.mem_map.mp member
    unfold spelled
    split <;> rfl
  rw [components_eq_spelled, List.filter_append, List.filter_append]
  rw [List.filter_eq_self.mpr led,
    List.filter_eq_nil_iff.mpr fun c member => by simp [told c member],
    List.filter_eq_nil_iff.mpr fun c member => by simp [led c member],
    List.filter_eq_self.mpr fun c member => by simp [told c member]]
  exact ⟨List.append_nil _, rfl⟩

theorem same_iff_tells {p q : Path} : p.same q = true ↔
    p.lead = q.lead ∧ p.parts.filter tells = q.parts.filter tells := by
  rw [same, decide_eq_true_eq]
  constructor
  · intro same
    refine ⟨?_, (List.map_inj_right fun _ _ same => spelled_injective same).mp ?_⟩
    · rw [← p.filter_leads.1, same, q.filter_leads.1]
    · rw [← p.filter_leads.2, same, q.filter_leads.2]
  · rintro ⟨lead, told⟩
    rw [components_eq_spelled, components_eq_spelled, lead, told]

example : (⟨"a//b/./c/"⟩ : Path).same ⟨"a/b/c"⟩ = true ∧ (⟨"./a"⟩ : Path).same ⟨"a"⟩ = false ∧
    (⟨"a/../b"⟩ : Path).same ⟨"b"⟩ = false := by decide

end Path

/-! ### The entry of a path -/

namespace Files

/-- The entry of a path, under the spelling with which it came. -/
def entryFor? (p : Path) (files : Files) : Option (Path × String) :=
  files.find? fun e => p.same e.1

theorem lookup_eq_entryFor? (p : Path) (files : Files) :
    files.lookup p = (files.entryFor? p).map (·.2) := by
  induction files with
  | nil => rfl
  | cons entry rest ih =>
    rw [lookup, entryFor?, List.find?_cons]
    cases p.same entry.1 with
    | true => rfl
    | false => exact ih

theorem entryFor?_congr {p q : Path} (h : q.same p = true) (files : Files) :
    files.entryFor? q = files.entryFor? p := by
  unfold entryFor?
  rw [funext fun e : Path × String => same_congr_left h e.1]

theorem mem_iff_entryFor? {files : Files} (ascending : files.Ascending) (p : Path)
    (content : String) : (p, content) ∈ files ↔ files.entryFor? p = some (p, content) := by
  constructor
  · intro member
    induction files with
    | nil => cases member
    | cons entry rest ih =>
      obtain ⟨above, others⟩ := List.pairwise_cons.mp ascending
      rw [entryFor?, List.find?_cons]
      cases List.mem_cons.mp member with
      | inl first =>
        subst first
        simp [Path.same_refl]
      | inr among =>
        have other : p.same entry.1 = false := by
          rw [Path.same_comm]
          exact Path.same_of_lt (above (p, content) among)
        rw [other]
        exact ih others among
  · exact List.mem_of_find?_eq_some

theorem entryFor?_put {files : Files} (ascending : files.Ascending) (p : Path) (content : String)
    (q : Path) : (files.put p content).entryFor? q =
      if q.same p then some (((files.entryFor? p).map (·.1)).getD p, content)
      else files.entryFor? q := by
  cases same : q.same p with
  | true =>
    rw [entryFor?_congr same, if_pos rfl]
    fun_induction put p content files with
    | case1 => simp [entryFor?, Path.same_refl]
    | case2 r old rest found => simp [entryFor?, found]
    | case3 r old rest other less =>
      -- all entries are above `p`, so there is none for `p` yet
      have absent : entryFor? p ((r, old) :: rest) = none := by
        refine List.find?_eq_none.mpr fun e member => ?_
        rcases List.mem_cons.mp member with rfl | among
        · exact other
        · have above := (List.pairwise_cons.mp ascending).1 e among
          simp [Path.same_of_lt (Path.lt_trans less above)]
      rw [absent]
      simp [entryFor?, Path.same_refl]
    | case4 r old rest other notLess ih =>
      have later := ih (List.pairwise_cons.mp ascending).2
      simpa [entryFor?, other] using later
  | false =>
    rw [if_neg Bool.false_ne_true]
    fun_induction put p content files with
    | case1 => simp [entryFor?, same]
    | case2 r old rest found =>
      have other : q.same r = false := by
        rw [Path.same_comm, ← same_congr_left found, Path.same_comm]
        exact same
      simp [entryFor?, other]
    | case3 r old rest other less => simp [entryFor?, same]
    | case4 r old rest other notLess ih =>
      have later := ih (List.pairwise_cons.mp ascending).2
      unfold entryFor? at later ⊢
      rw [List.find?_cons, List.find?_cons, later]

theorem entryFor?_erase (p : Path) (files : Files) (q : Path) :
    (files.erase p).entryFor? q = if q.same p then none else files.entryFor? q := by
  unfold entryFor? erase
  rw [List.find?_filter]
  split
  · rename_i same
    refine List.find?_eq_none.mpr fun e _ => ?_
    rw [same_congr_left same]
    simp
  · rename_i other
    congr 1
    funext e
    cases found : q.same e.1 with
    | false => simp
    | true =>
      have : p.same e.1 = false := by
        rw [Path.same_comm, ← same_congr_left found]
        exact Bool.eq_false_iff.mpr other
      simp [this]

end Files

namespace Memory

/-! ### Operations -/

inductive Operation where
  | insert (p : Path) (content : String)
  | write (p : Path) (content : String)
  | remove (p : Path)
  | deny (p : Path)

/-- An operation that fails gives no new store, and so the old one stays. -/
def orKeep (m : Memory) : Except FileError Memory → Except FileError Unit × Memory
  | .ok after => (.ok (), after)
  | .error e => (.error e, m)

def perform (m : Memory) : Operation → Except FileError Unit × Memory
  | .insert p content => (.ok (), m.insert p content)
  | .write p content => m.orKeep (m.write p content)
  | .remove p => m.orKeep (m.remove p)
  | .deny p => (.ok (), m.deny p)

theorem perform_write (m : Memory) (p : Path) (content : String) :
    m.perform (.write p content) =
      if m.denies p then (.error (.unwritable p .readOnly), m)
      else (.ok (), { m with files := m.files.put p content, writes := m.writes + 1 }) := by
  rw [perform, Memory.write]
  split <;> rfl

theorem perform_remove (m : Memory) (p : Path) :
    m.perform (.remove p) =
      if m.denies p then (.error (.unwritable p .readOnly), m)
      else (.ok (), { m with files := m.files.erase p }) := by
  rw [perform, Memory.remove]
  split <;> rfl

def performAll (m : Memory) (operations : List Operation) : Memory :=
  operations.foldl (fun m o => (m.perform o).2) m

/-! ### What a history says -/

namespace Operation

def denies (p : Path) : Operation → Bool
  | deny q => p.same q
  | insert .. | write .. | remove _ => false

def refusal? (past : List Operation) : Operation → Option FileError
  | write p _ | remove p => if past.any (denies p) then some (.unwritable p .readOnly) else none
  | insert .. | deny _ => none

theorem refusal?_write (past : List Operation) (p : Path) (content : String) :
    (write p content).refusal? past =
      if past.any (denies p) then some (.unwritable p .readOnly) else none := rfl

theorem refusal?_remove (past : List Operation) (p : Path) :
    (remove p).refusal? past =
      if past.any (denies p) then some (.unwritable p .readOnly) else none := rfl

def isWrite : Operation → Bool
  | write .. => true
  | insert .. | remove _ | deny _ => false

end Operation

def extend (past : List Operation) (o : Operation) : List Operation :=
  match o.refusal? past with
  | some _ => past
  | none => o :: past

def cameThrough (operations : List Operation) : List Operation := operations.foldl extend []

/-- What was put at a path since it was last taken away, each content under its own spelling. -/
def standing (p : Path) : List Operation → List (Path × String)
  | [] => []
  | .insert q content :: earlier | .write q content :: earlier =>
    if p.same q then (q, content) :: standing p earlier else standing p earlier
  | .remove q :: earlier => if p.same q then [] else standing p earlier
  | .deny _ :: earlier => standing p earlier

def entryOf? (puts : List (Path × String)) : Option (Path × String) :=
  puts.head?.bind fun newest => puts.getLast?.map fun oldest => (oldest.1, newest.2)

theorem map_entryOf? (puts : List (Path × String)) :
    (entryOf? puts).map (·.2) = puts.head?.map (·.2) := by
  cases puts with
  | nil => rfl
  | cons newest rest => simp [entryOf?, List.getLast?_cons]

theorem entryOf?_cons (p : Path) (content : String) (puts : List (Path × String)) :
    entryOf? ((p, content) :: puts) =
      some (((entryOf? puts).map (·.1)).getD p, content) := by
  cases puts with
  | nil => rfl
  | cons newest rest => simp [entryOf?, List.getLast?_cons]

theorem standing_congr {p q : Path} (h : q.same p = true) (past : List Operation) :
    standing q past = standing p past := by
  induction past with
  | nil => rfl
  | cons o earlier ih =>
    cases o <;> simp only [standing, ih, Files.same_congr_left h]

/-! ### A store and its history -/

structure Reflects (m : Memory) (past : List Operation) : Prop where
  denies : ∀ p, m.denies p = past.any (Operation.denies p)
  entries : ∀ p, m.files.entryFor? p = entryOf? (standing p past)
  ascending : m.files.Ascending
  writes : m.writes = past.countP Operation.isWrite

variable {m : Memory} {past : List Operation}

theorem reflects_empty : Reflects {} [] := ⟨fun _ => rfl, fun _ => rfl, .nil, rfl⟩

theorem Reflects.entries_put (reflects : m.Reflects past) (p : Path) (content : String)
    (q : Path) : (m.files.put p content).entryFor? q =
      entryOf? (if q.same p then (p, content) :: standing q past else standing q past) := by
  rw [Files.entryFor?_put reflects.ascending]
  split
  · rename_i same
    rw [entryOf?_cons, reflects.entries, standing_congr same]
  · exact reflects.entries q

theorem Reflects.entries_erase (reflects : m.Reflects past) (p q : Path) :
    (m.files.erase p).entryFor? q = entryOf? (if q.same p then [] else standing q past) := by
  rw [Files.entryFor?_erase]
  split
  · rfl
  · exact reflects.entries q

theorem Reflects.perform (reflects : m.Reflects past) (o : Operation) :
    (match o.refusal? past with
      | some refusal => m.perform o = (.error refusal, m)
      | none => (m.perform o).1 = .ok ()) ∧
    (m.perform o).2.Reflects (extend past o) := by
  cases o with
  | insert p content =>
    exact ⟨rfl, reflects.denies, fun q => reflects.entries_put p content q,
      Files.ascending_put reflects.ascending p content, reflects.writes⟩
  | deny p =>
    refine ⟨rfl, fun q => ?_, reflects.entries, reflects.ascending, reflects.writes⟩
    exact congrArg (q.same p || ·) (reflects.denies q)
  | write p content =>
    rw [perform_write, reflects.denies p, extend, Operation.refusal?_write]
    cases past.any (Operation.denies p) with
    | true => exact ⟨rfl, reflects⟩
    | false =>
      have counted : m.writes + 1 = List.countP Operation.isWrite (.write p content :: past) := by
        rw [List.countP_cons_of_pos rfl, reflects.writes]
      exact ⟨rfl, reflects.denies, fun q => reflects.entries_put p content q,
        Files.ascending_put reflects.ascending p content, counted⟩
  | remove p =>
    rw [perform_remove, reflects.denies p, extend, Operation.refusal?_remove]
    cases past.any (Operation.denies p) with
    | true => exact ⟨rfl, reflects⟩
    | false =>
      exact ⟨rfl, reflects.denies, fun q => reflects.entries_erase p q,
        Files.ascending_erase reflects.ascending p, reflects.writes⟩

theorem Reflects.performAll (reflects : m.Reflects past) (operations : List Operation) :
    (m.performAll operations).Reflects (operations.foldl extend past) := by
  induction operations generalizing m past with
  | nil => exact reflects
  | cons o rest ih => exact ih (reflects.perform o).2

theorem any_denies_cameThrough (operations : List Operation) (p : Path) :
    (cameThrough operations).any (Operation.denies p) = operations.any (Operation.denies p) := by
  suffices from_any : ∀ past, (operations.foldl extend past).any (Operation.denies p) =
      (past.any (Operation.denies p) || operations.any (Operation.denies p)) from from_any []
  induction operations with
  | nil => simp
  | cons o rest ih =>
    intro past
    have step : (extend past o).any (Operation.denies p) =
        (past.any (Operation.denies p) || o.denies p) := by
      cases o with
      | insert q content | deny q => simp [extend, Operation.refusal?, Bool.or_comm]
      | write q content | remove q =>
        unfold extend Operation.refusal?
        split <;> simp [Operation.denies]
    rw [List.foldl_cons, ih, step, List.any_cons, Bool.or_assoc]

/-! ### What a store answers -/

theorem Reflects.read (reflects : m.Reflects past) (p : Path) :
    m.read p = match (standing p past).head? with
      | some (_, content) => .ok content
      | none => .error (.missing p) := by
  rw [Memory.read, get?, Files.lookup_eq_entryFor?, reflects.entries, map_entryOf?]
  cases (standing p past).head? <;> rfl

theorem read_ok_iff (ascending : m.files.Ascending) (p : Path) (content : String) :
    m.read p = .ok content ↔ ∃ q, (q, content) ∈ m.files ∧ p.same q = true := by
  have found : m.read p = .ok content ↔ m.files.lookup p = some content := by
    rw [Memory.read, get?]
    cases m.files.lookup p <;> simp
  rw [found, Files.lookup_eq_entryFor?, Option.map_eq_some_iff]
  constructor
  · rintro ⟨⟨q, own⟩, entry, rfl⟩
    unfold Files.entryFor? at entry
    exact ⟨q, List.mem_of_find?_eq_some entry, by simpa using List.find?_some entry⟩
  · rintro ⟨q, member, same⟩
    refine ⟨(q, content), ?_, rfl⟩
    rw [Files.entryFor?_congr same]
    exact (Files.mem_iff_entryFor? ascending q content).mp member

theorem mem_list {r : Request} {filter : PathFilter}
    (compiled : PathFilter.ofRequest r = .ok filter) (m : Memory) :
    ∃ listed, m.list r = .ok listed ∧
      ∀ p, p ∈ listed ↔ (∃ content, (p, content) ∈ m.files) ∧ filter.accepts p = true := by
  refine ⟨(m.files.map (·.1)).filter filter.accepts, ?_, fun p => ?_⟩
  · rw [list, compiled]
    rfl
  · rw [List.mem_filter, List.mem_map]
    simp

/-- After any operations a memory store holds what its history says. A path reads as what was last
put there and not taken away since; an operation is refused exactly if it changes a path that was
made read-only, and changes nothing then; the writes that came through are counted. The files are
in strict path order, and they are the files that can be read, each under the spelling that it
was first put under; the files of a request are those whose spelling its filter accepts. Two
spellings are one path if they differ in blank parts and dots only, but for a dot that leads. -/
theorem operations_refine_history (operations : List Operation) :
    let m := performAll {} operations
    let past := cameThrough operations
    (∀ p q : Path, p.same q = true ↔
      p.lead = q.lead ∧ p.parts.filter Path.tells = q.parts.filter Path.tells) ∧
    (∀ p, m.read p = match (standing p past).head? with
      | some (_, content) => .ok content
      | none => .error (.missing p)) ∧
    (∀ p, past.any (Operation.denies p) = operations.any (Operation.denies p)) ∧
    (∀ o : Operation, match o.refusal? past with
      | some refusal => m.perform o = (.error refusal, m)
      | none => (m.perform o).1 = .ok ()) ∧
    m.writes = past.countP Operation.isWrite ∧ m.files.Ascending ∧
    (∀ p content, (p, content) ∈ m.files ↔ entryOf? (standing p past) = some (p, content)) ∧
    (∀ p content, m.read p = .ok content ↔ ∃ q, (q, content) ∈ m.files ∧ p.same q = true) ∧
    ∀ r, match PathFilter.ofRequest r with
      | .ok filter => ∃ listed, m.list r = .ok listed ∧
          (listed.Pairwise fun p q => p.lt q = true) ∧
          ∀ p, p ∈ listed ↔ (∃ content, (p, content) ∈ m.files) ∧ filter.accepts p = true
      | .error e => m.list r = .error e := by
  intro m past
  have reflects : m.Reflects past := reflects_empty.performAll operations
  refine ⟨fun _ _ => Path.same_iff_tells, reflects.read, any_denies_cameThrough operations,
    fun o => (reflects.perform o).1, reflects.writes, reflects.ascending, fun p content => ?_,
    read_ok_iff reflects.ascending, fun r => ?_⟩
  · rw [Files.mem_iff_entryFor? reflects.ascending, reflects.entries]
  · cases compiled : PathFilter.ofRequest r with
    | ok filter =>
      obtain ⟨listed, scanned, members⟩ := mem_list compiled m
      exact ⟨listed, scanned, ascending_of_listed reflects.ascending scanned, members⟩
    | error e =>
      dsimp only
      rw [list, compiled]
      rfl

end Memory

end Uplift
