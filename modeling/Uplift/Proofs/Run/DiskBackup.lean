import Uplift.Proofs.Files.Descent
import Uplift.Proofs.Run.Copies
import Uplift.Proofs.Run.Prediction

/-!
# Backups of a tree

On disk a copy can get in the way: it makes directories, and its file can stand where another
copy needs a directory. Where the place of the backup lies apart from the files neither happens,
since files that are there do not stand in each other's way (`room_of_copies`), and what is
found at the other files stays the same (`lookUp_of_copies`). So only a file that cannot be
read makes a backup fail (`copyAll_reads`).
-/

namespace Uplift

namespace Disk

/-! ### Trees with copies in them -/

def HasFile (d : Disk) (names : List String) : Prop :=
  ∃ content, d.entryAt? (d.base ++ names) = some (.file content)

/-- From `d₀` to `d` some files of `d₀` were copied below a place: directories were made on the
way of a copy, and files were put where copies go. -/
structure CopiesBelow (place : List String) (d₀ d : Disk) : Prop where
  base : d.base = d₀.base
  entries : ∀ l, d.entryAt? l = d₀.entryAt? l ∨
    ∃ names front rest, d₀.HasFile names ∧ place ++ names = front ++ rest ∧ l = d₀.base ++ front ∧
      (rest ≠ [] ∧ d₀.entryAt? l = none ∧ d.entryAt? l = some .dir ∨
        rest = [] ∧ ∃ content, d.entryAt? l = some (.file content))

variable {place names : List String} {d₀ d d' : Disk}

theorem CopiesBelow.refl (place : List String) (d : Disk) : CopiesBelow place d d :=
  ⟨rfl, fun _ => .inl rfl⟩

theorem CopiesBelow.put (copies : CopiesBelow place d₀ d) (file : d₀.HasFile names)
    {content : Content} (put : PutAt (place ++ names) content d d') :
    CopiesBelow place d₀ d' := by
  refine ⟨put.base.trans copies.base, fun l => ?_⟩
  rcases put.entries l with own | same | ⟨none, dir, front, rest, more, parts, spot⟩
  · right
    refine ⟨names, place ++ names, [], file, by simp, copies.base ▸ own, .inr ⟨rfl, content, ?_⟩⟩
    exact own ▸ put.file
  · rw [same]
    exact copies.entries l
  · right
    refine ⟨names, front, rest, file, parts, copies.base ▸ spot, .inl ⟨more, ?_, dir⟩⟩
    -- nothing was there before the copies either
    rcases copies.entries l with same | ⟨_, _, _, _, _, _, ⟨-, absent, -⟩ | ⟨-, _, isFile⟩⟩
    · rw [← same, none]
    · exact absent
    · rw [none] at isFile
      cases isFile

theorem CopiesBelow.entryAt? (copies : CopiesBelow place d₀ d) (front : List String) :
    d.entryAt? (d₀.base ++ front) = d₀.entryAt? (d₀.base ++ front) ∨
      ∃ names rest, d₀.HasFile names ∧ place ++ names = front ++ rest ∧
        (rest ≠ [] ∧ d₀.entryAt? (d₀.base ++ front) = none ∧
            d.entryAt? (d₀.base ++ front) = some .dir ∨
          rest = [] ∧ ∃ content, d.entryAt? (d₀.base ++ front) = some (.file content)) := by
  rcases copies.entries (d₀.base ++ front) with same | ⟨names, _, rest, file, parts, spot, new⟩
  · exact .inl same
  · obtain rfl := List.append_cancel_left spot
    exact .inr ⟨names, rest, file, parts, new⟩

def Apart (place names : List String) : Prop := ¬place <+: names ∧ ¬names <+: place

instance (place names : List String) : Decidable (Apart place names) :=
  inferInstanceAs (Decidable (_ ∧ _))

/-- What is found at a path apart from the place is what was found before the copies. -/
theorem lookUp_of_copies (rooted : d₀.Rooted) (copies : CopiesBelow place d₀ d) {p : Path}
    (straight : p.Straight) (apart : Apart place p.names) : d.lookUp p = d₀.lookUp p := by
  rw [lookUp_straight d straight, lookUp_straight d₀ straight, copies.base]
  refine lookDown_frame rooted fun front rest parts given => ?_
  rcases copies.entryAt? front with
    same | ⟨names, rest', -, parts', ⟨more, none, dir⟩ | ⟨rfl, -⟩⟩
  · exact .inl same
  · refine .inr ⟨none, dir, fun last => ?_⟩
    -- the path itself would be on the way of a copy
    rw [last, List.append_nil] at parts
    have within : p.names <+: place ++ names := ⟨rest', by rw [parts, parts']⟩
    rcases List.prefix_or_prefix_of_prefix within (List.prefix_append place names) with up | below
    · exact apart.2 up
    · exact apart.1 below
  · rw [List.append_nil] at parts'
    rw [← parts', List.append_assoc] at parts
    exact absurd ⟨_, parts.symm⟩ apart.1

theorem HasFile.not_below (rooted : d₀.Rooted) {names names' rest : List String}
    (file : d₀.HasFile names) (above : d₀.HasFile names') (parts : names = names' ++ rest)
    (more : rest ≠ []) : False := by
  obtain ⟨content, stands⟩ := file
  obtain ⟨content', stands'⟩ := above
  rw [parts, ← List.append_assoc] at stands
  rw [rooted.dir_above stands more] at stands'
  cases stands'

theorem room_of_copies (rooted : d₀.Rooted) (copies : CopiesBelow place d₀ d)
    (room : d₀.Room (place ++ names)) (file : d₀.HasFile names) : d.Room (place ++ names) := by
  refine ⟨fun front rest parts given => ?_, ?_⟩
  · rw [copies.base]
    rcases copies.entryAt? front with same | ⟨names', rest', above, parts', ⟨-, -, dir⟩ | ⟨rfl, -⟩⟩
    · rw [same]
      exact room.way front rest parts given
    · exact .inr dir
    · have some : place ++ names ≠ [] := by
        intro none
        rw [none] at parts
        exact given (List.append_eq_nil_iff.mp parts.symm).1
      have whole := List.dropLast_concat_getLast some
      rw [List.append_nil] at parts'
      rw [parts, ← parts', List.append_assoc, List.append_assoc] at whole
      exact (file.not_below rooted above (List.append_cancel_left whole).symm (by simp)).elim
  · rw [copies.base]
    intro isDir
    rcases copies.entryAt? (place ++ names) with
      same | ⟨names', rest', below, parts', ⟨more, -, -⟩ | ⟨-, content, isFile⟩⟩
    · exact room.free (same ▸ isDir)
    · rw [List.append_assoc] at parts'
      exact below.not_below rooted file (List.append_cancel_left parts') more
    · rw [isDir] at isFile
      cases isFile

/-! ### As a store -/

theorem read?_congr {p : Path} (same : d'.lookUp p = d.lookUp p) :
    FileStore.read? d' p = FileStore.read? d p := by
  simp only [FileStore.read?, FileStore.read, read, readAt, same]

/-- Another spelling of a path reads the same; only an error tells which one it was. -/
theorem read?_of_same {p q : Path} (straight : p.Straight) (straight' : q.Straight)
    (same : p.same q = true) {content : Option String}
    (found : FileStore.read? d p = .ok content) : FileStore.read? d q = .ok content := by
  have there : d.lookUp q = d.lookUp p := by
    rw [lookUp_straight d straight', lookUp_straight d straight, Path.names_congr same]
  simp only [FileStore.read?, FileStore.read, read, readAt, there] at found ⊢
  cases looked : d.lookUp p with
  | error cause =>
    rw [looked] at found
    cases cause <;> cases found
    rfl
  | ok e =>
    rw [looked] at found
    rcases e with ⟨text | bytes⟩ | _ | _ <;> cases found
    all_goals rfl

theorem lookUp_of_read? {p : Path} {text : String}
    (found : FileStore.read? d p = .ok (some text)) : d.lookUp p = .ok (.file (.text text)) := by
  simp only [FileStore.read?, FileStore.read, read, readAt] at found
  cases there : d.lookUp p with
  | error cause =>
    rw [there] at found
    cases cause <;> cases found
  | ok e =>
    rw [there] at found
    rcases e with ⟨text' | bytes⟩ | _ | _ <;> cases found
    rfl

theorem hasFile_of_read? {p : Path} (straight : p.Straight) {text : String}
    (found : FileStore.read? d p = .ok (some text)) : d.HasFile p.names := by
  have there := lookUp_of_read? found
  rw [lookUp_straight d straight] at there
  exact ⟨_, lookDown_file there⟩

theorem put_of_room {p : Path} (straight : p.Straight) (room : d.Room p.names) (text : String) :
    ∃ d', FileStore.write d p text = .ok d' ∧ PutAt p.names (.text text) d d' := by
  obtain ⟨d', written⟩ := writeAt_of_room straight room (.text text)
  refine ⟨d', ?_, (writeAt_straight straight.down written).2.2⟩
  simp [FileStore.write, write, written]

theorem straight_of_write {d' : Disk} {p : Path} (down : ".." ∉ p.names) {text : String}
    (written : FileStore.write d p text = .ok d') : p.Straight ∧ d.Room p.names := by
  have kept : d.write p text = .ok d' := written
  unfold write at kept
  split at kept
  · rename_i put
    obtain ⟨straight, room, -⟩ := writeAt_straight down put
    exact ⟨straight, room⟩
  · cases kept

end Disk

namespace Backup

def Reads (d : Disk) (paths : List Path) : Except FileError Unit → Prop
  | .ok () => ∀ path ∈ paths, ∃ content, FileStore.read? d path = .ok content
  | .error e => ∃ path ∈ paths, FileStore.read? d path = .error e

theorem Reads.cons {d : Disk} {path : Path} {rest : List Path} {result : Except FileError Unit}
    {content : Option String} (found : FileStore.read? d path = .ok content)
    (reads : Reads d rest result) : Reads d (path :: rest) result := by
  cases result with
  | ok => exact List.forall_mem_cons.mpr ⟨⟨content, found⟩, reads⟩
  | error e =>
    obtain ⟨path', among, failed⟩ := reads
    exact ⟨path', List.mem_cons_of_mem _ among, failed⟩

/-- Only a file that cannot be read makes the copying fail, and then with the error of reading
it; what counts is the tree before the first copy. -/
theorem copyAll_reads (place : Path) {d₀ : Disk} (rooted : d₀.Rooted) (paths : List Path)
    (straight : ∀ path ∈ paths, path.Straight ∧ Disk.Apart place.names path.names)
    (room : ∀ path ∈ paths, (place.join path).Straight ∧ d₀.Room (place.names ++ path.names))
    {d : Disk} (copies : Disk.CopiesBelow place.names d₀ d) :
    Reads d₀ paths (copyAll place d paths).1 := by
  induction paths generalizing d with
  | nil => simp [copyAll, Reads]
  | cons path rest ih =>
    obtain ⟨⟨own, apart⟩, others⟩ := List.forall_mem_cons.mp straight
    obtain ⟨⟨target, free⟩, rooms⟩ := List.forall_mem_cons.mp room
    have same := Disk.read?_congr (Disk.lookUp_of_copies rooted copies own apart)
    unfold copyAll copyOne
    cases found : FileStore.read? d₀ path with
    | error e =>
      rw [same, found]
      exact ⟨path, List.mem_cons_self, found⟩
    | ok content =>
      rw [same, found]
      cases content with
      | none => exact (ih others rooms copies).cons found
      | some text =>
        have file := Disk.hasFile_of_read? own found
        have names := Path.names_join place own.relative
        obtain ⟨d', written, put⟩ := Disk.put_of_room target
          (names ▸ Disk.room_of_copies rooted copies free file) text
        rw [names] at put
        simp only [bind, Except.bind, written]
        exact (ih others rooms (copies.put file put)).cons found

/-- The files that are copied are those of the steps, each under one spelling of its path. -/
theorem copyAll_of_built {τ : Type} [FileStore τ] {id : String} {now : Timestamp}
    {settings : Settings} {store : τ} {patterns : List Pattern} {r : Request} {plan : Plan}
    (built : Plan.build id now settings store patterns r = .ok plan) (place : Path) {d : Disk}
    (rooted : d.Rooted) (straight : ∀ s ∈ plan.steps, s.path.Straight)
    (down : ".." ∉ place.names)
    (apart : ∀ s ∈ plan.steps, Disk.Apart place.names s.path.names)
    (room : ∀ s ∈ plan.steps, ∃ d', FileStore.write d (place.join s.path) "" = .ok d') :
    Reads d (plan.steps.map (·.path)) (copyAll place d plan.risk.backups).1 := by
  have listed := Plan.backups_of_built built
  obtain ⟨taken, found, -⟩ := distinctPaths_spec plan.steps
  rw [← listed] at taken found
  have reads := copyAll_reads place rooted plan.risk.backups
    (fun path member => by
      obtain ⟨s, among, rfl⟩ := taken path member
      exact ⟨straight s among, apart s among⟩)
    (fun path member => by
      obtain ⟨s, among, rfl⟩ := taken path member
      obtain ⟨d', written⟩ := room s among
      have names := Path.names_join place (straight s among).relative
      rw [← names]
      refine Disk.straight_of_write ?_ written
      rw [names, List.mem_append, not_or]
      exact ⟨down, (straight s among).down⟩)
    (.refl _ _)
  cases copied : (copyAll place d plan.risk.backups).1 with
  | ok =>
    rw [copied] at reads
    refine List.forall_mem_map.mpr fun s member => ?_
    obtain ⟨path, kept, same⟩ := found s member
    obtain ⟨s', among, rfl⟩ := taken path kept
    obtain ⟨content, held⟩ := reads s'.path kept
    exact ⟨content, Disk.read?_of_same (straight s' among) (straight s member)
      (Path.same_symm same) held⟩
  | error e =>
    rw [copied] at reads
    obtain ⟨path, kept, refused⟩ := reads
    obtain ⟨s, member, rfl⟩ := taken path kept
    exact ⟨s.path, List.mem_map_of_mem member, refused⟩

end Backup

namespace Execution

variable {k : Conditions Disk} {plan : Plan} {b : Bench Disk}

theorem backupError?_of_calm (policy : ExecutionPolicy) (tests : Call Disk TestReport)
    (v : Validator) (calm : k.Calm) (enabled : plan.request.backup = true)
    (real : plan.request.dryRun = false) :
    backupError? { Collaborators.standard policy tests with validator := v } k plan b =
      match (Backup.copyAll (Backup.location policy.backupDir plan.id) b.settle.store
        plan.risk.backups).1 with
      | .ok _ => none
      | .error e => some (.file e) := by
  have started : (start k plan b).bench.settle.store = b.settle.store :=
    (measure_effect k plan.risk.backups b).1
  have called := Bench.result_call_of_calm calm (c := Backup.create policy.backupDir plan)
    (b := (start k plan b).bench) rfl
  rw [started] at called
  unfold backupError?
  rw [enabled, real, show (Collaborators.standard policy tests).backup plan =
    Backup.create policy.backupDir plan from rfl, called]
  unfold Backup.create
  dsimp only
  rcases Backup.copyAll (Backup.location policy.backupDir plan.id) b.settle.store
    plan.risk.backups with ⟨e | _, after⟩ <;> rfl

theorem tried_first {σ : Type} [FileStore σ] {c : Collaborators σ} {k : Conditions σ}
    {b : Bench σ} (calm : k.Calm) (ready : backupError? c k plan b = none) :
    (tried c k plan b).head?.map (·.step) = plan.steps.head? := by
  unfold tried
  rw [stepsBegun_of_ready ready]
  cases plan.steps with
  | nil => rfl
  | cons s rest =>
    rw [trials]
    unfold trial?
    rw [(prepare_steps c k plan b).2.2, calm.uncancelled]
    rfl

/-- A backup copies the file of every step, and so it depends on paths that no step touches. In
time, in a tree whose files do not stand in the way of the backup, and with room for the copies,
let the files that the steps touch be there to be read or be missing. Then the backup comes
through exactly if the same holds of the paths of the test updates without content, and the run
goes on to its first step. Otherwise the error of reading such a path ends the run before it. -/
theorem run_blocked_by_idle_path {τ : Type} [FileStore τ] {id : String} {now : Timestamp}
    {settings : Settings} {store : τ} {patterns : List Pattern} {r : Request} {plan : Plan}
    (built : Plan.build id now settings store patterns r = .ok plan) (policy : ExecutionPolicy)
    (tests : Call Disk TestReport) (v : Validator) (k : Conditions Disk) (calm : k.Calm)
    (b : Bench Disk) (enabled : plan.request.backup = true) (real : plan.request.dryRun = false)
    (tree : b.settle.store.Rooted) (straight : ∀ s ∈ plan.steps, s.path.Straight)
    (down : ".." ∉ (Backup.location policy.backupDir plan.id).names)
    (apart : ∀ s ∈ plan.steps,
      Disk.Apart (Backup.location policy.backupDir plan.id).names s.path.names)
    (room : ∀ s ∈ plan.steps, ∃ d', FileStore.write b.settle.store
      (Backup.destination policy.backupDir plan.id s.path) "" = .ok d')
    (touched : ∀ s ∈ plan.steps, s.writesFile = true →
      ∃ content, FileStore.read? b.settle.store s.path = .ok content) :
    let c := { Collaborators.standard policy tests with validator := v }
    (backupError? c k plan b = none ↔ ∀ s ∈ plan.steps, s.writesFile = false →
        ∃ content, FileStore.read? b.settle.store s.path = .ok content) ∧
      (backupError? c k plan b = none →
        (tried c k plan b).head?.map (·.step) = plan.steps.head?) ∧
      ∀ e, backupError? c k plan b = some e →
        tried c k plan b = [] ∧ (run c k plan b).1.status = .failed ∧
          ∃ s ∈ plan.steps, s.writesFile = false ∧
            ∃ f, FileStore.read? b.settle.store s.path = .error f ∧ e = .file f := by
  intro c
  have comesTo := backupError?_of_calm (b := b) policy tests v calm enabled real
  have reads := Backup.copyAll_of_built built (Backup.location policy.backupDir plan.id) tree
    straight down apart room
  cases copied : (Backup.copyAll (Backup.location policy.backupDir plan.id) b.settle.store
    plan.risk.backups).1 with
  | ok _ =>
    rw [copied] at comesTo reads
    have ready : backupError? c k plan b = none := comesTo
    refine ⟨⟨fun _ s member _ => ?_, fun _ => ready⟩, tried_first calm, fun e failed => ?_⟩
    · exact reads s.path (List.mem_map_of_mem member)
    · rw [ready] at failed
      cases failed
  | error f =>
    rw [copied] at comesTo reads
    have lost : backupError? c k plan b = some (.file f) := comesTo
    obtain ⟨_, among, refused⟩ := reads
    obtain ⟨s, member, rfl⟩ := List.mem_map.mp among
    have idle : s.writesFile = false := by
      rw [Bool.eq_false_iff]
      intro writes
      obtain ⟨content, held⟩ := touched s member writes
      rw [refused] at held
      cases held
    refine ⟨⟨fun ready => ?_, fun readable => ?_⟩, tried_first calm, fun e failed => ?_⟩
    · rw [lost] at ready
      cases ready
    · obtain ⟨content, held⟩ := readable s member idle
      rw [refused] at held
      cases held
    · rw [lost] at failed
      cases failed
      exact ⟨(tried_of_lost lost).1, (run_of_lost lost).1, s, member, idle, f, refused, rfl⟩

def projectWith (more : List (Location × Entry)) : Bench Disk where
  store := {
    root := ⟨"/project"⟩
    entries := [(["src"], .dir), (["src", "app.js"], .file (.text "var b = 1;\n")),
      (["package.json"], .file (.text "\x7b\x7d"))] ++ more }

def testedRequest : Request :=
  { source := "1", target := "2", move := .dependencyUpdate, includeTests := true }

def testedPlan (more : List (Location × Entry)) : Except EngineError Plan :=
  Plan.build "m" ⟨0, 0⟩ {} (projectWith more).settle.store declarations.all testedRequest

/-- Where the plan takes the tests to be there is nothing, and the run begins. -/
theorem tested_project_runs :
    ∃ plan, testedPlan [] = .ok plan ∧
      let c := Collaborators.standard {}
      backupError? c { deadline := 10 } plan (projectWith []) = none ∧
        (tried c { deadline := 10 } plan (projectWith [])).head?.map (·.step.path) =
          some ⟨"src/app.js"⟩ := by
  obtain ⟨plan, built⟩ : ∃ plan, testedPlan [] = .ok plan := ⟨_, rfl⟩
  let d := (projectWith []).settle.store
  have facts : ∀ plan ∈ (testedPlan []).toOption,
      let place := Backup.location ⟨".codemig/backups"⟩ plan.id
      (plan.request.backup = true ∧ plan.request.dryRun = false) ∧ ".." ∉ place.names ∧
        (∀ s ∈ plan.steps, (s.path.text.toList.contains '\x00' = false ∧
            s.path.isAbsolute = false ∧ (Disk.Route.ofPath s.path).mustBeDir = false ∧
            ".." ∉ s.path.names ∧ ∀ name ∈ s.path.names, name.utf8ByteSize ≤ Disk.maxNameBytes) ∧
          Disk.Apart place.names s.path.names ∧
          (FileStore.write d (place.join s.path) "").isOk = true ∧
          (FileStore.read? d s.path).isOk = true) ∧
        plan.steps.head?.map (·.path) = some ⟨"src/app.js"⟩ := by
    decide +kernel
  obtain ⟨⟨enabled, real⟩, down, paths, first⟩ := facts plan (by rw [built]; rfl)
  have tree : d.Rooted := Disk.rooted_of_entries (by decide)
  obtain ⟨ready, begins, -⟩ := run_blocked_by_idle_path built {} (Collaborators.fixedTests {})
    Validator.builtin { deadline := 10 } ⟨fun _ => Nat.zero_le _, fun _ _ => rfl⟩ (projectWith [])
    enabled real tree
    (fun s member =>
      have ⟨⟨noNul, relative, ofFile, down, short⟩, _⟩ := paths s member
      ⟨noNul, relative, ofFile, down, short⟩)
    down (fun s member => (paths s member).2.1)
    (fun s member => exists_ok_of_isOk (paths s member).2.2.1)
    (fun s member _ => exists_ok_of_isOk (paths s member).2.2.2)
  have kept := ready.mpr fun s member _ => exists_ok_of_isOk (paths s member).2.2.2
  refine ⟨plan, built, kept, ?_⟩
  rw [← first, ← begins kept, Option.map_map]
  rfl

/-- Where the plan takes the tests to be stands a directory. The steps that touch files would
find them readable, but the backup fails over that directory, and with it the run. -/
theorem test_directory_blocks_run :
    ∃ plan ∈ (testedPlan [(["tests"], .dir)]).toOption,
      let b := projectWith [(["tests"], .dir)]
      let c := Collaborators.standard {}
      (plan.request.backup = true ∧ plan.request.dryRun = false ∧ plan.steps ≠ []) ∧
        (∀ s ∈ plan.steps, s.writesFile = true →
          (FileStore.read? b.settle.store s.path).isOk = true) ∧
        (∀ s ∈ plan.steps, (FileStore.write b.settle.store
          (Backup.destination ⟨".codemig/backups"⟩ plan.id s.path) "").isOk = true) ∧
        backupError? c { deadline := 10 } plan b =
          some (.file (.unreadable ⟨"tests"⟩ .isDirectory)) ∧
        (tried c { deadline := 10 } plan b).length = 0 ∧
        (run c { deadline := 10 } plan b).1.status = .failed := by
  decide +kernel

end Execution

end Uplift
