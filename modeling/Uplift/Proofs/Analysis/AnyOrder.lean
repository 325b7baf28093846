import Mathlib.Algebra.BigOperators.Group.List.Basic
import Mathlib.Algebra.Group.Fin.Basic
import Mathlib.Algebra.GroupWithZero.Nat
import Uplift.Analysis.Pool
import Uplift.Files.Memory

/-!
# Scans in any order

The workers of a pool may take their turns in any order, and between two steps of the work on
one file the others may count. What all of them have counted is at every moment the sum of
what was counted for each file (`Pool.Sound`), so a pool that has done its work has the
results and the counts of a scan in sequence (`agrees_in_any_order`). The work on a file
takes four turns at most, however they are spread (`Pool.exists_results_of_turns`).
-/

namespace Uplift

namespace Counters

/-! ### Adding counts -/

def ofNats (files matchedFiles found errors : Nat) : Counters :=
  { files := .ofNat files
    matchedFiles := .ofNat matchedFiles
    found := .ofNat found
    errors := .ofNat errors }

instance : Zero Counters where
  zero := ofNats 0 0 0 0

instance : Add Counters where
  add c d :=
    { files := c.files + d.files
      matchedFiles := c.matchedFiles + d.matchedFiles
      found := c.found + d.found
      errors := c.errors + d.errors }

instance : AddCommMonoid Counters where
  add_assoc _ _ _ := Counters.ext (add_assoc ..) (add_assoc ..) (add_assoc ..) (add_assoc ..)
  add_comm _ _ := Counters.ext (add_comm ..) (add_comm ..) (add_comm ..) (add_comm ..)
  zero_add _ := Counters.ext (zero_add _) (zero_add _) (zero_add _) (zero_add _)
  add_zero _ := Counters.ext (add_zero _) (add_zero _) (add_zero _) (add_zero _)
  nsmul := nsmulRec

theorem add_addFile (c d : Counters) : (c + d).addFile = c + d.addFile :=
  Counters.ext (add_assoc ..) rfl rfl rfl

theorem add_addError (c d : Counters) : (c + d).addError = c + d.addError :=
  Counters.ext rfl rfl rfl (add_assoc ..)

theorem add_addMatchedFile (c d : Counters) : (c + d).addMatchedFile = c + d.addMatchedFile :=
  Counters.ext rfl (add_assoc ..) rfl rfl

theorem add_addFound (c d : Counters) (n : Nat) : (c + d).addFound n = c + d.addFound n :=
  Counters.ext rfl rfl (add_assoc ..) rfl

theorem add_addMatches (c d : Counters) (n : Nat) :
    (c + d).addMatches n = c + d.addMatches n := by
  unfold addMatches
  split
  · rfl
  · rw [add_addMatchedFile, add_addFound]

theorem ofNats_add (f m n e f' m' n' e' : Nat) :
    ofNats f m n e + ofNats f' m' n' e' = ofNats (f + f') (m + m') (n + n') (e + e') :=
  have sum (k k' : Nat) : Count.ofNat k + .ofNat k' = .ofNat (k + k') :=
    Fin.ext (Nat.add_mod k k' _).symm
  Counters.ext (sum ..) (sum ..) (sum ..) (sum ..)

end Counters

namespace Analysis

def share (result : Except FileError Analysis) : Counters := count 0 result

def total (results : List (Path × Except FileError Analysis)) : Counters :=
  (results.map fun r => share r.2).sum

theorem count_eq (c : Counters) (result : Except FileError Analysis) :
    count c result = c + share result := by
  cases result with
  | ok a =>
    rw [share, count, count, ← Counters.add_addMatches, ← Counters.add_addFile, add_zero]
  | error e =>
    rw [share, count, count, ← Counters.add_addError, ← Counters.add_addFile, add_zero]

theorem countAll_eq (results : List (Path × Except FileError Analysis)) (start : Counters) :
    countAll results start = start + total results := by
  induction results generalizing start with
  | nil => exact (add_zero start).symm
  | cons r rest ih =>
    have first : countAll (r :: rest) start = countAll rest (count start r.2) := rfl
    rw [first, ih, count_eq, add_assoc]
    rfl

variable {σ : Type} [FileStore σ] {store : σ} {patterns : List Pattern}

theorem inSequence_eq (store : σ) (patterns : List Pattern) (start : Counters)
    (paths : List Path) :
    inSequence store patterns start paths =
      (ofFiles store patterns paths, countAll (ofFiles store patterns paths) start) := by
  induction paths generalizing start with
  | nil => rfl
  | cons path rest ih =>
    rw [inSequence, ih]
    rfl

/-! ### One step -/

namespace Stage

def seen : Stage → Counters
  | waiting => 0
  | counted | analysed _ | failed _ => Counters.addFile 0
  | matched .. => (Counters.addFile 0).addMatchedFile
  | finished result => share result

/-- The stage agrees with the result that the work leads to. -/
def Fits (result : Except FileError Analysis) : Stage → Prop
  | waiting | counted => True
  | analysed a | matched a _ => result = .ok a
  | failed e => result = .error e
  | finished result' => result = result'

def left : Stage → Nat
  | waiting => 4
  | counted => 3
  | analysed _ => 2
  | matched .. | failed _ => 1
  | finished _ => 0

inductive Step (result : Except FileError Analysis) : Stage → Stage → Prop where
  | begun : Step result waiting counted
  | read {a : Analysis} (got : result = .ok a) : Step result counted (analysed a)
  | refused {e : FileError} (got : result = .error e) : Step result counted (failed e)
  | unmatched {a : Analysis} (none : a.rewrites.length = 0) :
      Step result (analysed a) (finished (.ok a))
  | met {a : Analysis} (some : a.rewrites.length ≠ 0) : Step result (analysed a) (matched a some)
  | added {a : Analysis} (some : a.rewrites.length ≠ 0) :
      Step result (matched a some) (finished (.ok a))
  | noted (e : FileError) : Step result (failed e) (finished (.error e))
  | rested (result' : Except FileError Analysis) : Step result (finished result') (finished result')

theorem step_next (store : σ) (patterns : List Pattern) (path : Path) (s : Stage) :
    Step (ofFile store patterns path) s (s.next store patterns path) := by
  cases s with
  | waiting => exact .begun
  | counted =>
    rw [next]
    split
    · rename_i got
      exact .read got
    · rename_i got
      exact .refused got
  | analysed a =>
    rw [next]
    split
    · rename_i none
      exact .unmatched none
    · rename_i some
      exact .met some
  | matched a some => exact .added some
  | failed e => exact .noted e
  | finished result => exact .rested result

variable {result : Except FileError Analysis} {s s' : Stage}

theorem Step.tally (step : Step result s s') (c : Counters) :
    s.tally (c + s.seen) = c + s'.seen := by
  cases step with
  | begun => exact Counters.add_addFile c 0
  | read | refused | rested => rfl
  | unmatched none =>
    rw [Stage.tally, if_pos none, seen, seen, share, count, Counters.addMatches, if_pos none]
  | met some =>
    rw [Stage.tally, if_neg some]
    exact Counters.add_addMatchedFile c _
  | added some =>
    rw [Stage.tally, Counters.add_addFound, seen, seen, share, count, Counters.addMatches,
      if_neg some]
  | noted e => exact Counters.add_addError c _

theorem Step.fits (step : Step result s s') (fits : s.Fits result) : s'.Fits result := by
  cases step with
  | begun => trivial
  | read got | refused got => exact got
  | unmatched | met | added | noted | rested => exact fits

theorem Step.left (step : Step result s s') : s'.left ≤ s.left - 1 := by
  cases step with
  | begun | read | refused | unmatched | met | added | noted | rested => simp [Stage.left]

theorem exists_result {s : Stage} (none : s.left = 0) : ∃ result, s.result? = some result := by
  cases s with
  | finished result => exact ⟨result, rfl⟩
  | waiting | counted | analysed | matched | failed => cases none

theorem eq_finished {s : Stage} {result : Except FileError Analysis}
    (got : s.result? = some result) : s = finished result := by
  cases s with
  | finished result' => exact congrArg finished (Option.some.inj got)
  | waiting | counted | analysed | matched | failed => cases got

end Stage

namespace Pool

/-! ### Turns -/

/-- The work on every file goes towards its result, and the counts are what was there at the
start together with what was counted for each file. -/
structure Sound (store : σ) (patterns : List Pattern) (start : Counters) (paths : List Path)
    (p : Pool) : Prop where
  paths : p.jobs.map Job.path = paths
  fits : ∀ j ∈ p.jobs, j.stage.Fits (ofFile store patterns j.path)
  counters : p.counters = start + (p.jobs.map fun j => j.stage.seen).sum

variable {start : Counters} {paths : List Path} {p : Pool}

theorem turn_cases (store : σ) (patterns : List Pattern) (p : Pool) (place : Nat) :
    p.turn store patterns place = p ∨
      ∃ before j behind, p.jobs = before ++ j :: behind ∧
        p.turn store patterns place =
          { counters := j.stage.tally p.counters
            jobs := before ++ j.next store patterns :: behind } := by
  unfold turn
  split
  · rename_i j there
    obtain ⟨within, rfl⟩ := List.getElem?_eq_some_iff.mp there
    let moved := p.jobs[place].next store patterns
    obtain ⟨before, behind, parts, -, replaced⟩ :
        ∃ before behind, p.jobs = before ++ p.jobs[place] :: behind ∧ before.length = place ∧
          p.jobs.set place moved = before ++ moved :: behind := List.exists_of_set within
    exact .inr ⟨before, _, behind, parts, congrArg (Pool.mk _) replaced⟩
  · exact .inl rfl

theorem sound_begin (store : σ) (patterns : List Pattern) (start : Counters)
    (paths : List Path) : (begin start paths).Sound store patterns start paths := by
  refine ⟨?_, ?_, ?_⟩
  · rw [begin, List.map_map]
    exact List.map_id _
  · intro j member
    obtain ⟨path, -, rfl⟩ := List.mem_map.mp member
    trivial
  · have nothing : ((begin start paths).jobs.map fun j => j.stage.seen).sum = 0 := by
      rw [begin, List.map_map]
      exact List.sum_map_zero
    rw [nothing, add_zero]
    rfl

theorem Sound.turn (sound : p.Sound store patterns start paths) (place : Nat) :
    (p.turn store patterns place).Sound store patterns start paths := by
  rcases p.turn_cases store patterns place with same | ⟨before, j, behind, parts, taken⟩
  · rw [same]
    exact sound
  · obtain ⟨paths, fits, counters⟩ := sound
    have step := j.stage.step_next store patterns j.path
    rw [parts] at paths fits counters
    rw [taken]
    refine ⟨?_, ?_, ?_⟩
    · rw [← paths]
      simp only [List.map_append, List.map_cons, Job.next]
    · intro j' member
      rcases List.mem_append.mp member with own | own
      · exact fits j' (List.mem_append_left _ own)
      · rcases List.mem_cons.mp own with rfl | own
        · exact step.fits (fits j (List.mem_append_right _ List.mem_cons_self))
        · exact fits j' (List.mem_append_right _ (List.mem_cons_of_mem _ own))
    · -- the step sees all the counts, but moves only what was counted for its own file
      let others := start + ((before.map fun j => j.stage.seen).sum +
        (behind.map fun j => j.stage.seen).sum)
      have apart (j' : Job) : start + ((before ++ j' :: behind).map fun j => j.stage.seen).sum =
          others + j'.stage.seen := by
        simp only [others, List.map_append, List.map_cons, List.sum_append, List.sum_cons]
        ac_rfl
      rw [apart] at counters ⊢
      rw [counters]
      exact step.tally others

theorem Sound.turns (sound : p.Sound store patterns start paths) (schedule : List Nat) :
    (p.turns store patterns schedule).Sound store patterns start paths := by
  induction schedule generalizing p with
  | nil => exact sound
  | cons place rest ih => exact ih (sound.turn place)

theorem getElem?_turn (store : σ) (patterns : List Pattern) (p : Pool) (place i : Nat) :
    (p.turn store patterns place).jobs[i]? =
      if place = i then p.jobs[i]?.map (Job.next store patterns) else p.jobs[i]? := by
  unfold turn
  split
  · rename_i j there
    rw [List.getElem?_set]
    split
    · rename_i same
      subst same
      rw [if_pos (List.getElem?_eq_some_iff.mp there).1, there]
      rfl
    · rfl
  · rename_i none
    split
    · rename_i same
      rw [← same, none]
      rfl
    · rfl

theorem exists_job_turns (store : σ) (patterns : List Pattern) (schedule : List Nat) {i : Nat}
    {j : Job} (there : p.jobs[i]? = some j) :
    ∃ j', (p.turns store patterns schedule).jobs[i]? = some j' ∧
      j'.stage.left ≤ j.stage.left - schedule.count i := by
  induction schedule generalizing p j with
  | nil => exact ⟨j, there, Nat.le_refl _⟩
  | cons place rest ih =>
    have moved := getElem?_turn store patterns p place i
    rw [there] at moved
    by_cases same : place = i
    · rw [if_pos same] at moved
      obtain ⟨j', kept, less⟩ := ih moved
      have step := (j.stage.step_next store patterns j.path).left
      refine ⟨j', kept, Nat.le_trans less ?_⟩
      rw [same, List.count_cons_self]
      simp only [Job.next]
      omega
    · rw [if_neg same] at moved
      obtain ⟨j', kept, less⟩ := ih moved
      refine ⟨j', kept, ?_⟩
      rw [List.count_cons_of_ne same]
      exact less

/-! ### When the work is done -/

theorem results_of_fits {jobs : List Job}
    (fits : ∀ j ∈ jobs, j.stage.Fits (ofFile store patterns j.path))
    {results : List (Path × Except FileError Analysis)}
    (got : jobs.mapM Job.result? = some results) :
    results = ofFiles store patterns (jobs.map Job.path) ∧
      (jobs.map fun j => j.stage.seen).sum = total results := by
  induction jobs generalizing results with
  | nil =>
    cases got
    exact ⟨rfl, rfl⟩
  | cons j rest ih =>
    rw [List.mapM_cons] at got
    obtain ⟨first, here, got⟩ := Option.bind_eq_some_iff.mp got
    obtain ⟨others, later, got⟩ := Option.bind_eq_some_iff.mp got
    cases got
    obtain ⟨own, fits⟩ := List.forall_mem_cons.mp fits
    obtain ⟨same, counted⟩ := ih fits later
    obtain ⟨result, reached, rfl⟩ := Option.map_eq_some_iff.mp here
    have finished := Stage.eq_finished reached
    rw [finished] at own
    constructor
    · rw [same, ← own]
      rfl
    · rw [List.map_cons, List.sum_cons, counted, finished]
      rfl

/-- A pool that has all results has what a scan in sequence comes to. -/
theorem Sound.agrees (sound : p.Sound store patterns start paths)
    {results : List (Path × Except FileError Analysis)} (got : p.results? = some results) :
    (results, p.counters) = inSequence store patterns start paths := by
  obtain ⟨same, counted⟩ := results_of_fits sound.fits got
  rw [sound.paths] at same
  rw [inSequence_eq, countAll_eq, sound.counters, counted, same]

theorem exists_results {jobs : List Job} (done : ∀ j ∈ jobs, j.stage.left = 0) :
    ∃ results, jobs.mapM Job.result? = some results := by
  induction jobs with
  | nil => exact ⟨[], rfl⟩
  | cons j rest ih =>
    obtain ⟨own, others⟩ := List.forall_mem_cons.mp done
    obtain ⟨result, reached⟩ := Stage.exists_result own
    obtain ⟨results, later⟩ := ih others
    have here : j.result? = some (j.path, result) := by rw [Job.result?, reached]; rfl
    refine ⟨(j.path, result) :: results, ?_⟩
    rw [List.mapM_cons, here, later]
    rfl

theorem exists_results_of_turns (store : σ) (patterns : List Pattern) (start : Counters)
    {paths : List Path} {schedule : List Nat}
    (enough : ∀ i < paths.length, 4 ≤ schedule.count i) :
    ∃ results, ((begin start paths).turns store patterns schedule).results? = some results := by
  have sound := (sound_begin store patterns start paths).turns schedule
  refine exists_results fun j member => ?_
  obtain ⟨i, there⟩ := List.getElem?_of_mem member
  have within : i < paths.length := by
    rw [← sound.paths, List.length_map]
    exact (List.getElem?_eq_some_iff.mp there).1
  have begun : (begin start paths).jobs[i]? = some { path := paths[i] } := by
    rw [begin, List.getElem?_map, List.getElem?_eq_getElem within]
    rfl
  obtain ⟨j', reached, left⟩ := exists_job_turns store patterns schedule begun
  rw [there] at reached
  cases reached
  have turns := enough i within
  have none : j.stage.left ≤ 4 - schedule.count i := left
  omega

end Pool

/-! ### The counts -/

def analysesOf (results : List (Path × Except FileError Analysis)) : List Analysis :=
  results.filterMap fun r => r.2.toOption

theorem share_ok (a : Analysis) :
    share (.ok a) = .ofNats 1 (if a.isUnchanged then 0 else 1) a.rewrites.length 0 := by
  have unchanged : a.isUnchanged = true ↔ a.rewrites.length = 0 := by
    rw [isUnchanged, List.isEmpty_iff, List.length_eq_zero_iff]
  by_cases none : a.rewrites.length = 0
  · rw [share, count, Counters.addMatches, if_pos none, if_pos (unchanged.mpr none), none]
    rfl
  · rw [share, count, Counters.addMatches, if_neg none, if_neg (unchanged.not.mpr none)]
    exact Counters.ext rfl rfl (zero_add _) rfl

theorem total_eq (results : List (Path × Except FileError Analysis)) :
    total results =
      .ofNats results.length ((analysesOf results).countP (!·.isUnchanged))
        ((analysesOf results).map (·.rewrites.length)).sum (results.countP (!·.2.isOk)) := by
  induction results with
  | nil => rfl
  | cons r rest ih =>
    obtain ⟨path, e | a⟩ := r
    · have first : total ((path, .error e) :: rest) = .ofNats 1 0 0 1 + total rest :=
        List.sum_cons
      have same : analysesOf ((path, .error e) :: rest) = analysesOf rest := rfl
      have oneError : ((path, .error e) :: rest).countP (!·.2.isOk) =
          rest.countP (!·.2.isOk) + 1 := List.countP_cons_of_pos rfl
      rw [first, ih, Counters.ofNats_add, same, oneError, List.length_cons, Nat.zero_add,
        Nat.zero_add, Nat.add_comm 1, Nat.add_comm 1]
    · have first : total ((path, .ok a) :: rest) = share (.ok a) + total rest := List.sum_cons
      have more : analysesOf ((path, .ok a) :: rest) = a :: analysesOf rest := rfl
      have noError : ((path, .ok a) :: rest).countP (!·.2.isOk) = rest.countP (!·.2.isOk) :=
        List.countP_cons_of_neg nofun
      have changed : (a :: analysesOf rest).countP (!·.isUnchanged) =
          (if a.isUnchanged then 0 else 1) + (analysesOf rest).countP (!·.isUnchanged) := by
        rw [List.countP_cons, Nat.add_comm]
        cases a.isUnchanged <;> rfl
      rw [first, ih, share_ok, Counters.ofNats_add, more, noError, changed, List.length_cons,
        List.map_cons, List.sum_cons, Nat.zero_add, Nat.add_comm 1]

/-- Workers that take turns in any order come to what a scan in sequence comes to, and they
do come to it if every file gets four turns. Each path has its result, in the order of the
paths, and the counts, which are words of 64 bits, have grown by the numbers of the files,
the errors, the analyses with rewrites and the rewrites. -/
theorem agrees_in_any_order (store : σ) (patterns : List Pattern) (paths : List Path)
    (start : Counters) (schedule : List Nat) :
    let pool := (Pool.begin start paths).turns store patterns schedule
    let (results, counters) := inSequence store patterns start paths
    (∀ found, pool.results? = some found → found = results ∧ pool.counters = counters) ∧
    ((∀ i < paths.length, 4 ≤ schedule.count i) → pool.results? = some results) ∧
    results = paths.map (fun path => (path, ofFile store patterns path)) ∧
    counters.files.val = (start.files.val + paths.length) % UInt64.size ∧
    counters.errors.val = (start.errors.val + results.countP (!·.2.isOk)) % UInt64.size ∧
    counters.matchedFiles.val =
      (start.matchedFiles.val + (analysesOf results).countP (!·.isUnchanged)) % UInt64.size ∧
    counters.found.val =
      (start.found.val + ((analysesOf results).map (·.rewrites.length)).sum) % UInt64.size := by
  intro pool
  have sound := (Pool.sound_begin store patterns start paths).turns schedule
  have agrees (found : List (Path × Except FileError Analysis))
      (got : pool.results? = some found) :
      (found, pool.counters) = inSequence store patterns start paths := sound.agrees got
  have returns (enough : ∀ i < paths.length, 4 ≤ schedule.count i) :
      ∃ found, pool.results? = some found :=
    Pool.exists_results_of_turns store patterns start enough
  have sum (c : Count) (n : Nat) : (c + .ofNat n).val = (c.val + n) % UInt64.size :=
    Nat.add_mod_mod ..
  have length : (ofFiles store patterns paths).length = paths.length := List.length_map _
  rw [inSequence_eq] at agrees ⊢
  refine ⟨fun found got => Prod.mk.inj (agrees found got), fun enough => ?_, rfl, ?_⟩
  · obtain ⟨found, got⟩ := returns enough
    rw [got, (Prod.mk.inj (agrees found got)).1]
  · rw [countAll_eq, total_eq, length]
    exact ⟨sum .., sum .., sum .., sum ..⟩

def twoTexts : Memory := { files := [(⟨"a.js"⟩, "var a; var b;"), (⟨"c.js"⟩, "const c;")] }

def letForVar : Pattern where
  id := "let-for-var"
  name := "let for var"
  category := .generalLanguage
  matcher := .literal "var"
  transform := .replace "let"

def fourPaths : List Path := [⟨"a.js"⟩, ⟨"b.js"⟩, ⟨"c.js"⟩, ⟨"a.js"⟩]

/-- One more match, and the count of matches starts anew. -/
def nearlyFull : Counters := .ofNats 0 0 (UInt64.size - 1) 0

def mixedTurns : List Nat := [3, 0, 2, 3, 0, 1, 0, 3, 1, 3, 2, 2, 0, 1]

/-- The work on a file that is listed twice, on one without matches and on a missing one. -/
theorem mixedTurns_agree :
    let pool := (Pool.begin nearlyFull fourPaths).turns twoTexts [letForVar] mixedTurns
    let sequential := inSequence twoTexts [letForVar] nearlyFull fourPaths
    pool.results? = some sequential.1 ∧ pool.counters = sequential.2 ∧
      sequential.2 = { files := 4, matchedFiles := 2, found := 3, errors := 1 } := by
  intro pool sequential
  obtain ⟨agrees, -⟩ :=
    agrees_in_any_order twoTexts [letForVar] fourPaths nearlyFull mixedTurns
  have done : pool.results?.isSome = true := by decide
  have counted : pool.counters = { files := 4, matchedFiles := 2, found := 3, errors := 1 } := by
    decide
  obtain ⟨found, got⟩ := Option.isSome_iff_exists.mp done
  obtain ⟨same, counters⟩ := agrees found got
  exact ⟨got.trans (congrArg some same), counters, counters.symm.trans counted⟩

end Analysis

end Uplift
