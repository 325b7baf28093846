import Uplift.Engine.Error
import Uplift.Pattern.Catalog
import Uplift.Plan.Builder
import Uplift.Run.Executor
import Uplift.Run.Report

/-!
# The engine

An engine makes plans from its catalog, runs them, keeps the last result of each and the
records with which a finished run can be rolled back. While a plan runs, its id is among
the active ones, and neither a second run nor a rollback of it begins.
-/

namespace Uplift

structure Engine (σ : Type) where
  catalog : Catalog
  collaborators : Collaborators σ
  settings : Settings
  bench : Bench σ
  results : Keyed Run := []
  active : List String := []

namespace Engine

variable {σ : Type} [FileStore σ]

def create (catalog : Catalog) (c : Collaborators σ) (s : Settings) (store : σ) :
    Except EngineError (Engine σ) :=
  match s.validate with
  | .ok () =>
    .ok { catalog := catalog, collaborators := c, settings := s, bench := { store := store } }
  | .error e => .error (.config e)

/-- An engine with the built-in patterns. -/
def withBuiltin (c : Collaborators σ) (s : Settings) (store : σ) :
    Except EngineError (Engine σ) := do
  create (← Catalog.withBuiltin.mapError .pattern) c s store

def store (e : Engine σ) : σ := e.bench.store

/-- Changes the store behind the engine's back. -/
def modifyStore (e : Engine σ) (f : σ → σ) : Engine σ :=
  { e with bench := { e.bench with store := f e.bench.store } }

def plan (e : Engine σ) (id : String) (now : Timestamp) (r : Request) : Except EngineError Plan :=
  Plan.build id now e.settings e.bench.store e.catalog.all r

def isActive (e : Engine σ) (id : String) : Bool := id ∈ e.active

/-- Marks a migration as running. -/
def enter (e : Engine σ) (id : String) : Except EngineError (Engine σ) :=
  if e.isActive id then .error (.alreadyRunning id)
  else .ok { e with active := insertSorted id e.active }

def leave (e : Engine σ) (id : String) : Engine σ :=
  { e with active := e.active.filter (· ≠ id) }

def conditions (e : Engine σ) (now : Timestamp) (cancelled : Nat → σ → Bool) : Conditions σ :=
  { deadline := e.settings.execution.timeoutMs, started := now, cancelled := cancelled }

/-- Runs a plan and keeps the result. -/
def execute (e : Engine σ) (now : Timestamp) (plan : Plan)
    (cancelled : Nat → σ → Bool := fun _ _ => false) : Except EngineError (Run × Engine σ) := do
  let e ← e.enter plan.id
  let fresh := { e.bench with calls := 0, waited := 0 }
  let (run, bench) := Execution.run e.collaborators (e.conditions now cancelled) plan fresh
  return (run, { e with bench := bench, results := e.results.insert plan.id run }.leave plan.id)

/-- Makes a plan, and runs it if the request says so. -/
def migrate (e : Engine σ) (id : String) (now : Timestamp) (r : Request) :
    Except EngineError (Plan × Option Run × Engine σ) := do
  let plan ← e.plan id now r
  if r.autoApply then
    let (run, e) ← e.execute now plan
    return (plan, some run, e)
  else return (plan, none, e)

def result? (e : Engine σ) (id : String) : Option Run := e.results.get? id

/-- Rolls a finished run back; false if nothing is left to undo. -/
def rollback (e : Engine σ) (now : Timestamp) (id : String) :
    Except EngineError (Bool × Engine σ) :=
  if e.isActive id then .error (.alreadyRunning id)
  else
    match e.result? id with
    | none => .error (.notFound id)
    | some run =>
      if e.bench.undo.hasRecords id then
        let k := e.conditions now fun _ _ => false
        let p : Progress σ := { bench := { e.bench with calls := 0, waited := 0 }, run := run }
        let p := Execution.unwind k (p.log k "Manual rollback requested")
        let bench := { p.bench with undo := p.bench.undo.discard id }
        .ok (true, { e with bench := bench, results := e.results.insert id p.run })
      else .ok (false, e)

def report (e : Engine σ) (id : String) : Except EngineError String :=
  match e.result? id with
  | some run => .ok (Report.ofRun run)
  | none => .error (.notFound id)

def addPattern (e : Engine σ) (p : Pattern) : Except EngineError (Engine σ) :=
  match e.catalog.register p with
  | .ok catalog => .ok { e with catalog := catalog }
  | .error error => .error (.pattern error)

def removePattern (e : Engine σ) (id : String) : Except EngineError (Pattern × Engine σ) :=
  match e.catalog.remove id with
  | .ok (p, catalog) => .ok (p, { e with catalog := catalog })
  | .error error => .error (.pattern error)

end Engine

end Uplift
