import Uplift.Request
import Uplift.Risk

/-!
# Settings

How steps are timed and weighed, how many make a milestone, what the steps beside code
cost, and how long a collaborator may take.
-/

namespace Uplift

structure Multipliers where
  critical : Float := 3.0
  high : Float := 2.0
  medium : Float := 1.5
  low : Float := 1.0
  deriving Inhabited

def Multipliers.of (m : Multipliers) : Risk → Float
  | .critical => m.critical
  | .high => m.high
  | .medium => m.medium
  | .low => m.low

/-- Seconds of downtime that a step adds. -/
structure Downtime where
  critical : Nat := 300
  high : Nat := 120
  medium : Nat := 60
  perStep : Nat := 10
  deriving DecidableEq, Repr, Inhabited

structure RiskPolicy where
  baseSeconds : Nat := 30
  multipliers : Multipliers := {}
  highThreshold : Nat := 3
  mediumThreshold : Nat := 5
  downtime : Downtime := {}
  complexityDivisor : Nat := 10
  complexityFloor : Nat := 5
  deriving Inhabited

/-- Seconds for `count` matches at a risk, rounded half up and kept in a word. -/
def RiskPolicy.stepTime (p : RiskPolicy) (risk : Risk) (count : Nat) : Nat :=
  let seconds := p.baseSeconds.toUInt64.toFloat * count.toUInt64.toFloat * p.multipliers.of risk
  seconds.round.toUInt64.toNat

structure SchedulePolicy where
  milestoneSize : Nat := 5
  deriving DecidableEq, Repr, Inhabited

/-- What a step beside the code steps is taken to cost. -/
structure StepPolicy where
  risk : Risk
  seconds : Nat
  deriving DecidableEq, Repr, Inhabited

structure PlanningPolicy where
  dependencyUpdate : StepPolicy := ⟨.medium, 120⟩
  configChange : StepPolicy := ⟨.medium, 60⟩
  testUpdate : StepPolicy := ⟨.low, 180⟩
  parallelScan : Bool := true
  deriving DecidableEq, Repr, Inhabited

structure ExecutionPolicy where
  timeoutMs : Nat := 30000
  backupDir : Path := ⟨".codemig/backups"⟩
  deriving DecidableEq, Repr, Inhabited

structure Settings where
  risk : RiskPolicy := {}
  schedule : SchedulePolicy := {}
  planning : PlanningPolicy := {}
  execution : ExecutionPolicy := {}
  deriving Inhabited

namespace Settings

def positive (option : String) (n : Nat) : Except ConfigError Unit :=
  if n = 0 then .error (.invalidOption option "must be positive") else .ok ()

def validate (s : Settings) : Except ConfigError Unit := do
  positive "schedule.milestone_size" s.schedule.milestoneSize
  positive "risk.rollback_complexity_divisor" s.risk.complexityDivisor
  positive "execution.collaborator_timeout_ms" s.execution.timeoutMs
  let m := s.risk.multipliers
  if [m.critical, m.high, m.medium, m.low].any fun v => !v.isFinite || v < 0.0 then
    .error (.invalidOption "risk.multipliers" "must be finite and non-negative")

/-! ### JSON form -/

open Json

def natural {σ : Type} (name : String) (set : Nat → σ → σ) (get : σ → Nat) : Slot σ :=
  Slot.of name Decoder.natural set (ofNat ∘ get) false

def double {σ : Type} (name : String) (set : Float → σ → σ) (get : σ → Float) : Slot σ :=
  Slot.of name Decoder.double set (ofFloat ∘ get) false

def nested {σ τ : Type} (name : String) (r : Record τ) (default : τ) (set : τ → σ → σ)
    (get : σ → τ) : Slot σ :=
  Slot.of name (r.decode default) set (r.encode ∘ get) false

def multipliersRecord : Record Multipliers := [
  double "critical" (fun v m => { m with critical := v }) (·.critical),
  double "high" (fun v m => { m with high := v }) (·.high),
  double "medium" (fun v m => { m with medium := v }) (·.medium),
  double "low" (fun v m => { m with low := v }) (·.low)]

def downtimeRecord : Record Downtime := [
  natural "critical" (fun v d => { d with critical := v }) (·.critical),
  natural "high" (fun v d => { d with high := v }) (·.high),
  natural "medium" (fun v d => { d with medium := v }) (·.medium),
  natural "per_step" (fun v d => { d with perStep := v }) (·.perStep)]

def riskRecord : Record RiskPolicy := [
  natural "base_step_seconds" (fun v p => { p with baseSeconds := v }) (·.baseSeconds),
  nested "multipliers" multipliersRecord {} (fun v p => { p with multipliers := v })
    (·.multipliers),
  natural "high_step_threshold" (fun v p => { p with highThreshold := v }) (·.highThreshold),
  natural "medium_step_threshold" (fun v p => { p with mediumThreshold := v })
    (·.mediumThreshold),
  nested "downtime" downtimeRecord {} (fun v p => { p with downtime := v }) (·.downtime),
  natural "rollback_complexity_divisor" (fun v p => { p with complexityDivisor := v })
    (·.complexityDivisor),
  natural "rollback_complexity_floor" (fun v p => { p with complexityFloor := v })
    (·.complexityFloor)]

def scheduleRecord : Record SchedulePolicy := [
  natural "milestone_size" (fun v p => { p with milestoneSize := v }) (·.milestoneSize)]

def stepRecord : Record StepPolicy := [
  Slot.of "risk" (Decoder.label Risk.ofLabel?) (fun v p => { p with risk := v })
    (fun p => .string p.risk.label) true,
  Slot.of "estimated_time" Decoder.natural (fun v p => { p with seconds := v })
    (fun p => ofNat p.seconds) true]

def planningRecord : Record PlanningPolicy := [
  nested "dependency_update" stepRecord default (fun v p => { p with dependencyUpdate := v })
    (·.dependencyUpdate),
  nested "config_change" stepRecord default (fun v p => { p with configChange := v })
    (·.configChange),
  nested "test_update" stepRecord default (fun v p => { p with testUpdate := v })
    (·.testUpdate),
  Slot.of "parallel_scan" Decoder.bool (fun v p => { p with parallelScan := v })
    (fun p => .bool p.parallelScan) false]

def executionRecord : Record ExecutionPolicy := [
  natural "collaborator_timeout_ms" (fun v p => { p with timeoutMs := v }) (·.timeoutMs),
  Slot.of "backup_dir" Decoder.string (fun v p => { p with backupDir := ⟨v⟩ })
    (fun p => .string p.backupDir.text) false]

def record : Record Settings := [
  nested "risk" riskRecord {} (fun v s => { s with risk := v }) (·.risk),
  nested "schedule" scheduleRecord {} (fun v s => { s with schedule := v }) (·.schedule),
  nested "planning" planningRecord {} (fun v s => { s with planning := v }) (·.planning),
  nested "execution" executionRecord {} (fun v s => { s with execution := v }) (·.execution)]

def toJson (s : Settings) : Json := record.encode s

/-- Reads settings without judging them. -/
def decode? (text : String) : Except ConfigError Settings :=
  match decodeText (record.decode {}) text with
  | .ok s => .ok s
  | .error e => .error (.ofMisfit text e)

def ofJson? (text : String) : Except ConfigError Settings := do
  let s ← decode? text
  s.validate
  return s

end Settings

end Uplift
