/-!
# Risk

Every step carries a risk. A step of high or critical risk that fails ends the run.
-/

namespace Uplift

inductive Risk where
  | low
  | medium
  | high
  | critical
  deriving DecidableEq, Repr, Inhabited

namespace Risk

def rank : Risk → Nat
  | low => 0
  | medium => 1
  | high => 2
  | critical => 3

def max (a b : Risk) : Risk := if a.rank ≤ b.rank then b else a

/-- The worst risk, low for none. -/
def worst (risks : List Risk) : Risk := risks.foldl max low

def aborts : Risk → Bool
  | low | medium => false
  | high | critical => true

def label : Risk → String
  | low => "low"
  | medium => "medium"
  | high => "high"
  | critical => "critical"

def ofLabel? (s : String) : Option Risk := [low, medium, high, critical].find? (·.label = s)

theorem ofLabel?_label (r : Risk) : ofLabel? r.label = some r := by cases r <;> rfl

theorem rank_max (a b : Risk) : (max a b).rank = Nat.max a.rank b.rank := by
  cases a <;> cases b <;> rfl

end Risk

end Uplift
