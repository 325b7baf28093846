/-!
# Values by key

Key-value pairs in ascending key order, one pair per key. `insert` keeps the order.
-/

namespace Uplift

abbrev Keyed (α : Type) := List (String × α)

namespace Keyed

variable {α : Type}

def get? (key : String) : Keyed α → Option α
  | [] => none
  | (k, v) :: rest => if k = key then some v else get? key rest

/-- Puts a pair in its place in key order; the last value of a key wins. -/
def insert (key : String) (value : α) : Keyed α → Keyed α
  | [] => [(key, value)]
  | (k, v) :: rest =>
    if k = key then (key, value) :: rest
    else if key < k then (key, value) :: (k, v) :: rest
    else (k, v) :: insert key value rest

def erase (key : String) (m : Keyed α) : Keyed α := m.filter (·.1 ≠ key)

def has (key : String) (m : Keyed α) : Bool := (get? key m).isSome

def ofList (pairs : List (String × α)) : Keyed α :=
  pairs.foldl (fun m (k, v) => insert k v m) []

/-- `other` over `m`: where both have a key, the value of `other` counts. -/
def extend (m other : Keyed α) : Keyed α := other.foldl (fun m (k, v) => insert k v m) m

theorem get?_insert_self (key : String) (value : α) (m : Keyed α) :
    get? key (insert key value m) = some value := by
  fun_induction insert key value m <;> simp_all [get?]

theorem get?_insert_other {key other : String} (h : other ≠ key) (value : α) (m : Keyed α) :
    get? other (insert key value m) = get? other m := by
  have h' : key ≠ other := Ne.symm h
  fun_induction insert key value m <;> simp_all [get?]

theorem get?_erase_self (key : String) (m : Keyed α) : get? key (erase key m) = none := by
  induction m with
  | nil => rfl
  | cons pair rest ih => by_cases h : pair.1 = key <;> simp_all [erase, get?]

theorem get?_erase_other {key other : String} (h : other ≠ key) (m : Keyed α) :
    get? other (erase key m) = get? other m := by
  induction m with
  | nil => rfl
  | cons pair rest ih =>
    by_cases hp : pair.1 = key
    · have : pair.1 ≠ other := fun same => h (same.symm.trans hp)
      simp_all [erase, get?]
    · simp_all [erase, get?]

end Keyed

/-- Puts a string in its place among ascending ones, once. -/
def insertSorted (s : String) : List String → List String
  | [] => [s]
  | x :: rest =>
    if x = s then x :: rest
    else if s < x then s :: x :: rest
    else x :: insertSorted s rest

/-- The distinct strings in ascending order. -/
def sortedSet (xs : List String) : List String := xs.foldl (fun acc s => insertSorted s acc) []

end Uplift
