/-!
# Searching text

Occurrences are found from the left and do not overlap.
-/

namespace Uplift.Text

/-- What follows `needle` at the start of a text. -/
def dropPrefix? : List Char → List Char → Option (List Char)
  | [], cs => some cs
  | _ :: _, [] => none
  | a :: needle, c :: cs => if a = c then dropPrefix? needle cs else none

def startsWith (needle cs : List Char) : Bool := (dropPrefix? needle cs).isSome

def contains (needle : List Char) : List Char → Bool
  | [] => needle.isEmpty
  | c :: cs => startsWith needle (c :: cs) || contains needle cs

/-- `skip` characters belong to the occurrence found last. -/
def countFrom (needle : List Char) : Nat → List Char → Nat
  | _, [] => 0
  | skip + 1, _ :: cs => countFrom needle skip cs
  | 0, c :: cs =>
    if startsWith needle (c :: cs) then countFrom needle (needle.length - 1) cs + 1
    else countFrom needle 0 cs

/-- Occurrences of a non-empty needle. -/
def countOf (needle cs : List Char) : Nat := countFrom needle 0 cs

def splitAll (separator : Char) : List Char → List (List Char)
  | [] => [[]]
  | c :: rest =>
    if c = separator then [] :: splitAll separator rest
    else
      match splitAll separator rest with
      | part :: parts => (c :: part) :: parts
      | [] => [[c]]

theorem dropPrefix?_eq_some {needle cs rest : List Char} :
    dropPrefix? needle cs = some rest ↔ cs = needle ++ rest := by
  induction needle generalizing cs with
  | nil => simp [dropPrefix?, eq_comm]
  | cons a needle ih =>
    cases cs with
    | nil => simp [dropPrefix?]
    | cons c cs =>
      simp only [dropPrefix?, List.cons_append, List.cons.injEq]
      split
      · rename_i h; simp [ih, h]
      · rename_i h; simp [Ne.symm h]

end Uplift.Text
