/-!
# Lines

A line ends at a newline, which may follow a carriage return; neither belongs
to the line. A text that ends in a newline has no further empty line.
-/

namespace Uplift.Text

def lines : List Char → List (List Char)
  | [] => []
  | '\n' :: rest => [] :: lines rest
  | '\r' :: '\n' :: rest => [] :: lines rest
  | c :: rest =>
    match lines rest with
    | [] => [[c]]
    | line :: more => (c :: line) :: more

def linesOf (text : String) : List String :=
  (lines text.toList).map String.ofList

def lineCount (text : String) : Nat := (lines text.toList).length

/-- A text of these lines, each with its newline. -/
def ofLines (xs : List String) : String := String.join (xs.map (· ++ "\n"))

theorem lines_eq_nil_iff {cs : List Char} : lines cs = [] ↔ cs = [] := by
  fun_cases lines cs <;> simp_all

end Uplift.Text
