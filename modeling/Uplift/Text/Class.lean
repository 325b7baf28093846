import Uplift.Text.Table.CaseFold
import Uplift.Text.Table.Digit
import Uplift.Text.Table.Word

/-!
# Character classes

Blanks, word characters, letters and digits of all scripts, and simple case folding.
ASCII is decided by rule, the rest by table.
-/

namespace Uplift.Text

def inRanges (ranges : Array (Nat × Nat)) (n : Nat) : Bool :=
  ranges.any fun (first, last) => first ≤ n && n ≤ last

/-- The characters with the property White_Space. -/
def isBlank (c : Char) : Bool :=
  let n := c.toNat
  (0x9 ≤ n && n ≤ 0xd) || n == 0x20 || n == 0x85 || n == 0xa0 || n == 0x1680 ||
    (0x2000 ≤ n && n ≤ 0x200a) || n == 0x2028 || n == 0x2029 || n == 0x202f || n == 0x205f ||
    n == 0x3000

def isWordChar (c : Char) : Bool :=
  if c.toNat < 0x80 then c.isAlphanum || c == '_' else inRanges Table.word c.toNat

def isDecimalDigit (c : Char) : Bool :=
  if c.toNat < 0x80 then c.isDigit else inRanges Table.digit c.toNat

def isAlphabetic (c : Char) : Bool :=
  if c.toNat < 0x80 then c.isAlpha
  else isWordChar c && !isDecimalDigit c && !inRanges Table.wordSign c.toNat

def isAlphanumeric (c : Char) : Bool :=
  if c.toNat < 0x80 then c.isAlphanum
  else isAlphabetic c || isDecimalDigit c || inRanges Table.number c.toNat

namespace Table.FoldRun

def holds (run : FoldRun) (n : Nat) : Bool :=
  run.first ≤ n && n ≤ run.last && (n - run.first) % run.stride == 0

def target (run : FoldRun) (n : Nat) : Nat := (n + run.shift).toNat

/-- The character of the run that folds to `n`. -/
def source? (run : FoldRun) (n : Nat) : Option Nat :=
  let m := n - run.shift
  if 0 ≤ m && run.holds m.toNat then some m.toNat else none

end Table.FoldRun

def foldCode (n : Nat) : Nat :=
  match Table.foldRuns.find? (·.holds n) with
  | some run => run.target n
  | none => n

/-- The characters that differ from `c` at most in case, the folded one first. -/
def caseVariants (c : Char) : List Char :=
  let folded := foldCode c.toNat
  (folded :: Table.foldRuns.toList.filterMap (·.source? folded)).map Char.ofNat

/-- The text without the blanks at both ends. -/
def trim (cs : List Char) : List Char :=
  ((cs.dropWhile isBlank).reverse.dropWhile isBlank).reverse

/-- The parts between blanks, none of them empty. -/
def words (cs : List Char) : List String :=
  ((parts cs).filter (· ≠ [])).map String.ofList
where
  parts : List Char → List (List Char)
    | [] => [[]]
    | c :: rest =>
      if isBlank c then [] :: parts rest
      else
        match parts rest with
        | [] => [[c]]
        | part :: more => (c :: part) :: more

end Uplift.Text
