import Uplift.Pattern.Match
import Uplift.Proofs.Regex.Reach

/-!
# Where matches lie

The matches of a literal and of an expression lie in the text one after the other, begin
and end between characters and do not overlap. `Match.Spread` says so by taking the text
apart.
-/

namespace Uplift

open Text (byteSize byteSize_append)

/-- Matches in a text that `n` bytes come before: some gap, the bytes of the first match,
and the other matches in what is left. -/
inductive Match.Spread : Nat → List Char → List Match → Prop
  | nil {n : Nat} {text : List Char} : Spread n text []
  | cons {n : Nat} {text : List Char} (gap body rest : List Char) {m : Match} {ms : List Match}
      (parts : text = gap ++ (body ++ rest)) (starts : m.start = n + byteSize gap)
      (stops : m.stop = m.start + byteSize body) (others : Spread m.stop rest ms) :
      Spread n text (m :: ms)

theorem Match.Spread.behind {n : Nat} {front text : List Char} {ms : List Match}
    (spread : Spread (n + byteSize front) text ms) : Spread n (front ++ text) ms := by
  cases spread with
  | nil => exact .nil
  | cons gap body rest parts starts stops others =>
    refine .cons (front ++ gap) body rest ?_ ?_ stops others
    · rw [parts, List.append_assoc]
    · rw [starts, byteSize_append, Nat.add_assoc]

theorem Match.Spread.start_ge {n : Nat} {text : List Char} {ms : List Match}
    (spread : Spread n text ms) : ∀ m ∈ ms, n ≤ m.start := by
  induction spread with
  | nil => nofun
  | cons gap body rest parts starts stops others ih =>
    refine List.forall_mem_cons.mpr ⟨by omega, fun m later => ?_⟩
    have behind := ih m later
    omega

theorem Match.Spread.pairwise {n : Nat} {text : List Char} {ms : List Match}
    (spread : Spread n text ms) : ms.Pairwise fun m m' => m.stop ≤ m'.start := by
  induction spread with
  | nil => exact .nil
  | cons gap body rest parts starts stops others ih => exact .cons others.start_ge ih

theorem Text.startsWith_iff {front cs : List Char} :
    startsWith front cs = true ↔ front <+: cs := by
  unfold startsWith
  rw [Option.isSome_iff_exists]
  constructor
  · rintro ⟨rest, split⟩
    exact ⟨rest, (dropPrefix?_eq_some.mp split).symm⟩
  · rintro ⟨rest, parts⟩
    exact ⟨rest, dropPrefix?_eq_some.mpr parts.symm⟩

namespace Matcher

open Match (Spread)

/-! ### Literals -/

theorem literalStarts_skip (needle : List Char) (offset : Nat) (skipped rest : List Char) :
    literalStarts needle offset skipped.length (skipped ++ rest) =
      literalStarts needle (offset + byteSize skipped) 0 rest := by
  induction skipped generalizing offset with
  | nil => rfl
  | cons c skipped ih =>
    rw [List.length_cons, List.cons_append, literalStarts, ih, byteSize, Nat.add_assoc]

theorem literalStarts_of_prefix {c : Char} {needle : List Char} (offset : Nat)
    (rest : List Char) :
    literalStarts (c :: needle) offset 0 (c :: needle ++ rest) =
      offset :: literalStarts (c :: needle) (offset + byteSize (c :: needle)) 0 rest := by
  have here : Text.startsWith (c :: needle) (c :: (needle ++ rest)) = true :=
    Text.startsWith_iff.mpr ⟨rest, List.cons_append ..⟩
  rw [List.cons_append, literalStarts, if_pos here, List.length_cons, Nat.add_sub_cancel,
    literalStarts_skip, byteSize, Nat.add_assoc]

/-- Where a search that begins at byte `n` finds the needle: behind an occurrence it goes on with
the rest, and elsewhere with the next character. -/
inductive Scan (needle : List Char) : Nat → List Char → List Nat → Prop
  | done {n : Nat} : Scan needle n [] []
  | here {n : Nat} {rest : List Char} {starts : List Nat}
      (others : Scan needle (n + byteSize needle) rest starts) :
      Scan needle n (needle ++ rest) (n :: starts)
  | later {n : Nat} {c : Char} {rest : List Char} {starts : List Nat}
      (absent : ¬needle <+: c :: rest) (others : Scan needle (n + c.utf8Size) rest starts) :
      Scan needle n (c :: rest) starts

theorem literalStarts_of_absent {needle : List Char} {c : Char} {cs : List Char}
    (absent : ¬needle <+: c :: cs) (offset : Nat) :
    literalStarts needle offset 0 (c :: cs) = literalStarts needle (offset + c.utf8Size) 0 cs := by
  rw [literalStarts, if_neg (mt Text.startsWith_iff.mp absent)]

theorem literalStarts_scan {needle : List Char} (nonempty : needle ≠ []) (n : Nat)
    (cs : List Char) : Scan needle n cs (literalStarts needle n 0 cs) := by
  -- An occurrence takes several characters at once, so the induction is on the length.
  induction long : cs.length using Nat.strongRecOn generalizing n cs with
  | ind size ih =>
    cases cs with
    | nil => exact .done
    | cons c cs =>
      by_cases occurs : needle <+: c :: cs
      · obtain ⟨rest, parts⟩ := occurs
        obtain ⟨d, tail, rfl⟩ := List.exists_cons_of_ne_nil nonempty
        have shorter : rest.length < size := by
          rw [← long, ← parts, List.length_append, List.length_cons]
          omega
        rw [← parts, literalStarts_of_prefix]
        exact .here (ih _ shorter _ rest rfl)
      · have shorter : cs.length < size := by rw [← long]; exact Nat.lt_succ_self _
        rw [literalStarts_of_absent occurs]
        exact .later occurs (ih _ shorter _ cs rfl)

def ofStart (needle : String) (start : Nat) : Match :=
  ⟨start, start + byteSize needle.toList, [some needle]⟩

theorem find_literal {needle : String} (nonempty : needle ≠ "") (content : String) :
    (literal needle).find content =
      (literalStarts needle.toList 0 0 content.toList).map (ofStart needle) := by
  have given : needle.isEmpty ≠ true := fun blank => nonempty (String.isEmpty_iff.mp blank)
  rw [find, if_neg given]
  rfl

theorem find_empty (content : String) : (literal "").find content = [] := rfl

theorem Scan.spread {needle : String} {n : Nat} {cs : List Char} {starts : List Nat}
    (scan : Scan needle.toList n cs starts) : Spread n cs (starts.map (ofStart needle)) := by
  induction scan with
  | done => exact .nil
  | here others ih => exact .cons [] needle.toList _ rfl rfl rfl ih
  | later absent others ih =>
    rename_i n c rest starts
    have behind : Spread (n + byteSize [c]) rest _ := ih
    exact behind.behind

/-! ### Expressions -/

theorem findFrom_spread (r : Regex) (content : List Char) (groups : Nat) (fuel : Nat)
    (last : Option Nat) (s : Regex.Spot) :
    Spread s.offset s.rest
      ((r.findFrom fuel last s).map fun (start, stop) => ofSpan content groups start stop) := by
  induction fuel generalizing last s with
  | zero => exact .nil
  | succ fuel ih =>
    unfold Regex.findFrom
    split
    · exact .nil
    · rename_i start stop next
      obtain ⟨⟨gap, restS, toStart⟩, ⟨body, restM, toStop⟩⟩ := Regex.nextMatch_reaches next
      have others := ih (some stop.offset) { stop with groups := [] }
      refine .cons gap body stop.rest ?_ toStart toStop others
      rw [restS, restM]

theorem find_spread (matcher : Matcher) (content : String) :
    Spread 0 content.toList (matcher.find content) := by
  cases matcher with
  | literal needle =>
    by_cases blank : needle = ""
    · rw [blank, find_empty]
      exact .nil
    · have nonempty : needle.toList ≠ [] := mt String.toList_eq_nil_iff.mp blank
      rw [find_literal blank]
      exact (literalStarts_scan nonempty 0 content.toList).spread
  | regex source r groups =>
    exact findFrom_spread r content.toList groups (content.toList.length + 2) none
      (Regex.Spot.ofText content.toList)

end Matcher

end Uplift
