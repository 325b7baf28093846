import Mathlib.Data.List.TakeDrop
import Uplift.Proofs.Text.Splitting
import Uplift.Run.Diff

/-!
# Hunks tell what changed

Without the lines that they share at their start and then at their end, two lists of lines are left
with blocks that begin and end differently. To put one block for the other at the place that the
hunk names leads from the old lines to the new ones (`between?_leads`). In the printed hunk the
rows behind the header show the two blocks by their signs (`rows_render`).
-/

namespace Uplift

namespace Hunk

open Text (linesOf rows ofLines)

/-! ### Shared lines -/

theorem commonLength_spec (as bs : List String) :
    ∃ front as' bs', as = front ++ as' ∧ bs = front ++ bs' ∧ commonLength as bs = front.length ∧
      ∀ a, as'.head? = some a → bs'.head? ≠ some a := by
  fun_induction commonLength as bs with
  | case1 as a bs ih =>
    obtain ⟨front, as', bs', rfl, rfl, shared, differ⟩ := ih
    exact ⟨a :: front, as', bs', rfl, rfl, congrArg (· + 1) shared, differ⟩
  | case2 a as b bs other =>
    refine ⟨[], a :: as, b :: bs, rfl, rfl, rfl, fun x first second => other ?_⟩
    exact (Option.some.inj first).trans (Option.some.inj second).symm
  | case3 as bs none =>
    refine ⟨[], as, bs, rfl, rfl, rfl, fun x first second => ?_⟩
    obtain ⟨as, rfl⟩ := List.head?_eq_some_iff.mp first
    obtain ⟨bs, rfl⟩ := List.head?_eq_some_iff.mp second
    exact none x as x bs rfl rfl

theorem commonLength_reverse_spec (as bs : List String) :
    ∃ as' bs' back, as = as' ++ back ∧ bs = bs' ++ back ∧
      commonLength as.reverse bs.reverse = back.length ∧
      ∀ a, as'.getLast? = some a → bs'.getLast? ≠ some a := by
  obtain ⟨front, as', bs', partsA, partsB, shared, differ⟩ :=
    commonLength_spec as.reverse bs.reverse
  refine ⟨as'.reverse, bs'.reverse, front.reverse, ?_, ?_, ?_, ?_⟩
  · rw [← List.reverse_append, ← partsA, List.reverse_reverse]
  · rw [← List.reverse_append, ← partsB, List.reverse_reverse]
  · rw [shared, List.length_reverse]
  · simpa only [List.getLast?_reverse] using differ

/-- Behind so many lines the old ones hold `removed`. With `added` in their place they are the new
ones, and if they were not the same before, neither block has a line too many at its ends. -/
structure Leads (skipped : Nat) (removed added old new : List String) : Prop where
  found : (old.drop skipped).take removed.length = removed
  result : old.take skipped ++ added ++ old.drop (skipped + removed.length) = new
  firstDiffers : old ≠ new → ∀ line, removed.head? = some line → added.head? ≠ some line
  lastDiffers : old ≠ new → ∀ line, removed.getLast? = some line → added.getLast? ≠ some line

theorem leads_of_parts (front back : List String) {removed added : List String}
    (firstDiffers : ∀ line, removed.head? = some line → added.head? ≠ some line)
    (lastDiffers : ∀ line, removed.getLast? = some line → added.getLast? ≠ some line) :
    Leads front.length removed added (front ++ (removed ++ back)) (front ++ (added ++ back)) := by
  constructor
  · rw [List.drop_left, List.take_left]
  · rw [List.take_left, ← List.drop_drop, List.drop_left, List.drop_left, List.append_assoc]
  · exact fun _ => firstDiffers
  · exact fun _ => lastDiffers

theorem leads_of_last (front : List String) (last : String) :
    Leads front.length [last] [last] (front ++ [last]) (front ++ [last]) := by
  constructor
  · rw [List.drop_left]
    rfl
  · have none : (front ++ [last]).drop (front.length + [last].length) = [] := by simp
    rw [none, List.take_left, List.append_nil]
  · exact fun other => absurd rfl other
  · exact fun other => absurd rfl other

theorem Leads.mem_removed {skipped : Nat} {removed added old new : List String}
    (leads : Leads skipped removed added old new) {line : String} (member : line ∈ removed) :
    line ∈ old := by
  rw [← leads.found] at member
  exact List.mem_of_mem_drop (List.mem_of_mem_take member)

theorem Leads.mem_added {skipped : Nat} {removed added old new : List String}
    (leads : Leads skipped removed added old new) {line : String} (member : line ∈ added) :
    line ∈ new := by
  rw [← leads.result]
  exact List.mem_append_left _ (List.mem_append_right _ member)

theorem linesOf_eq_nil_iff {text : String} : linesOf text = [] ↔ text = "" := by
  rw [linesOf, List.map_eq_nil_iff, Text.lines_eq_nil_iff, String.toList_eq_nil_iff]

theorem between?_self (text : String) : between? text text = none := by
  simp [between?]

theorem between?_leads {before after : String} (differ : before ≠ after) :
    ∃ h, between? before after = some h ∧
      Leads h.skipped h.removed h.added (linesOf before) (linesOf after) := by
  obtain ⟨front, old', new', old, new, shared, firstDiffers⟩ :=
    commonLength_spec (linesOf before) (linesOf after)
  obtain ⟨removed, added, back, rfl, rfl, suffix, lastDiffers⟩ :=
    commonLength_reverse_spec old' new'
  have restOld : (linesOf before).drop front.length = removed ++ back := by rw [old, List.drop_left]
  have restNew : (linesOf after).drop front.length = added ++ back := by rw [new, List.drop_left]
  have lengthOld : (linesOf before).length = front.length + (removed.length + back.length) := by
    rw [old, List.length_append, List.length_append]
  have lengthNew : (linesOf after).length = front.length + (added.length + back.length) := by
    rw [new, List.length_append, List.length_append]
  unfold between?
  simp only [shared, restOld, restNew, suffix]
  by_cases same : front.length + back.length = (linesOf before).length ∧
      front.length + back.length = (linesOf after).length
  · -- Nothing is left between what is shared: the lines are the same, and none of them differs.
    obtain rfl : removed = [] := List.length_eq_zero_iff.mp (by omega)
    obtain rfl : added = [] := List.length_eq_zero_iff.mp (by omega)
    obtain rfl : back = [] := by
      refine List.eq_nil_iff_forall_not_mem.mpr fun line member => ?_
      obtain ⟨first, others, rfl⟩ := List.exists_cons_of_ne_nil (List.ne_nil_of_mem member)
      exact firstDiffers first rfl rfl
    simp only [List.append_nil] at old new
    have given : linesOf before ≠ [] := by
      intro none
      have noneAfter : linesOf after = [] := by rw [new, ← old, none]
      rw [linesOf_eq_nil_iff] at none noneAfter
      exact differ (none.trans noneAfter.symm)
    have nonempty : front ≠ [] := fun none => given (old.trans none)
    rw [if_neg (by simp [differ, given]), if_pos same]
    refine ⟨_, rfl, ?_⟩
    have last := leads_of_last front.dropLast (front.getLast nonempty)
    rw [List.dropLast_concat_getLast nonempty] at last
    have shown : (front.drop (front.length - 1)).take (front.length - (front.length - 1)) =
        [front.getLast nonempty] := by
      rw [List.drop_length_sub_one nonempty, List.take_of_length_le]
      have := List.length_pos_iff.mpr nonempty
      rw [List.length_singleton]
      omega
    rw [old, new]
    simpa [shown] using last
  · rw [if_neg (by simp [differ, same]), if_neg same]
    refine ⟨_, rfl, ?_⟩
    have sizeOld : (linesOf before).length - back.length - front.length = removed.length := by omega
    have sizeNew : (linesOf after).length - back.length - front.length = added.length := by omega
    simp only [restOld, restNew, sizeOld, sizeNew, List.take_left]
    rw [old, new]
    refine leads_of_parts front back (fun line first second => ?_) lastDiffers
    obtain ⟨removed, rfl⟩ := List.head?_eq_some_iff.mp first
    obtain ⟨added, rfl⟩ := List.head?_eq_some_iff.mp second
    exact firstDiffers line rfl rfl

/-! ### The printed hunk -/

def signed (sign : Char) (rows : List String) : List String :=
  rows.filterMap fun row =>
    match row.toList with
    | c :: line => if c = sign then some (String.ofList line) else none
    | [] => none

theorem signed_append (sign : Char) (front back : List String) :
    signed sign (front ++ back) = signed sign front ++ signed sign back := List.filterMap_append

theorem signed_self (sign : Char) (lines : List String) :
    signed sign (lines.map (String.singleton sign ++ ·)) = lines := by
  unfold signed
  rw [List.filterMap_map]
  refine .trans (congrArg (List.filterMap · lines) (funext fun line => ?_)) List.filterMap_some
  simp

theorem signed_other {sign other : Char} (differ : other ≠ sign) (lines : List String) :
    signed sign (lines.map (String.singleton other ++ ·)) = [] := by
  unfold signed
  rw [List.filterMap_map, List.filterMap_eq_nil_iff]
  intro line _
  simp [differ]

/-- The row below a block that the text ends in, if there is no newline behind it. -/
def endRows (lacksNewline : Bool) : List String :=
  if lacksNewline then ["\\ No newline at end of file"] else []

theorem signed_endRows {sign : Char} (other : '\\' ≠ sign) (lacksNewline : Bool) :
    signed sign (endRows lacksNewline) = [] := by
  cases lacksNewline <;> simp [endRows, signed, other]

theorem rows_block (sign : Char) (newline : sign ≠ '\n') {lines : List String}
    (free : ∀ line ∈ lines, '\n' ∉ line.toList) (lacksNewline : Bool) (rest : String) :
    rows (block (String.singleton sign) lines lacksNewline ++ rest) =
      lines.map (String.singleton sign ++ ·) ++ (endRows lacksNewline ++ rows rest) := by
  have printed : block (String.singleton sign) lines lacksNewline =
      ofLines (lines.map (String.singleton sign ++ ·)) ++ ofLines (endRows lacksNewline) := by
    rw [block, ofLines, List.map_map]
    cases lacksNewline <;> rfl
  have signedFree : ∀ row ∈ lines.map (String.singleton sign ++ ·), '\n' ∉ row.toList := by
    intro row member
    obtain ⟨line, among, rfl⟩ := List.mem_map.mp member
    simp [newline.symm, free line among]
  have endFree : ∀ row ∈ endRows lacksNewline, '\n' ∉ row.toList := by
    cases lacksNewline <;> decide
  rw [printed, String.append_assoc, Text.rows_ofLines signedFree, Text.rows_ofLines endFree]

def rangeRow (first removed added : Nat) : String :=
  s!"@@ -{first},{removed} +{first},{added} @@"

theorem newline_notMem_rangeRow (first removed added : Nat) :
    '\n' ∉ (rangeRow first removed added).toList := by
  have digits : ∀ n, '\n' ∉ Nat.toDigits 10 n := Text.notMem_digits (by decide)
  simp [rangeRow, toString, digits]

theorem rows_header {path : String} (oneLine : '\n' ∉ path.toList) (h : Hunk) (rest : String) :
    rows (h.header path ++ rest) = ["--- a/" ++ path, "+++ b/" ++ path,
      rangeRow (h.skipped + 1) h.removed.length h.added.length] ++ rows rest := by
  have printed : h.header path = ofLines ["--- a/" ++ path, "+++ b/" ++ path,
      rangeRow (h.skipped + 1) h.removed.length h.added.length] := by
    rw [← String.toList_inj]
    simp [header, ofLines, rangeRow, toString]
  have free : ∀ row ∈ ["--- a/" ++ path, "+++ b/" ++ path,
      rangeRow (h.skipped + 1) h.removed.length h.added.length], '\n' ∉ row.toList := by
    simp [oneLine, newline_notMem_rangeRow]
  rw [printed, Text.rows_ofLines free]

def bodyRows (removed added : List String) (oldEnds newEnds : Bool) : List String :=
  removed.map ("-" ++ ·) ++ (endRows oldEnds ++ (added.map ("+" ++ ·) ++ (endRows newEnds ++ [""])))

theorem signed_minus_bodyRows (removed added : List String) (oldEnds newEnds : Bool) :
    signed '-' (bodyRows removed added oldEnds newEnds) = removed := by
  have minus : signed '-' (removed.map ("-" ++ ·)) = removed := signed_self '-' removed
  have plus : signed '-' (added.map ("+" ++ ·)) = [] :=
    signed_other (by decide : '+' ≠ '-') added
  have blank : signed '-' [""] = [] := rfl
  simp only [bodyRows, signed_append, minus, plus, blank, signed_endRows (by decide : '\\' ≠ '-'),
    List.append_nil]

theorem signed_plus_bodyRows (removed added : List String) (oldEnds newEnds : Bool) :
    signed '+' (bodyRows removed added oldEnds newEnds) = added := by
  have minus : signed '+' (removed.map ("-" ++ ·)) = [] :=
    signed_other (by decide : '-' ≠ '+') removed
  have plus : signed '+' (added.map ("+" ++ ·)) = added := signed_self '+' added
  have blank : signed '+' [""] = [] := rfl
  simp only [bodyRows, signed_append, minus, plus, blank, signed_endRows (by decide : '\\' ≠ '+'),
    List.append_nil, List.nil_append]

theorem rows_render {path : String} (oneLine : '\n' ∉ path.toList) {h : Hunk}
    (freeRemoved : ∀ line ∈ h.removed, '\n' ∉ line.toList)
    (freeAdded : ∀ line ∈ h.added, '\n' ∉ line.toList) :
    rows (h.render path) = ["--- a/" ++ path, "+++ b/" ++ path,
      rangeRow (h.skipped + 1) h.removed.length h.added.length] ++
        bodyRows h.removed h.added h.oldLacksNewline h.newLacksNewline := by
  have minus := rows_block '-' (by decide) freeRemoved h.oldLacksNewline
    (block "+" h.added h.newLacksNewline)
  have plus := rows_block '+' (by decide) freeAdded h.newLacksNewline ""
  have blank : rows "" = [""] := rfl
  rw [String.append_empty, blank] at plus
  have body : rows (block "-" h.removed h.oldLacksNewline ++ block "+" h.added h.newLacksNewline) =
      bodyRows h.removed h.added h.oldLacksNewline h.newLacksNewline :=
    minus.trans (congrArg _ (congrArg _ plus))
  have printed : h.render path = h.header path ++ (block "-" h.removed h.oldLacksNewline ++
      block "+" h.added h.newLacksNewline) := String.append_assoc ..
  rw [printed, rows_header oneLine, body]

end Hunk

open Hunk (Leads signed rangeRow bodyRows)
open Text (linesOf rows)

/-- Two texts of a file have no difference to show exactly if they are the same. What is shown
otherwise can be read row by row: three rows of header, then those with a minus sign and those with
a plus sign. The header counts both and says behind how many lines of the old text they belong.
The first ones are the lines there, with the second ones in their place it has the lines of the
new text, and where lines differ no line at an end of both blocks is shown in vain. -/
theorem diffText_faithful (path before after : String) (oneLine : '\n' ∉ path.toList) :
    (diffText path before after = "" ↔ before = after) ∧
    (before ≠ after →
      let shown := rows (diffText path before after)
      let removed := signed '-' (shown.drop 3)
      let added := signed '+' (shown.drop 3)
      ∃ (skipped : Nat) (oldEnds newEnds : Bool),
        shown.take 3 = ["--- a/" ++ path, "+++ b/" ++ path,
          rangeRow (skipped + 1) removed.length added.length] ∧
        shown.drop 3 = bodyRows removed added oldEnds newEnds ∧
        Leads skipped removed added (linesOf before) (linesOf after)) := by
  by_cases same : before = after
  · subst same
    have none : diffText path before before = "" := by rw [diffText, Hunk.between?_self]
    exact ⟨iff_of_true none rfl, fun differ => absurd rfl differ⟩
  · obtain ⟨h, found, leads⟩ := Hunk.between?_leads same
    have render : diffText path before after = h.render path := by rw [diffText, found]
    have shown := Hunk.rows_render oneLine (h := h)
      (fun line member => Text.newline_notMem_linesOf (leads.mem_removed member))
      (fun line member => Text.newline_notMem_linesOf (leads.mem_added member))
    have body : (rows (h.render path)).drop 3 =
        bodyRows h.removed h.added h.oldLacksNewline h.newLacksNewline := by
      rw [shown]
      rfl
    have notEmpty : h.render path ≠ "" := by
      intro none
      rw [none] at shown
      cases shown
    rw [render]
    refine ⟨iff_of_false notEmpty same, fun _ => ?_⟩
    dsimp only
    rw [body, Hunk.signed_minus_bodyRows, Hunk.signed_plus_bodyRows, shown]
    exact ⟨h.skipped, h.oldLacksNewline, h.newLacksNewline, rfl, rfl, leads⟩

/-- A row that is there twice is taken out once, and the line at the end shows on both sides if it
loses its newline alone. -/
theorem repeatedLine_shown :
    '\n' ∉ "a.js".toList ∧
      (∃ skipped, (rows (diffText "a.js" "x\nx\ny\n" "x\ny\n")).take 3 =
          ["--- a/a.js", "+++ b/a.js", rangeRow (skipped + 1) 1 0] ∧
        Leads skipped ["x"] [] ["x", "x", "y"] ["x", "y"]) ∧
      ∃ skipped, (rows (diffText "a.js" "x\ny\n" "x\ny")).take 3 =
          ["--- a/a.js", "+++ b/a.js", rangeRow (skipped + 1) 1 1] ∧
        Leads skipped ["y"] ["y"] ["x", "y"] ["x", "y"] := by
  have oneLine : '\n' ∉ "a.js".toList := by decide
  obtain ⟨-, fewer⟩ := diffText_faithful "a.js" "x\nx\ny\n" "x\ny\n" oneLine
  obtain ⟨-, ending⟩ := diffText_faithful "a.js" "x\ny\n" "x\ny" oneLine
  obtain ⟨skipped, -, -, header, -, leads⟩ := fewer (by decide)
  obtain ⟨skipped', -, -, header', -, leads'⟩ := ending (by decide)
  exact ⟨oneLine, ⟨skipped, header, leads⟩, skipped', header', leads'⟩

end Uplift
