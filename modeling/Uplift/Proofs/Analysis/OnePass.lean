import Uplift.Analysis.Rewrite
import Uplift.Proofs.Pattern.Placement

/-!
# One pass and one match at a time

`Pattern.applyAll` replaces all matches of a pattern in one pass. `rewriteMatches` puts
them in one at a time and keeps track of how far the rest of the text has moved. Both come
to the same text, and no match is passed over. However the matches were found, all that counts
is that they lie in the text one after the other and show what they have found
(`Match.Sound`, `rewritesBy_one_pass`).
-/

namespace Uplift

open Text (byteSize byteSize_append)
open Match (Spread)

/-! ### Cutting -/

theorem Text.byteSize_toList (s : String) : byteSize s.toList = s.utf8ByteSize := by
  have sized (cs : List Char) : (String.ofList cs).utf8ByteSize = byteSize cs := by
    induction cs with
    | nil => rfl
    | cons c cs ih =>
      rw [← List.singleton_append, String.ofList_append, String.utf8ByteSize_append, ih,
        byteSize_append]
      have one : (String.ofList [c]).utf8ByteSize = c.utf8Size := String.utf8ByteSize_singleton
      rw [one]
      rfl
  rw [← sized, String.ofList_toList]

theorem Text.slice?_between (head body tail : List Char) :
    Text.slice? (byteSize head) (byteSize head + byteSize body) (head ++ (body ++ tail)) =
      some body := by
  unfold Text.slice?
  rw [Text.cut?_byteSize]
  dsimp only
  rw [if_pos (Nat.le_add_right ..), Nat.add_sub_cancel_left, Text.cut?_byteSize]
  rfl

theorem Pattern.splice?_between (head body tail : List Char) (replacement : String) :
    Pattern.splice? (String.ofList (head ++ (body ++ tail))) (byteSize head)
        (byteSize head + byteSize body) replacement =
      some (String.ofList (head ++ replacement.toList ++ tail)) := by
  unfold Pattern.splice?
  have second : Text.cut? (byteSize head + byteSize body) (head ++ (body ++ tail)) =
      some (head ++ body, tail) := by
    rw [← byteSize_append, ← List.append_assoc, Text.cut?_byteSize]
  rw [String.toList_ofList, Text.cut?_byteSize, second]
  simp only [String.ofList_append, String.ofList_toList]

/-! ### One pass -/

theorem Pattern.replaceFrom_nil (p : Pattern) (past text : List Char) :
    p.replaceFrom (past ++ text) (byteSize past) [] = text := by
  rw [Pattern.replaceFrom, Text.cut?_byteSize]
  rfl

theorem Pattern.replaceFrom_cons (p : Pattern) (past gap tail : List Char) (m : Match)
    (ms : List Match) (starts : m.start = byteSize past + byteSize gap) :
    p.replaceFrom (past ++ (gap ++ tail)) (byteSize past) (m :: ms) =
      gap ++ (p.transform.apply m).toList ++
        p.replaceFrom (past ++ (gap ++ tail)) m.stop ms := by
  rw [Pattern.replaceFrom, starts, Text.slice?_between]
  rfl

theorem Pattern.replaceAll_text (p : Pattern) (content : String) (found : List Match) :
    (p.replaceAll content found).1 = String.ofList (p.replaceFrom content.toList 0 found) := by
  unfold Pattern.replaceAll
  by_cases none : found.isEmpty
  · have same : p.replaceFrom content.toList 0 [] = content.toList := p.replaceFrom_nil [] _
    rw [List.isEmpty_iff.mp none, same, String.ofList_toList]
    rfl
  · rw [if_neg none]

theorem Pattern.applyAll_text (p : Pattern) (content : String) :
    (p.applyAll content).1 =
      String.ofList (p.replaceFrom content.toList 0 (p.matcher.find content)) :=
  p.replaceAll_text content _

namespace Analysis

/-! ### One match at a time -/

/-- `done` is what has become of `past`, and the drift tells how their sizes differ. -/
def Drift.Fits (d : Drift) (past done : List Char) : Prop :=
  byteSize past + d.grown = byteSize done + d.shrunk

theorem Drift.Fits.move? {d : Drift} {past done : List Char} (fits : d.Fits past done)
    (gap : List Char) :
    d.move? (byteSize past + byteSize gap) = some (byteSize (done ++ gap)) := by
  unfold Drift.Fits at fits
  unfold Drift.move?
  rw [if_pos (by omega), byteSize_append]
  congr 1
  omega

theorem Drift.Fits.add {d : Drift} {past done : List Char} (fits : d.Fits past done)
    (gap body replacement : List Char) :
    (d.add (byteSize body) (byteSize replacement)).Fits (past ++ (gap ++ body))
      (done ++ gap ++ replacement) := by
  unfold Drift.Fits at fits ⊢
  simp only [byteSize_append]
  unfold Drift.add
  split
  · dsimp only
    omega
  · dsimp only
    omega

def Rewrite.entry (r : Rewrite) : Pattern × String × String :=
  (r.pattern, r.matched, r.replacement)

theorem rewriteMatches_cons {p : Pattern} {drift : Drift} {past done gap body tail : List Char}
    {m : Match} (fits : drift.Fits past done) (starts : m.start = byteSize past + byteSize gap)
    (stops : m.stop = m.start + byteSize body) (ms : List Match) :
    let replacement := p.transform.apply m
    let before := String.ofList (done ++ (gap ++ (body ++ tail)))
    let after := String.ofList (done ++ gap ++ replacement.toList ++ tail)
    let rest := rewriteMatches p (drift.add (byteSize body) (byteSize replacement.toList)) after ms
    rewriteMatches p drift before (m :: ms) =
      (⟨p, m.text, replacement, before, after⟩ :: rest.1, rest.2) := by
  intro replacement before after rest
  have size : m.stop - m.start = byteSize body := by omega
  have placed : Pattern.splice? before (byteSize (done ++ gap))
      (byteSize (done ++ gap) + byteSize body) replacement = some after := by
    have parts : before = String.ofList (done ++ gap ++ (body ++ tail)) := by
      rw [List.append_assoc]
    rw [parts]
    exact Pattern.splice?_between ..
  rw [rewriteMatches, size, starts, fits.move? gap]
  simp only [Option.bind_some]
  rw [placed, ← Text.byteSize_toList]

theorem rewriteMatches_spread {p : Pattern} {n : Nat} {text : List Char} {ms : List Match}
    (spread : Spread n text ms) {drift : Drift} {past done : List Char}
    (cursor : n = byteSize past) (fits : drift.Fits past done) :
    let result := rewriteMatches p drift (String.ofList (done ++ text)) ms
    result.2 = String.ofList (done ++ p.replaceFrom (past ++ text) n ms) ∧
    result.1.map Rewrite.entry = ms.map fun m => (p, m.text, p.transform.apply m) := by
  induction spread generalizing drift past done with
  | nil =>
    rw [cursor, Pattern.replaceFrom_nil]
    exact ⟨rfl, rfl⟩
  | cons gap body rest parts starts stops others ih =>
    rename_i n text m ms
    subst cursor parts
    have stopsAt : m.stop = byteSize (past ++ (gap ++ body)) := by
      rw [stops, starts, byteSize_append, byteSize_append, Nat.add_assoc]
    have moved := fits.add gap body (p.transform.apply m).toList
    obtain ⟨last, entries⟩ := ih stopsAt moved
    have whole : past ++ (gap ++ (body ++ rest)) = past ++ (gap ++ body) ++ rest := by
      simp only [List.append_assoc]
    intro result
    have unfolded : result = _ := rewriteMatches_cons fits starts stops ms
    rw [unfolded]
    constructor
    · rw [Pattern.replaceFrom_cons p past gap (body ++ rest) m ms starts, whole]
      refine last.trans ?_
      simp only [List.append_assoc]
    · rw [List.map_cons, List.map_cons, entries]
      rfl

theorem rewriteMatches_found (p : Pattern) {content : String} {found : List Match}
    (spread : Spread 0 content.toList found) :
    let result := rewriteMatches p {} content found
    result.2 = (p.replaceAll content found).1 ∧
    result.1.map Rewrite.entry = found.map fun m => (p, m.text, p.transform.apply m) := by
  have fits : Drift.Fits {} [] [] := rfl
  have outcome := rewriteMatches_spread (p := p) spread rfl fits
  rw [Pattern.replaceAll_text]
  simpa only [List.nil_append, String.ofList_toList] using outcome

/-! ### One pattern after the other -/

def lastText (current : String) (rewrites : List Rewrite) : String :=
  (rewrites.getLast?.map (·.after)).getD current

theorem lastText_cons (current : String) (r : Rewrite) (rewrites : List Rewrite) :
    lastText current (r :: rewrites) = lastText r.after rewrites := by
  unfold lastText
  rw [List.getLast?_cons]
  cases rewrites.getLast? <;> rfl

theorem lastText_append (current : String) (first second : List Rewrite) :
    lastText current (first ++ second) = lastText (lastText current first) second := by
  induction first generalizing current with
  | nil => rfl
  | cons r first ih => rw [List.cons_append, lastText_cons, lastText_cons, ih]

theorem lastText_rewriteMatches (p : Pattern) (drift : Drift) (current : String)
    (ms : List Match) :
    lastText current (rewriteMatches p drift current ms).1 =
      (rewriteMatches p drift current ms).2 := by
  induction ms generalizing drift current with
  | nil => rfl
  | cons m ms ih =>
    unfold rewriteMatches
    dsimp only
    split
    · exact ih drift current
    · rw [lastText_cons]
      exact ih _ _

/-- The matches of each pattern in the text that the patterns before it leave. -/
def matchesInTurn (patterns : List Pattern) (text : String)
    (find : Pattern → String → List Match := Pattern.find) : List (Pattern × Match) :=
  match patterns with
  | [] => []
  | p :: ps =>
    let found := find p text
    found.map (p, ·) ++ matchesInTurn ps (p.replaceAll text found).1 find

section Found

/- The patterns may find their matches in any way that leaves them in order and apart. -/
variable {find : Pattern → String → List Match}
  (spread : ∀ p text, Spread 0 text.toList (find p text))

include spread

theorem rewritesBy_cons (p : Pattern) (ps : List Pattern) (current : String) :
    rewritesBy find (p :: ps) current =
      (rewriteMatches p {} current (find p current)).1 ++
        rewritesBy find ps (p.replaceAll current (find p current)).1 := by
  rw [← (rewriteMatches_found p (spread p current)).1]
  rfl

/-- Rewriting match by match ends in the text that one pass for each pattern gives, with one
rewrite for every match that a pattern finds in its turn. -/
theorem rewritesBy_one_pass (ps : List Pattern) (current : String) :
    lastText current (rewritesBy find ps current) =
      ps.foldl (fun text p => (p.replaceAll text (find p text)).1) current ∧
    (rewritesBy find ps current).map Rewrite.entry =
      (matchesInTurn ps current find).map fun (p, m) => (p, m.text, p.transform.apply m) := by
  induction ps generalizing current with
  | nil => exact ⟨rfl, rfl⟩
  | cons p ps ih =>
    obtain ⟨left, entries⟩ := rewriteMatches_found p (spread p current)
    obtain ⟨lastIh, entriesIh⟩ := ih (p.replaceAll current (find p current)).1
    rw [rewritesBy_cons spread]
    constructor
    · rw [lastText_append, lastText_rewriteMatches, left, lastIh, List.foldl_cons]
    · rw [List.map_append, entries, entriesIh, matchesInTurn, List.map_append, List.map_map]
      rfl

end Found

theorem rewritesOf_in_turn (ps : List Pattern) (current : String) :
    lastText current (rewritesOf ps current) =
      ps.foldl (fun text p => (p.applyAll text).1) current ∧
    (rewritesOf ps current).map Rewrite.entry =
      (matchesInTurn ps current).map fun (p, m) => (p, m.text, p.transform.apply m) :=
  rewritesBy_one_pass (fun p => p.matcher.find_spread) ps current

/-- Analysing a text match by match ends in the text that one pass for each pattern gives, with
one rewrite for every match that a pattern finds in its turn. -/
theorem ofContent_one_pass (path : Path) (content : String) (patterns : List Pattern) :
    (ofContent path content patterns).final =
      patterns.foldl (fun text p => (p.applyAll text).1) content ∧
    (ofContent path content patterns).rewrites.map Rewrite.entry =
      (matchesInTurn patterns content).map fun (p, m) => (p, m.text, p.transform.apply m) :=
  rewritesOf_in_turn patterns content

end Analysis

end Uplift
