import Uplift.Proofs.Analysis.OnePass

/-!
# A text in pieces

The matches of a pattern take a text apart: each has some text in front of it that belongs
to no match, and the rest of the text stands behind the last one. Replacing all matches in
one pass fills the places of the matches and keeps what stands between them; replacing them
one by one from the last to the first does the same, be it for the matches of a pattern
(`applyAll_match_by_match`) or any others that are sound (`replaceAll_match_by_match`).
-/

namespace Uplift

open Text (byteSize byteSize_append byteSize_toList)
open Match (Spread)

structure Piece where
  gap : String
  found : Match

namespace Piece

/-- The pieces follow one another from byte `n` on, and every match is as long as its text. -/
def Placed : Nat → List Piece → Prop
  | _, [] => True
  | n, c :: rest =>
    c.found.start = n + c.gap.utf8ByteSize ∧
      c.found.stop = c.found.start + c.found.text.utf8ByteSize ∧ Placed c.found.stop rest

theorem Placed.start_eq {n : Nat} {c : Piece} {rest : List Piece} (placed : Placed n (c :: rest))
    {past : String} (cursor : n = past.utf8ByteSize) :
    c.found.start = (past ++ c.gap).utf8ByteSize := by
  obtain ⟨starts, -⟩ := placed
  rw [starts, cursor, String.utf8ByteSize_append]

theorem Placed.stop_eq {n : Nat} {c : Piece} {rest : List Piece} (placed : Placed n (c :: rest))
    {past : String} (cursor : n = past.utf8ByteSize) :
    c.found.stop = (past ++ c.gap ++ c.found.text).utf8ByteSize := by
  have starts := placed.start_eq cursor
  obtain ⟨-, stops, -⟩ := placed
  rw [stops, starts, ← String.utf8ByteSize_append]

def filled (value : Match → String) : List Piece → String
  | [] => ""
  | c :: rest => c.gap ++ value c.found ++ filled value rest

theorem filled_congr {value value' : Match → String} {pieces : List Piece}
    (agree : ∀ m ∈ pieces.map Piece.found, value m = value' m) :
    filled value pieces = filled value' pieces := by
  induction pieces with
  | nil => rfl
  | cons c rest ih =>
    obtain ⟨first, others⟩ := List.forall_mem_cons.mp agree
    rw [filled, filled, first, ih others]

end Piece

open Piece (Placed filled)

/-! ### The text of a match -/

def Match.Holds (m : Match) (content : List Char) : Prop :=
  m.group? 0 = (Text.slice? m.start m.stop content).map String.ofList

theorem Match.Holds.text {m : Match} {past gap body rest : List Char}
    (holds : m.Holds (past ++ (gap ++ (body ++ rest))))
    (starts : m.start = byteSize past + byteSize gap)
    (stops : m.stop = m.start + byteSize body) : m.text = String.ofList body := by
  have whole : past ++ (gap ++ (body ++ rest)) = past ++ gap ++ (body ++ rest) :=
    (List.append_assoc ..).symm
  unfold Holds at holds
  rw [stops, starts, ← byteSize_append, whole, Text.slice?_between, Option.map_some] at holds
  rw [Match.text, Match.groupText, holds, Option.getD_some]

namespace Matcher

theorem Scan.holds {needle : String} {n : Nat} {cs : List Char} {starts : List Nat}
    (scan : Scan needle.toList n cs starts) (past : List Char) (cursor : n = byteSize past) :
    ∀ start ∈ starts, (ofStart needle start).Holds (past ++ cs) := by
  induction scan generalizing past with
  | done => nofun
  | here others ih =>
    rename_i n rest starts
    subst cursor
    refine List.forall_mem_cons.mpr ⟨?_, fun start further => ?_⟩
    · unfold Match.Holds ofStart
      rw [Text.slice?_between, Option.map_some, String.ofList_toList]
      rfl
    · have held := ih _ (byteSize_append past needle.toList).symm start further
      rwa [List.append_assoc] at held
  | later absent others ih =>
    rename_i n c rest starts
    subst cursor
    have moved : byteSize past + c.utf8Size = byteSize (past ++ [c]) := by
      rw [byteSize_append]
      rfl
    intro start found
    have held := ih _ moved start found
    rwa [List.append_assoc] at held

theorem find_holds (matcher : Matcher) (content : String) :
    ∀ m ∈ matcher.find content, m.Holds content.toList := by
  intro m found
  cases matcher with
  | literal needle =>
    by_cases blank : needle = ""
    · rw [blank, find_empty] at found
      cases found
    · have nonempty : needle.toList ≠ [] := mt String.toList_eq_nil_iff.mp blank
      rw [find_literal blank] at found
      obtain ⟨start, listed, rfl⟩ := List.mem_map.mp found
      exact (literalStarts_scan nonempty 0 content.toList).holds [] rfl start listed
  | regex source r groups =>
    obtain ⟨span, -, rfl⟩ := List.mem_map.mp found
    rfl

end Matcher

/-! ### Pieces of a text -/

theorem Match.Spread.pieces {n : Nat} {text : List Char} {ms : List Match}
    (spread : Spread n text ms) (past : List Char) (cursor : n = byteSize past)
    (holds : ∀ m ∈ ms, m.Holds (past ++ text)) :
    ∃ (pieces : List Piece) (last : String), pieces.map Piece.found = ms ∧ Placed n pieces ∧
      String.ofList text = filled Match.text pieces ++ last := by
  induction spread generalizing past with
  | nil =>
    rename_i n text
    exact ⟨[], String.ofList text, rfl, trivial, (String.empty_append).symm⟩
  | cons gap body rest parts starts stops others ih =>
    rename_i n text m ms
    subst cursor parts
    obtain ⟨first, later⟩ := List.forall_mem_cons.mp holds
    have taken : m.text = String.ofList body := first.text starts stops
    have stopsAt : m.stop = byteSize (past ++ (gap ++ body)) := by
      rw [stops, starts, byteSize_append, byteSize_append, Nat.add_assoc]
    have whole : past ++ (gap ++ (body ++ rest)) = past ++ (gap ++ body) ++ rest := by
      simp only [List.append_assoc]
    obtain ⟨pieces, last, founds, placed, rebuilt⟩ := ih _ stopsAt (whole ▸ later)
    refine ⟨⟨String.ofList gap, m⟩ :: pieces, last, ?_, ⟨?_, ?_, placed⟩, ?_⟩
    · rw [List.map_cons, founds]
    · rw [starts, ← byteSize_toList, String.toList_ofList]
    · rw [stops, taken, ← byteSize_toList, String.toList_ofList]
    · simp only [filled, taken, String.ofList_append, rebuilt, String.append_assoc]

/-- Matches that lie in a text, in order and apart, and show what they have found there. -/
structure Match.Sound (content : String) (found : List Match) : Prop where
  spread : Spread 0 content.toList found
  holds : ∀ m ∈ found, m.Holds content.toList

theorem Matcher.find_sound (matcher : Matcher) (content : String) :
    Match.Sound content (matcher.find content) :=
  ⟨matcher.find_spread content, matcher.find_holds content⟩

theorem Match.Sound.exists_pieces {content : String} {found : List Match}
    (sound : Sound content found) :
    ∃ (pieces : List Piece) (last : String), pieces.map Piece.found = found ∧ Placed 0 pieces ∧
      content = filled Match.text pieces ++ last := by
  have cut := sound.spread.pieces [] rfl sound.holds
  rwa [String.ofList_toList] at cut

/-! ### Filling the places of the matches -/

namespace Pattern

theorem splice?_parts (head body tail replacement : String) :
    splice? (head ++ body ++ tail) head.utf8ByteSize (head.utf8ByteSize + body.utf8ByteSize)
        replacement = some (head ++ replacement ++ tail) := by
  have placed := splice?_between head.toList body.toList tail.toList replacement
  simpa only [byteSize_toList, String.ofList_append, String.ofList_toList, String.append_assoc]
    using placed

theorem replaceFrom_placed (p : Pattern) {n : Nat} {pieces : List Piece} (placed : Placed n pieces)
    (past last : String) (cursor : n = past.utf8ByteSize) :
    p.replaceFrom (past ++ filled Match.text pieces ++ last).toList n (pieces.map Piece.found) =
      (filled p.transform.apply pieces ++ last).toList := by
  induction pieces generalizing n past with
  | nil =>
    subst cursor
    rw [← byteSize_toList, filled, filled, String.append_empty, String.empty_append,
      String.toList_append]
    exact p.replaceFrom_nil past.toList last.toList
  | cons c rest ih =>
    have ⟨_, _, others⟩ := placed
    have further := ih others _ (placed.stop_eq cursor)
    have startsAt : c.found.start = byteSize past.toList + byteSize c.gap.toList := by
      rw [placed.start_eq cursor, byteSize_toList, byteSize_toList, String.utf8ByteSize_append]
    have first := p.replaceFrom_cons past.toList c.gap.toList
      (c.found.text ++ filled Match.text rest ++ last).toList c.found (rest.map Piece.found)
      startsAt
    simp only [filled, List.map_cons, String.toList_append, List.append_assoc, cursor,
      byteSize_toList] at first further ⊢
    rw [first, further]

theorem replaceAll_pieces (p : Pattern) {content : String} {pieces : List Piece} {last : String}
    (placed : Placed 0 pieces) (parts : content = filled Match.text pieces ++ last) :
    (p.replaceAll content (pieces.map Piece.found)).1 =
      filled p.transform.apply pieces ++ last := by
  have filledIn := p.replaceFrom_placed placed "" last rfl
  rw [String.empty_append, ← parts] at filledIn
  rw [replaceAll_text, filledIn, String.ofList_toList]

theorem replaceAll_count (p : Pattern) (content : String) (found : List Match) :
    (p.replaceAll content found).2 = found.length := by
  unfold replaceAll
  by_cases none : found.isEmpty
  · rw [List.isEmpty_iff.mp none]
    rfl
  · rw [if_neg none]

theorem foldr_applyMatch (p : Pattern) {n : Nat} {pieces : List Piece} (placed : Placed n pieces)
    (past last : String) (cursor : n = past.utf8ByteSize) :
    (pieces.map Piece.found).foldr (fun m text => p.applyMatch text m)
        (past ++ filled Match.text pieces ++ last) =
      past ++ filled p.transform.apply pieces ++ last := by
  induction pieces generalizing n past with
  | nil => rfl
  | cons c rest ih =>
    have ⟨_, _, others⟩ := placed
    -- The matches behind this one are replaced already, which has not moved it.
    have further := ih others _ (placed.stop_eq cursor)
    have one := splice?_parts (past ++ c.gap) c.found.text
      (filled p.transform.apply rest ++ last) (p.transform.apply c.found)
    rw [← String.utf8ByteSize_append, ← placed.start_eq cursor, ← placed.stop_eq cursor] at one
    simp only [filled, List.map_cons, List.foldr_cons, String.append_assoc] at one further ⊢
    rw [further, applyMatch, one, Option.getD_some]

/-- The template `$0` puts every match back. -/
theorem apply_whole (m : Match) : (Transform.template "$0").apply m = m.text := by
  have chars : Template.expandFrom m 3 ['$', '0'] = m.text.toList ++ [] := rfl
  rw [List.append_nil] at chars
  have expanded : Template.expand "$0" m = String.ofList (Template.expandFrom m 3 ['$', '0']) := rfl
  rw [Transform.apply, expanded, chars, String.ofList_toList]

/-- Replacing matches in one pass is the same as replacing one at a time, from the last to the
first. Every match is counted, the text around the matches stays as it is, and to put each match
back changes nothing. -/
theorem replaceAll_match_by_match (p : Pattern) {content : String} {found : List Match}
    (sound : Match.Sound content found) :
    found.foldr (fun m text => p.applyMatch text m) content = (p.replaceAll content found).1 ∧
    (p.replaceAll content found).2 = found.length ∧
    (∃ (pieces : List Piece) (last : String), pieces.map Piece.found = found ∧
      Placed 0 pieces ∧ content = filled Match.text pieces ++ last ∧
      (p.replaceAll content found).1 = filled p.transform.apply pieces ++ last) ∧
    ({ p with transform := .template "$0" }.replaceAll content found).1 = content := by
  obtain ⟨pieces, last, rfl, placed, parts⟩ := sound.exists_pieces
  have onePass := p.replaceAll_pieces placed parts
  have oneByOne := p.foldr_applyMatch placed "" last rfl
  rw [String.empty_append, ← parts, String.empty_append, ← onePass] at oneByOne
  refine ⟨oneByOne, p.replaceAll_count content _, ⟨pieces, last, rfl, placed, parts, onePass⟩, ?_⟩
  have putBack := replaceAll_pieces { p with transform := .template "$0" } placed parts
  rw [putBack, parts]
  congr 1
  exact Piece.filled_congr fun m _ => apply_whole m

/-- Applying a pattern replaces the matches that its matcher finds, in one pass or one by one. -/
theorem applyAll_match_by_match (p : Pattern) (content : String) :
    let found := p.matcher.find content
    found.foldr (fun m text => p.applyMatch text m) content = (p.applyAll content).1 ∧
    (p.applyAll content).2 = found.length ∧
    (∃ (pieces : List Piece) (last : String), pieces.map Piece.found = found ∧
      Placed 0 pieces ∧ content = filled Match.text pieces ++ last ∧
      (p.applyAll content).1 = filled p.transform.apply pieces ++ last) ∧
    ({ p with transform := .template "$0" }.applyAll content).1 = content :=
  p.replaceAll_match_by_match (p.matcher.find_sound content)

end Pattern

end Uplift
