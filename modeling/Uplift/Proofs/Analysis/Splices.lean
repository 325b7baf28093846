import Uplift.Proofs.Analysis.Turns
import Uplift.Proofs.Pattern.Pieces
import Uplift.Proofs.Plan.Chain

/-!
# Rewrites as splices

Every rewrite keeps a head and a tail of its text and puts something else between them: what
its pattern found there. The tail is still as the pattern met it in its turn, and what the
pattern has put in already belongs to the head. That is so for all sound matches
(`rewritesBy_splices`).
-/

namespace Uplift

open Text (byteSize byteSize_append byteSize_toList)
open Piece (Placed filled)

namespace Analysis

/-- A rewrite with its match, and with the text around the place where it works. -/
structure Splice where
  turn : Turn
  rewrite : Rewrite
  head : String
  tail : String

namespace Splice

/-- Between head and tail the match of the turn stands before the rewrite, and its replacement
behind it. The match and the tail are what the pattern met there in its turn. -/
structure Fits (patterns : List Pattern) (content : String) (s : Splice)
    (find : Pattern → String → List Match := Pattern.find) : Prop where
  pattern : patterns[s.turn.index]? = some s.rewrite.pattern
  found : s.turn.found ∈ find s.rewrite.pattern (textInTurn patterns content s.turn.index find)
  matched : s.rewrite.matched = s.turn.found.text
  replacement : s.rewrite.replacement = s.rewrite.pattern.transform.apply s.turn.found
  before : s.rewrite.before = s.head ++ s.rewrite.matched ++ s.tail
  after : s.rewrite.after = s.head ++ s.rewrite.replacement ++ s.tail
  place : ∃ past : String,
    textInTurn patterns content s.turn.index find = past ++ s.rewrite.matched ++ s.tail ∧
    s.turn.found.start = past.utf8ByteSize ∧
    s.turn.found.stop = s.turn.found.start + s.rewrite.matched.utf8ByteSize

/-- What one rewrite of a turn has put in belongs to the head of the other. -/
def Spares (s s' : Splice) : Prop :=
  s.turn.index = s'.turn.index → ∃ gap, s'.head = s.head ++ s.rewrite.replacement ++ gap

def later (s : Splice) : Splice := { s with turn := s.turn.later }

end Splice

/-! ### One pattern -/

/-- The splices of one pattern, where `done` is what has become of the text in front. -/
def splicesOf (p : Pattern) (last : String) : String → List Piece → List Splice
  | _, [] => []
  | done, c :: rest =>
    let head := done ++ c.gap
    let tail := filled Match.text rest ++ last
    let replacement := p.transform.apply c.found
    { turn := ⟨0, c.found⟩
      rewrite := ⟨p, c.found.text, replacement, head ++ c.found.text ++ tail,
        head ++ replacement ++ tail⟩
      head := head
      tail := tail } :: splicesOf p last (head ++ replacement) rest

variable {p : Pattern} {last : String} {find : Pattern → String → List Match}

theorem rewriteMatches_placed {drift : Drift} {n : Nat} {pieces : List Piece}
    (placed : Placed n pieces) (past done : String) (cursor : n = past.utf8ByteSize)
    (fits : drift.Fits past.toList done.toList) :
    (rewriteMatches p drift (done ++ filled Match.text pieces ++ last)
        (pieces.map Piece.found)).1 =
      (splicesOf p last done pieces).map Splice.rewrite := by
  induction pieces generalizing drift n past done with
  | nil => rfl
  | cons c rest ih =>
    have ⟨_, stops, others⟩ := placed
    have startsAt : c.found.start = byteSize past.toList + byteSize c.gap.toList := by
      rw [placed.start_eq cursor, byteSize_toList, byteSize_toList, String.utf8ByteSize_append]
    have stopsAt : c.found.stop = c.found.start + byteSize c.found.text.toList := by
      rw [stops, byteSize_toList]
    -- What the replacement adds goes into the drift, which then fits the texts behind the match.
    have moved := fits.add c.gap.toList c.found.text.toList (p.transform.apply c.found).toList
    simp only [← String.toList_append, ← String.append_assoc] at moved
    have goesOn := ih others _ _ (placed.stop_eq cursor) moved
    have first := @rewriteMatches_cons p drift past.toList done.toList c.gap.toList
      c.found.text.toList (filled Match.text rest ++ last).toList c.found fits startsAt stopsAt
      (rest.map Piece.found)
    simp only [String.ofList_append, String.ofList_toList, String.append_assoc] at first goesOn
    simp only [filled, splicesOf, List.map_cons, String.append_assoc, first, goesOn]

theorem splicesOf_turns (done : String) (pieces : List Piece) :
    (splicesOf p last done pieces).map Splice.turn =
      (pieces.map Piece.found).map (Turn.mk 0) := by
  induction pieces generalizing done with
  | nil => rfl
  | cons c rest ih => rw [splicesOf, List.map_cons, ih, List.map_cons, List.map_cons]

theorem splicesOf_index {done : String} {pieces : List Piece} :
    ∀ s ∈ splicesOf p last done pieces, s.turn.index = 0 := by
  intro s member
  have turn := List.mem_map_of_mem (f := Splice.turn) member
  rw [splicesOf_turns] at turn
  obtain ⟨m, -, same⟩ := List.mem_map.mp turn
  rw [← same]

theorem splicesOf_head {done : String} {pieces : List Piece} :
    ∀ s ∈ splicesOf p last done pieces, ∃ gap, s.head = done ++ gap := by
  induction pieces generalizing done with
  | nil =>
    rw [splicesOf]
    exact List.forall_mem_nil _
  | cons c rest ih =>
    intro s member
    rw [splicesOf] at member
    rcases List.mem_cons.mp member with rfl | later
    · exact ⟨c.gap, rfl⟩
    · obtain ⟨gap, behind⟩ := ih s later
      refine ⟨c.gap ++ (p.transform.apply c.found ++ gap), ?_⟩
      rw [behind]
      simp only [String.append_assoc]

theorem splicesOf_spare (done : String) (pieces : List Piece) :
    (splicesOf p last done pieces).Pairwise Splice.Spares := by
  induction pieces generalizing done with
  | nil => exact .nil
  | cons c rest ih =>
    rw [splicesOf]
    exact .cons (fun s later _ => splicesOf_head s later) (ih _)

theorem splicesOf_fit (patterns : List Pattern) {content : String} {n : Nat}
    {pieces : List Piece} (placed : Placed n pieces)
    (founds : ∀ m ∈ pieces.map Piece.found, m ∈ find p content) (past done : String)
    (cursor : n = past.utf8ByteSize) (parts : content = past ++ filled Match.text pieces ++ last) :
    ∀ s ∈ splicesOf p last done pieces, s.Fits (p :: patterns) content find := by
  induction pieces generalizing n past done with
  | nil =>
    rw [splicesOf]
    exact List.forall_mem_nil _
  | cons c rest ih =>
    have ⟨_, stops, others⟩ := placed
    obtain ⟨own, further⟩ := List.forall_mem_cons.mp founds
    have whole : content = past ++ c.gap ++ c.found.text ++ filled Match.text rest ++ last := by
      rw [parts, filled]
      simp only [String.append_assoc]
    intro s member
    rw [splicesOf] at member
    rcases List.mem_cons.mp member with rfl | later
    · exact ⟨rfl, own, rfl, rfl, rfl, rfl, past ++ c.gap, whole.trans (String.append_assoc ..),
        placed.start_eq cursor, stops⟩
    · exact ih others further _ _ (placed.stop_eq cursor) whole s later

/-! ### One pattern after the other -/

theorem Splice.Fits.later {patterns : List Pattern} {content : String} {s : Splice}
    (fits : s.Fits patterns (p.replaceAll content (find p content)).1 find) :
    s.later.Fits (p :: patterns) content find :=
  ⟨fits.pattern, fits.found, fits.matched, fits.replacement, fits.before, fits.after, fits.place⟩

/-- However the patterns find their matches, as long as these are sound, each rewrite is one
splice: it puts its replacement for what its pattern found there and keeps the rest, and never
touches what an earlier rewrite of the same turn has put in. -/
theorem rewritesBy_splices (sound : ∀ p text, Match.Sound text (find p text))
    (patterns : List Pattern) (content : String) :
    ∃ splices : List Splice,
      splices.map Splice.rewrite = rewritesBy find patterns content ∧
      splices.map Splice.turn = turns patterns content find ∧
      (∀ s ∈ splices, s.Fits patterns content find) ∧ splices.Pairwise Splice.Spares := by
  induction patterns generalizing content with
  | nil => exact ⟨[], rfl, rfl, List.forall_mem_nil _, .nil⟩
  | cons p ps ih =>
    obtain ⟨pieces, last, founds, placed, parts⟩ := (sound p content).exists_pieces
    obtain ⟨others, rewrites, turns, fit, spare⟩ := ih (p.replaceAll content (find p content)).1
    have fits : Drift.Fits {} "".toList "".toList := rfl
    have first : _ = (splicesOf p last "" pieces).map Splice.rewrite :=
      rewriteMatches_placed placed "" "" rfl fits
    rw [String.empty_append, ← parts, founds] at first
    refine ⟨splicesOf p last "" pieces ++ others.map Splice.later, ?_, ?_, ?_, ?_⟩
    · rw [List.map_append, rewritesBy_cons fun p text => (sound p text).spread, first,
        ← rewrites, List.map_map]
      rfl
    · rw [List.map_append, turns_cons, splicesOf_turns, founds, ← turns, List.map_map,
        List.map_map]
      rfl
    · intro s member
      rcases List.mem_append.mp member with own | later
      · refine splicesOf_fit ps placed (fun m listed => founds ▸ listed) "" "" rfl ?_ s own
        rw [String.empty_append, ← parts]
      · obtain ⟨s, listed, rfl⟩ := List.mem_map.mp later
        exact (fit s listed).later
    · refine List.pairwise_append.mpr ⟨splicesOf_spare .., ?_, ?_⟩
      · refine List.pairwise_map.mpr (spare.imp fun {s s'} apart same => ?_)
        exact apart (Nat.succ.inj same)
      · intro s own s' later same
        obtain ⟨s', -, rfl⟩ := List.mem_map.mp later
        rw [splicesOf_index s own] at same
        exact absurd same (Nat.zero_ne_add_one _)

/-- The rewrites of a text form a chain that begins with it, and each is one splice around what
its pattern found. -/
theorem ofContent_splices (path : Path) (content : String) (patterns : List Pattern) :
    let rewrites := (ofContent path content patterns).rewrites
    Chains content rewrites ∧
    ∃ splices : List Splice, splices.map Splice.rewrite = rewrites ∧
      splices.map Splice.turn = turns patterns content ∧
      (∀ s ∈ splices, s.Fits patterns content) ∧ splices.Pairwise Splice.Spares :=
  ⟨rewritesOf_chains patterns content,
    rewritesBy_splices (fun p => p.matcher.find_sound) patterns content⟩

end Analysis

end Uplift
