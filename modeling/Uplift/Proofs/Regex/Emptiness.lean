import Uplift.Proofs.Regex.Takes

/-!
# Taking nothing

Whether an expression can take the empty text at a place depends on the conditions that hold there
and on nothing else (`takes_nil_iff`). If it cannot do so in the empty text but can elsewhere, then
it asks for the edge of a word, and the place is one (`edge_of_takes_nil`). What a word is made of
there is for the condition to say.
-/

namespace Uplift

/-- The words for which the condition asks on one side alone, if it does. -/
def Look.edge? : Look → Option WordClass
  | wordBoundary w | wordStart w | wordEnd w => some w
  | textStart | textEnd | lineStart | lineEnd | lineStartCrlf | lineEndCrlf => none
  | insideWord _ | wordStartHalf _ | wordEndHalf _ => none

namespace Regex

def between (before : Option Char) (rest : List Char) : Look → Bool :=
  Look.holds ⟨before, rest, 0, []⟩

theorem inWord_none (w : WordClass) : inWord w none = false := by cases w <;> rfl

/-- What holds in one place but not in the empty text needs the edge of a word there. -/
theorem edge_of_between {before : Option Char} {rest : List Char} {l : Look}
    (here : between before rest l = true) (nowhere : between none [] l = false) :
    ∃ w, l.edge? = some w ∧ inWord w before ≠ inWord w rest.head? := by
  cases l with
  | textStart | textEnd | lineStart | lineEnd | lineStartCrlf | lineEndCrlf => cases nowhere
  | insideWord w => simp [between, Look.holds] at nowhere
  | wordStartHalf w | wordEndHalf w => simp [between, Look.holds, inWord_none] at nowhere
  | wordBoundary w => exact ⟨w, rfl, bne_iff_ne.mp here⟩
  | wordStart w =>
    obtain ⟨outside, inside⟩ := Bool.and_eq_true_iff.mp here
    refine ⟨w, rfl, fun same => ?_⟩
    rw [same, Bool.not_eq_true'] at outside
    exact Bool.false_ne_true (outside.symm.trans inside)
  | wordEnd w =>
    obtain ⟨inside, outside⟩ := Bool.and_eq_true_iff.mp here
    refine ⟨w, rfl, fun same => ?_⟩
    rw [← same, Bool.not_eq_true'] at outside
    exact Bool.false_ne_true (outside.symm.trans inside)

/-! ### What can take nothing -/

/-- Whether the expression can take nothing where the conditions in `holds` are those that hold. -/
def passes (holds : Look → Bool) : Regex → Bool
  | empty => true
  | set _ | run _ _ => false
  | look l => holds l
  | cat a b => a.passes holds && b.passes holds
  | alt a b => a.passes holds || b.passes holds
  | plus a _ | group _ a => a.passes holds

theorem rounds_nil_iff {takes : Taking} {before : Option Char} {rest : List Char} :
    Rounds takes before [] rest ↔ takes before [] rest := by
  refine ⟨fun rounds => ?_, .once⟩
  generalize nothing : [] = body at rounds
  cases rounds with
  | once last => exact last
  | more round further =>
    obtain ⟨rfl, rfl⟩ := List.nil_eq_append_iff.mp nothing
    exact round

theorem takes_nil_iff (r : Regex) (before : Option Char) (rest : List Char) :
    r.Takes before [] rest ↔ r.passes (between before rest) = true := by
  induction r with
  | empty => exact iff_of_true rfl rfl
  | set cs => exact iff_of_false (by rintro ⟨c, -, ⟨⟩⟩) Bool.false_ne_true
  | look l => exact and_iff_left rfl
  | cat a b first second =>
    rw [passes, Bool.and_eq_true, ← first, ← second]
    constructor
    · rintro ⟨front, back, nothing, takesA, takesB⟩
      obtain ⟨rfl, rfl⟩ := List.nil_eq_append_iff.mp nothing
      exact ⟨takesA, takesB⟩
    · rintro ⟨takesA, takesB⟩
      exact ⟨[], [], rfl, takesA, takesB⟩
  | alt a b left right =>
    rw [passes, Bool.or_eq_true, ← left, ← right]
    exact Iff.rfl
  | run cs greedy => exact iff_of_false (fun takes => takes.1 rfl) Bool.false_ne_true
  | plus a greedy inner => exact rounds_nil_iff.trans inner
  | group index a inner => exact inner

/-- At the end of a text nothing but the empty text can be taken, and then there is an end. -/
theorem exists_end_of_passes {r : Regex} {s : Spot} (done : s.rest = [])
    (passes : r.passes (between s.before []) = true) : ∃ e, e ∈ r.ends s := by
  induction r generalizing s with
  | empty => exact ⟨s, List.mem_singleton_self s⟩
  | set cs => cases passes
  | look l =>
    rw [Regex.passes, between, ← done, ← look_holds_eq] at passes
    exact ⟨s, by rw [ends, if_pos passes]; exact List.mem_singleton_self s⟩
  | cat a b first second =>
    obtain ⟨passesA, passesB⟩ := Bool.and_eq_true_iff.mp passes
    obtain ⟨m, middle⟩ := first done passesA
    obtain ⟨body, follows, -⟩ := takes_of_mem_ends a s m middle
    obtain ⟨rfl, left⟩ := List.append_eq_nil_iff.mp (follows.rest.symm.trans done)
    rw [← show m.before = s.before from follows.before] at passesB
    obtain ⟨e, last⟩ := second left passesB
    obtain ⟨e', kept, -⟩ := exists_mem_distinct (List.mem_flatMap.mpr ⟨m, middle, last⟩)
    exact ⟨e', kept⟩
  | alt a b left right =>
    have ended : ∃ e, e ∈ a.ends s ++ b.ends s := by
      rcases Bool.or_eq_true_iff.mp passes with passesA | passesB
      · exact (left done passesA).imp fun e => List.mem_append_left _
      · exact (right done passesB).imp fun e => List.mem_append_right _
    obtain ⟨e, member⟩ := ended
    obtain ⟨e', kept, -⟩ := exists_mem_distinct member
    exact ⟨e', kept⟩
  | run cs greedy => cases passes
  | plus a greedy inner =>
    obtain ⟨e, member⟩ := inner done passes
    obtain ⟨first, others, shape⟩ := List.exists_cons_of_ne_nil (List.ne_nil_of_mem member)
    have listed : first ∈ a.ends s := by rw [shape]; exact List.mem_cons_self
    obtain ⟨body, follows, -⟩ := takes_of_mem_ends a s first listed
    obtain ⟨rfl, -⟩ := List.append_eq_nil_iff.mp (follows.rest.symm.trans done)
    have here : first.offset = s.offset := follows.offset
    refine ⟨first, ?_⟩
    rw [ends, repeated, shape, afterFirst, if_pos here, if_neg List.not_mem_nil]
    exact List.mem_cons_self
  | group index a inner =>
    obtain ⟨e, member⟩ := inner done passes
    exact ⟨_, List.mem_map_of_mem member⟩

theorem not_passes_of_not_isMatch {r : Regex} (refuses : r.isMatch [] = false) :
    r.passes (between none []) = false := by
  rw [← Bool.not_eq_true]
  intro passes
  obtain ⟨e, member⟩ := exists_end_of_passes (s := Spot.ofText []) rfl passes
  have missing : r.search (Spot.ofText []) = none := Option.not_isSome_iff_eq_none.mp (by
    rw [← Bool.not_eq_true] at refuses
    exact refuses)
  have first : (r.ends (Spot.ofText [])).head? = none := Option.map_eq_none_iff.mp missing
  rw [List.head?_eq_none_iff.mp first] at member
  cases member

/-! ### What is asked for -/

def looks : Regex → List Look
  | empty | set _ | run _ _ => []
  | look l => [l]
  | cat a b | alt a b => a.looks ++ b.looks
  | plus a _ | group _ a => a.looks

/-- Where an expression passes in one place and not in another, one of its conditions tells the two
apart. -/
theorem exists_look_of_passes {holds holds' : Look → Bool} {r : Regex}
    (here : r.passes holds = true) (elsewhere : r.passes holds' = false) :
    ∃ l ∈ r.looks, holds l = true ∧ holds' l = false := by
  induction r with
  | empty => cases elsewhere
  | set cs => cases here
  | look l => exact ⟨l, List.mem_singleton_self l, here, elsewhere⟩
  | cat a b first second =>
    obtain ⟨hereA, hereB⟩ := Bool.and_eq_true_iff.mp here
    rcases Bool.and_eq_false_iff.mp elsewhere with noA | noB
    · obtain ⟨l, member, apart⟩ := first hereA noA
      exact ⟨l, List.mem_append_left _ member, apart⟩
    · obtain ⟨l, member, apart⟩ := second hereB noB
      exact ⟨l, List.mem_append_right _ member, apart⟩
  | alt a b left right =>
    obtain ⟨noA, noB⟩ := Bool.or_eq_false_iff.mp elsewhere
    rcases Bool.or_eq_true_iff.mp here with hereA | hereB
    · obtain ⟨l, member, apart⟩ := left hereA noA
      exact ⟨l, List.mem_append_left _ member, apart⟩
    · obtain ⟨l, member, apart⟩ := right hereB noB
      exact ⟨l, List.mem_append_right _ member, apart⟩
  | run cs greedy => cases here
  | plus a greedy inner => exact inner here elsewhere
  | group index a inner => exact inner here elsewhere

def edges (r : Regex) : List WordClass := r.looks.filterMap Look.edge?

theorem edge_of_takes_nil {r : Regex} (refuses : r.isMatch [] = false) {before : Option Char}
    {rest : List Char} (takes : r.Takes before [] rest) :
    ∃ w ∈ r.edges, inWord w before ≠ inWord w rest.head? := by
  have here := (takes_nil_iff r before rest).mp takes
  obtain ⟨l, member, holds, not⟩ := exists_look_of_passes here (not_passes_of_not_isMatch refuses)
  obtain ⟨w, edge, apart⟩ := edge_of_between holds not
  exact ⟨w, List.mem_filterMap.mpr ⟨l, member, edge⟩, apart⟩

end Regex

end Uplift
