import Mathlib.Logic.Relation
import Uplift.Regex.Basic

/-!
# What an expression takes

`Takes` says of a piece of text, with what stands in front of it and behind it, that an expression
can take it. Every end of an expression lies behind such a piece (`takes_of_mem_ends`), and behind
every such piece there is an end if nothing but single characters is repeated
(`mem_ends_of_takes`). Of the ends of a greedy run the first lies behind all of it
(`head?_ends_run`).
-/

namespace Uplift.Regex

open Text (byteSize byteSize_append)

def behind : Option Char → List Char → Option Char
  | before, [] => before
  | _, c :: taken => behind (some c) taken

theorem behind_append (before : Option Char) (front back : List Char) :
    behind before (front ++ back) = behind (behind before front) back := by
  induction front generalizing before with
  | nil => rfl
  | cons c front ih => exact ih (some c)

theorem behind_concat (before : Option Char) (front : List Char) (c : Char) :
    behind before (front ++ [c]) = some c := behind_append before front [c]

structure Spot.Follows (s : Spot) (taken : List Char) (e : Spot) : Prop where
  rest : s.rest = taken ++ e.rest
  offset : e.offset = s.offset + byteSize taken
  before : e.before = behind s.before taken

namespace Spot.Follows

theorem refl (s : Spot) : s.Follows [] s := ⟨rfl, rfl, rfl⟩

theorem trans {s m e : Spot} {front back : List Char} (first : s.Follows front m)
    (second : m.Follows back e) : s.Follows (front ++ back) e := by
  constructor
  · rw [first.rest, second.rest, List.append_assoc]
  · rw [second.offset, first.offset, byteSize_append, Nat.add_assoc]
  · rw [second.before, first.before, behind_append]

theorem past {s : Spot} {c : Char} {rest : List Char} (ahead : s.rest = c :: rest) :
    s.Follows [c] (s.past c rest) := ⟨ahead, rfl, rfl⟩

theorem withGroups {s e : Spot} {taken : List Char} (follows : s.Follows taken e)
    (groups : List (Nat × Nat × Nat)) : s.Follows taken { e with groups := groups } :=
  ⟨follows.rest, follows.offset, follows.before⟩

theorem unique {s e e' : Spot} {taken taken' : List Char} (follows : s.Follows taken e)
    (follows' : s.Follows taken' e') (same : e.offset = e'.offset) : taken = taken' := by
  have size : byteSize taken = byteSize taken' := by
    have first := follows.offset
    have second := follows'.offset
    omega
  have cut := Text.cut?_byteSize taken e.rest
  rw [← follows.rest, size, follows'.rest, Text.cut?_byteSize] at cut
  exact (Prod.mk.inj (Option.some.inj cut)).1.symm

end Spot.Follows

/-- A text behind a character, with more text behind it, of which something is said. -/
abbrev Taking := Option Char → List Char → List Char → Prop

/-- One taking after another, without an end in between. -/
inductive Rounds (takes : Taking) : Taking
  | once {before : Option Char} {body rest : List Char} (last : takes before body rest) :
      Rounds takes before body rest
  | more {before : Option Char} {first others rest : List Char}
      (round : takes before first (others ++ rest))
      (further : Rounds takes (behind before first) others rest) :
      Rounds takes before (first ++ others) rest

def Takes : Regex → Taking
  | empty, _, body, _ => body = []
  | set cs, _, body, _ => ∃ c, cs.holds c = true ∧ body = [c]
  | look l, before, body, rest => Look.holds ⟨before, rest, 0, []⟩ l = true ∧ body = []
  | cat a b, before, body, rest => ∃ first second, body = first ++ second ∧
      a.Takes before first (second ++ rest) ∧ b.Takes (behind before first) second rest
  | alt a b, before, body, rest => a.Takes before body rest ∨ b.Takes before body rest
  | run cs _, _, body, _ => body ≠ [] ∧ ∀ c ∈ body, cs.holds c = true
  | plus a _, before, body, rest => Rounds a.Takes before body rest
  | group _ a, before, body, rest => a.Takes before body rest

theorem mem_of_mem_distinct {spots : List Spot} {e : Spot} (kept : e ∈ distinct spots) :
    e ∈ spots := by
  induction spots with
  | nil => exact kept
  | cons s rest ih =>
    rcases List.mem_cons.mp kept with rfl | later
    · exact List.mem_cons_self ..
    · exact List.mem_cons_of_mem _ (ih (List.mem_filter.mp later).1)

theorem exists_mem_distinct {spots : List Spot} {e : Spot} (member : e ∈ spots) :
    ∃ e' ∈ distinct spots, e'.offset = e.offset := by
  induction spots with
  | nil => cases member
  | cons s rest ih =>
    by_cases same : e.offset = s.offset
    · exact ⟨s, List.mem_cons_self, same.symm⟩
    · obtain rfl | later := List.mem_cons.mp member
      · exact absurd rfl same
      · obtain ⟨e', kept, there⟩ := ih later
        refine ⟨e', List.mem_cons_of_mem _ (List.mem_filter.mpr ⟨kept, ?_⟩), there⟩
        simp [there, same]

theorem head?_distinct (spots : List Spot) : (distinct spots).head? = spots.head? := by
  cases spots <;> rfl

/-! ### Repetitions -/

abbrev Leads (step : Spot → List Spot) : Spot → Spot → Prop :=
  Relation.ReflTransGen fun s e => e ∈ step s

/-- One induction on the fuel for rounds from one spot and from several. -/
theorem again_and_rounds_lead (step : Spot → List Spot) (greedy : Bool) (fuel : Nat) :
    (∀ seen s, ∀ e ∈ (again step greedy fuel seen s).1, Leads step s e) ∧
    (∀ seen spots, ∀ e ∈ (rounds step greedy fuel seen spots).1,
      ∃ s ∈ spots, Leads step s e) := by
  induction fuel with
  | zero =>
    constructor
    · intro seen s e ended
      simp [again] at ended
    · intro seen spots e ended
      simp [rounds] at ended
  | succ fuel ih =>
    obtain ⟨fromOne, fromSeveral⟩ := ih
    constructor
    · intro seen s e ended
      unfold again at ended
      split at ended
      · cases ended
      · -- The spot itself is an end too: the last choice if greedy, else the first.
        have cases : e = s ∨ e ∈ (rounds step greedy fuel (s.offset :: seen)
            ((step s).filter (s.offset < ·.offset))).1 := by
          cases greedy with
          | true => exact (List.mem_append.mp ended).symm.imp List.mem_singleton.mp id
          | false => exact List.mem_cons.mp ended
        rcases cases with rfl | later
        · exact .refl
        · obtain ⟨m, stepped, leads⟩ := fromSeveral _ _ e later
          exact .head (List.mem_filter.mp stepped).1 leads
    · intro seen spots e ended
      cases spots with
      | nil => simp [rounds] at ended
      | cons s rest =>
        rw [rounds] at ended
        rcases List.mem_append.mp ended with first | other
        · exact ⟨s, List.mem_cons_self .., fromOne _ _ e first⟩
        · obtain ⟨t, listed, leads⟩ := fromSeveral _ _ e other
          exact ⟨t, List.mem_cons_of_mem _ listed, leads⟩

theorem afterFirst_lead (step : Spot → List Spot) (greedy : Bool) (fuel origin : Nat)
    (seen : List Nat) (spots : List Spot) :
    ∀ e ∈ afterFirst step greedy fuel origin seen spots, ∃ s ∈ spots, Leads step s e := by
  induction spots generalizing seen with
  | nil => intro e ended; cases ended
  | cons s rest ih =>
    have tail : ∀ seen, ∀ e ∈ afterFirst step greedy fuel origin seen rest,
        ∃ t ∈ s :: rest, Leads step t e := by
      intro seen e ended
      obtain ⟨t, listed, leads⟩ := ih seen e ended
      exact ⟨t, List.mem_cons_of_mem _ listed, leads⟩
    intro e ended
    unfold afterFirst at ended
    split at ended
    · split at ended
      · exact tail _ e ended
      · rcases List.mem_cons.mp ended with rfl | later
        · exact ⟨e, List.mem_cons_self .., .refl⟩
        · exact tail _ e later
    · rcases List.mem_append.mp ended with first | other
      · exact ⟨s, List.mem_cons_self .., (again_and_rounds_lead step greedy fuel).1 _ _ e first⟩
      · exact tail _ e other

theorem rounds_of_leads {a : Regex}
    (sound : ∀ s, ∀ e ∈ a.ends s, ∃ body, s.Follows body e ∧ a.Takes s.before body e.rest)
    {m e : Spot} (leads : Leads a.ends m e) :
    ∀ s, m ∈ a.ends s → ∃ body, s.Follows body e ∧ Rounds a.Takes s.before body e.rest := by
  induction leads using Relation.ReflTransGen.head_induction_on with
  | refl =>
    intro s stepped
    obtain ⟨body, follows, takes⟩ := sound s e stepped
    exact ⟨body, follows, .once takes⟩
  | head next _ ih =>
    rename_i m m' _
    intro s stepped
    obtain ⟨first, follows, takes⟩ := sound s m stepped
    obtain ⟨others, further, rounds⟩ := ih m next
    rw [further.rest] at takes
    rw [follows.before] at rounds
    exact ⟨first ++ others, follows.trans further, .more takes rounds⟩

/-! ### Ends and takings -/

theorem mem_runSpots {set : CharSet} {cs : List Char} {s e : Spot} (ahead : s.rest = cs)
    (reached : e ∈ runSpots set s cs) :
    ∃ body, s.Follows body e ∧ body ≠ [] ∧ ∀ c ∈ body, set.holds c = true := by
  induction cs generalizing s with
  | nil => cases reached
  | cons c rest ih =>
    unfold runSpots at reached
    split at reached
    · rename_i holds
      rcases List.mem_cons.mp reached with rfl | later
      · exact ⟨[c], .past ahead, List.cons_ne_nil c [], by simpa using holds⟩
      · obtain ⟨body, follows, -, all⟩ := ih rfl later
        exact ⟨c :: body, (Spot.Follows.past ahead).trans follows, List.cons_ne_nil c body,
          List.forall_mem_cons.mpr ⟨holds, all⟩⟩
    · cases reached

theorem mem_ends_run {cs : CharSet} {greedy : Bool} {s e : Spot} :
    e ∈ (run cs greedy).ends s ↔ e ∈ runSpots cs s s.rest := by
  cases greedy with
  | true => exact List.mem_reverse
  | false => exact Iff.rfl

theorem look_holds_eq (s : Spot) (l : Look) :
    Look.holds s l = Look.holds ⟨s.before, s.rest, 0, []⟩ l := by
  cases l <;> rfl

theorem takes_of_mem_ends (r : Regex) :
    ∀ s, ∀ e ∈ r.ends s, ∃ body, s.Follows body e ∧ r.Takes s.before body e.rest := by
  induction r with
  | empty =>
    intro s e ended
    obtain rfl := List.mem_singleton.mp ended
    exact ⟨[], .refl e, rfl⟩
  | set cs =>
    intro s e ended
    unfold ends at ended
    split at ended
    · cases ended
    · rename_i c rest ahead
      split at ended
      · rename_i holds
        obtain rfl := List.mem_singleton.mp ended
        exact ⟨[c], .past ahead, c, holds, rfl⟩
      · cases ended
  | look l =>
    intro s e ended
    unfold ends at ended
    split at ended
    · rename_i holds
      obtain rfl := List.mem_singleton.mp ended
      exact ⟨[], .refl e, (look_holds_eq e l).symm.trans holds, rfl⟩
    · cases ended
  | cat a b first second =>
    intro s e ended
    obtain ⟨m, middle, last⟩ := List.mem_flatMap.mp (mem_of_mem_distinct ended)
    obtain ⟨front, toMiddle, takes⟩ := first s m middle
    obtain ⟨back, toEnd, takes'⟩ := second m e last
    rw [toEnd.rest] at takes
    rw [toMiddle.before] at takes'
    exact ⟨front ++ back, toMiddle.trans toEnd, front, back, rfl, takes, takes'⟩
  | alt a b left right =>
    intro s e ended
    rcases List.mem_append.mp (mem_of_mem_distinct ended) with inLeft | inRight
    · obtain ⟨body, follows, takes⟩ := left s e inLeft
      exact ⟨body, follows, .inl takes⟩
    · obtain ⟨body, follows, takes⟩ := right s e inRight
      exact ⟨body, follows, .inr takes⟩
  | run cs greedy =>
    intro s e ended
    exact mem_runSpots rfl (mem_ends_run.mp ended)
  | plus a greedy inner =>
    intro s e ended
    obtain ⟨m, stepped, leads⟩ := afterFirst_lead a.ends greedy _ _ _ _ e ended
    exact rounds_of_leads inner leads s stepped
  | group index a inner =>
    intro s e ended
    obtain ⟨m, middle, rfl⟩ := List.mem_map.mp ended
    obtain ⟨body, follows, takes⟩ := inner s m middle
    exact ⟨body, follows.withGroups _, takes⟩

def isFlat : Regex → Bool
  | plus _ _ => false
  | cat a b | alt a b => a.isFlat && b.isFlat
  | group _ a => a.isFlat
  | empty | set _ | look _ | run _ _ => true

theorem mem_runSpots_of_holds {set : CharSet} {body rest : List Char} (given : body ≠ [])
    (all : ∀ c ∈ body, set.holds c = true) {s : Spot} (ahead : s.rest = body ++ rest) :
    ∃ e ∈ runSpots set s (body ++ rest), s.Follows body e := by
  induction body generalizing s with
  | nil => exact absurd rfl given
  | cons c body ih =>
    obtain ⟨holds, all⟩ := List.forall_mem_cons.mp all
    rw [List.cons_append, runSpots, if_pos holds]
    by_cases last : body = []
    · subst last
      exact ⟨_, List.mem_cons_self, .past ahead⟩
    · obtain ⟨e, member, follows⟩ := ih last all (s := s.past c (body ++ rest)) rfl
      exact ⟨e, List.mem_cons_of_mem _ member, (Spot.Follows.past ahead).trans follows⟩

theorem exists_end_of_distinct {r : Regex} {s e : Spot} {spots : List Spot} {body : List Char}
    (ends_eq : r.ends s = distinct spots) (member : e ∈ spots) (follows : s.Follows body e) :
    ∃ e' ∈ r.ends s, s.Follows body e' := by
  obtain ⟨e', kept, same⟩ := exists_mem_distinct member
  rw [← ends_eq] at kept
  obtain ⟨body', follows', -⟩ := takes_of_mem_ends r s e' kept
  obtain rfl := follows'.unique follows same
  exact ⟨e', kept, follows'⟩

theorem mem_ends_of_takes {r : Regex} (flat : r.isFlat = true) {s : Spot} {body rest : List Char}
    (ahead : s.rest = body ++ rest) (takes : r.Takes s.before body rest) :
    ∃ e ∈ r.ends s, s.Follows body e := by
  induction r generalizing s body rest with
  | empty =>
    subst takes
    exact ⟨s, List.mem_singleton_self s, .refl s⟩
  | set cs =>
    obtain ⟨c, holds, rfl⟩ := takes
    refine ⟨s.past c rest, ?_, .past ahead⟩
    rw [ends, ahead]
    simp [holds]
  | look l =>
    obtain ⟨holds, rfl⟩ := takes
    have here : s.rest = rest := ahead
    rw [← here, ← look_holds_eq] at holds
    refine ⟨s, ?_, .refl s⟩
    rw [ends, if_pos holds]
    exact List.mem_singleton_self s
  | cat a b first second =>
    obtain ⟨flatA, flatB⟩ := Bool.and_eq_true_iff.mp flat
    obtain ⟨front, back, rfl, takesA, takesB⟩ := takes
    rw [List.append_assoc] at ahead
    obtain ⟨m, middle, toMiddle⟩ := first flatA ahead takesA
    rw [← toMiddle.before] at takesB
    have onward : m.rest = back ++ rest := List.append_cancel_left (toMiddle.rest.symm.trans ahead)
    obtain ⟨e, last, toEnd⟩ := second flatB onward takesB
    exact exists_end_of_distinct rfl (List.mem_flatMap.mpr ⟨m, middle, last⟩)
      (toMiddle.trans toEnd)
  | alt a b left right =>
    obtain ⟨flatA, flatB⟩ := Bool.and_eq_true_iff.mp flat
    rcases takes with takesA | takesB
    · obtain ⟨e, ended, follows⟩ := left flatA ahead takesA
      exact exists_end_of_distinct rfl (List.mem_append_left _ ended) follows
    · obtain ⟨e, ended, follows⟩ := right flatB ahead takesB
      exact exists_end_of_distinct rfl (List.mem_append_right _ ended) follows
  | run cs greedy =>
    obtain ⟨given, all⟩ := takes
    obtain ⟨e, member, follows⟩ := mem_runSpots_of_holds given all ahead
    rw [← ahead] at member
    exact ⟨e, mem_ends_run.mpr member, follows⟩
  | plus a greedy inner => cases flat
  | group index a inner =>
    obtain ⟨m, middle, follows⟩ := inner flat ahead takes
    exact ⟨_, List.mem_map_of_mem middle, follows.withGroups _⟩

/-! ### The preferred end -/

/-- The first end of a sequence is the first end of its second part from some end of the first. -/
theorem head?_ends_cat {a b : Regex} {s e : Spot} (first : ((cat a b).ends s).head? = some e) :
    ∃ m ∈ a.ends s, (b.ends m).head? = some e := by
  rw [ends, head?_distinct, List.head?_flatMap] at first
  obtain ⟨m, middle, last⟩ := List.exists_of_findSome?_eq_some first
  exact ⟨m, middle, last⟩

theorem getLast?_runSpots {set : CharSet} {cs : List Char} {s e : Spot} (ahead : s.rest = cs)
    (last : (runSpots set s cs).getLast? = some e) :
    ∀ c, e.rest.head? = some c → set.holds c = false := by
  induction cs generalizing s with
  | nil => cases last
  | cons c rest ih =>
    cases here : set.holds c with
    | false =>
      rw [runSpots, here] at last
      cases last
    | true =>
      rw [runSpots, if_pos here] at last
      dsimp only at last
      by_cases more : runSpots set (s.past c rest) rest = []
      · rw [more] at last
        obtain rfl := Option.some.inj last
        intro d next
        obtain ⟨others, rest_eq⟩ := List.head?_eq_some_iff.mp next
        obtain rfl : rest = d :: others := rest_eq
        cases holds : set.holds d with
        | false => rfl
        | true =>
          rw [runSpots, if_pos holds] at more
          cases more
      · rw [List.getLast?_cons_of_ne_nil more] at last
        exact ih rfl last

/-- The first end of a greedy run has no further character of its set behind it. -/
theorem head?_ends_run {cs : CharSet} {s e : Spot} (first : ((run cs true).ends s).head? = some e) :
    ∀ c, e.rest.head? = some c → cs.holds c = false := by
  have last : (runSpots cs s s.rest).getLast? = some e := by
    rw [← List.head?_reverse]
    exact first
  exact getLast?_runSpots rfl last

end Uplift.Regex
