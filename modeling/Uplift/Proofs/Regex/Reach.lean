import Uplift.Proofs.Regex.Takes

/-!
# Where an expression can end

Every end of an expression lies at or after the spot it starts from, in the same text
and with the bytes between the two counted. A search, and the search for the next match,
move forward in the same sense.
-/

namespace Uplift.Regex

def Spot.Reaches (s e : Spot) : Prop :=
  ∃ taken, s.rest = taken ++ e.rest ∧ e.offset = s.offset + Text.byteSize taken

namespace Spot.Reaches

theorem refl (s : Spot) : s.Reaches s := ⟨[], rfl, rfl⟩

theorem trans {s m e : Spot} (first : s.Reaches m) (second : m.Reaches e) : s.Reaches e := by
  obtain ⟨front, restS, offsetM⟩ := first
  obtain ⟨back, restM, offsetE⟩ := second
  refine ⟨front ++ back, by rw [restS, restM, List.append_assoc], ?_⟩
  rw [offsetE, offsetM, Text.byteSize_append, Nat.add_assoc]

theorem past {s : Spot} {c : Char} {rest : List Char} (next : s.rest = c :: rest) :
    s.Reaches (s.past c rest) :=
  ⟨[c], by rw [next]; rfl, rfl⟩

theorem of_next? {s e : Spot} (next : s.next? = some e) : s.Reaches e := by
  unfold Spot.next? at next
  split at next
  · cases next
  · rename_i c rest ahead
    cases next
    exact past ahead

end Spot.Reaches

theorem ends_reach (r : Regex) : ∀ s, ∀ e ∈ r.ends s, s.Reaches e := by
  intro s e ended
  obtain ⟨body, follows, -⟩ := takes_of_mem_ends r s e ended
  exact ⟨body, follows.rest, follows.offset⟩

theorem search_go_reaches (r : Regex) {cs : List Char} {s start stop : Spot}
    (ahead : s.rest = cs) (found : search.go r cs s = some (start, stop)) :
    s.Reaches start ∧ start.Reaches stop := by
  induction cs generalizing s with
  | nil =>
    obtain ⟨e, first, same⟩ := Option.map_eq_some_iff.mp found
    cases same
    exact ⟨.refl _, ends_reach r _ _ (List.mem_of_head? first)⟩
  | cons c rest ih =>
    unfold search.go at found
    split at found
    · rename_i e first
      cases found
      exact ⟨.refl _, ends_reach r _ _ (List.mem_of_head? first)⟩
    · obtain ⟨toStart, toStop⟩ := ih rfl found
      exact ⟨(Spot.Reaches.past ahead).trans toStart, toStop⟩

theorem search_reaches {r : Regex} {s start stop : Spot}
    (found : r.search s = some (start, stop)) : s.Reaches start ∧ start.Reaches stop :=
  search_go_reaches r rfl found

theorem nextMatch_reaches {r : Regex} {last : Option Nat} {s start stop : Spot}
    (found : r.nextMatch last s = some (start, stop)) :
    s.Reaches start ∧ start.Reaches stop := by
  unfold nextMatch at found
  split at found
  · cases found
  · rename_i first
    split at found
    · obtain ⟨next, moved, again⟩ := Option.bind_eq_some_iff.mp found
      obtain ⟨toStart, toStop⟩ := search_reaches again
      exact ⟨(Spot.Reaches.of_next? moved).trans toStart, toStop⟩
    · cases found
      exact search_reaches first

end Uplift.Regex
