import Mathlib.Data.List.Induction
import Uplift.Pattern.Catalog
import Uplift.Proofs.Except
import Uplift.Proofs.Pattern.Literals
import Uplift.Proofs.Regex.Emptiness

/-!
# Matches without a character

A registered pattern does not match the empty text. All its matches take a character then, but for
one exception: an expression that asks for the edge of a word may take nothing there
(`registered_match_takes`).
-/

namespace Uplift

open Text (byteSize)
open Regex (Spot behind inWord)

/-! ### What matches take -/

namespace Regex

variable {r : Regex} {s start stop : Spot}

/-- The span is behind some text that follows `s`, and the expression takes what lies in it. -/
def Spot.Meets (s : Spot) (r : Regex) (start stop : Spot) : Prop :=
  ∃ gap body, s.Follows gap start ∧ start.Follows body stop ∧ r.Takes start.before body stop.rest

theorem Spot.Meets.behind {m : Spot} {front : List Char} (follows : s.Follows front m)
    (meets : m.Meets r start stop) : s.Meets r start stop := by
  obtain ⟨gap, body, toStart, toStop, takes⟩ := meets
  exact ⟨front ++ gap, body, follows.trans toStart, toStop, takes⟩

theorem Spot.Meets.of_head? {e : Spot} (first : (r.ends s).head? = some e) : s.Meets r s e := by
  obtain ⟨body, follows, takes⟩ := takes_of_mem_ends r s e (List.mem_of_head? first)
  exact ⟨[], body, .refl s, follows, takes⟩

theorem search_go_meets {cs : List Char} (ahead : s.rest = cs)
    (found : search.go r cs s = some (start, stop)) : s.Meets r start stop := by
  induction cs generalizing s with
  | nil =>
    obtain ⟨e, first, same⟩ := Option.map_eq_some_iff.mp found
    cases same
    exact .of_head? first
  | cons c rest ih =>
    unfold search.go at found
    split at found
    · rename_i e first
      cases found
      exact .of_head? first
    · exact (ih rfl found).behind (.past ahead)

theorem nextMatch_meets {last : Option Nat} (found : r.nextMatch last s = some (start, stop)) :
    s.Meets r start stop := by
  unfold nextMatch at found
  split at found
  · cases found
  · rename_i first
    split at found
    · obtain ⟨next, moved, again⟩ := Option.bind_eq_some_iff.mp found
      unfold Spot.next? at moved
      split at moved
      · cases moved
      · rename_i ahead
        cases moved
        exact (search_go_meets rfl again).behind (.past ahead)
    · cases found
      exact search_go_meets rfl first

theorem findFrom_meets (r : Regex) (fuel : Nat) (last : Option Nat) (s : Spot) :
    ∀ span ∈ r.findFrom fuel last s, s.Meets r span.1 span.2 := by
  induction fuel generalizing last s with
  | zero => exact nofun
  | succ fuel ih =>
    unfold findFrom
    split
    · exact nofun
    · rename_i start stop next
      obtain ⟨gap, body, toStart, toStop, takes⟩ := nextMatch_meets next
      refine List.forall_mem_cons.mpr ⟨⟨gap, body, toStart, toStop, takes⟩, fun span later => ?_⟩
      exact (ih (some stop.offset) _ span later).behind (toStart.trans (toStop.withGroups []))

end Regex

theorem Regex.behind_none (cs : List Char) : behind none cs = cs.getLast? := by
  induction cs using List.reverseRecOn with
  | nil => rfl
  | append_singleton front c => rw [behind_concat, List.getLast?_concat]

namespace Matcher

/-- Only an expression can ask for the edges of words. -/
def edges : Matcher → List WordClass
  | literal _ => []
  | regex _ r _ => r.edges

theorem find_takes_of_refuses {matcher : Matcher} (refuses : matcher.matchesEmpty = false)
    {content : String} {m : Match} (found : m ∈ matcher.find content) :
    m.start < m.stop ∨ m.start = m.stop ∧ ∃ w ∈ matcher.edges,
      ∃ head rest, content.toList = head ++ rest ∧ m.start = byteSize head ∧
        inWord w head.getLast? ≠ inWord w rest.head? := by
  cases matcher with
  | literal needle =>
    have given : needle ≠ "" := by
      rintro rfl
      cases refuses
    rw [find_literal given] at found
    obtain ⟨start, -, rfl⟩ := List.mem_map.mp found
    have pos := Text.byteSize_pos (mt String.toList_eq_nil_iff.mp given)
    exact .inl (Nat.lt_add_of_pos_right pos)
  | regex source r groups =>
    obtain ⟨⟨start, stop⟩, listed, rfl⟩ := List.mem_map.mp found
    obtain ⟨head, body, toStart, toStop, takes⟩ := r.findFrom_meets _ _ _ _ listed
    dsimp only at toStart toStop takes
    have starts : start.offset = byteSize head := toStart.offset.trans (Nat.zero_add _)
    by_cases nothing : body = []
    · subst nothing
      obtain ⟨w, asked, apart⟩ := Regex.edge_of_takes_nil refuses takes
      have parts : content.toList = head ++ stop.rest :=
        toStart.rest.trans (congrArg (head ++ ·) toStop.rest)
      have before : start.before = head.getLast? :=
        toStart.before.trans (Regex.behind_none head)
      rw [before] at apart
      exact .inr ⟨toStop.offset.symm, w, asked, head, stop.rest, parts, starts, apart⟩
    · have pos := Text.byteSize_pos nothing
      have stops := toStop.offset
      exact .inl (show start.offset < stop.offset by omega)

end Matcher

namespace Catalog

theorem selfTest_of_register {c after : Catalog} {p : Pattern}
    (registered : c.register p = .ok after) : p.selfTest = .ok () := by
  unfold register at registered
  dsimp only at registered
  split at registered
  · cases registered
  · obtain ⟨_, passed, -⟩ := bind_ok registered
    exact passed

end Catalog

theorem Pattern.matchesEmpty_of_selfTest {p : Pattern} (passes : p.selfTest = .ok ()) :
    p.matcher.matchesEmpty = false := by
  unfold selfTest at passes
  dsimp only at passes
  split at passes
  · cases passes
  · rename_i refuses
    exact Bool.eq_false_iff.mpr refuses

namespace Catalog

/-- A match of a registered pattern takes at least one character, or it stands where a word begins
or ends and its expression asks for that, whichever characters it counts among words. -/
theorem registered_match_takes {c after : Catalog} {p : Pattern}
    (registered : c.register p = .ok after) (content : String) :
    ∀ m ∈ p.matcher.find content, m.start < m.stop ∨
      m.start = m.stop ∧ ∃ w ∈ p.matcher.edges,
        ∃ head rest, content.toList = head ++ rest ∧ m.start = byteSize head ∧
          inWord w head.getLast? ≠ inWord w rest.head? := by
  have refuses := Pattern.matchesEmpty_of_selfTest (selfTest_of_register registered)
  exact fun m found => Matcher.find_takes_of_refuses refuses found

def barred (source : String) : Pattern where
  id := "p"
  name := "p"
  category := .generalLanguage
  matcher := Pattern.expression source
  transform := .replace "|"

/-- A hyphen may stand in front of the boundary or not. -/
theorem hyphenPattern_matches :
    ∃ after, register {} (barred "-?\\b") = .ok after ∧
      ((barred "-?\\b").matcher.find "a -b").map (fun m => (m.start, m.stop)) =
        [(0, 0), (1, 1), (2, 3), (4, 4)] ∧
      ∀ m ∈ (barred "-?\\b").matcher.find "a -b", m.start < m.stop ∨
        m.start = m.stop ∧ ∃ w ∈ (barred "-?\\b").matcher.edges,
          ∃ head rest, "a -b".toList = head ++ rest ∧ m.start = byteSize head ∧
            inWord w head.getLast? ≠ inWord w rest.head? := by
  have accepted : (register {} (barred "-?\\b")).isOk = true := by decide +kernel
  obtain ⟨after, registered⟩ := exists_ok_of_isOk accepted
  exact ⟨after, registered, by decide +kernel, registered_match_takes registered "a -b"⟩

/-- Words of ASCII characters have other edges. -/
example : ((barred "\\b").matcher.find "éx").map (·.start) = [0, 3] ∧
    ((barred "(?-u:\\b)").matcher.find "éx").map (·.start) = [2, 3] := by
  decide +kernel

/-- The boundary of words is registered, and it puts its text around a word without a match that
takes a character. -/
theorem boundaryPattern_takes_nothing :
    ∃ after, register {} (barred "\\b") = .ok after ∧
      (barred "\\b").matcher.find "a" = [⟨0, 0, [some ""]⟩, ⟨1, 1, [some ""]⟩] ∧
      (barred "\\b").applyAll "a" = ("|a|", 2) ∧
      ¬∀ m ∈ (barred "\\b").matcher.find "a", m.start < m.stop := by
  have accepted : (register {} (barred "\\b")).isOk = true := by decide +kernel
  obtain ⟨after, registered⟩ := exists_ok_of_isOk accepted
  have found : (barred "\\b").matcher.find "a" = [⟨0, 0, [some ""]⟩, ⟨1, 1, [some ""]⟩] := by
    decide +kernel
  refine ⟨after, registered, found, by decide +kernel, fun all => ?_⟩
  rw [found] at all
  exact Nat.lt_irrefl 0 (all _ List.mem_cons_self)

end Catalog

end Uplift
