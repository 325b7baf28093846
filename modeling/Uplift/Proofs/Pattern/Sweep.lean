import Uplift.Proofs.Pattern.Literals

/-!
# Which matches are found, and what becomes of the text

A matcher goes through a text from the left. Where something can be taken it takes it and goes on
behind it, and elsewhere it goes on with the next character (`Match.Sweep`). To replace all that is
found is therefore a relation between the text and the result that speaks of no byte offsets
(`Replaces`).
-/

namespace Uplift

open Text (byteSize byteSize_append)
open Match (Spread)
open Regex (Spot Taking behind)

namespace Regex

def Taking.Begins (At : Taking) (before : Option Char) (text : List Char) : Prop :=
  ∃ body rest, text = body ++ rest ∧ At before body rest

def Taking.Nowhere (At : Taking) : Option Char → List Char → Prop
  | _, [] => True
  | before, c :: rest => ¬At.Begins before (c :: rest) ∧ Nowhere At (some c) rest

def Taking.Advances (At : Taking) : Prop :=
  ∀ before body rest, At before body rest → body ≠ []

/-- The first end of an expression lies behind something of which `At` holds, and there is an end
wherever something of that kind begins. -/
structure Finds (r : Regex) (At : Taking) : Prop where
  sound : ∀ {s e}, (r.ends s).head? = some e → ∃ body, s.Follows body e ∧ At s.before body e.rest
  complete : ∀ {s}, At.Begins s.before s.rest → r.ends s ≠ []
  advances : At.Advances

end Regex

/-- The matches in a text that `n` bytes and the character `before` stand in front of. -/
inductive Match.Sweep (At : Taking) : Nat → Option Char → List Char → List Match → Prop
  | done {n : Nat} {before : Option Char} : Sweep At n before [] []
  | kept {n : Nat} {before : Option Char} {c : Char} {rest : List Char} {ms : List Match}
      (absent : ¬At.Begins before (c :: rest))
      (others : Sweep At (n + c.utf8Size) (some c) rest ms) : Sweep At n before (c :: rest) ms
  | found {n : Nat} {before : Option Char} {body rest : List Char} {m : Match} {ms : List Match}
      (takes : At before body rest) (starts : m.start = n) (stops : m.stop = n + byteSize body)
      (others : Sweep At m.stop (behind before body) rest ms) :
      Sweep At n before (body ++ rest) (m :: ms)

namespace Match.Sweep

variable {At : Taking} {n : Nat} {before : Option Char} {text : List Char} {ms : List Match}

theorem spread (sweep : Sweep At n before text ms) : Spread n text ms := by
  induction sweep with
  | done => exact .nil
  | kept absent others ih =>
    rename_i n before c rest ms
    have behind : Spread (n + byteSize [c]) rest ms := ih
    exact behind.behind
  | found takes starts stops others ih =>
    rw [← starts] at stops
    exact .cons [] _ _ rfl starts stops ih

theorem eq_nil (sweep : Sweep At n before text ms) (advances : At.Advances)
    (nowhere : At.Nowhere before text) : ms = [] := by
  induction sweep with
  | done => rfl
  | kept absent others ih => exact ih nowhere.2
  | found takes starts stops others ih =>
    rename_i n before body rest m ms
    obtain ⟨c, tail, rfl⟩ := List.exists_cons_of_ne_nil (advances _ _ _ takes)
    exact absurd ⟨c :: tail, rest, rfl, takes⟩ nowhere.1

theorem placed (sweep : Sweep At n before text ms) :
    ∀ m ∈ ms, ∃ head body rest, text = head ++ (body ++ rest) ∧
      At (behind before head) body rest ∧ m.start = n + byteSize head ∧
      m.stop = m.start + byteSize body := by
  induction sweep with
  | done => nofun
  | kept absent others ih =>
    rename_i n before c rest ms
    intro m found
    obtain ⟨head, body, tail, rfl, takes, starts, stops⟩ := ih m found
    exact ⟨c :: head, body, tail, rfl, takes, starts.trans (Nat.add_assoc ..), stops⟩
  | found takes starts stops others ih =>
    rename_i n before first rest m ms
    rw [← starts] at stops
    refine List.forall_mem_cons.mpr ⟨⟨[], first, rest, rfl, takes, starts, stops⟩, ?_⟩
    intro m' later
    obtain ⟨head, body, tail, rfl, takes', starts', stops'⟩ := ih m' later
    refine ⟨first ++ head, body, tail, (List.append_assoc ..).symm, ?_, ?_, stops'⟩
    · rwa [Regex.behind_append]
    · rw [starts', stops, starts, byteSize_append, Nat.add_assoc]

end Match.Sweep

open Match (Sweep)

/-! ### Expressions -/

namespace Regex

variable {r : Regex} {At : Taking}

theorem Finds.absent (finds : r.Finds At) {s : Spot} (none : (r.ends s).head? = none) :
    ¬At.Begins s.before s.rest :=
  fun begins => finds.complete begins (List.head?_eq_none_iff.mp none)

theorem Finds.search_none (finds : r.Finds At) {s : Spot} {cs : List Char} (ahead : s.rest = cs)
    (none : search.go r cs s = none) : Sweep At s.offset s.before cs [] := by
  induction cs generalizing s with
  | nil => exact .done
  | cons c rest ih =>
    unfold search.go at none
    split at none
    · cases none
    · rename_i here
      have absent := finds.absent here
      rw [ahead] at absent
      exact .kept absent (ih rfl none)

theorem Finds.search_some (finds : r.Finds At) {s start stop : Spot} {cs : List Char}
    (ahead : s.rest = cs) (found : search.go r cs s = some (start, stop)) :
    ∃ body, start.Follows body stop ∧ At start.before body stop.rest ∧
      start.rest.length ≤ s.rest.length ∧
      ∀ ms, Sweep At start.offset start.before start.rest ms → Sweep At s.offset s.before cs ms := by
  induction cs generalizing s with
  | nil =>
    obtain ⟨e, first, same⟩ := Option.map_eq_some_iff.mp found
    cases same
    obtain ⟨body, follows, takes⟩ := finds.sound first
    refine ⟨body, follows, takes, Nat.le_refl _, fun ms sweep => ?_⟩
    rwa [ahead] at sweep
  | cons c rest ih =>
    unfold search.go at found
    split at found
    · rename_i e first
      cases found
      obtain ⟨body, follows, takes⟩ := finds.sound first
      refine ⟨body, follows, takes, Nat.le_refl _, fun ms sweep => ?_⟩
      rwa [ahead] at sweep
    · rename_i here
      have absent := finds.absent here
      rw [ahead] at absent
      obtain ⟨body, follows, takes, shorter, later⟩ := ih rfl found
      refine ⟨body, follows, takes, ?_, fun ms sweep => .kept absent (later ms sweep)⟩
      have length : s.rest.length = rest.length + 1 := congrArg List.length ahead
      have : start.rest.length ≤ rest.length := shorter
      omega

/-- No match is empty, so the last one does not matter to the next one. -/
theorem Finds.nextMatch_eq (finds : r.Finds At) (last : Option Nat) (s : Spot) :
    r.nextMatch last s = r.search s := by
  unfold nextMatch
  split
  · rename_i none
    exact none.symm
  · rename_i start stop found
    obtain ⟨body, follows, takes, -, -⟩ := finds.search_some rfl found
    have size := Text.byteSize_pos (finds.advances _ _ _ takes)
    have offset := follows.offset
    rw [if_neg (by omega), found]

theorem Finds.findFrom_sweep (finds : r.Finds At) (content : List Char) (groups : Nat)
    {fuel : Nat} (last : Option Nat) (s : Spot) (enough : s.rest.length < fuel) :
    Sweep At s.offset s.before s.rest
      ((r.findFrom fuel last s).map fun (start, stop) => Matcher.ofSpan content groups start stop) := by
  induction fuel generalizing last s with
  | zero => omega
  | succ fuel ih =>
    unfold findFrom
    rw [finds.nextMatch_eq]
    cases next : r.search s with
    | none => exact finds.search_none rfl next
    | some span =>
      obtain ⟨start, stop⟩ := span
      obtain ⟨body, follows, takes, shorter, later⟩ := finds.search_some rfl next
      have length := congrArg List.length follows.rest
      rw [List.length_append] at length
      have pos := List.length_pos_iff.mpr (finds.advances _ _ _ takes)
      have room : stop.rest.length < fuel := by omega
      refine later _ ?_
      rw [follows.rest]
      refine .found takes rfl follows.offset ?_
      rw [← follows.before]
      exact ih (some stop.offset) { stop with groups := [] } room

end Regex

namespace Matcher

def Sweeps (matcher : Matcher) (At : Taking) : Prop :=
  ∀ content : String, Sweep At 0 none content.toList (matcher.find content)

theorem sweeps_regex {r : Regex} {At : Taking} (finds : r.Finds At) (source : String)
    (groups : Nat) : (regex source r groups).Sweeps At := by
  intro content
  have room : content.toList.length < content.toList.length + 2 := by omega
  exact finds.findFrom_sweep content.toList groups none (Spot.ofText content.toList) room

theorem Scan.sweep {needle : String} {n : Nat} {cs : List Char} {starts : List Nat}
    (scan : Scan needle.toList n cs starts) (before : Option Char) :
    Sweep (fun _ body _ => body = needle.toList) n before cs (starts.map (ofStart needle)) := by
  induction scan generalizing before with
  | done => exact .done
  | here others ih => exact .found rfl rfl rfl (ih _)
  | later absent others ih =>
    refine .kept ?_ (ih _)
    rintro ⟨body, tail, parts, rfl⟩
    exact absent ⟨tail, parts.symm⟩

theorem sweeps_literal {needle : String} (nonempty : needle ≠ "") :
    (literal needle).Sweeps fun _ body _ => body = needle.toList := by
  intro content
  have chars : needle.toList ≠ [] := mt String.toList_eq_nil_iff.mp nonempty
  rw [find_literal nonempty]
  exact (literalStarts_scan chars 0 content.toList).sweep none

theorem Sweeps.taken {matcher : Matcher} {At : Taking} (sweeps : matcher.Sweeps At)
    {content : String} {m : Match} (found : m ∈ matcher.find content) :
    ∃ head body rest, content.toList = head ++ (body ++ rest) ∧ At (behind none head) body rest ∧
      m.text = String.ofList body := by
  obtain ⟨head, body, rest, parts, takes, starts, stops⟩ := (sweeps content).placed m found
  have holds : m.Holds (head ++ ([] ++ (body ++ rest))) := parts ▸ matcher.find_holds content m found
  rw [Nat.zero_add] at starts
  exact ⟨head, body, rest, parts, takes, holds.text starts stops⟩

end Matcher

/-! ### Replacing what is found -/

/-- `out` is `text` with `value body` in the place of each `body` that is found. -/
inductive Replaces (At : Taking) (value : List Char → List Char) :
    Option Char → List Char → List Char → Prop
  | done {before : Option Char} : Replaces At value before [] []
  | kept {before : Option Char} {c : Char} {rest out : List Char}
      (absent : ¬At.Begins before (c :: rest)) (others : Replaces At value (some c) rest out) :
      Replaces At value before (c :: rest) (c :: out)
  | replaced {before : Option Char} {body rest out : List Char} (takes : At before body rest)
      (others : Replaces At value (behind before body) rest out) :
      Replaces At value before (body ++ rest) (value body ++ out)

theorem Replaces.text_cases {At : Taking} {value : List Char → List Char} {before : Option Char}
    {text out : List Char} (replaces : Replaces At value before text out) :
    (text = [] ∧ out = []) ∨
      (∃ c rest out', text = c :: rest ∧ out = c :: out' ∧ ¬At.Begins before text ∧
        Replaces At value (some c) rest out') ∨
      ∃ body rest out', text = body ++ rest ∧ out = value body ++ out' ∧ At before body rest ∧
        Replaces At value (behind before body) rest out' := by
  cases replaces with
  | done => exact .inl ⟨rfl, rfl⟩
  | kept absent others => exact .inr (.inl ⟨_, _, _, rfl, rfl, absent, others⟩)
  | replaced takes others => exact .inr (.inr ⟨_, _, _, rfl, rfl, takes, others⟩)

theorem Match.Sweep.replaces {At : Taking} {value : List Char → List Char} {p : Pattern}
    {n : Nat} {before : Option Char} {text : List Char} {ms : List Match}
    (sweep : Sweep At n before text ms) (past : List Char) (cursor : n = byteSize past)
    (holds : ∀ m ∈ ms, m.Holds (past ++ text))
    (writes : ∀ m body, m.text = String.ofList body → (p.transform.apply m).toList = value body) :
    Replaces At value before text (p.replaceFrom (past ++ text) n ms) := by
  induction sweep generalizing past with
  | done =>
    subst cursor
    rw [p.replaceFrom_nil]
    exact .done
  | kept absent others ih =>
    rename_i n before c rest ms
    subst cursor
    have moved : byteSize past + c.utf8Size = byteSize (past ++ [c]) := by
      rw [byteSize_append]
      rfl
    have whole : past ++ (c :: rest) = past ++ [c] ++ rest := (List.append_assoc past [c] rest).symm
    have spread : Spread (byteSize past + byteSize [c]) rest ms := others.spread
    have first := p.replaceFrom_behind past [c] rest spread
    have later := ih (past ++ [c]) moved (whole ▸ holds)
    rw [← whole, moved, byteSize_append] at later
    exact (congrArg (Replaces At value before (c :: rest)) first).mpr (.kept absent later)
  | found takes starts stops others ih =>
    rename_i n before body rest m ms
    subst cursor
    obtain ⟨held, further⟩ := List.forall_mem_cons.mp holds
    have whole : past ++ (body ++ rest) = past ++ body ++ rest := (List.append_assoc ..).symm
    have stopsAt : m.stop = byteSize (past ++ body) := by rw [stops, byteSize_append]
    have taken : m.text = String.ofList body := by
      have whole : m.Holds (past ++ ([] ++ (body ++ rest))) := held
      have ends : m.stop = m.start + byteSize body := by rw [stops, starts]
      exact whole.text starts ends
    have first := p.replaceFrom_cons past [] (body ++ rest) m ms starts
    have later := ih (past ++ body) stopsAt (whole ▸ further)
    rw [List.nil_append, List.nil_append, writes m body taken] at first
    rw [← whole] at later
    rw [first]
    exact .replaced takes later

/-- What a pattern makes of a text, if its matches are those of `At` and it writes `value body` for
each. -/
theorem Pattern.applyAll_replaces {p : Pattern} {At : Taking} {value : List Char → List Char}
    (sweeps : p.matcher.Sweeps At)
    (writes : ∀ m body, m.text = String.ofList body → (p.transform.apply m).toList = value body)
    (content : String) : Replaces At value none content.toList (p.applyAll content).1.toList := by
  have replaces := (sweeps content).replaces [] rfl (p.matcher.find_holds content) writes
  rwa [p.applyAll_text, String.toList_ofList]

end Uplift
