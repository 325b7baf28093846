import Uplift.Check.Delimiters
import Uplift.Plan.Builder
import Uplift.Proofs.Analysis.Splices
import Uplift.Proofs.Pattern.Keywords
import Uplift.Proofs.Text.Splitting

/-!
# Keyword rewrites and lines

The keyword `var` is found with all the blanks behind it, and newlines are blanks. Where one of
these is a newline, two lines become one. Everywhere else every line is rewritten on its own
(`varToLet_line_structure`).
-/

namespace Uplift

open Regex (Taking behind behind_append isWord)
open Pattern (VarKeyword varToLet varKeyword_begins_iff letText)
open Text (splitAll)

/-- In a text behind `before` stands a keyword `var` with a newline among the blanks behind it. -/
def VarBeforeNewline (before : Option Char) (text : List Char) : Prop :=
  ∃ head blanks tail, text = head ++ 'v' :: 'a' :: 'r' :: (blanks ++ '\n' :: tail) ∧
    isWord (behind before head) = false ∧ ∀ c ∈ blanks, Text.isBlank c = true

theorem isBlank_newline : Text.isBlank '\n' = true := by decide

theorem newline_mem_of_blanks {blanks rest blanks' tail : List Char}
    (all : ∀ c, rest.head? = some c → Text.isBlank c = false)
    (blank' : ∀ c ∈ blanks', Text.isBlank c = true)
    (parts : blanks ++ rest = blanks' ++ '\n' :: tail) : '\n' ∈ blanks := by
  rcases List.append_eq_append_iff.mp parts with ⟨between, rfl, later⟩ | ⟨inner, rfl, later⟩
  · subst later
    cases between with
    | nil => exact absurd (all '\n' rfl) (by decide)
    | cons c between =>
      have blank := blank' c (by simp)
      rw [all c rfl] at blank
      cases blank
  · cases inner with
    | nil =>
      subst later
      exact absurd (all '\n' rfl) (by decide)
    | cons c inner =>
      obtain ⟨rfl, -⟩ := List.cons.inj later
      simp

namespace VarBeforeNewline

variable {before : Option Char} {c : Char} {body rest : List Char}

/-- A newline among the blanks ends a keyword, however many blanks come after it. -/
theorem begins {blanks tail : List Char} (apart : isWord before = false)
    (blank : ∀ c ∈ blanks, Text.isBlank c = true) :
    VarKeyword.Begins before ('v' :: 'a' :: 'r' :: (blanks ++ '\n' :: tail)) := by
  refine varKeyword_begins_iff.mpr ⟨apart, ?_⟩
  cases blanks with
  | nil => exact ⟨'\n', tail, rfl, isBlank_newline⟩
  | cons b blanks => exact ⟨b, blanks ++ '\n' :: tail, rfl, blank b List.mem_cons_self⟩

theorem cons_iff (absent : ¬VarKeyword.Begins before (c :: rest)) :
    VarBeforeNewline before (c :: rest) ↔ VarBeforeNewline (some c) rest := by
  constructor
  · rintro ⟨head, blanks, tail, parts, apart, blank⟩
    cases head with
    | nil => exact absurd (parts ▸ begins apart blank) absent
    | cons d head =>
      obtain ⟨rfl, rfl⟩ := List.cons.inj parts
      exact ⟨head, blanks, tail, rfl, apart, blank⟩
  · rintro ⟨head, blanks, tail, rfl, apart, blank⟩
    exact ⟨c :: head, blanks, tail, rfl, apart, blank⟩

theorem behind_front {front : List Char} (there : VarBeforeNewline (behind before front) rest) :
    VarBeforeNewline before (front ++ rest) := by
  obtain ⟨head, blanks, tail, rfl, apart, blank⟩ := there
  refine ⟨front ++ head, blanks, tail, (List.append_assoc ..).symm, ?_, blank⟩
  rwa [behind_append]

theorem append_iff (takes : VarKeyword before body rest) :
    VarBeforeNewline before (body ++ rest) ↔
      '\n' ∈ body ∨ VarBeforeNewline (behind before body) rest := by
  obtain ⟨apart, -, blank, all⟩ := takes
  rename_i blanks
  constructor
  · rintro ⟨head, blanks', tail, parts, apart', blank'⟩
    rcases List.append_eq_append_iff.mp parts with ⟨between, rfl, later⟩ | ⟨inner, own, later⟩
    · rw [behind_append] at apart'
      exact .inr ⟨between, blanks', tail, later, apart', blank'⟩
    · cases inner with
      | nil =>
        obtain rfl : 'v' :: 'a' :: 'r' :: blanks = head := own.trans (List.append_nil head)
        exact .inr ⟨[], blanks', tail, later.symm, apart', blank'⟩
      | cons d inner =>
        obtain ⟨rfl, later⟩ := List.cons.inj later
        -- Of what is taken only the first character is a `v`.
        cases head with
        | nil =>
          obtain ⟨-, rfl⟩ := List.cons.inj own
          have behindIt : blanks ++ rest = blanks' ++ '\n' :: tail := by simpa using later.symm
          exact .inl (by simp [newline_mem_of_blanks all blank' behindIt])
        | cons h head =>
          have others : 'a' :: 'r' :: blanks = head ++ 'v' :: inner := (List.cons.inj own).2
          have among : 'v' ∈ 'a' :: 'r' :: blanks := by simp [others]
          have letter : 'v' ∈ blanks := by simpa using among
          exact absurd (blank 'v' letter) (by decide)
  · rintro (inside | there)
    · have among : '\n' ∈ blanks := by simpa using inside
      obtain ⟨front, back, rfl⟩ := List.append_of_mem among
      refine ⟨[], front, back ++ rest, ?_, apart, ?_⟩
      · simp
      · intro c member
        exact blank c (List.mem_append_left _ member)
    · exact there.behind_front

end VarBeforeNewline

/-! ### Newlines kept and lost -/

abbrev ReplacesVar : Option Char → List Char → List Char → Prop :=
  Replaces VarKeyword fun _ => letText

theorem newline_notMem_let : '\n' ∉ letText := by decide

namespace ReplacesVar

variable {before : Option Char} {text out : List Char}

theorem count_newline (replaces : ReplacesVar before text out) :
    out.count '\n' ≤ text.count '\n' ∧
      (out.count '\n' = text.count '\n' ↔ ¬VarBeforeNewline before text) := by
  induction replaces with
  | done =>
    refine ⟨Nat.le_refl _, iff_of_true rfl ?_⟩
    rintro ⟨head, blanks, tail, parts, -, -⟩
    simp at parts
  | kept absent others ih =>
    rw [VarBeforeNewline.cons_iff absent, List.count_cons, List.count_cons]
    obtain ⟨fewer, same⟩ := ih
    refine ⟨by omega, ?_⟩
    rw [← same]
    omega
  | replaced takes others ih =>
    rename_i before body rest out
    obtain ⟨fewer, same⟩ := ih
    have written : letText.count '\n' = 0 := List.count_eq_zero.mpr newline_notMem_let
    have own : body.count '\n' = 0 ↔ '\n' ∉ body := List.count_eq_zero
    rw [VarBeforeNewline.append_iff takes, List.count_append, List.count_append, written, not_or,
      ← same, ← own]
    omega

theorem newline_notMem (replaces : ReplacesVar before text out) (free : '\n' ∉ text) :
    '\n' ∉ out := by
  have fewer := replaces.count_newline.1
  rw [List.count_eq_zero.mpr free] at fewer
  exact List.count_eq_zero.mp (Nat.le_zero.mp fewer)

end ReplacesVar

/-! ### One line after the other -/

theorem takeWhile_blanks {blanks rest : List Char} (blank : ∀ c ∈ blanks, Text.isBlank c = true)
    (all : ∀ c, rest.head? = some c → Text.isBlank c = false) :
    (blanks ++ rest).takeWhile Text.isBlank = blanks := by
  rw [List.takeWhile_append_of_pos blank]
  cases rest with
  | nil => simp
  | cons c rest => simp [all c rfl]

theorem Pattern.VarKeyword.congr {before before' : Option Char} {body rest : List Char}
    (takes : VarKeyword before body rest) (same : isWord before = isWord before') :
    VarKeyword before' body rest := by
  obtain ⟨apart, given, blank, all⟩ := takes
  exact .intro (same ▸ apart) given blank all

theorem Pattern.VarKeyword.unique {before before' : Option Char} {body rest body' rest' : List Char}
    (takes : VarKeyword before body rest) (takes' : VarKeyword before' body' rest')
    (same : body ++ rest = body' ++ rest') : body = body' := by
  obtain ⟨-, -, blank, all⟩ := takes
  obtain ⟨-, -, blank', all'⟩ := takes'
  rename_i blanks blanks'
  have behindIt : blanks ++ rest = blanks' ++ rest' := by simpa using same
  rw [← takeWhile_blanks blank all, behindIt, takeWhile_blanks blank' all']

namespace ReplacesVar

variable {before : Option Char} {text out : List Char}

theorem unique (replaces : ReplacesVar before text out) {before' : Option Char} {out' : List Char}
    (same : isWord before' = isWord before) (replaces' : ReplacesVar before' text out') :
    out = out' := by
  induction replaces generalizing before' out' with
  | done =>
    rcases replaces'.text_cases with ⟨-, rfl⟩ | ⟨c, rest, _, parts, -⟩ |
      ⟨body, rest, _, parts, -, takes, -⟩
    · rfl
    · cases parts
    · exact absurd (List.append_eq_nil_iff.mp parts.symm).1 (VarKeyword.advances _ _ _ takes)
  | kept absent others ih =>
    rcases replaces'.text_cases with ⟨parts, -⟩ | ⟨c, rest, _, parts, rfl, -, others'⟩ |
      ⟨body, rest, _, parts, -, takes, -⟩
    · cases parts
    · obtain ⟨rfl, rfl⟩ := List.cons.inj parts
      rw [ih rfl others']
    · exact absurd ⟨body, rest, parts, takes.congr same⟩ absent
  | replaced takes others ih =>
    rename_i before body rest out
    rcases replaces'.text_cases with ⟨parts, -⟩ | ⟨c, _, _, -, -, absent, -⟩ |
      ⟨body', rest', _, parts, rfl, takes', others'⟩
    · exact absurd (List.append_eq_nil_iff.mp parts).1 (VarKeyword.advances _ _ _ takes)
    · exact absurd ⟨body, rest, rfl, takes.congr same.symm⟩ absent
    · obtain rfl := takes.unique takes' parts
      obtain rfl := List.append_cancel_left parts
      rw [ih ?_ others']
      obtain ⟨-, -, -, -⟩ := takes
      rfl

theorem split_at_newline (replaces : ReplacesVar before text out)
    (keeps : ¬VarBeforeNewline before text) {line rest : List Char}
    (parts : text = line ++ '\n' :: rest) (free : '\n' ∉ line) :
    ∃ line' rest', out = line' ++ '\n' :: rest' ∧ ReplacesVar before line line' ∧
      ReplacesVar (some '\n') rest rest' ∧ ¬VarBeforeNewline (some '\n') rest := by
  induction replaces generalizing line with
  | done => simp at parts
  | kept absent others ih =>
    rename_i before c text out
    rw [VarBeforeNewline.cons_iff absent] at keeps
    cases line with
    | nil =>
      obtain ⟨rfl, rfl⟩ := List.cons.inj parts
      exact ⟨[], out, rfl, .done, others, keeps⟩
    | cons d line =>
      obtain ⟨rfl, rfl⟩ := List.cons.inj parts
      obtain ⟨line', rest', rfl, own, further, kept⟩ :=
        ih keeps rfl fun member => free (List.mem_cons_of_mem c member)
      refine ⟨c :: line', rest', rfl, .kept ?_ own, further, kept⟩
      intro begins
      obtain ⟨apart, b, more, starts, blank⟩ := varKeyword_begins_iff.mp begins
      refine absent (varKeyword_begins_iff.mpr ⟨apart, b, more ++ '\n' :: rest, ?_, blank⟩)
      exact congrArg (· ++ '\n' :: rest) starts
  | replaced takes others ih =>
    rename_i before body text out
    rw [VarBeforeNewline.append_iff takes, not_or] at keeps
    obtain ⟨whole, keeps⟩ := keeps
    obtain ⟨more, rfl, rfl⟩ : ∃ more, line = body ++ more ∧ text = more ++ '\n' :: rest := by
      rcases List.append_eq_append_iff.mp parts with ⟨more, own, later⟩ | ⟨inner, rfl, later⟩
      · exact ⟨more, own, later⟩
      · cases inner with
        | nil => exact ⟨[], by simp, later.symm⟩
        | cons d inner =>
          obtain ⟨rfl, -⟩ := List.cons.inj later
          simp at whole
    obtain ⟨line', rest', rfl, own, further, kept⟩ :=
      ih keeps rfl fun member => free (List.mem_append_right body member)
    have shorter : VarKeyword before body more := by
      obtain ⟨apart, given, blank, all⟩ := takes
      refine .intro apart given blank fun c next => all c ?_
      rw [List.head?_append, next]
      rfl
    exact ⟨letText ++ line', rest', (List.append_assoc ..).symm, .replaced shorter own, further, kept⟩

end ReplacesVar

namespace Pattern

theorem varToLet_replaces (content : String) :
    ReplacesVar none content.toList (varToLet.applyAll content).1.toList :=
  applyAll_replaces varToLet_sweeps (fun _ _ _ => toList_let) content

def letLine (line : List Char) : List Char := (varToLet.applyAll (String.ofList line)).1.toList

theorem letLine_replaces (line : List Char) : ReplacesVar none line (letLine line) := by
  have replaces := varToLet_replaces (String.ofList line)
  rwa [String.toList_ofList] at replaces

/-- Every line is rewritten on its own, if no keyword is the last word of one. -/
theorem splitAll_of_replaces {before : Option Char} {text out : List Char}
    (replaces : ReplacesVar before text out) (apart : isWord before = false)
    (keeps : ¬VarBeforeNewline before text) :
    splitAll '\n' out = (splitAll '\n' text).map letLine := by
  induction long : text.length using Nat.strongRecOn generalizing before text out with
  | ind size ih =>
    have start : isWord none = isWord before := apart.symm
    by_cases newline : '\n' ∈ text
    · obtain ⟨line, rest, rfl, free⟩ := List.eq_append_cons_of_mem newline
      obtain ⟨line', rest', rfl, own, further, kept⟩ := replaces.split_at_newline keeps rfl free
      have shorter : rest.length < size := by
        rw [← long, List.length_append, List.length_cons]
        omega
      have same : line' = letLine line := own.unique start (letLine_replaces line)
      have others := ih _ shorter further (by decide) kept rfl
      have free' := own.newline_notMem free
      rw [Text.splitAll_append, Text.splitAll_append, Text.splitAll_of_notMem free,
        Text.splitAll_of_notMem free', others, same]
      rfl
    · have same : out = letLine text := replaces.unique start (letLine_replaces text)
      rw [Text.splitAll_of_notMem newline, Text.splitAll_of_notMem (replaces.newline_notMem newline),
        same]
      rfl

theorem rows_applyAll {content : String} (keeps : ¬VarBeforeNewline none content.toList) :
    Text.rows (varToLet.applyAll content).1 =
      (Text.rows content).map fun row => (varToLet.applyAll row).1 := by
  have lines := splitAll_of_replaces (varToLet_replaces content) rfl keeps
  rw [Text.rows, lines, Text.rows, List.map_map, List.map_map]
  refine List.map_congr_left fun line _ => ?_
  exact String.ofList_toList

end Pattern

/-! ### Line counts -/

open Text (endsOpen endsOpen_append endsOpen_of_notMem)

/-- A rewrite of the keyword, with the text around the place where it works and around the place
where its match was found. -/
structure VarRewrite (content : String) (r : Rewrite) : Prop where
  found : ∃ head rest, content.toList = head ++ (r.matched.toList ++ rest) ∧
    VarKeyword (behind none head) r.matched.toList rest
  place : ∃ head tail : String, r.before = head ++ r.matched ++ tail ∧
    r.after = head ++ "let " ++ tail

namespace VarRewrite

variable {content : String} {r : Rewrite}

theorem of_listed {path : Path}
    (listed : r ∈ (Analysis.ofContent path content [varToLet]).rewrites) :
    VarRewrite content r := by
  obtain ⟨splices, rewrites, -, fits, -⟩ :=
    Analysis.rewritesBy_splices (fun p => p.matcher.find_sound) [varToLet] content
  have among : r ∈ splices.map Analysis.Splice.rewrite := rewrites ▸ listed
  obtain ⟨s, member, rfl⟩ := List.mem_map.mp among
  have fit := fits s member
  have pattern := fit.pattern
  have found := fit.found
  cases index : s.turn.index with
  | succ i =>
    rw [index] at pattern
    cases pattern
  | zero =>
    rw [index] at pattern found
    have own : varToLet = s.rewrite.pattern := Option.some.inj pattern
    have inContent : s.turn.found ∈ varToLet.matcher.find content := own ▸ found
    obtain ⟨head, body, rest, parts, takes, text⟩ := Pattern.varToLet_sweeps.taken inContent
    have matched : s.rewrite.matched.toList = body := by
      rw [fit.matched, text, String.toList_ofList]
    have written : s.rewrite.replacement = "let " := by
      rw [fit.replacement, ← own]
      rfl
    constructor
    · rw [matched]
      exact ⟨head, rest, parts, takes⟩
    · exact ⟨s.head, s.tail, fit.before, written ▸ fit.after⟩

theorem matched_ne_nil (rewrite : VarRewrite content r) : r.matched.toList ≠ [] := by
  obtain ⟨_, rest, -, takes⟩ := rewrite.found
  exact VarKeyword.advances _ _ _ takes

theorem newline_notMem (rewrite : VarRewrite content r)
    (keeps : ¬VarBeforeNewline none content.toList) : '\n' ∉ r.matched.toList := by
  intro inside
  obtain ⟨head, rest, parts, takes⟩ := rewrite.found
  have there : VarBeforeNewline (behind none head) (r.matched.toList ++ rest) :=
    (VarBeforeNewline.append_iff takes).mpr (.inl inside)
  exact keeps (parts ▸ there.behind_front)

theorem lineDelta (rewrite : VarRewrite content r) :
    (Text.lineCount r.after : Int) - Text.lineCount r.before =
      (endsOpen r.after.toList).toNat - (endsOpen r.before.toList).toNat -
        r.matched.toList.count '\n' := by
  obtain ⟨head, tail, before, after⟩ := rewrite.place
  have written : "let ".toList.count '\n' = 0 := by decide
  have counts : r.before.toList.count '\n' =
      r.after.toList.count '\n' + r.matched.toList.count '\n' := by
    rw [before, after]
    simp only [String.toList_append, List.count_append, written]
    omega
  rw [Text.lineCount_eq, Text.lineCount_eq, counts]
  omega

theorem endsOpen_eq (rewrite : VarRewrite content r) (free : '\n' ∉ r.matched.toList) :
    endsOpen r.after.toList = endsOpen r.before.toList := by
  obtain ⟨head, tail, before, after⟩ := rewrite.place
  rw [before, after, String.toList_append, String.toList_append, String.toList_append,
    String.toList_append]
  by_cases last : tail.toList = []
  · rw [last, List.append_nil, List.append_nil, endsOpen_append _ rewrite.matched_ne_nil,
      endsOpen_of_notMem rewrite.matched_ne_nil free, endsOpen_append _ (by decide)]
    decide
  · rw [endsOpen_append _ last, endsOpen_append _ last]

end VarRewrite

/-- What becomes of the lines of a text when `var` is swapped for `let`. The newlines stay exactly
if none stands among the blanks behind a keyword, and in that case every line is rewritten on its
own and no step gains or loses one. In any case a step loses the newlines that its match holds,
except for one that only ended the last line of its text. -/
theorem varToLet_line_structure (path : Path) (content : String) (policy : RiskPolicy) :
    let out := (varToLet.applyAll content).1
    let rewrites := (Analysis.ofContent path content [varToLet]).rewrites
    (out.toList.count '\n' = content.toList.count '\n' ↔
      ¬VarBeforeNewline none content.toList) ∧
    (Text.rows out = (Text.rows content).map (fun row => (varToLet.applyAll row).1) ↔
      ¬VarBeforeNewline none content.toList) ∧
    (∀ r ∈ rewrites, ∀ position, (Step.ofRewrite policy path position r).lineDelta? =
      some (((endsOpen r.after.toList).toNat : Int) - (endsOpen r.before.toList).toNat -
        r.matched.toList.count '\n')) ∧
    (¬VarBeforeNewline none content.toList → ∀ r ∈ rewrites, ∀ position,
      (Step.ofRewrite policy path position r).lineDelta? = some 0) := by
  intro out rewrites
  have counts := (Pattern.varToLet_replaces content).count_newline.2
  have deltas : ∀ r ∈ rewrites, ∀ position, (Step.ofRewrite policy path position r).lineDelta? =
      some (((endsOpen r.after.toList).toNat : Int) - (endsOpen r.before.toList).toNat -
        r.matched.toList.count '\n') := by
    intro r listed position
    exact congrArg some (VarRewrite.of_listed listed).lineDelta
  refine ⟨counts, ⟨fun rows => counts.mp ?_, Pattern.rows_applyAll⟩, deltas, ?_⟩
  · have lengths := congrArg List.length rows
    simp only [Text.rows, List.length_map, Text.length_splitAll] at lengths
    exact Nat.add_right_cancel lengths
  · intro keeps r listed position
    have rewrite := VarRewrite.of_listed listed
    have free := rewrite.newline_notMem keeps
    rw [deltas r listed position, rewrite.endsOpen_eq free, List.count_eq_zero.mpr free]
    simp

/-- A keyword in the code and one in a comment, neither the last word of its line. -/
theorem wordsInside_keep_lines :
    let content := "var x; // a var y\nf();\n"
    (varToLet.applyAll content).1 = "let x; // a let y\nf();\n" ∧
      ¬VarBeforeNewline none content.toList ∧
      ∀ r ∈ (Analysis.ofContent ⟨"a.js"⟩ content [varToLet]).rewrites, ∀ position,
        (Step.ofRewrite {} ⟨"a.js"⟩ position r).lineDelta? = some 0 := by
  intro content
  have out : (varToLet.applyAll content).1 = "let x; // a let y\nf();\n" := by decide +kernel
  obtain ⟨counts, -, -, steps⟩ := varToLet_line_structure ⟨"a.js"⟩ content {}
  rw [out] at counts
  have keeps : ¬VarBeforeNewline none content.toList := counts.mp (by decide)
  exact ⟨out, keeps, steps keeps⟩

/-- The keyword ends a comment, and the bracket of the next line becomes part of it: a newline is
lost, the step loses a line, and a balanced text is balanced no more. -/
theorem lastWord_swallows_bracket :
    let content := "\x7b // no var\n\x7d\n"
    let out := "\x7b // no let \x7d\n"
    (varToLet.applyAll content).1 = out ∧
      out.toList.count '\n' ≠ content.toList.count '\n' ∧
      ((Analysis.ofContent ⟨"a.js"⟩ content [varToLet]).rewrites.map fun r =>
        (Step.ofRewrite {} ⟨"a.js"⟩ 0 r).lineDelta?) = [some (-1)] ∧
      Delimiters.issue? content = none ∧ Delimiters.issue? out = some (.unclosed '\x7b') := by
  decide +kernel

end Uplift
