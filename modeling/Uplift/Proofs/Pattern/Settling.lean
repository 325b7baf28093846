import Mathlib.Data.List.Infix
import Uplift.Proofs.Analysis.OnePass
import Uplift.Proofs.Pattern.Keywords

/-!
# Keyword rewrites that settle

What a keyword pattern writes is nothing that it finds, neither alone nor together with the text
around it, so to run the pattern again changes nothing. `Settles` says what has to be known of a
kind of match and of what is written for it; the result follows for all texts
(`Replaces.nowhere`).
-/

namespace Uplift

open Regex (Taking behind isWord isWord_behind)

/-- Nothing begins in the result of a replacement: not at a character that was kept, not inside what
was written, and behind it the place looks as before. -/
structure Settles (At : Taking) (value : List Char → List Char) : Prop where
  kept : ∀ {before before' c rest out}, isWord before' = isWord before →
    Replaces At value (some c) rest out → At.Begins before' (c :: out) →
      At.Begins before (c :: rest)
  inside : ∀ {before before' body rest head c tail}, isWord before' = isWord before →
    At before body rest → value body = head ++ c :: tail →
      ∀ out, ¬At.Begins (behind before' head) (c :: (tail ++ out))
  edge : ∀ {before before' body rest}, At before body rest →
    isWord (behind before' (value body)) = isWord (behind before body)

theorem Regex.Taking.nowhere_append {At : Taking} {before : Option Char} {front back : List Char}
    (inside : ∀ head c tail, front = head ++ c :: tail →
      ¬At.Begins (behind before head) (c :: (tail ++ back)))
    (others : At.Nowhere (behind before front) back) : At.Nowhere before (front ++ back) := by
  induction front generalizing before with
  | nil => exact others
  | cons c front ih =>
    refine ⟨inside [] c front rfl, ih ?_ others⟩
    intro head d tail parts
    exact inside (c :: head) d tail (congrArg (c :: ·) parts)

namespace Replaces

variable {At : Taking} {value : List Char → List Char} {before : Option Char}
  {text out : List Char}

/-- The result has nothing left to replace, also behind another character of the same class. -/
theorem nowhere (replaces : Replaces At value before text out) (settles : Settles At value)
    {before' : Option Char} (same : isWord before' = isWord before) : At.Nowhere before' out := by
  induction replaces generalizing before' with
  | done => trivial
  | kept absent others ih =>
    exact ⟨fun begins => absent (settles.kept same others begins), ih rfl⟩
  | replaced takes others ih =>
    refine Taking.nowhere_append ?_ (ih (settles.edge takes))
    intro head c tail written
    exact settles.inside same takes written _

theorem cons_cases {c : Char} (replaces : Replaces At value before text (c :: out)) :
    (∃ rest, text = c :: rest ∧ Replaces At value (some c) rest out) ∨
      ∃ body rest others, At before body rest ∧ c :: out = value body ++ others := by
  rcases replaces.text_cases with ⟨-, written⟩ | ⟨d, rest, out', rfl, written, -, others⟩ |
    ⟨body, rest, others, -, written, takes, -⟩
  · cases written
  · obtain ⟨rfl, rfl⟩ := List.cons.inj written
    exact .inl ⟨rest, rfl, others⟩
  · exact .inr ⟨body, rest, others, takes, written⟩

/-- A front of the result in which no replacement begins stood there before. -/
theorem copied {front back : List Char} (replaces : Replaces At value before text (front ++ back))
    (clear : ∀ head c tail, front = head ++ c :: tail → ∀ body rest, At (behind before head) body rest →
      ∃ d others, value body = d :: others ∧ d ≠ c) :
    ∃ rest, text = front ++ rest ∧ Replaces At value (behind before front) rest back := by
  induction front generalizing before text with
  | nil => exact ⟨text, rfl, replaces⟩
  | cons c front ih =>
    rcases replaces.cons_cases with ⟨rest, rfl, others⟩ | ⟨body, rest, others, takes, written⟩
    · obtain ⟨more, rfl, further⟩ := ih others fun head d tail parts =>
        clear (c :: head) d tail (congrArg (c :: ·) parts)
      exact ⟨more, rfl, further⟩
    · obtain ⟨d, tail, starts, other⟩ := clear [] c front rfl body rest takes
      rw [starts] at written
      exact absurd (List.cons.inj written).1.symm other

/-- So does one without the character that all replacements begin with. -/
theorem copied_of_lead {lead : Char} {front back : List Char}
    (replaces : Replaces At value before text (front ++ back))
    (leads : ∀ body, (value body).head? = some lead) (absent : lead ∉ front) :
    ∃ rest, text = front ++ rest ∧ Replaces At value (behind before front) rest back := by
  refine replaces.copied fun head c tail parts body rest _ => ?_
  obtain ⟨others, starts⟩ := List.head?_eq_some_iff.mp (leads body)
  refine ⟨lead, others, starts, ?_⟩
  rintro rfl
  exact absent (parts ▸ List.mem_append_right head List.mem_cons_self)

theorem isWord_head (replaces : Replaces At value before text out)
    (starts : ∀ before body rest, At before body rest → ∃ c d others others',
      body = c :: others ∧ value body = d :: others' ∧ isWord (some d) = isWord (some c)) :
    isWord out.head? = isWord text.head? := by
  cases replaces with
  | done => rfl
  | kept absent others => rfl
  | replaced takes others =>
    obtain ⟨c, d, _, _, first, first', same⟩ := starts _ _ _ takes
    rw [first', first]
    exact same

end Replaces

namespace Pattern

/-! ### Blanks and word characters -/

def wideBlanks : List (Nat × Nat) :=
  [(0x85, 0x85), (0xa0, 0xa0), (0x1680, 0x1680), (0x2000, 0x200a), (0x2028, 0x2029), (0x202f, 0x202f),
    (0x205f, 0x205f), (0x3000, 0x3000)]

theorem wideBlanks_apart : ∀ b ∈ wideBlanks,
    Text.Table.word.toList.all (fun w => Nat.blt w.2 b.1 || Nat.blt b.2 w.1) = true := by
  decide +kernel

theorem isWordChar_of_isBlank {c : Char} (blank : Text.isBlank c = true) :
    Text.isWordChar c = false := by
  simp only [Text.isBlank, Bool.or_eq_true, Bool.and_eq_true, decide_eq_true_eq, beq_iff_eq] at blank
  by_cases narrow : c.toNat < 0x80
  · have codes : ∀ n ∈ [0x9, 0xa, 0xb, 0xc, 0xd, 0x20],
        Text.isWordChar (Char.ofNat n) = false := by
      decide
    have listed : c.toNat ∈ [0x9, 0xa, 0xb, 0xc, 0xd, 0x20] := by
      simp only [List.mem_cons, List.not_mem_nil, or_false]
      omega
    have same := codes c.toNat listed
    rwa [Char.ofNat_toNat] at same
  · have listed : ∃ b ∈ wideBlanks, b.1 ≤ c.toNat ∧ c.toNat ≤ b.2 := by
      simp only [wideBlanks, List.mem_cons, List.not_mem_nil, or_false, exists_eq_or_imp,
        exists_eq_left]
      omega
    obtain ⟨b, member, above, below⟩ := listed
    rw [Text.isWordChar, if_neg narrow, Text.inRanges, ← Array.any_toList, List.any_eq_false]
    intro w within
    have apart := List.all_eq_true.mp (wideBlanks_apart b member) w within
    simp only [Bool.or_eq_true, Nat.blt_eq, Bool.and_eq_true, decide_eq_true_eq, not_and,
      Nat.not_le] at apart ⊢
    omega

/-! ### `var` -/

theorem var_settles : Settles VarKeyword fun _ => letText where
  kept := by
    intro before before' c rest out same others begins
    obtain ⟨apart, b, back, parts, blank⟩ := varKeyword_begins_iff.mp begins
    obtain ⟨rfl, rfl⟩ := List.cons.inj parts
    have absent : 'l' ∉ ['a', 'r', b] := by
      simp only [List.mem_cons, List.not_mem_nil, or_false, not_or]
      refine ⟨by decide, by decide, ?_⟩
      rintro rfl
      exact absurd blank (by decide)
    have written : Replaces VarKeyword _ (some 'v') rest (['a', 'r', b] ++ back) := others
    obtain ⟨more, rfl, -⟩ := written.copied_of_lead (fun _ => rfl) absent
    exact varKeyword_begins_iff.mpr ⟨same ▸ apart, b, more, rfl, blank⟩
  inside := by
    intro before before' body rest head c tail _ _ written out begins
    obtain ⟨-, b, back, parts, -⟩ := varKeyword_begins_iff.mp begins
    obtain ⟨rfl, -⟩ := List.cons.inj parts
    have member : 'v' ∈ letText := written ▸ List.mem_append_right head List.mem_cons_self
    exact absurd member (by decide)
  edge := by
    rintro before before' _ rest ⟨-, given, blank, -⟩
    rename_i blanks
    obtain ⟨front, c, rfl⟩ := List.eq_nil_or_concat blanks |>.resolve_left given
    have last : behind before ('v' :: 'a' :: 'r' :: (front ++ [c])) = some c :=
      Regex.behind_concat before ('v' :: 'a' :: 'r' :: front) c
    have apart : isWord (some c) = false := isWordChar_of_isBlank (blank c (by simp))
    rw [List.concat_eq_append, last, apart]
    rfl

/-! ### `any` -/

def unknownText : List Char := [':', ' ', 'u', 'n', 'k', 'n', 'o', 'w', 'n']

theorem toList_unknown : ": unknown".toList = unknownText := by decide

theorem any_settles : Settles AnyType fun _ => unknownText where
  kept := by
    rintro before before' c rest out same others ⟨_, back, parts, ⟨blank, apart⟩⟩
    rename_i blanks
    obtain ⟨rfl, rfl⟩ := List.cons.inj parts
    have absent : ':' ∉ blanks ++ ['a', 'n', 'y'] := by
      intro member
      rcases List.mem_append.mp member with gap | word
      · exact absurd (blank ':' gap) (by decide)
      · exact absurd word (by decide)
    obtain ⟨more, rfl, further⟩ := others.copied_of_lead (fun _ => rfl) absent
    have next : isWord back.head? = isWord more.head? := by
      refine further.isWord_head ?_
      rintro _ _ _ ⟨-, -⟩
      exact ⟨':', ':', _, _, rfl, rfl, rfl⟩
    exact ⟨_, more, rfl, .intro blank (next ▸ apart)⟩
  inside := by
    rintro before before' body rest head c tail - - written out ⟨_, back, parts, ⟨blank, -⟩⟩
    rename_i blanks
    obtain ⟨rfl, others⟩ := List.cons.inj parts
    cases head with
    | nil =>
      obtain ⟨-, rfl⟩ := List.cons.inj written
      -- Behind the blank comes a letter, which is not that of `any`.
      match blanks with
      | [] => simp at others
      | [b] => simp at others
      | b :: b' :: _ =>
        obtain ⟨-, others⟩ := List.cons.inj others
        obtain ⟨rfl, -⟩ := List.cons.inj others
        exact absurd (blank 'u' (by simp)) (by decide)
    | cons d head =>
      have others : unknownText.tail = head ++ ':' :: tail := (List.cons.inj written).2
      have member : ':' ∈ unknownText.tail :=
        others ▸ List.mem_append_right head List.mem_cons_self
      exact absurd member (by decide)
  edge := by
    rintro before before' _ rest ⟨-, -⟩
    rename_i blanks
    have last : behind before (':' :: (blanks ++ ['a', 'n', 'y'])) = some 'y' := by
      have whole : ':' :: (blanks ++ ['a', 'n', 'y']) = ':' :: blanks ++ ['a', 'n'] ++ ['y'] := by simp
      rw [whole, Regex.behind_concat]
    have last' : behind before' unknownText = some 'n' := rfl
    rw [last, last']
    decide

/-! ### Lifecycle methods -/

def unsafePrefix : List Char := ['U', 'N', 'S', 'A', 'F', 'E', '_']

theorem toList_unsafe : "UNSAFE_".toList = unsafePrefix := by decide

theorem lifecycles_settle : Settles LifecycleName fun name => unsafePrefix ++ name where
  kept := by
    rintro before before' c rest out same others ⟨name, back, parts, ⟨listed, starts, ends⟩⟩
    have word := isWordChar_of_listed listed
    obtain ⟨d, name, rfl⟩ := List.exists_cons_of_ne_nil (ne_nil_of_listed listed)
    obtain ⟨rfl, rfl⟩ := List.cons.inj parts
    -- What stands behind a character of a name is not replaced.
    have clear : ∀ head e tail, name = head ++ e :: tail → ∀ body rest,
        LifecycleName (behind (some c) head) body rest →
          ∃ first others, unsafePrefix ++ body = first :: others ∧ first ≠ e := by
      rintro head e tail rfl body rest ⟨-, apart, -⟩
      have front : ∀ x ∈ c :: head, Text.isWordChar x = true :=
        fun x member => word x (List.mem_append_left (e :: tail) member)
      have inside : isWord (behind before (c :: head)) = true :=
        isWord_behind front (List.cons_ne_nil c head)
      exact absurd (inside.symm.trans apart) (by decide)
    obtain ⟨more, rfl, further⟩ := others.copied clear
    have next : isWord back.head? = isWord more.head? := by
      refine further.isWord_head ?_
      rintro _ body _ ⟨listed, -, -⟩
      have word := isWordChar_of_listed listed
      obtain ⟨x, others, rfl⟩ := List.exists_cons_of_ne_nil (ne_nil_of_listed listed)
      have first : isWord (some x) = true := word x List.mem_cons_self
      exact ⟨x, 'U', others, _, rfl, rfl, first.symm ▸ rfl⟩
    exact ⟨c :: name, more, rfl, .intro listed (same ▸ starts) (next ▸ ends)⟩
  inside := by
    rintro before before' body rest head c tail - ⟨listed, -, -⟩ written out
      ⟨name, back, parts, ⟨listed', apart, -⟩⟩
    obtain ⟨d, name, rfl⟩ := List.exists_cons_of_ne_nil (ne_nil_of_listed listed')
    obtain ⟨rfl, -⟩ := List.cons.inj parts
    cases head with
    | nil =>
      obtain ⟨rfl, -⟩ := List.cons.inj written
      have starts : ∀ name ∈ lifecycleNames, name.head? ≠ some 'U' := by decide
      exact absurd rfl (starts _ listed')
    | cons e head =>
      have front : ∀ x ∈ e :: head, Text.isWordChar x = true := by
        intro x member
        have whole : x ∈ unsafePrefix ++ body := written ▸ List.mem_append_left (c :: tail) member
        rcases List.mem_append.mp whole with lead | own
        · exact List.all_eq_true.mp (by decide : unsafePrefix.all Text.isWordChar = true) x lead
        · exact isWordChar_of_listed listed x own
      have within : isWord (behind before' (e :: head)) = true :=
        isWord_behind front (List.cons_ne_nil e head)
      exact absurd (within.symm.trans apart) (by decide)
  edge := by
    rintro before before' body rest ⟨listed, -, -⟩
    have word := isWordChar_of_listed listed
    have given := ne_nil_of_listed listed
    rw [Regex.behind_append, isWord_behind word given, isWord_behind word given]

/-! ### The renderer of tests -/

def shallowImport : List Char := "import \x7b shallow \x7d from 'enzyme';".toList

def renderImport : List Char := "import \x7b render \x7d from '@testing-library/react';".toList

theorem shallow_settles : Settles (fun _ body _ => body = shallowImport) fun _ => renderImport where
  kept := by
    rintro before before' c rest out - others ⟨_, back, parts, rfl⟩
    have cut : shallowImport = 'i' :: shallowImport.tail := by decide
    rw [cut] at parts
    obtain ⟨rfl, rfl⟩ := List.cons.inj parts
    have leads : renderImport.head? = some 'i' := by decide
    obtain ⟨more, rfl, -⟩ := others.copied_of_lead (fun _ => leads) (by decide)
    exact ⟨shallowImport, more, by rw [cut]; rfl, rfl⟩
  inside := by
    rintro before before' body rest head c tail - - written out ⟨_, back, parts, rfl⟩
    -- No end of what is written begins as the needle does, nor the other way round.
    have apart : ∀ last ∈ renderImport.tails, last ≠ [] →
        ¬last <+: shallowImport ∧ ¬shallowImport <+: last := by decide
    have listed : c :: tail ∈ renderImport.tails := (List.mem_tails _ _).mpr ⟨head, written.symm⟩
    obtain ⟨longer, shorter⟩ := apart _ listed (List.cons_ne_nil c tail)
    have both : c :: tail <+: shallowImport ++ back := ⟨out, parts⟩
    rcases List.prefix_or_prefix_of_prefix both (List.prefix_append shallowImport back) with l | r
    · exact longer l
    · exact shorter r
  edge := by
    rintro before before' _ rest rfl
    rfl

/-! ### The patterns -/

def keywordIds : List String :=
  ["var-to-let", "any-to-unknown", "legacy-lifecycles", "enzyme-to-rtl"]

theorem enzymeToTestingLibrary_sweeps :
    enzymeToTestingLibrary.matcher.Sweeps fun _ body _ => body = shallowImport :=
  Matcher.sweeps_literal (by decide)

theorem find_of_settles {p : Pattern} {At : Taking} {value : List Char → List Char}
    (sweeps : p.matcher.Sweeps At) (advances : At.Advances)
    (writes : ∀ m body, m.text = String.ofList body → (p.transform.apply m).toList = value body)
    (settles : Settles At value) (content : String) :
    p.matcher.find (p.applyAll content).1 = [] := by
  have replaces := applyAll_replaces sweeps writes content
  exact (sweeps (p.applyAll content).1).eq_nil advances (replaces.nowhere settles rfl)

theorem find_settled {p : Pattern} (listed : p ∈ builtin) (keyword : p.id ∈ keywordIds)
    (content : String) : p.matcher.find (p.applyAll content).1 = [] := by
  have four : builtin.filter (·.id ∈ keywordIds) =
      [varToLet, anyToUnknown, legacyLifecycles, enzymeToTestingLibrary] := rfl
  have member : p ∈ builtin.filter (·.id ∈ keywordIds) :=
    List.mem_filter.mpr ⟨listed, decide_eq_true keyword⟩
  simp only [four, List.mem_cons, List.not_mem_nil, or_false] at member
  rcases member with rfl | rfl | rfl | rfl
  · exact find_of_settles varToLet_sweeps VarKeyword.advances (fun _ _ _ => toList_let)
      var_settles content
  · exact find_of_settles anyToUnknown_sweeps AnyType.advances (fun _ _ _ => toList_unknown)
      any_settles content
  · refine find_of_settles legacyLifecycles_sweeps LifecycleName.advances ?_
      lifecycles_settle content
    intro m body taken
    have applied : legacyLifecycles.transform.apply m = "UNSAFE_" ++ m.text := rfl
    rw [applied, String.toList_append, toList_unsafe, taken, String.toList_ofList]
  · refine find_of_settles enzymeToTestingLibrary_sweeps ?_ (fun _ _ _ => rfl)
      shallow_settles content
    rintro before _ rest rfl
    decide

/-- A keyword pattern finds nothing in what it has made of a text: to run it again changes nothing,
and an analysis has no rewrite for it. -/
theorem keyword_rewrite_settles {p : Pattern} (listed : p ∈ builtin) (keyword : p.id ∈ keywordIds)
    (path : Path) (content : String) :
    let out := (p.applyAll content).1
    p.applyAll out = (out, 0) ∧ (Analysis.ofContent path out [p]).rewrites = [] := by
  intro out
  have none : p.matcher.find out = [] := find_settled listed keyword content
  constructor
  · rw [applyAll, Pattern.find, none]
    rfl
  · rw [Analysis.ofContent, Analysis.rewritesOf, Analysis.rewritesBy, Pattern.find, none]
    rfl

/-- Two keywords with blanks of several kinds behind them, and a word that only starts with one. -/
theorem varToLet_runs_once :
    varToLet ∈ builtin ∧ varToLet.id ∈ keywordIds ∧
      varToLet.applyAll "var var\u2003\nx, vary" = ("let let x, vary", 2) ∧
      varToLet.applyAll "let let x, vary" = ("let let x, vary", 0) ∧
      (Analysis.ofContent ⟨"a.js"⟩ "let let x, vary" [varToLet]).rewrites = [] := by
  have first : varToLet.applyAll "var var\u2003\nx, vary" = ("let let x, vary", 2) := by
    decide +kernel
  have listed : varToLet ∈ builtin := List.mem_cons_self
  have keyword : varToLet.id ∈ keywordIds := by decide
  have settled := keyword_rewrite_settles listed keyword ⟨"a.js"⟩ "var var\u2003\nx, vary"
  rw [first] at settled
  exact ⟨listed, keyword, first, settled⟩

end Pattern

end Uplift
