import Mathlib.Logic.Relation
import Uplift.Check.Validator
import Uplift.Proofs.Check.Delimiters

/-!
# Words that mean nothing to the delimiter check

Plain characters neither open nor close anything. The check stays in its mode over a word of them,
whatever the word is and wherever it stands, so that a text with another word in its place gets
the same verdict, and a step that only changes words passes.
-/

namespace Uplift

namespace Delimiters

def isPlain (c : Char) : Bool :=
  !(isQuote c || isBracket c || c = '\\' || c = '/' || c = '*' || c = '\n')

structure IsWord (text : String) : Prop where
  nonempty : text ≠ ""
  plain : ∀ c ∈ text.toList, isPlain c = true

def Rewords (before after : String) : Prop :=
  ∃ head word word' tail : String, IsWord word ∧ IsWord word' ∧
    before = head ++ word ++ tail ∧ after = head ++ word' ++ tail

/-! ### Modes that the check can be in -/

def Mode.Quotes : Mode → Prop
  | .quoted quote | .escaped quote => isQuote quote = true
  | _ => True

def Mode.settled : Mode → Mode
  | .code => .code
  | .quoted quote | .escaped quote => .quoted quote
  | .lineComment => .lineComment
  | .blockOpening | .blockComment _ => .blockComment false

theorem Mode.settled_settled (mode : Mode) : mode.settled.settled = mode.settled := by
  cases mode <;> rfl

theorem Mode.Quotes.settled {mode : Mode} (quotes : mode.Quotes) : mode.settled.Quotes := by
  cases mode <;> exact quotes

theorem modeAfter_quotes {mode : Mode} (quotes : mode.Quotes) (c : Char) (next? : Option Char) :
    (modeAfter mode c next?).Quotes := by
  cases mode with
  | code =>
    rw [modeAfter, modeAfterCode]
    by_cases quote : isQuote c = true
    · rw [if_pos quote]
      exact quote
    · rw [if_neg quote]
      split
      · trivial
      · split <;> trivial
  | quoted quote =>
    rw [modeAfter, modeAfterQuoted]
    split
    · exact quotes
    · split
      · trivial
      · split
        · trivial
        · exact quotes
  | escaped quote => exact quotes
  | lineComment =>
    rw [modeAfter]
    split <;> trivial
  | blockOpening => trivial
  | blockComment star =>
    rw [modeAfter]
    split <;> trivial

theorem plain_iff {c : Char} : isPlain c = true ↔
    isQuote c = false ∧ isBracket c = false ∧ c ≠ '\\' ∧ c ≠ '/' ∧ c ≠ '*' ∧ c ≠ '\n' := by
  simp [isPlain, and_assoc]

theorem modeAfter_plain {mode : Mode} (quotes : mode.Quotes) {c : Char} (plain : isPlain c = true)
    (next? : Option Char) : modeAfter mode c next? = mode.settled := by
  obtain ⟨unquoted, -, backslash, slash, star, newline⟩ := plain_iff.mp plain
  cases mode with
  | code => simp [modeAfter, modeAfterCode, Mode.settled, unquoted, slash]
  | quoted quote =>
    have other : c ≠ quote := by
      rintro rfl
      rw [Mode.Quotes, unquoted] at quotes
      cases quotes
    simp [modeAfter, modeAfterQuoted, Mode.settled, backslash, newline, other]
  | escaped quote => rfl
  | lineComment => simp [modeAfter, Mode.settled, newline]
  | blockOpening => rfl
  | blockComment seen => simp [modeAfter, Mode.settled, slash, star]

theorem modeAfter_before_plain (mode : Mode) (c : Char) {d d' : Char} (plain : isPlain d = true)
    (plain' : isPlain d' = true) : modeAfter mode c (some d) = modeAfter mode c (some d') := by
  obtain ⟨-, -, -, slash, star, -⟩ := plain_iff.mp plain
  obtain ⟨-, -, -, slash', star', -⟩ := plain_iff.mp plain'
  cases mode <;> simp [modeAfter, modeAfterCode, slash, star, slash', star']

/-! ### The check over words -/

theorem scan_plain {mode : Mode} (quotes : mode.Quotes) {c : Char} (plain : isPlain c = true)
    (stack rest : List Char) : scan mode stack (c :: rest) = scan mode.settled stack rest := by
  by_cases code : mode = .code
  · subst code
    obtain ⟨unquoted, other, -, slash, -⟩ := plain_iff.mp plain
    exact scan_other other unquoted (fun same => absurd same slash) stack
  · rw [scan_outside mode code, modeAfter_plain quotes plain]

theorem scan_word {mode : Mode} (quotes : mode.Quotes) {word : List Char} (given : word ≠ [])
    (plain : ∀ c ∈ word, isPlain c = true) (stack rest : List Char) :
    scan mode stack (word ++ rest) = scan mode.settled stack rest := by
  induction word generalizing mode with
  | nil => exact absurd rfl given
  | cons c word ih =>
    obtain ⟨first, others⟩ := List.forall_mem_cons.mp plain
    rw [List.cons_append, scan_plain quotes first]
    by_cases last : word = []
    · rw [last, List.nil_append]
    · rw [ih quotes.settled last others, Mode.settled_settled]

theorem scan_cons_congr {mode : Mode} (c : Char) {rest rest' : List Char}
    (ahead : modeAfter mode c rest.head? = modeAfter mode c rest'.head?)
    (others : ∀ stack, scan (modeAfter mode c rest'.head?) stack rest =
      scan (modeAfter mode c rest'.head?) stack rest') (stack : List Char) :
    scan mode stack (c :: rest) = scan mode stack (c :: rest') := by
  simp only [scan, ahead, others]

theorem scan_reworded {mode : Mode} (quotes : mode.Quotes) (head : List Char)
    {word word' : List Char} (given : word ≠ []) (given' : word' ≠ [])
    (plain : ∀ c ∈ word, isPlain c = true) (plain' : ∀ c ∈ word', isPlain c = true)
    (stack tail : List Char) :
    scan mode stack (head ++ (word ++ tail)) = scan mode stack (head ++ (word' ++ tail)) := by
  induction head generalizing mode stack with
  | nil =>
    rw [List.nil_append, List.nil_append, scan_word quotes given plain,
      scan_word quotes given' plain']
  | cons c head ih =>
    refine scan_cons_congr c ?_ (fun stack => ih (modeAfter_quotes quotes c _) stack) stack
    -- Only the last character of the head has a word right behind it.
    cases head with
    | cons d head => rfl
    | nil =>
      obtain ⟨d, word, rfl⟩ := List.exists_cons_of_ne_nil given
      obtain ⟨d', word', rfl⟩ := List.exists_cons_of_ne_nil given'
      exact modeAfter_before_plain mode c (plain d List.mem_cons_self)
        (plain' d' List.mem_cons_self)

theorem issue?_reworded (head tail : String) {word word' : String} (isWord : IsWord word)
    (isWord' : IsWord word') : issue? (head ++ word ++ tail) = issue? (head ++ word' ++ tail) := by
  have given : word.toList ≠ [] := mt String.toList_eq_nil_iff.mp isWord.nonempty
  have given' : word'.toList ≠ [] := mt String.toList_eq_nil_iff.mp isWord'.nonempty
  have start : Mode.code.Quotes := trivial
  simp only [issue?, String.toList_append, List.append_assoc]
  exact scan_reworded start head.toList given given' isWord.plain isWord'.plain [] tail.toList

theorem issue?_of_rewords {before after : String}
    (reworded : Relation.ReflTransGen Rewords before after) : issue? before = issue? after := by
  induction reworded with
  | refl => rfl
  | tail _ last ih =>
    obtain ⟨head, word, word', tail, isWord, isWord', rfl, rfl⟩ := last
    exact ih.trans (issue?_reworded head tail isWord isWord')

end Delimiters

namespace Validator

open Delimiters (IsWord Rewords issue? issue?_of_rewords issue?_reworded)

theorem checkDelimiters_of_same {s : Step} {before after : String}
    (original : s.original = some before) (same : issue? before = issue? after) :
    checkDelimiters s after = none := by
  unfold checkDelimiters
  rw [original, Option.bind_some, same]
  cases issue? after <;> rfl

/-- A word in the place of another one changes nothing of what is found wrong with the delimiters,
in code, strings and comments. So a step that only does such changes, as many as it likes, passes
every rule about form that does not ask for a document. -/
theorem reworded_content_passes :
    (∀ head word word' tail : String, IsWord word → IsWord word' →
      issue? (head ++ word ++ tail) = issue? (head ++ word' ++ tail)) ∧
    ∀ (s : Step) (rule : Rule) (before after : String), s.original = some before →
      Relation.ReflTransGen Rewords before after → rule.check = .form →
      rule.subject ≠ jsonSubject → builtin s after rule = none := by
  refine ⟨fun head word word' tail isWord isWord' => issue?_reworded head tail isWord isWord', ?_⟩
  intro s rule before after original reworded form free
  have passes : checkDelimiters s after = none :=
    checkDelimiters_of_same original (issue?_of_rewords reworded)
  rw [builtin, form]
  dsimp only
  rw [checkForm, if_neg free, passes]

/-- A step that rewords a string behind a backslash and a comment behind a star. -/
def carefulStep : Step where
  id := ⟨"1"⟩
  kind := .codeTransformation
  path := ⟨"a.js"⟩
  original := some "f('\\n'); /*var*/ (1 / v)"
  rules := [⟨.form, "word", .error⟩]

theorem carefulStep_passes :
    issue? ("f('\\" ++ "n" ++ "'); /*var*/ (1 / v)") =
        issue? ("f('\\" ++ "nn" ++ "'); /*var*/ (1 / v)") ∧
      builtin carefulStep "f('\\nn'); /*let x*/ (1 / v)" ⟨.form, "word", .error⟩ = none := by
  have letter : IsWord "n" := ⟨by decide, List.all_eq_true.mp (by decide)⟩
  have letters : IsWord "nn" := ⟨by decide, List.all_eq_true.mp (by decide)⟩
  have keyword : IsWord "var" := ⟨by decide, List.all_eq_true.mp (by decide)⟩
  have phrase : IsWord "let x" := ⟨by decide, List.all_eq_true.mp (by decide)⟩
  have first : Rewords "f('\\n'); /*var*/ (1 / v)" "f('\\nn'); /*var*/ (1 / v)" :=
    ⟨"f('\\", "n", "nn", "'); /*var*/ (1 / v)", letter, letters, by decide, by decide⟩
  have second : Rewords "f('\\nn'); /*var*/ (1 / v)" "f('\\nn'); /*let x*/ (1 / v)" :=
    ⟨"f('\\nn'); /*", "var", "let x", "*/ (1 / v)", keyword, phrase, by decide, by decide⟩
  obtain ⟨same, passes⟩ := reworded_content_passes
  refine ⟨same _ _ _ _ letter letters, ?_⟩
  have reworded := (Relation.ReflTransGen.single first).tail second
  exact passes carefulStep ⟨.form, "word", .error⟩ _ _ rfl reworded
    rfl (by decide)

end Validator

end Uplift
