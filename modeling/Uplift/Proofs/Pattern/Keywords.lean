import Uplift.Pattern.Builtin
import Uplift.Proofs.Pattern.Sweep

/-!
# What the keyword patterns find

The expressions of the built-in keyword patterns, said in terms of the characters that they take and
of the characters around these.
-/

namespace Uplift

open Regex (Taking isWord)

namespace Regex

/-! ### Sequences that start with a character or a condition -/

theorem holds_single (c d : Char) : (CharSet.single c).holds d = true ↔ d = c := by
  unfold CharSet.single CharSet.holds
  rw [Bool.and_eq_true, decide_eq_true_iff, decide_eq_true_iff]
  constructor
  · rintro ⟨above, below⟩
    exact Char.le_antisymm below above
  · rintro rfl
    exact ⟨Char.le_refl d, Char.le_refl d⟩

variable {before : Option Char} {body rest : List Char}

theorem takes_single (c : Char) : (set (.single c)).Takes before body rest ↔ body = [c] := by
  constructor
  · rintro ⟨d, holds, rfl⟩
    rw [(holds_single c d).mp holds]
  · rintro rfl
    exact ⟨c, (holds_single c c).mpr rfl, rfl⟩

theorem takes_single_cat (c : Char) (b : Regex) :
    (cat (set (.single c)) b).Takes before body rest ↔
      ∃ others, body = c :: others ∧ b.Takes (some c) others rest := by
  constructor
  · rintro ⟨first, others, rfl, takes, further⟩
    obtain rfl := (takes_single c).mp takes
    exact ⟨others, rfl, further⟩
  · rintro ⟨others, rfl, further⟩
    exact ⟨[c], others, rfl, (takes_single c).mpr rfl, further⟩

theorem takes_look_cat (l : Look) (b : Regex) :
    (cat (look l) b).Takes before body rest ↔
      Look.holds ⟨before, body ++ rest, 0, []⟩ l = true ∧ b.Takes before body rest := by
  constructor
  · rintro ⟨first, others, rfl, ⟨holds, rfl⟩, further⟩
    exact ⟨holds, further⟩
  · rintro ⟨holds, further⟩
    exact ⟨[], body, rfl, ⟨holds, rfl⟩, further⟩

theorem boundary_before (word : isWord body.head? = true) :
    Look.holds ⟨before, body ++ rest, 0, []⟩ (.wordBoundary .unicode) = true ↔
      isWord before = false := by
  cases body with
  | nil => cases word
  | cons c body =>
    have next : isWord (some c) = true := word
    simp [Look.holds, next]

theorem boundary_behind (word : isWord before = true) :
    Look.holds ⟨before, rest, 0, []⟩ (.wordBoundary .unicode) = true ↔ isWord rest.head? = false := by
  simp [Look.holds, word]

theorem isWord_behind (word : ∀ c ∈ body, Text.isWordChar c = true) (given : body ≠ []) :
    isWord (behind before body) = true := by
  obtain ⟨front, c, rfl⟩ := List.eq_nil_or_concat body |>.resolve_left given
  rw [List.concat_eq_append, behind_concat]
  exact word c (by simp)

theorem takes_alt (a b : Regex) :
    (alt a b).Takes before body rest ↔ a.Takes before body rest ∨ b.Takes before body rest := Iff.rfl

def ofWord (c : Char) : List Char → Regex
  | [] => set (.single c)
  | d :: rest => cat (set (.single c)) (ofWord d rest)

theorem takes_ofWord (c : Char) (word : List Char) :
    (ofWord c word).Takes before body rest ↔ body = c :: word := by
  induction word generalizing c before body with
  | nil => exact takes_single c
  | cons d word ih =>
    rw [ofWord, takes_single_cat]
    constructor
    · rintro ⟨others, rfl, takes⟩
      rw [ih d |>.mp takes]
    · rintro rfl
      exact ⟨d :: word, rfl, (ih d).mpr rfl⟩

/-- An expression without repetitions of more than single characters finds what it can take. -/
theorem finds_of_takes {r : Regex} {At : Taking} (flat : r.isFlat = true)
    (takes : ∀ before body rest, r.Takes before body rest ↔ At before body rest)
    (advances : At.Advances) : r.Finds At where
  sound := by
    intro s e first
    obtain ⟨body, follows, taken⟩ := takes_of_mem_ends r s e (List.mem_of_head? first)
    exact ⟨body, follows, (takes _ _ _).mp taken⟩
  complete := by
    rintro s ⟨body, rest, ahead, taken⟩
    obtain ⟨e, ended, -⟩ := mem_ends_of_takes flat ahead ((takes _ _ _).mpr taken)
    exact List.ne_nil_of_mem ended
  advances := advances

end Regex

namespace Pattern

open Regex

/-! ### Keywords -/

inductive VarKeyword : Taking
  | intro {before : Option Char} {blanks rest : List Char} (apart : isWord before = false)
      (given : blanks ≠ []) (blank : ∀ c ∈ blanks, Text.isBlank c = true)
      (all : ∀ c, rest.head? = some c → Text.isBlank c = false) :
      VarKeyword before ('v' :: 'a' :: 'r' :: blanks) rest

inductive AnyType : Taking
  | intro {before : Option Char} {blanks rest : List Char}
      (blank : ∀ c ∈ blanks, Text.isBlank c = true) (apart : isWord rest.head? = false) :
      AnyType before (':' :: (blanks ++ ['a', 'n', 'y'])) rest

def lifecycleNames : List (List Char) :=
  ["componentWillMount", "componentWillReceiveProps", "componentWillUpdate"].map String.toList

theorem isWordChar_of_listed {name : List Char} (listed : name ∈ lifecycleNames) :
    ∀ c ∈ name, Text.isWordChar c = true := by
  have names : ∀ name ∈ lifecycleNames, name.all Text.isWordChar = true := by decide
  exact List.all_eq_true.mp (names name listed)

theorem ne_nil_of_listed {name : List Char} (listed : name ∈ lifecycleNames) : name ≠ [] := by
  revert name
  decide

inductive LifecycleName : Taking
  | intro {before : Option Char} {name rest : List Char} (listed : name ∈ lifecycleNames)
      (starts : isWord before = false) (ends : isWord rest.head? = false) :
      LifecycleName before name rest

theorem VarKeyword.advances : VarKeyword.Advances := by
  rintro before body rest ⟨-, -, -, -⟩
  exact List.cons_ne_nil _ _

theorem AnyType.advances : AnyType.Advances := by
  rintro before body rest ⟨-, -⟩
  exact List.cons_ne_nil _ _

theorem LifecycleName.advances : LifecycleName.Advances := by
  rintro before body rest ⟨listed, -, -⟩
  exact ne_nil_of_listed listed

/-- `var` begins wherever the word is followed by a blank, however many there are. -/
theorem varKeyword_begins_iff {before : Option Char} {text : List Char} :
    VarKeyword.Begins before text ↔ isWord before = false ∧
      ∃ c rest, text = 'v' :: 'a' :: 'r' :: c :: rest ∧ Text.isBlank c = true := by
  constructor
  · rintro ⟨body, rest, rfl, ⟨apart, given, blank, -⟩⟩
    rename_i blanks
    obtain ⟨c, more, rfl⟩ := List.exists_cons_of_ne_nil given
    exact ⟨apart, c, more ++ rest, rfl, blank c List.mem_cons_self⟩
  · rintro ⟨apart, c, rest, rfl, first⟩
    refine ⟨'v' :: 'a' :: 'r' :: c :: rest.takeWhile Text.isBlank, rest.dropWhile Text.isBlank,
      ?_, .intro apart (List.cons_ne_nil _ _) ?_ ?_⟩
    · simp only [List.cons_append, List.takeWhile_append_dropWhile]
    · exact List.forall_mem_cons.mpr ⟨first, List.all_eq_true.mp List.all_takeWhile⟩
    · intro d next
      have stops := List.head?_dropWhile_not Text.isBlank rest
      rw [next] at stops
      simpa using stops

/-! ### Their expressions -/

def varExpression : Regex :=
  cat (look (.wordBoundary .unicode)) (cat (set (.single 'v')) (cat (set (.single 'a'))
    (cat (set (.single 'r')) (run .blank true))))

def anyExpression : Regex :=
  cat (set (.single ':')) (cat (alt (run .blank true) empty) (cat (set (.single 'a'))
    (cat (set (.single 'n')) (cat (set (.single 'y')) (look (.wordBoundary .unicode))))))

def nameExpression : Regex :=
  alt (ofWord 'c' "omponentWillMount".toList)
    (alt (ofWord 'c' "omponentWillReceiveProps".toList) (ofWord 'c' "omponentWillUpdate".toList))

def lifecycleExpression : Regex :=
  cat (look (.wordBoundary .unicode)) (cat (group 1 nameExpression) (look (.wordBoundary .unicode)))

theorem varToLet_matcher : varToLet.matcher = .regex "\\bvar\\s+" varExpression 0 := by
  decide +kernel

theorem anyToUnknown_matcher :
    anyToUnknown.matcher = .regex ":\\s*any\\b" anyExpression 0 := by
  decide +kernel

theorem legacyLifecycles_matcher : legacyLifecycles.matcher =
    .regex "\\b(componentWillMount|componentWillReceiveProps|componentWillUpdate)\\b"
      lifecycleExpression 1 := by
  decide +kernel

theorem takes_varExpression {before : Option Char} {body rest : List Char} :
    varExpression.Takes before body rest ↔ isWord before = false ∧
      ∃ blanks, body = 'v' :: 'a' :: 'r' :: blanks ∧ blanks ≠ [] ∧
        ∀ c ∈ blanks, Text.isBlank c = true := by
  have word : ∀ others, isWord ('v' :: others).head? = true := fun _ => rfl
  unfold varExpression
  simp only [takes_look_cat, takes_single_cat]
  constructor
  · rintro ⟨starts, _, rfl, _, rfl, blanks, rfl, given, blank⟩
    exact ⟨(boundary_before (word _)).mp starts, blanks, rfl, given, blank⟩
  · rintro ⟨apart, blanks, rfl, given, blank⟩
    exact ⟨(boundary_before (word _)).mpr apart, _, rfl, _, rfl, blanks, rfl, given, blank⟩

theorem takes_anyExpression {before : Option Char} {body rest : List Char} :
    anyExpression.Takes before body rest ↔ AnyType before body rest := by
  have word : isWord (some 'y') = true := by decide
  unfold anyExpression
  rw [takes_single_cat]
  constructor
  · rintro ⟨_, rfl, blanks, _, rfl, gap, further⟩
    simp only [takes_single_cat] at further
    obtain ⟨_, rfl, _, rfl, _, rfl, ends, rfl⟩ := further
    have blank : ∀ c ∈ blanks, Text.isBlank c = true := by
      rcases gap with ⟨-, blank⟩ | nothing
      · exact blank
      · obtain rfl : blanks = [] := nothing
        nofun
    exact .intro blank ((boundary_behind word).mp ends)
  · rintro ⟨blank, apart⟩
    rename_i blanks
    refine ⟨_, rfl, blanks, ['a', 'n', 'y'], rfl, ?_, ?_⟩
    · by_cases nothing : blanks = []
      · exact .inr nothing
      · exact .inl ⟨nothing, blank⟩
    · simp only [takes_single_cat]
      exact ⟨_, rfl, _, rfl, _, rfl, (boundary_behind word).mpr apart, rfl⟩

theorem takes_nameExpression {before : Option Char} {body rest : List Char} :
    nameExpression.Takes before body rest ↔ body ∈ lifecycleNames := by
  unfold nameExpression
  simp only [takes_alt, takes_ofWord]
  simp [lifecycleNames]

theorem takes_lifecycleExpression {before : Option Char} {body rest : List Char} :
    lifecycleExpression.Takes before body rest ↔ LifecycleName before body rest := by
  have first : ∀ name ∈ lifecycleNames, isWord name.head? = true := by decide
  have last : ∀ name ∈ lifecycleNames, ∀ before, isWord (behind before name) = true :=
    fun name listed _ => isWord_behind (isWordChar_of_listed listed) (ne_nil_of_listed listed)
  unfold lifecycleExpression
  rw [takes_look_cat]
  constructor
  · rintro ⟨starts, name, _, rfl, taken, ends, rfl⟩
    have listed : name ∈ lifecycleNames := takes_nameExpression.mp taken
    rw [List.append_nil] at starts ⊢
    exact .intro listed ((boundary_before (first name listed)).mp starts)
      ((boundary_behind (last name listed _)).mp ends)
  · rintro ⟨listed, starts, ends⟩
    exact ⟨(boundary_before (first body listed)).mpr starts, body, [],
      (List.append_nil body).symm, takes_nameExpression.mpr listed,
      (boundary_behind (last body listed _)).mpr ends, rfl⟩

theorem varExpression_finds : varExpression.Finds VarKeyword where
  sound := by
    intro s e first
    obtain ⟨body, follows, taken⟩ := takes_of_mem_ends varExpression s e (List.mem_of_head? first)
    obtain ⟨apart, blanks, rfl, given, blank⟩ := takes_varExpression.mp taken
    obtain ⟨_, -, first⟩ := head?_ends_cat first
    obtain ⟨_, -, first⟩ := head?_ends_cat first
    obtain ⟨_, -, first⟩ := head?_ends_cat first
    obtain ⟨_, -, first⟩ := head?_ends_cat first
    exact ⟨_, follows, .intro apart given blank (head?_ends_run first)⟩
  complete := by
    rintro s ⟨body, rest, ahead, ⟨apart, given, blank, -⟩⟩
    rename_i blanks
    have takes : varExpression.Takes s.before _ rest :=
      takes_varExpression.mpr ⟨apart, blanks, rfl, given, blank⟩
    obtain ⟨e, ended, -⟩ := mem_ends_of_takes rfl ahead takes
    exact List.ne_nil_of_mem ended
  advances := VarKeyword.advances

theorem varToLet_sweeps : varToLet.matcher.Sweeps VarKeyword := by
  rw [varToLet_matcher]
  exact Matcher.sweeps_regex varExpression_finds _ _

def letText : List Char := ['l', 'e', 't', ' ']

theorem toList_let : "let ".toList = letText := by decide

theorem anyToUnknown_sweeps : anyToUnknown.matcher.Sweeps AnyType := by
  rw [anyToUnknown_matcher]
  exact Matcher.sweeps_regex
    (finds_of_takes rfl (fun _ _ _ => takes_anyExpression) AnyType.advances) _ _

theorem legacyLifecycles_sweeps : legacyLifecycles.matcher.Sweeps LifecycleName := by
  rw [legacyLifecycles_matcher]
  exact Matcher.sweeps_regex
    (finds_of_takes (by decide) (fun _ _ _ => takes_lifecycleExpression) LifecycleName.advances) _ _

end Pattern

end Uplift
