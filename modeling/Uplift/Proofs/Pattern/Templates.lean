import Mathlib.Data.List.TakeWhile
import Uplift.Pattern.Template

/-!
# The grammar of templates

A template is a row of tokens, and its expansion puts the value of each in its place. What may
follow a token keeps the row readable: a group number ends where no digit follows it, and a
dollar sign stands for itself where nothing follows that it could begin.
-/

namespace Uplift.Template

/-! ### Numbers -/

def IsNumber (digits : List Char) : Prop := digits ≠ [] ∧ ∀ c ∈ digits, c.isDigit = true

def numberOf (digits : List Char) : Nat := Nat.ofDigitChars 10 digits 0

/-- A body in braces names a group: a number below 2^64, perhaps with a plus sign. -/
def Names (body : List Char) (index : Nat) : Prop :=
  ∃ digits, (body = digits ∨ body = '+' :: digits) ∧ IsNumber digits ∧
    numberOf digits = index ∧ index < UInt64.size

theorem Names.free {body : List Char} {index : Nat} (names : Names body index) :
    '\x7d' ∉ body := by
  obtain ⟨digits, signed, ⟨-, all⟩, -⟩ := names
  have none : '\x7d' ∉ digits := fun member => absurd (all _ member) (by decide)
  rcases signed with rfl | rfl
  · exact none
  · intro member
    rcases List.mem_cons.mp member with sign | inside
    · exact absurd sign (by decide)
    · exact none inside

theorem valueOf_eq (digits : List Char) : valueOf digits = numberOf digits := by
  unfold valueOf numberOf
  rw [Nat.ofDigitChars_eq_foldl]
  simp only [Nat.mul_comm 10]
  rfl

theorem bareIndex_eq (digits : List Char) : bareIndex digits = min (numberOf digits) maxIndex := by
  have saturates (n : Nat) : digits.foldl
      (fun n d => min (min (n * 10) maxIndex + digitValue d) maxIndex) (min n maxIndex) =
        min (Nat.ofDigitChars 10 digits n) maxIndex := by
    induction digits generalizing n with
    | nil => rw [List.foldl_nil, Nat.ofDigitChars_nil]
    | cons d digits ih =>
      have step : min (min (min n maxIndex * 10) maxIndex + digitValue d) maxIndex =
          min (10 * n + digitValue d) maxIndex := by omega
      rw [List.foldl_cons, step, ih, Nat.ofDigitChars_cons]
      rfl
  exact saturates 0

theorem indexOf?_eq_some {body : List Char} {index : Nat} :
    indexOf? body = some index ↔ Names body index := by
  have reads (digits : List Char) :
      (if ¬digits.isEmpty ∧ digits.all Char.isDigit ∧ valueOf digits ≤ maxIndex then
        some (valueOf digits) else none) = some index ↔
        IsNumber digits ∧ numberOf digits = index ∧ index < UInt64.size := by
    rw [valueOf_eq, Option.ite_none_right_eq_some, List.isEmpty_iff, List.all_eq_true,
      Option.some.injEq]
    unfold IsNumber maxIndex UInt64.size
    constructor
    · rintro ⟨⟨some, all, fits⟩, rfl⟩
      exact ⟨⟨some, all⟩, rfl, by omega⟩
    · rintro ⟨⟨some, all⟩, rfl, fits⟩
      exact ⟨⟨some, all, by omega⟩, rfl⟩
  by_cases signed : ∃ digits, body = '+' :: digits
  · obtain ⟨digits, rfl⟩ := signed
    refine (reads digits).trans ⟨fun named => ⟨digits, .inr rfl, named⟩, ?_⟩
    rintro ⟨digits', rfl | same, number, named⟩
    · exact absurd (number.2 '+' List.mem_cons_self) (by decide)
    · obtain ⟨-, rfl⟩ := List.cons.inj same
      exact ⟨number, named⟩
  · rw [indexOf?.eq_2 body fun digits plus => signed ⟨digits, plus⟩, reads]
    refine ⟨fun named => ⟨body, .inl rfl, named⟩, ?_⟩
    rintro ⟨digits, rfl | plus, named⟩
    · exact named
    · exact absurd ⟨digits, plus⟩ signed

theorem groupText_min {m : Match} (held : m.groups.length ≤ maxIndex) (index : Nat) :
    m.groupText (min index maxIndex) = m.groupText index := by
  by_cases fits : index ≤ maxIndex
  · rw [Nat.min_eq_left fits]
  · have missing (i : Nat) (past : maxIndex ≤ i) : m.groups[i]? = none :=
      List.getElem?_eq_none (Nat.le_trans held past)
    unfold Match.groupText Match.group?
    rw [missing _ (by omega), missing _ (by omega)]

/-! ### Tokens -/

inductive Token where
  | text (run : List Char)
  /-- `$$` -/
  | dollar
  /-- `$N` in braces -/
  | braced (body : List Char) (index : Nat)
  /-- `$N` -/
  | bare (digits : List Char)
  /-- Braces around anything but a number -/
  | braces (body : List Char)
  /-- A dollar sign that begins nothing -/
  | lone
  /-- Braces that are never closed -/
  | unclosed (body : List Char)

namespace Token

def chars : Token → List Char
  | text run => run
  | dollar => ['$', '$']
  | braced body _ => '$' :: '\x7b' :: body ++ ['\x7d']
  | bare digits => '$' :: digits
  | braces body => '$' :: '\x7b' :: body ++ ['\x7d']
  | lone => ['$']
  | unclosed body => '$' :: '\x7b' :: body

/-- What a token stands for. Groups that are missing or took no part are empty. -/
def value (m : Match) : Token → List Char
  | text run => run
  | dollar => ['$']
  | braced _ index => (m.groupText index).toList
  | bare digits => (m.groupText (numberOf digits)).toList
  | braces body => '$' :: '\x7b' :: body ++ ['\x7d']
  | lone => ['$']
  | unclosed body => '$' :: '\x7b' :: body

end Token

def written (tokens : List Token) : List Char := tokens.flatMap Token.chars

def Begins (allowed : Char → Prop) (tokens : List Token) : Prop :=
  ∀ c ∈ (written tokens).head?, allowed c

/-- Rows of tokens in which each token is read as itself. -/
inductive Readable : List Token → Prop
  | nil : Readable []
  | text {run : List Char} {rest : List Token} (plain : '$' ∉ run) (others : Readable rest) :
      Readable (.text run :: rest)
  | dollar {rest : List Token} (others : Readable rest) : Readable (.dollar :: rest)
  | braced {body : List Char} {index : Nat} {rest : List Token} (names : Names body index)
      (others : Readable rest) : Readable (.braced body index :: rest)
  | bare {digits : List Char} {rest : List Token} (number : IsNumber digits)
      (ends : Begins (fun c => c.isDigit = false) rest) (others : Readable rest) :
      Readable (.bare digits :: rest)
  | braces {body : List Char} {rest : List Token} (free : '\x7d' ∉ body)
      (nameless : ∀ index, ¬Names body index) (others : Readable rest) :
      Readable (.braces body :: rest)
  | lone {rest : List Token}
      (begins : Begins (fun c => c ≠ '$' ∧ c ≠ '\x7b' ∧ c.isDigit = false) rest)
      (others : Readable rest) : Readable (.lone :: rest)
  | unclosed {body : List Char} (free : '\x7d' ∉ body) : Readable [.unclosed body]

/-! ### Reading a token -/

theorem span_append {p : Char → Bool} {front rest : List Char} (all : ∀ c ∈ front, p c = true)
    (stops : ∀ c ∈ rest.head?, p c = false) :
    (front ++ rest).takeWhile p = front ∧ (front ++ rest).dropWhile p = rest := by
  rw [List.takeWhile_append_of_pos all, List.dropWhile_append_of_pos all]
  cases rest with
  | nil => exact ⟨List.append_nil _, rfl⟩
  | cons c rest =>
    have other : ¬p c = true := Bool.eq_false_iff.mp (stops c rfl)
    rw [List.takeWhile_cons_of_neg other, List.dropWhile_cons_of_neg other]
    exact ⟨List.append_nil _, rfl⟩

theorem span_braces {body rest : List Char} (free : '\x7d' ∉ body)
    (closes : ∀ c ∈ rest.head?, c = '\x7d') :
    (body ++ rest).takeWhile (· ≠ '\x7d') = body ∧
      (body ++ rest).dropWhile (· ≠ '\x7d') = rest := by
  refine span_append (fun c member => ?_) (fun c first => ?_)
  · rw [decide_eq_true_eq]
    rintro rfl
    exact free member
  · rw [decide_eq_false_iff_not, not_ne_iff]
    exact closes c first

variable (m : Match) (fuel : Nat)

theorem expandFrom_nil : expandFrom m fuel [] = [] := by cases fuel <;> rfl

theorem expandFrom_plain {c : Char} (plain : c ≠ '$') (rest : List Char) :
    expandFrom m (fuel + 1) (c :: rest) = c :: expandFrom m fuel rest := by
  cases rest <;> exact if_pos plain

theorem expandFrom_text {run : List Char} (plain : '$' ∉ run) (rest : List Char) :
    expandFrom m (fuel + run.length) (run ++ rest) = run ++ expandFrom m fuel rest := by
  induction run with
  | nil => rfl
  | cons c run ih =>
    obtain ⟨other, plain⟩ := not_or.mp (mt List.mem_cons.mpr plain)
    rw [List.length_cons, ← Nat.add_assoc, List.cons_append, expandFrom_plain _ _ (Ne.symm other),
      ih plain, List.cons_append]

theorem expandFrom_dollar (rest : List Char) :
    expandFrom m (fuel + 1) ('$' :: '$' :: rest) = '$' :: expandFrom m fuel rest := rfl

theorem expandFrom_braces {body : List Char} (free : '\x7d' ∉ body) (rest : List Char) :
    expandFrom m (fuel + 1) ('$' :: '\x7b' :: (body ++ '\x7d' :: rest)) =
      (indexOf? body).elim ('$' :: '\x7b' :: body ++ '\x7d' :: expandFrom m fuel rest)
        fun index => (m.groupText index).toList ++ expandFrom m fuel rest := by
  have closes : ∀ c ∈ ('\x7d' :: rest).head?, c = '\x7d' := fun c first =>
    (Option.some.inj first).symm
  obtain ⟨taken, left⟩ := span_braces free closes
  rw [expandFrom, if_neg (by decide)]
  dsimp only
  rw [if_neg (by decide), if_pos rfl, left, taken]
  cases indexOf? body with
  | some index => rfl
  | none => rfl

theorem expandFrom_unclosed {body : List Char} (free : '\x7d' ∉ body) :
    expandFrom m (fuel + 1) ('$' :: '\x7b' :: body) = '$' :: '\x7b' :: body := by
  have closes : ∀ c ∈ ([] : List Char).head?, c = '\x7d' := fun c first => nomatch first
  obtain ⟨taken, left⟩ := span_braces free closes
  rw [List.append_nil] at taken left
  rw [expandFrom, if_neg (by decide)]
  dsimp only
  rw [if_neg (by decide), if_pos rfl, left, taken]

theorem expandFrom_bare {digits : List Char} (number : IsNumber digits) {rest : List Char}
    (ends : ∀ c ∈ rest.head?, c.isDigit = false) :
    expandFrom m (fuel + 1) ('$' :: (digits ++ rest)) =
      (m.groupText (bareIndex digits)).toList ++ expandFrom m fuel rest := by
  obtain ⟨some, all⟩ := number
  obtain ⟨taken, left⟩ := span_append all ends
  obtain ⟨d, tail, rfl⟩ := List.exists_cons_of_ne_nil some
  have digit : d.isDigit = true := all d List.mem_cons_self
  have other {c : Char} (sign : c.isDigit = false) : d ≠ c := by
    rintro rfl
    exact Bool.eq_false_iff.mp sign digit
  rw [List.cons_append] at taken left ⊢
  rw [expandFrom, if_neg (by decide)]
  dsimp only
  rw [if_neg (other rfl), if_neg (other rfl), if_pos digit, taken, left]

theorem expandFrom_lone {rest : List Char}
    (begins : ∀ c ∈ rest.head?, c ≠ '$' ∧ c ≠ '\x7b' ∧ c.isDigit = false) :
    expandFrom m (fuel + 1) ('$' :: rest) = '$' :: expandFrom m fuel rest := by
  cases rest with
  | nil =>
    rw [expandFrom_nil]
    rfl
  | cons c rest =>
    obtain ⟨notDollar, notBrace, notDigit⟩ := begins c rfl
    rw [expandFrom, if_neg (by decide)]
    dsimp only
    rw [if_neg notDollar, if_neg notBrace, if_neg (Bool.eq_false_iff.mp notDigit)]

/-! ### Rows of tokens -/

theorem written_cons (t : Token) (rest : List Token) :
    written (t :: rest) = t.chars ++ written rest := List.flatMap_cons

theorem fuel_left {t : Token} {rest : List Token} {fuel : Nat}
    (enough : (written (t :: rest)).length < fuel) (some : t.chars ≠ []) :
    ∃ left, fuel = left + 1 ∧ (written rest).length < left := by
  have taken := List.length_pos_iff.mpr some
  rw [written_cons, List.length_append] at enough
  exact ⟨fuel - 1, by omega, by omega⟩

theorem expandFrom_written {m : Match} (held : m.groups.length ≤ maxIndex) {tokens : List Token}
    (readable : Readable tokens) {fuel : Nat} (enough : (written tokens).length < fuel) :
    expandFrom m fuel (written tokens) = tokens.flatMap (Token.value m) := by
  -- A token takes no more fuel than it has characters, so the fuel lasts for the whole row.
  induction readable generalizing fuel with
  | nil => exact expandFrom_nil m fuel
  | text plain others ih =>
    rename_i run rest
    rw [written_cons, Token.chars] at enough ⊢
    rw [List.length_append] at enough
    obtain ⟨left, rfl⟩ : ∃ left, fuel = left + run.length := ⟨fuel - run.length, by omega⟩
    rw [expandFrom_text m left plain, ih (by omega), List.flatMap_cons, Token.value]
  | dollar others ih =>
    obtain ⟨left, rfl, further⟩ := fuel_left enough (List.cons_ne_nil _ _)
    rename_i rest
    have first := expandFrom_dollar m left (written rest)
    rw [ih further] at first
    exact first
  | braced names others ih =>
    rename_i body index rest
    obtain ⟨left, rfl, further⟩ := fuel_left enough (List.cons_ne_nil _ _)
    have first := expandFrom_braces m left names.free (written rest)
    rw [indexOf?_eq_some.mpr names, ih further] at first
    rw [written_cons, Token.chars, List.append_assoc]
    exact first
  | bare number ends others ih =>
    rename_i digits rest
    obtain ⟨left, rfl, further⟩ := fuel_left enough (List.cons_ne_nil _ _)
    have first := expandFrom_bare m left number ends
    rw [bareIndex_eq, groupText_min held, ih further] at first
    exact first
  | braces free nameless others ih =>
    rename_i body rest
    obtain ⟨left, rfl, further⟩ := fuel_left enough (List.cons_ne_nil _ _)
    have first := expandFrom_braces m left free (written rest)
    have none : indexOf? body = none := Option.eq_none_iff_forall_ne_some.mpr fun index named =>
      nameless index (indexOf?_eq_some.mp named)
    rw [none, ih further] at first
    rw [written_cons, Token.chars, List.append_assoc, List.flatMap_cons, Token.value,
      List.append_assoc]
    exact first
  | lone begins others ih =>
    obtain ⟨left, rfl, further⟩ := fuel_left enough (List.cons_ne_nil _ _)
    have first := expandFrom_lone m left begins
    rw [ih further] at first
    exact first
  | unclosed free =>
    rename_i body
    obtain ⟨left, rfl, -⟩ := fuel_left enough (List.cons_ne_nil _ _)
    have whole := expandFrom_unclosed m left free
    rw [written_cons, List.flatMap_cons, Token.chars, Token.value]
    exact (congrArg _ (List.append_nil _)).trans (whole.trans (List.append_nil _).symm)

/-! ### Every text is a row of tokens -/

def Spelled (text : List Char) : Prop := ∃ tokens, Readable tokens ∧ written tokens = text

theorem exists_span (p : Char → Bool) (text : List Char) :
    ∃ front rest, front ++ rest = text ∧ (∀ c ∈ front, p c = true) ∧
      ∀ c ∈ rest.head?, p c = false := by
  refine ⟨text.takeWhile p, text.dropWhile p, List.takeWhile_append_dropWhile,
    fun c member => List.mem_takeWhile_imp member, fun c first => ?_⟩
  have stops := List.head?_dropWhile_not p text
  rwa [Option.mem_def.mp first] at stops

theorem spelled_braces {tail : List Char} (shorter : ∀ text, text <:+ tail → Spelled text) :
    Spelled ('$' :: '\x7b' :: tail) := by
  obtain ⟨body, rest, rfl, inside, closes⟩ := exists_span (· ≠ '\x7d') tail
  have free : '\x7d' ∉ body := fun member => of_decide_eq_true (inside _ member) rfl
  cases rest with
  | nil =>
    refine ⟨[.unclosed body], .unclosed free, ?_⟩
    rw [List.append_nil]
    exact List.append_nil _
  | cons c after =>
    obtain rfl : c = '\x7d' := not_ne_iff.mp (of_decide_eq_false (closes c rfl))
    obtain ⟨tokens, readable, rfl⟩ := shorter after ⟨body ++ ['\x7d'], List.append_assoc ..⟩
    cases named : indexOf? body with
    | some index =>
      refine ⟨_, .braced (indexOf?_eq_some.mp named) readable, ?_⟩
      rw [written_cons, Token.chars, List.append_assoc]
      rfl
    | none =>
      have nameless (index : Nat) : ¬Names body index := by
        intro names
        rw [indexOf?_eq_some.mpr names] at named
        cases named
      refine ⟨_, .braces free nameless readable, ?_⟩
      rw [written_cons, Token.chars, List.append_assoc]
      rfl

theorem spelled_dollar {rest : List Char} (shorter : ∀ text, text <:+ rest → Spelled text) :
    Spelled ('$' :: rest) := by
  -- The character behind a dollar sign says which token it begins.
  cases rest with
  | nil => exact ⟨[.lone], .lone nofun .nil, rfl⟩
  | cons d tail =>
    by_cases dollar : d = '$'
    · obtain ⟨tokens, readable, rfl⟩ := shorter tail (List.suffix_cons ..)
      subst dollar
      exact ⟨_, .dollar readable, rfl⟩
    by_cases brace : d = '\x7b'
    · subst brace
      exact spelled_braces fun text suffix => shorter text (suffix.trans (List.suffix_cons ..))
    by_cases digit : d.isDigit = true
    · obtain ⟨digits, after, parts, all, ends⟩ := exists_span Char.isDigit (d :: tail)
      have some : digits ≠ [] := by
        rintro rfl
        rw [List.nil_append] at parts
        rw [parts] at ends
        exact Bool.eq_false_iff.mp (ends d rfl) digit
      obtain ⟨tokens, readable, rfl⟩ := shorter after ⟨digits, parts⟩
      refine ⟨_, .bare ⟨some, all⟩ ends readable, ?_⟩
      rw [written_cons, Token.chars, List.cons_append, parts]
    · obtain ⟨tokens, readable, spelling⟩ := shorter (d :: tail) (List.suffix_refl _)
      refine ⟨_, .lone ?_ readable, ?_⟩
      · intro c first
        rw [spelling] at first
        obtain rfl := Option.some.inj first
        exact ⟨dollar, brace, Bool.eq_false_iff.mpr digit⟩
      · rw [written_cons, spelling]
        rfl

theorem spelled (text : List Char) : Spelled text := by
  induction long : text.length using Nat.strongRecOn generalizing text with
  | ind size ih =>
    cases text with
    | nil => exact ⟨[], .nil, rfl⟩
    | cons c rest =>
      by_cases dollar : c = '$'
      · subst dollar
        refine spelled_dollar fun text suffix => ih text.length ?_ text rfl
        rw [← long]
        exact Nat.lt_succ_of_le suffix.length_le
      · obtain ⟨run, after, parts, plain, stops⟩ := exists_span (· ≠ '$') (c :: rest)
        have some : run ≠ [] := by
          rintro rfl
          rw [List.nil_append] at parts
          rw [parts] at stops
          exact of_decide_eq_false (stops c rfl) dollar
        have free : '$' ∉ run := fun member => of_decide_eq_true (plain _ member) rfl
        have shorter : after.length < size := by
          have taken := List.length_pos_iff.mpr some
          rw [← long, ← parts, List.length_append]
          omega
        obtain ⟨tokens, readable, rfl⟩ := ih _ shorter after rfl
        exact ⟨_, .text free readable, (written_cons ..).trans parts⟩

/-- Expanding a template puts the value of each of its tokens in the token's place, and every
template is written with tokens. A list of groups that fits into memory is short enough. -/
theorem expand_by_token (m : Match) (held : m.groups.length ≤ maxIndex) :
    (∀ tokens, Readable tokens →
      expand (String.ofList (written tokens)) m = String.ofList (tokens.flatMap (Token.value m))) ∧
    ∀ template : String, ∃ tokens, Readable tokens ∧
      String.ofList (written tokens) = template := by
  constructor
  · intro tokens readable
    unfold expand
    rw [String.toList_ofList, expandFrom_written held readable (Nat.lt_succ_self _)]
  · intro template
    obtain ⟨tokens, readable, spelling⟩ := spelled template.toList
    refine ⟨tokens, readable, ?_⟩
    rw [spelling, String.ofList_toList]

def assignment : Match := ⟨4, 8, [some "b=22", some "b", some "22"]⟩

def mixedRow : List Token :=
  [.braced ['+', '2'] 2, .dollar, .bare ['0', '1'], .text ['-'], .braces ['a'], .lone, .text [' '],
    .unclosed ['1']]

theorem mixedRow_expanded :
    assignment.groups.length ≤ maxIndex ∧ Readable mixedRow ∧
      String.ofList (written mixedRow) = "$\x7b+2\x7d$$$01-$\x7ba\x7d$ $\x7b1" ∧
      expand "$\x7b+2\x7d$$$01-$\x7ba\x7d$ $\x7b1" assignment = "22$b-$\x7ba\x7d$ $\x7b1" := by
  have held : assignment.groups.length ≤ maxIndex := by decide
  have second : Names ['+', '2'] 2 := indexOf?_eq_some.mp rfl
  have nameless (index : Nat) : ¬Names ['a'] index := fun names =>
    nomatch indexOf?_eq_some.mpr names
  have first : IsNumber ['0', '1'] := ⟨List.cons_ne_nil _ _, List.all_eq_true.mp rfl⟩
  have readable : Readable mixedRow := by
    refine .braced second (.dollar (.bare first ?_ (.text (by decide)
      (.braces (by decide) nameless (.lone ?_ (.text (by decide) (.unclosed (by decide))))))))
    · rintro c ⟨⟩
      decide
    · rintro c ⟨⟩
      decide
  have spelling : String.ofList (written mixedRow) = "$\x7b+2\x7d$$$01-$\x7ba\x7d$ $\x7b1" := by
    decide
  have expanded := (expand_by_token assignment held).1 mixedRow readable
  rw [spelling] at expanded
  exact ⟨held, readable, spelling, expanded⟩

end Uplift.Template
