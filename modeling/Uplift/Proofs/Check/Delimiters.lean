import Uplift.Check.Delimiters

/-!
# What the delimiter check accepts

A text is stripped of its strings and comments (`Stripped`); what is left nests (`Nested`), leaves
brackets open (`Leaves`) or has a closing bracket that closes none (`Misfit`). The check, which
does both in one pass, finds exactly what these say of the text (`issue?_spec`).
-/

namespace Uplift.Delimiters

/-! ### Strings and comments -/

def Closes (quote c : Char) : Prop := c = quote ∨ c = '\n' ∧ quote ≠ '`'

inductive Inside (quote : Char) : List Char → Prop
  | nil : Inside quote []
  | escaped (c : Char) {rest : List Char} (others : Inside quote rest) :
      Inside quote ('\\' :: c :: rest)
  | plain {c : Char} {rest : List Char} (unescaped : c ≠ '\\') (goesOn : ¬Closes quote c)
      (others : Inside quote rest) : Inside quote (c :: rest)

/-- A character of code, a string or a comment, with what is left of it. `rest` is the text behind
it, on which it depends whether a slash opens a comment. -/
inductive Piece (rest : List Char) : List Char → List Char → Prop
  | code {c : Char} (unquoted : isQuote c = false)
      (plain : c = '/' → rest.head? ≠ some '/' ∧ rest.head? ≠ some '*') : Piece rest [c] [c]
  | string {quote close : Char} {body : List Char} (quotes : isQuote quote = true)
      (inside : Inside quote body) (closes : Closes quote close) :
      Piece rest (quote :: (body ++ [close])) []
  | line {body : List Char} (goesOn : '\n' ∉ body) : Piece rest ('/' :: '/' :: (body ++ ['\n'])) []
  | block {body : List Char} (goesOn : ¬['*', '/'] <:+: body) :
      Piece rest ('/' :: '*' :: (body ++ ['*', '/'])) []

/-- A string or a comment that the text ends in, or nothing. The flag says whether it is a
template literal. -/
inductive Unfinished : List Char → Bool → Prop
  | nothing : Unfinished [] false
  | string {quote : Char} {body : List Char} (quotes : isQuote quote = true)
      (inside : Inside quote body) : Unfinished (quote :: body) (quote = '`')
  | escape {quote : Char} {body : List Char} (quotes : isQuote quote = true)
      (inside : Inside quote body) : Unfinished (quote :: (body ++ ['\\'])) (quote = '`')
  | line {body : List Char} (goesOn : '\n' ∉ body) : Unfinished ('/' :: '/' :: body) false
  | block {body : List Char} (goesOn : ¬['*', '/'] <:+: body) :
      Unfinished ('/' :: '*' :: body) false

/-- What a text leaves without its strings and comments, and whether a template literal is open at
its end. -/
inductive Stripped : List Char → List Char → Bool → Prop
  | finish {text : List Char} {template : Bool} (unfinished : Unfinished text template) :
      Stripped text [] template
  | piece {text rest own left : List Char} {template : Bool} (first : Piece rest text own)
      (others : Stripped rest left template) : Stripped (text ++ rest) (own ++ left) template

/-! ### Brackets -/

def isBracket (c : Char) : Bool := isOpening c || (opening? c).isSome

inductive Nested : List Char → Prop
  | nil : Nested []
  | pair {o c : Char} {inner rest : List Char} (closes : opening? c = some o)
      (within : Nested inner) (others : Nested rest) : Nested (o :: (inner ++ c :: rest))

/-- The brackets nest but for those that are left open, the innermost first. -/
inductive Leaves : List Char → List Char → Prop
  | none {text : List Char} (nested : Nested text) : Leaves text []
  | one {text inner outer : List Char} {o : Char} (before : Leaves text outer)
      (opens : isOpening o = true) (nested : Nested inner) :
      Leaves (text ++ o :: inner) (o :: outer)

def Misfit (brackets : List Char) (c : Char) : Prop :=
  ∃ front back stack o, brackets = front ++ c :: back ∧ Leaves front stack ∧
    opening? c = some o ∧ stack.head? ≠ some o

/-! ### The check behind strings and comments -/

section

variable {stack body rest : List Char} {quote : Char}

theorem scan_outside (mode : Mode) (outside : mode ≠ .code) (stack : List Char) (c : Char)
    (rest : List Char) :
    scan mode stack (c :: rest) = scan (modeAfter mode c rest.head?) stack rest := by
  rw [scan, if_neg outside]

theorem modeAfterQuoted_plain {c : Char} (unescaped : c ≠ '\\') (goesOn : ¬Closes quote c) :
    modeAfterQuoted quote c = .quoted quote := by
  unfold Closes at goesOn
  grind [modeAfterQuoted]

theorem modeAfterQuoted_close {c : Char} (quotes : isQuote quote = true)
    (closes : Closes quote c) : modeAfterQuoted quote c = .code := by
  unfold Closes at closes
  grind [modeAfterQuoted, isQuote]

theorem scan_quote (quotes : isQuote quote = true) (stack rest : List Char) :
    scan .code stack (quote :: rest) = scan (.quoted quote) stack rest := by
  simp only [isQuote, Bool.or_eq_true, decide_eq_true_eq] at quotes
  obtain (rfl | rfl) | rfl := quotes <;> rfl

theorem scan_slashes (stack rest : List Char) :
    scan .code stack ('/' :: '/' :: rest) = scan .lineComment stack rest := rfl

theorem scan_slashStar (stack rest : List Char) :
    scan .code stack ('/' :: '*' :: rest) = scan (.blockComment false) stack rest := rfl

theorem scan_inside (inside : Inside quote body) (stack rest : List Char) :
    scan (.quoted quote) stack (body ++ rest) = scan (.quoted quote) stack rest := by
  induction inside with
  | nil => rfl
  | escaped c others ih =>
    rw [List.cons_append, List.cons_append, scan_outside (.quoted quote) nofun]
    exact (scan_outside (.escaped quote) nofun ..).trans ih
  | plain unescaped goesOn others ih =>
    rw [List.cons_append, scan_outside (.quoted quote) nofun, modeAfter,
      modeAfterQuoted_plain unescaped goesOn]
    exact ih

theorem scan_endless (quotes : isQuote quote = true) (stack : List Char) :
    scan (.quoted quote) stack [] =
        (if quote = '`' then some .openTemplate else stack.head?.map .unclosed) ∧
      scan (.escaped quote) stack [] =
        (if quote = '`' then some .openTemplate else stack.head?.map .unclosed) := by
  simp only [isQuote, Bool.or_eq_true, decide_eq_true_eq] at quotes
  obtain (rfl | rfl) | rfl := quotes <;> exact ⟨rfl, rfl⟩

theorem scan_line (goesOn : '\n' ∉ body) (stack rest : List Char) :
    scan .lineComment stack (body ++ rest) = scan .lineComment stack rest := by
  induction body with
  | nil => rfl
  | cons c body ih =>
    obtain ⟨other, goesOn⟩ : '\n' ≠ c ∧ '\n' ∉ body := by simpa using goesOn
    rw [List.cons_append, scan_outside .lineComment nofun, modeAfter, if_neg (Ne.symm other)]
    exact ih goesOn

theorem scan_block (goesOn : ¬['*', '/'] <:+: body) (star : Bool)
    (behind : star = true → body.head? ≠ some '/') (stack rest : List Char) :
    ∃ star', scan (.blockComment star) stack (body ++ rest) =
      scan (.blockComment star') stack rest := by
  induction body generalizing star with
  | nil => exact ⟨star, rfl⟩
  | cons c body ih =>
    have stays : ¬(star = true ∧ c = '/') := by
      rintro ⟨given, rfl⟩
      exact behind given rfl
    rw [List.cons_append, scan_outside (.blockComment star) nofun, modeAfter, if_neg stays]
    refine ih (fun within => goesOn (List.infix_cons within)) _ fun given closes => goesOn ?_
    obtain rfl : c = '*' := of_decide_eq_true given
    obtain ⟨others, rfl⟩ := List.head?_eq_some_iff.mp closes
    exact ⟨[], others, rfl⟩

theorem scan_skipped {text : List Char} (skipped : Piece rest text []) (stack : List Char) :
    scan .code stack (text ++ rest) = scan .code stack rest := by
  cases skipped with
  | @string quote close body quotes inside closes =>
    rw [List.cons_append, List.append_assoc, scan_quote quotes, scan_inside inside,
      List.singleton_append, scan_outside (.quoted quote) nofun, modeAfter,
      modeAfterQuoted_close quotes closes]
  | line goesOn =>
    rw [List.cons_append, List.cons_append, List.append_assoc, scan_slashes, scan_line goesOn]
    rfl
  | block goesOn =>
    rw [List.cons_append, List.cons_append, List.append_assoc, scan_slashStar]
    obtain ⟨star, passed⟩ := scan_block goesOn false nofun stack (['*', '/'] ++ rest)
    rw [passed]
    cases star <;> rfl

/-! ### The check in code -/

theorem isOpening_of_opening? {c o : Char} (closes : opening? c = some o) : isOpening o = true := by
  unfold opening? at closes
  split at closes <;> cases closes <;> rfl

theorem scan_opening {c : Char} (opens : isOpening c = true) (stack rest : List Char) :
    scan .code stack (c :: rest) = scan .code (c :: stack) rest := by
  simp only [isOpening, Bool.or_eq_true, decide_eq_true_eq] at opens
  obtain (rfl | rfl) | rfl := opens <;> rfl

theorem scan_closing {c o : Char} (closes : opening? c = some o) (stack rest : List Char) :
    scan .code stack (c :: rest) =
      if stack.head? = some o then scan .code stack.tail rest else some (.unexpected c) := by
  have cases_of : c = ')' ∨ c = ']' ∨ c = '\x7d' := by
    unfold opening? at closes
    grind
  obtain rfl | rfl | rfl := cases_of <;> cases closes <;> cases stack <;> simp [scan] <;> rfl

theorem scan_other {c : Char} (other : isBracket c = false) (unquoted : isQuote c = false)
    (plain : c = '/' → rest.head? ≠ some '/' ∧ rest.head? ≠ some '*') (stack : List Char) :
    scan .code stack (c :: rest) = scan .code stack rest := by
  simp only [isBracket, Bool.or_eq_false_iff, Option.isSome_eq_false_iff, Option.isNone_iff_eq_none]
    at other
  have stays : modeAfterCode c rest.head? = .code := by
    grind [modeAfterCode]
  rw [scan, if_pos rfl, if_neg (by simp [other.1]), other.2, modeAfter, stays]

theorem bracket_cases {c : Char} (bracket : isBracket c = true) :
    isOpening c = true ∨ ∃ o, opening? c = some o := by
  rw [isBracket, Bool.or_eq_true] at bracket
  exact bracket.imp_right Option.isSome_iff_exists.mp

/-- What the check says of a text of whose brackets alone it says this. -/
def verdict (template : Bool) : Option Issue → Option Issue
  | some (.unexpected c) => some (.unexpected c)
  | other => if template then some .openTemplate else other

theorem scan_unfinished {text : List Char} {template : Bool}
    (unfinished : Unfinished text template) (stack : List Char) :
    scan .code stack text = verdict template (stack.head?.map .unclosed) := by
  have ending : verdict template (stack.head?.map .unclosed) =
      if template then some .openTemplate else stack.head?.map .unclosed := by
    cases stack <;> rfl
  rw [ending]
  cases unfinished with
  | nothing => rfl
  | @string quote body quotes inside =>
    have passed := scan_inside inside stack []
    rw [List.append_nil] at passed
    rw [scan_quote quotes, passed, (scan_endless quotes stack).1]
    simp only [decide_eq_true_eq]
  | @escape quote body quotes inside =>
    rw [scan_quote quotes, scan_inside inside, scan_outside (.quoted quote) nofun]
    refine (scan_endless quotes stack).2.trans ?_
    simp only [decide_eq_true_eq]
  | line goesOn =>
    have passed := scan_line goesOn stack []
    rw [List.append_nil] at passed
    rw [scan_slashes, passed]
    rfl
  | block goesOn =>
    obtain ⟨star, passed⟩ := scan_block goesOn false nofun stack []
    rw [List.append_nil] at passed
    rw [scan_slashStar, passed]
    rfl

/-- Strings and comments may be taken out before the brackets are looked at. -/
theorem scan_stripped {text left : List Char} {template : Bool}
    (stripped : Stripped text left template) (stack : List Char) :
    scan .code stack text = verdict template (scan .code stack (left.filter isBracket)) := by
  induction stripped generalizing stack with
  | finish unfinished => exact scan_unfinished unfinished stack
  | @piece text rest own left template first others ih =>
    cases first with
    | @code c unquoted plain =>
      rw [List.singleton_append, List.singleton_append]
      cases bracket : isBracket c with
      | false =>
        rw [List.filter_cons_of_neg (by simp [bracket]), scan_other bracket unquoted plain]
        exact ih stack
      | true =>
        rw [List.filter_cons_of_pos bracket]
        obtain opens | ⟨o, closes⟩ := bracket_cases bracket
        · rw [scan_opening opens, scan_opening opens]
          exact ih (c :: stack)
        · rw [scan_closing closes, scan_closing closes]
          split
          · exact ih stack.tail
          · rfl
    | string quotes inside closes =>
      exact (scan_skipped (.string quotes inside closes) stack).trans (ih stack)
    | line goesOn => exact (scan_skipped (.line goesOn) stack).trans (ih stack)
    | block goesOn => exact (scan_skipped (.block goesOn) stack).trans (ih stack)

end

/-! ### Brackets alone -/

section

variable {text front rest stack : List Char} {c : Char}

theorem scan_nested (nested : Nested text) (stack rest : List Char) :
    scan .code stack (text ++ rest) = scan .code stack rest := by
  induction nested generalizing stack rest with
  | nil => rfl
  | @pair o c inner others closes within nested ihWithin ihOthers =>
    rw [List.cons_append, List.append_assoc, List.cons_append,
      scan_opening (isOpening_of_opening? closes), ihWithin, scan_closing closes,
      if_pos (List.head?_cons ..)]
    exact ihOthers stack rest

theorem scan_leaves (leaves : Leaves text stack) (rest : List Char) :
    scan .code [] (text ++ rest) = scan .code stack rest := by
  induction leaves generalizing rest with
  | none nested => exact scan_nested nested [] rest
  | one before opens nested ih =>
    rw [List.append_assoc, ih, List.cons_append, scan_opening opens, scan_nested nested]

theorem scan_misfit (misfit : Misfit text c) : scan .code [] text = some (.unexpected c) := by
  obtain ⟨front, back, stack, o, rfl, leaves, closes, other⟩ := misfit
  rw [scan_leaves leaves, scan_closing closes, if_neg other]

theorem Nested.append (nested : Nested text) (nested' : Nested rest) : Nested (text ++ rest) := by
  induction nested with
  | nil => exact nested'
  | pair closes within others _ ih =>
    rw [List.cons_append, List.append_assoc]
    exact .pair closes within ih

theorem Leaves.append (leaves : Leaves text stack) (nested : Nested rest) :
    Leaves (text ++ rest) stack := by
  cases leaves with
  | none before => exact .none (before.append nested)
  | one before opens within =>
    rw [List.append_assoc]
    exact .one before opens (within.append nested)

theorem Leaves.close {o : Char} (leaves : Leaves text (o :: stack)) (closes : opening? c = some o) :
    Leaves (text ++ [c]) stack := by
  cases leaves with
  | one before opens within =>
    rw [List.append_assoc]
    exact before.append (.pair closes within .nil)

/-- Brackets leave some open, unless one of them closes none. -/
theorem leaves_or_misfit (leaves : Leaves front stack) (brackets : ∀ c ∈ rest, isBracket c = true) :
    (∃ stack', Leaves (front ++ rest) stack') ∨ ∃ c, Misfit (front ++ rest) c := by
  induction rest generalizing front stack with
  | nil =>
    rw [List.append_nil]
    exact .inl ⟨stack, leaves⟩
  | cons c rest ih =>
    obtain ⟨bracket, brackets⟩ := List.forall_mem_cons.mp brackets
    obtain opens | ⟨o, closes⟩ := bracket_cases bracket
    · have further := ih (.one leaves opens .nil) brackets
      rwa [List.append_assoc] at further
    · by_cases fits : stack.head? = some o
      · obtain ⟨below, rfl⟩ := List.head?_eq_some_iff.mp fits
        have further := ih (leaves.close closes) brackets
        rwa [List.append_assoc] at further
      · exact .inr ⟨c, front, rest, stack, o, rfl, leaves, closes, fits⟩

theorem leaves_or_misfit_of_brackets (brackets : ∀ c ∈ text, isBracket c = true) :
    (∃ stack, Leaves text stack) ∨ ∃ c, Misfit text c :=
  leaves_or_misfit (.none .nil) brackets

theorem scan_of_leaves (leaves : Leaves text stack) :
    scan .code [] text = stack.head?.map .unclosed := by
  have left := scan_leaves leaves []
  rw [List.append_nil] at left
  exact left

theorem not_misfit_of_leaves (leaves : Leaves text stack) (c : Char) : ¬Misfit text c := by
  intro misfit
  have same := (scan_of_leaves leaves).symm.trans (scan_misfit misfit)
  cases stack <;> cases same

theorem misfit_iff (misfit : Misfit text c) (c' : Char) : Misfit text c' ↔ c = c' := by
  constructor
  · intro misfit'
    have same := (scan_misfit misfit).symm.trans (scan_misfit misfit')
    simpa using same
  · rintro rfl
    exact misfit

theorem opens_iff_of_leaves (leaves : Leaves text stack) (o : Char) :
    (∃ outer, Leaves text (o :: outer)) ↔ stack.head? = some o := by
  constructor
  · rintro ⟨outer, leaves'⟩
    have same := (scan_of_leaves leaves).symm.trans (scan_of_leaves leaves')
    cases stack with
    | nil => cases same
    | cons top below => simpa using same
  · intro top
    obtain ⟨outer, rfl⟩ := List.head?_eq_some_iff.mp top
    exact ⟨outer, leaves⟩

theorem nested_iff_of_leaves (leaves : Leaves text stack) :
    Nested text ↔ stack.head? = none := by
  constructor
  · intro nested
    have same := (scan_of_leaves leaves).symm.trans (scan_of_leaves (.none nested))
    simpa using same
  · intro empty
    obtain rfl := List.head?_eq_none_iff.mp empty
    cases leaves with
    | none nested => exact nested

end

/-! ### Every text can be stripped -/

section

variable {quote : Char}

theorem inside_cases (quote : Char) (text : List Char) :
    (∃ body close rest, text = body ++ close :: rest ∧ Inside quote body ∧ Closes quote close) ∨
      Inside quote text ∨ ∃ body, text = body ++ ['\\'] ∧ Inside quote body := by
  match text with
  | [] => exact .inr (.inl .nil)
  | c :: rest =>
    by_cases closes : Closes quote c
    · exact .inl ⟨[], c, rest, rfl, .nil, closes⟩
    by_cases escape : c = '\\'
    · subst escape
      match rest with
      | [] => exact .inr (.inr ⟨[], rfl, .nil⟩)
      | c :: rest =>
        obtain ⟨body, close, rest, rfl, inside, closes⟩ | inside | ⟨body, rfl, inside⟩ :=
          inside_cases quote rest
        · exact .inl ⟨'\\' :: c :: body, close, rest, rfl, .escaped c inside, closes⟩
        · exact .inr (.inl (.escaped c inside))
        · exact .inr (.inr ⟨'\\' :: c :: body, rfl, .escaped c inside⟩)
    · obtain ⟨body, close, rest, rfl, inside, closes'⟩ | inside | ⟨body, rfl, inside⟩ :=
        inside_cases quote rest
      · exact .inl ⟨c :: body, close, rest, rfl, .plain escape closes inside, closes'⟩
      · exact .inr (.inl (.plain escape closes inside))
      · exact .inr (.inr ⟨c :: body, rfl, .plain escape closes inside⟩)

theorem not_infix_cons {c : Char} {text : List Char}
    (starts : ¬(c = '*' ∧ text.head? = some '/')) (none : ¬['*', '/'] <:+: text) :
    ¬['*', '/'] <:+: c :: text := by
  rw [List.infix_cons_iff]
  rintro (⟨rest, same⟩ | within)
  · obtain ⟨rfl, rfl⟩ := List.cons.inj same
    exact starts ⟨rfl, rfl⟩
  · exact none within

theorem block_cases (text : List Char) :
    (∃ body rest, text = body ++ '*' :: '/' :: rest ∧ ¬['*', '/'] <:+: body) ∨
      ¬['*', '/'] <:+: text := by
  induction text with
  | nil => exact .inr (by simp)
  | cons c text ih =>
    by_cases starts : c = '*' ∧ text.head? = some '/'
    · obtain ⟨rfl, slash⟩ := starts
      obtain ⟨rest, rfl⟩ := List.head?_eq_some_iff.mp slash
      exact .inl ⟨[], rest, rfl, by simp⟩
    · obtain ⟨body, rest, rfl, none⟩ | none := ih
      · refine .inl ⟨c :: body, rest, rfl, not_infix_cons ?_ none⟩
        rintro ⟨rfl, slash⟩
        obtain ⟨others, rfl⟩ := List.head?_eq_some_iff.mp slash
        exact starts ⟨rfl, rfl⟩
      · exact .inr (not_infix_cons starts none)

/-- A text starts with a piece or is one that does not end. -/
theorem piece_or_unfinished (text : List Char) :
    (∃ own rest left, text = own ++ rest ∧ own ≠ [] ∧ Piece rest own left) ∨
      ∃ template, Unfinished text template := by
  cases text with
  | nil => exact .inr ⟨false, .nothing⟩
  | cons c text =>
    cases quotes : isQuote c with
    | true =>
      obtain ⟨body, close, rest, rfl, inside, closes⟩ | inside | ⟨body, rfl, inside⟩ :=
        inside_cases c text
      · exact .inl ⟨c :: (body ++ [close]), rest, [], by simp, nofun, .string quotes inside closes⟩
      · exact .inr ⟨_, .string quotes inside⟩
      · exact .inr ⟨_, .escape quotes inside⟩
    | false =>
      by_cases slashes : c = '/' ∧ text.head? = some '/'
      · obtain ⟨rfl, slash⟩ := slashes
        obtain ⟨text, rfl⟩ := List.head?_eq_some_iff.mp slash
        by_cases ends : '\n' ∈ text
        · obtain ⟨body, rest, rfl, goesOn⟩ := List.eq_append_cons_of_mem ends
          exact .inl ⟨'/' :: '/' :: (body ++ ['\n']), rest, [], by simp, nofun, .line goesOn⟩
        · exact .inr ⟨false, .line ends⟩
      by_cases slashStar : c = '/' ∧ text.head? = some '*'
      · obtain ⟨rfl, star⟩ := slashStar
        obtain ⟨text, rfl⟩ := List.head?_eq_some_iff.mp star
        obtain ⟨body, rest, rfl, goesOn⟩ | goesOn := block_cases text
        · exact .inl ⟨'/' :: '*' :: (body ++ ['*', '/']), rest, [], by simp, nofun, .block goesOn⟩
        · exact .inr ⟨false, .block goesOn⟩
      · exact .inl ⟨[c], text, [c], rfl, nofun, .code quotes fun slash =>
          ⟨fun second => slashes ⟨slash, second⟩, fun star => slashStar ⟨slash, star⟩⟩⟩

theorem exists_stripped (text : List Char) : ∃ left template, Stripped text left template := by
  obtain ⟨own, rest, left, rfl, given, piece⟩ | ⟨template, unfinished⟩ := piece_or_unfinished text
  · have shorter : rest.length < (own ++ rest).length := by
      have := List.length_pos_iff.mpr given
      rw [List.length_append]
      omega
    obtain ⟨others, template, stripped⟩ := exists_stripped rest
    exact ⟨left ++ others, template, .piece piece stripped⟩
  · exact ⟨[], template, .finish unfinished⟩
termination_by text.length

end

/-- Every text can be stripped of its strings and comments, and the brackets that are left decide
what the check says of it: nothing if they nest and no template literal is open at the end,
otherwise the first closing bracket that does not close the innermost open one, or else the
template literal, or else the innermost bracket that is left open. -/
theorem issue?_spec (content : String) :
    (∃ left template, Stripped content.toList left template) ∧
      ∀ left template, Stripped content.toList left template →
        let brackets := left.filter isBracket
        (issue? content = none ↔ Nested brackets ∧ template = false) ∧
          (∀ c, issue? content = some (.unexpected c) ↔ Misfit brackets c) ∧
          (issue? content = some .openTemplate ↔
            (∀ c, ¬Misfit brackets c) ∧ template = true) ∧
          ∀ o, issue? content = some (.unclosed o) ↔
            (∀ c, ¬Misfit brackets c) ∧ template = false ∧ ∃ outer, Leaves brackets (o :: outer) := by
  refine ⟨exists_stripped content.toList, fun left template stripped => ?_⟩
  intro brackets
  have found : issue? content = verdict template (scan .code [] brackets) :=
    scan_stripped stripped []
  have all : ∀ c ∈ brackets, isBracket c = true := fun c member => (List.mem_filter.mp member).2
  obtain ⟨stack, leaves⟩ | ⟨c, misfit⟩ := leaves_or_misfit_of_brackets all
  · have fits : ∀ c, ¬Misfit brackets c := not_misfit_of_leaves leaves
    have nested : Nested brackets ↔ stack.head? = none := nested_iff_of_leaves leaves
    have opens : ∀ o, (∃ outer, Leaves brackets (o :: outer)) ↔ stack.head? = some o :=
      opens_iff_of_leaves leaves
    rw [scan_of_leaves leaves] at found
    rw [found]
    cases template <;> cases stack <;> simp_all [verdict]
  · have first : ∀ c', Misfit brackets c' ↔ c = c' := misfit_iff misfit
    have opens : ∀ stack, ¬Leaves brackets stack := fun stack leaves =>
      not_misfit_of_leaves leaves c misfit
    have nested : ¬Nested brackets := fun nested => opens [] (.none nested)
    rw [scan_misfit misfit] at found
    rw [found]
    simp [verdict, first, opens, nested]

example : issue? "[ // (\n ')' ) `" = some (.unexpected ')') := by decide

end Uplift.Delimiters
