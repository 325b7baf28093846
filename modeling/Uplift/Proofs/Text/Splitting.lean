import Uplift.Text.Lines
import Uplift.Text.Search

/-!
# Splitting a text at a character

The parts hold no separator, and put together with separators between them they give the text;
in this way every list of such parts comes about. Rows are the parts between newlines, and the
lines of a text are free of newlines too. A text has a line for each of its newlines, and one more
if it does not end in a newline.
-/

namespace Uplift.Text

theorem splitAll_ne_nil (separator : Char) (cs : List Char) : splitAll separator cs ≠ [] := by
  cases cs with
  | nil => simp [splitAll]
  | cons c rest =>
    rw [splitAll]
    split
    · simp
    · split <;> simp

theorem splitAll_append (separator : Char) (before after : List Char) :
    splitAll separator (before ++ separator :: after) =
      splitAll separator before ++ splitAll separator after := by
  induction before with
  | nil => simp [splitAll]
  | cons c rest ih =>
    rw [List.cons_append, splitAll, splitAll, ih]
    split
    · rfl
    · cases parts : splitAll separator rest with
      | nil => exact absurd parts (splitAll_ne_nil separator rest)
      | cons part others => rfl

theorem notMem_splitAll {separator : Char} {cs part : List Char}
    (member : part ∈ splitAll separator cs) : separator ∉ part := by
  induction cs generalizing part with
  | nil =>
    rw [splitAll, List.mem_singleton] at member
    simp [member]
  | cons c rest ih =>
    rw [splitAll] at member
    split at member
    case isTrue =>
      rcases List.mem_cons.mp member with rfl | among
      · exact List.not_mem_nil
      · exact ih among
    case isFalse different =>
      split at member
      case h_1 first others parts =>
        rw [parts] at ih
        rcases List.mem_cons.mp member with rfl | among
        · simp [Ne.symm different, ih List.mem_cons_self]
        · exact ih (List.mem_cons_of_mem _ among)
      case h_2 parts => exact absurd parts (splitAll_ne_nil separator rest)

theorem intercalate_splitAll (separator : Char) (cs : List Char) :
    [separator].intercalate (splitAll separator cs) = cs := by
  induction cs with
  | nil => rfl
  | cons c rest ih =>
    rw [splitAll]
    split
    case isTrue same =>
      rw [List.intercalate_cons_of_ne_nil (splitAll_ne_nil separator rest), ih, same]
      rfl
    case isFalse =>
      split
      case h_1 first others parts =>
        rw [parts] at ih
        rw [← ih]
        cases others with
        | nil => simp
        | cons second others => simp [List.intercalate_cons_cons]
      case h_2 parts => exact absurd parts (splitAll_ne_nil separator rest)

theorem splitAll_of_notMem {separator : Char} {cs : List Char} (absent : separator ∉ cs) :
    splitAll separator cs = [cs] := by
  induction cs with
  | nil => rfl
  | cons c rest ih =>
    obtain ⟨other, absent⟩ := List.ne_and_not_mem_of_not_mem_cons absent
    rw [splitAll, if_neg (Ne.symm other), ih absent]

theorem splitAll_intercalate {separator : Char} {parts : List (List Char)} (given : parts ≠ [])
    (free : ∀ part ∈ parts, separator ∉ part) :
    splitAll separator ([separator].intercalate parts) = parts := by
  induction parts with
  | nil => exact absurd rfl given
  | cons part rest ih =>
    obtain ⟨own, others⟩ := List.forall_mem_cons.mp free
    cases rest with
    | nil => rw [List.intercalate_singleton, splitAll_of_notMem own]
    | cons next rest =>
      rw [List.intercalate_cons_cons, List.append_assoc, List.singleton_append, splitAll_append,
        splitAll_of_notMem own, ih (List.cons_ne_nil _ _) others]
      rfl

theorem length_splitAll (separator : Char) (cs : List Char) :
    (splitAll separator cs).length = cs.count separator + 1 := by
  induction cs with
  | nil => rfl
  | cons c rest ih =>
    rw [splitAll, List.count_cons]
    split
    · rename_i same
      simp [ih, same]
    · rename_i other
      cases parts : splitAll separator rest with
      | nil => exact absurd parts (splitAll_ne_nil separator rest)
      | cons part others =>
        rw [parts] at ih
        simp [other, ← ih]

theorem notMem_digits {separator : Char} (other : separator.isDigit = false) (n : Nat) :
    separator ∉ Nat.toDigits 10 n := by
  intro member
  have digit := Nat.isDigit_of_mem_toDigits (by decide) (by decide) member
  rw [other] at digit
  cases digit

/-! ### Rows and lines -/

def rows (text : String) : List String := (splitAll '\n' text.toList).map String.ofList

theorem rows_cons {line : String} (free : '\n' ∉ line.toList) (rest : String) :
    rows (line ++ "\n" ++ rest) = line :: rows rest := by
  have parts : (line ++ "\n" ++ rest).toList = line.toList ++ '\n' :: rest.toList := by
    rw [String.append_assoc, String.toList_append, String.toList_append]
    rfl
  rw [rows, parts, splitAll_append, splitAll_of_notMem free, List.singleton_append, List.map_cons,
    String.ofList_toList, rows]

theorem rows_ofLines {xs : List String} (free : ∀ x ∈ xs, '\n' ∉ x.toList) (rest : String) :
    rows (ofLines xs ++ rest) = xs ++ rows rest := by
  induction xs with
  | nil => rw [ofLines, List.map_nil, String.join_nil, String.empty_append, List.nil_append]
  | cons x xs ih =>
    obtain ⟨own, others⟩ := List.forall_mem_cons.mp free
    have unfolded : ofLines (x :: xs) = x ++ "\n" ++ ofLines xs := by
      rw [ofLines, List.map_cons, String.join_cons, ofLines]
    rw [unfolded, String.append_assoc, rows_cons own, ih others, List.cons_append]

theorem newline_notMem_lines {cs line : List Char} (member : line ∈ lines cs) : '\n' ∉ line := by
  fun_induction lines cs generalizing line with
  | case1 => cases member
  | case2 rest ih =>
    rcases List.mem_cons.mp member with rfl | among
    · exact List.not_mem_nil
    · exact ih among
  | case3 rest ih =>
    rcases List.mem_cons.mp member with rfl | among
    · exact List.not_mem_nil
    · exact ih among
  | case4 c rest newline pair none ih =>
    obtain rfl := List.mem_singleton.mp member
    simpa [eq_comm] using newline
  | case5 c rest newline pair first more found ih =>
    rw [found] at ih
    rcases List.mem_cons.mp member with rfl | among
    · simp [ih List.mem_cons_self, Ne.symm newline]
    · exact ih (List.mem_cons_of_mem _ among)

theorem newline_notMem_linesOf {text line : String} (member : line ∈ linesOf text) :
    '\n' ∉ line.toList := by
  obtain ⟨cs, among, rfl⟩ := List.mem_map.mp member
  rw [String.toList_ofList]
  exact newline_notMem_lines among

/-! ### Counting lines -/

def endsOpen (cs : List Char) : Bool := cs.getLast?.any (· != '\n')

theorem endsOpen_cons (c : Char) {rest : List Char} (given : rest ≠ []) :
    endsOpen (c :: rest) = endsOpen rest := by
  rw [endsOpen, List.getLast?_cons_of_ne_nil given, endsOpen]

theorem endsOpen_newline (rest : List Char) : endsOpen ('\n' :: rest) = endsOpen rest := by
  by_cases given : rest = []
  · rw [given]
    rfl
  · exact endsOpen_cons '\n' given

theorem endsOpen_append (front : List Char) {back : List Char} (given : back ≠ []) :
    endsOpen (front ++ back) = endsOpen back := by
  rw [endsOpen, List.getLast?_append, endsOpen]
  cases last : back.getLast? with
  | none => exact absurd (List.getLast?_eq_none_iff.mp last) given
  | some c => rfl

theorem length_lines (cs : List Char) :
    (lines cs).length = cs.count '\n' + (endsOpen cs).toNat := by
  fun_induction lines cs with
  | case1 => rfl
  | case2 rest ih =>
    rw [endsOpen_newline, List.length_cons, ih, List.count_cons_self]
    omega
  | case3 rest ih =>
    have other : '\r' ≠ '\n' := by decide
    rw [endsOpen_cons _ (List.cons_ne_nil _ _), endsOpen_newline, List.length_cons, ih,
      List.count_cons_of_ne other, List.count_cons_self]
    omega
  | case4 c rest newline pair none ih =>
    obtain rfl := lines_eq_nil_iff.mp none
    have last : endsOpen [c] = true := by simpa [endsOpen] using newline
    rw [last, List.count_cons_of_ne newline]
    rfl
  | case5 c rest newline pair first more found ih =>
    have given : rest ≠ [] := by
      rintro rfl
      cases found
    rw [endsOpen_cons c given, List.count_cons_of_ne newline, ← ih, found]
    rfl

theorem lineCount_eq (text : String) :
    lineCount text = text.toList.count '\n' + (endsOpen text.toList).toNat :=
  length_lines text.toList

theorem endsOpen_of_notMem {cs : List Char} (given : cs ≠ []) (free : '\n' ∉ cs) :
    endsOpen cs = true := by
  obtain ⟨front, c, rfl⟩ := List.eq_nil_or_concat cs |>.resolve_left given
  rw [List.concat_eq_append, endsOpen_append front (List.cons_ne_nil c [])]
  have other : c ≠ '\n' := by
    rintro rfl
    simp at free
  simpa [endsOpen] using other

end Uplift.Text
