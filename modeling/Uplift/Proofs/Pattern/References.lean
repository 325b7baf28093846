import Uplift.Proofs.Pattern.Templates

/-!
# The two ways to refer to a group

`$N` and `$N` in braces stand for the text of the same group, as long as the number fits a word.
A larger number is read as the largest one without the braces, which no match has a group for,
and is no number at all within them. So the two ways part there (`references_agree_iff`).
-/

namespace Uplift.Template

variable {m : Match} {N tail : String} {index : Nat}

theorem expand_written (held : m.groups.length ≤ maxIndex) {tokens : List Token}
    (readable : Readable tokens) {template : String} (spelling : written tokens = template.toList) :
    expand template m = String.ofList (tokens.flatMap (Token.value m)) := by
  unfold expand
  rw [← spelling, expandFrom_written held readable (Nat.lt_succ_self _)]

/-- A token in front of a text is expanded on its own, if it is still read as itself there. -/
theorem expand_cons (held : m.groups.length ≤ maxIndex) (t : Token) (tail : String)
    {template : String} (spelling : template.toList = t.chars ++ tail.toList)
    (own : ∀ rest, Readable rest → written rest = tail.toList → Readable (t :: rest)) :
    expand template m = String.ofList (t.value m) ++ expand tail m := by
  obtain ⟨rest, readable, tailSpelling⟩ := spelled tail.toList
  rw [expand_written held readable tailSpelling,
    expand_written held (own rest readable tailSpelling)
      (by rw [written_cons, tailSpelling, spelling]),
    List.flatMap_cons, String.ofList_append]

theorem expand_bare (held : m.groups.length ≤ maxIndex) (number : IsNumber N.toList)
    (ends : ∀ c ∈ tail.toList.head?, c.isDigit = false) :
    expand ("$" ++ N ++ tail) m = m.groupText (numberOf N.toList) ++ expand tail m := by
  rw [expand_cons held (.bare N.toList) tail, Token.value, String.ofList_toList]
  · simp [Token.chars]
  · intro rest readable spelling
    exact .bare number (by rwa [Begins, spelling]) readable

theorem IsNumber.free {digits : List Char} (number : IsNumber digits) {c : Char}
    (other : c.isDigit = false) : c ∉ digits :=
  fun member => Bool.false_ne_true (other.symm.trans (number.2 c member))

theorem IsNumber.names_iff {digits : List Char} (number : IsNumber digits) {index : Nat} :
    Names digits index ↔ numberOf digits = index ∧ index < UInt64.size := by
  constructor
  · rintro ⟨digits', rfl | rfl, -, named⟩
    · exact named
    · exact absurd List.mem_cons_self (number.free (c := '+') rfl)
  · exact fun named => ⟨digits, .inl rfl, number, named⟩

theorem expand_braced (held : m.groups.length ≤ maxIndex) (number : IsNumber N.toList) :
    expand ("$\x7b" ++ N ++ "\x7d" ++ tail) m =
      (if numberOf N.toList < UInt64.size then m.groupText (numberOf N.toList)
        else "$\x7b" ++ N ++ "\x7d") ++ expand tail m := by
  split
  case isTrue fits =>
    have names : Names N.toList (numberOf N.toList) := number.names_iff.mpr ⟨rfl, fits⟩
    rw [expand_cons held (.braced N.toList (numberOf N.toList)) tail, Token.value,
      String.ofList_toList]
    · simp [Token.chars]
    · exact fun rest readable _ => .braced names readable
  case isFalse large =>
    have nameless (index : Nat) : ¬Names N.toList index := by
      intro names
      obtain ⟨rfl, fits⟩ := number.names_iff.mp names
      exact large fits
    have kept : String.ofList ((Token.braces N.toList).value m) = "$\x7b" ++ N ++ "\x7d" :=
      String.toList_inj.mp (by simp [Token.value])
    rw [expand_cons held (.braces N.toList) tail, kept]
    · simp [Token.chars]
    · exact fun rest readable _ => .braces (number.free rfl) nameless readable

theorem groupText_eq_empty (missing : m.group? index = none) : m.groupText index = "" := by
  rw [Match.groupText, missing, Option.getD_none]

/-- For a number that fits a word the two ways agree, and a missing group is empty in both. A larger
number has no group either; without braces it is empty, but in braces it stays as it is. So the two
agree just for the numbers that fit a word. -/
theorem references_agree_iff (held : m.groups.length ≤ maxIndex) (number : IsNumber N.toList)
    (ends : ∀ c ∈ tail.toList.head?, c.isDigit = false) :
    let bare := expand ("$" ++ N ++ tail) m
    let braced := expand ("$\x7b" ++ N ++ "\x7d" ++ tail) m
    (bare = braced ↔ numberOf N.toList < UInt64.size) ∧
      bare = m.groupText (numberOf N.toList) ++ expand tail m ∧
      (m.group? (numberOf N.toList) = none → bare = expand tail m) ∧
      (UInt64.size ≤ numberOf N.toList →
        m.group? (numberOf N.toList) = none ∧
          braced = "$\x7b" ++ N ++ "\x7d" ++ expand tail m) := by
  intro bare braced
  have isBare : bare = _ := expand_bare held number ends
  have isBraced : braced = _ := expand_braced held number
  have absent (large : UInt64.size ≤ numberOf N.toList) :
      m.group? (numberOf N.toList) = none := by
    have past : m.groups.length ≤ numberOf N.toList := by
      unfold maxIndex at held
      unfold UInt64.size at large
      omega
    rw [Match.group?, List.getElem?_eq_none past]
    rfl
  have empty (missing : m.group? (numberOf N.toList) = none) : bare = expand tail m := by
    rw [isBare, groupText_eq_empty missing, String.empty_append]
  refine ⟨⟨fun same => ?_, fun fits => ?_⟩, isBare, empty, fun large => ⟨absent large, ?_⟩⟩
  · refine Nat.not_le.mp fun large => ?_
    rw [isBraced, if_neg (Nat.not_lt.mpr large), empty (absent large)] at same
    have length := congrArg String.length same
    simp only [String.length_append] at length
    have dollar : "$\x7b".length = 2 := rfl
    omega
  · rw [isBare, isBraced, if_pos fits]
  · rw [isBraced, if_neg (Nat.not_lt.mpr large)]

/-- Zeros in front do not count, so the second group is meant. -/
theorem paddedReferences_agree :
    assignment.groups.length ≤ maxIndex ∧ IsNumber "00000000000000000000002".toList ∧
      (∀ c ∈ "-1".toList.head?, c.isDigit = false) ∧
      expand ("$" ++ "00000000000000000000002" ++ "-1") assignment = "22-1" ∧
      expand ("$\x7b" ++ "00000000000000000000002" ++ "\x7d" ++ "-1") assignment = "22-1" := by
  have held : assignment.groups.length ≤ maxIndex := by decide
  have number : IsNumber "00000000000000000000002".toList :=
    ⟨by decide, List.all_eq_true.mp (by decide)⟩
  have ends : ∀ c ∈ "-1".toList.head?, c.isDigit = false := by
    intro c head
    obtain rfl : '-' = c := Option.some.inj head
    rfl
  have fits : numberOf "00000000000000000000002".toList < UInt64.size := by decide
  have read : expand ("$" ++ "00000000000000000000002" ++ "-1") assignment = "22-1" := by
    decide +kernel
  have agree := (references_agree_iff held number ends).1.mpr fits
  exact ⟨held, number, ends, read, agree.symm.trans read⟩

/-- The first number that fits no word: nothing without braces, and itself in braces. -/
theorem largeReferences_differ :
    expand "$18446744073709551616" assignment = "" ∧
      expand "$\x7b18446744073709551616\x7d" assignment = "$\x7b18446744073709551616\x7d" ∧
      expand "$18446744073709551616" assignment ≠
        expand "$\x7b18446744073709551616\x7d" assignment := by
  decide +kernel

end Uplift.Template
