import Uplift.Json.Decode
import Uplift.Proofs.Json.Scanning

/-!
# Numbers as text

Every number is written as a numeral, except that a double without a value is written as null
(`Number.text_cases`). A whole number that fits a word reads as itself; what any other number
reads as, if it reads at all, depends on how its digits are rounded.
-/

namespace Uplift

namespace Json

/-! ### Digits -/

theorem isDigits_toDigits (n : Nat) : IsDigits (Nat.toDigits 10 n) :=
  ⟨Nat.toDigits_ne_nil, fun _ member => Nat.isDigit_of_mem_toDigits (by decide) (by decide) member⟩

theorem toDigits_of_lead (n : Nat) (lead : (Nat.toDigits 10 n).head? = some '0') : n = 0 := by
  induction n using Nat.strongRecOn with
  | ind n ih =>
    by_cases small : n < 10
    · have zero : ∀ m < 10, [m.digitChar].head? = some '0' → m = 0 := by decide
      rw [Nat.toDigits_of_lt_base small] at lead
      exact zero n small lead
    · obtain ⟨d, digits, shape⟩ := List.exists_cons_of_ne_nil (@Nat.toDigits_ne_nil (n / 10) 10)
      rw [Nat.toDigits_of_base_le (by decide) (by omega), shape] at lead
      have none : n / 10 = 0 := ih (n / 10) (by omega) (by rw [shape]; exact lead)
      omega

theorem le_ofDigitChars (digits : List Char) (n : Nat) : n ≤ Nat.ofDigitChars 10 digits n := by
  rw [Nat.ofDigitChars_eq_ofDigitChars_zero]
  have grows : n ≤ 10 ^ digits.length * n :=
    Nat.le_mul_of_pos_left n (Nat.pow_pos (by decide))
  exact Nat.le_add_right_of_le grows

theorem gather_of_fits (digits : List Char) (n : Nat)
    (fits : Nat.ofDigitChars 10 digits n ≤ maxWord) :
    gather digits n 0 = (Nat.ofDigitChars 10 digits n, 0) := by
  induction digits generalizing n with
  | nil => rfl
  | cons d digits ih =>
    rw [Nat.ofDigitChars_cons, Nat.mul_comm 10 n] at fits ⊢
    have next : n * 10 + (d.toNat - '0'.toNat) ≤ maxWord :=
      Nat.le_trans (le_ofDigitChars digits _) fits
    rw [gather, if_pos ⟨rfl, next⟩]
    exact ih _ fits

theorem gather_append (front back : List Char) (n dropped : Nat) :
    gather (front ++ back) n dropped =
      gather back (gather front n dropped).1 (gather front n dropped).2 := by
  induction front generalizing n dropped with
  | nil => rfl
  | cons d front ih =>
    rw [List.cons_append, gather, gather]
    split
    case isTrue => exact ih _ 0
    case isFalse => exact ih n (dropped + 1)

theorem gather_toDigits {n : Nat} (fits : n ≤ maxWord) :
    gather (Nat.toDigits 10 n) 0 0 = (n, 0) := by
  have all : Nat.ofDigitChars 10 (Nat.toDigits 10 n) 0 = n := Nat.ofDigitChars_ten_toDigits
  rw [gather_of_fits _ _ (by rw [all]; exact fits), all]

/-! ### Whole numbers -/

/-- A whole number that fits 64 bits, with a sign or without. -/
def Number.IsWord : Number → Prop
  | .whole n => -9223372036854775808 ≤ n ∧ n ≤ maxWord
  | .double _ => False

def Numeral.ofNat (negative : Bool) (n : Nat) : Numeral :=
  ⟨negative, Nat.toDigits 10 n, none, none⟩

theorem Numeral.ofNat_wellFormed (negative : Bool) (n : Nat) : (ofNat negative n).WellFormed where
  whole := isDigits_toDigits n
  lead first := by
    rw [ofNat, toDigits_of_lead n first]
    rfl
  fraction _ given := nomatch given
  exponent _ given := nomatch given

theorem Numeral.text_ofNat (negative : Bool) (n : Nat) :
    (ofNat negative n).text = (if negative then ['-'] else []) ++ Nat.toDigits 10 n := by
  cases negative <;> simp [text, unsigned, ofNat, fractionText, exponentText]

theorem Numeral.value_ofNat {n : Nat} (fits : n ≤ maxWord) (exponentAt stop : Nat) :
    (ofNat false n).value exponentAt stop = .ok (.whole n) := by
  simp [value, ofNat, gather_toDigits fits]

theorem Numeral.value_negative {n : Nat} (fits : n + 1 ≤ 9223372036854775808)
    (exponentAt stop : Nat) :
    (ofNat true (n + 1)).value exponentAt stop = .ok (.whole (.negSucc n)) := by
  have gathered : gather (Nat.toDigits 10 (n + 1)) 0 0 = (n + 1, 0) :=
    gather_toDigits (by unfold maxWord; omega)
  simp [value, ofNat, gathered, fits, Int.negSucc_eq]

/-- Where a numeral stands decides only where a fault is told to be. -/
theorem Numeral.value_ok_iff (n : Numeral) (exponentAt stop exponentAt' stop' : Nat) :
    (∃ m, n.value exponentAt stop = .ok m) ↔ ∃ m, n.value exponentAt' stop' = .ok m := by
  have same (significand : Nat) (exponent : Int) :
      (∃ m, value.finish n stop significand exponent = .ok m) ↔
        ∃ m, value.finish n stop' significand exponent = .ok m := by
    unfold value.finish
    cases scaleBy 8 significand.toUInt64.toFloat exponent <;> simp
  unfold value
  dsimp only
  repeat' split
  all_goals first | exact same _ _ | simp

/-! ### Doubles -/

def IsUnsigned (text : List Char) : Prop :=
  ∃ n : Numeral, n.WellFormed ∧ n.negative = false ∧ n.unsigned = text

theorem isUnsigned_decimal {whole fraction : List Char} (isWhole : IsDigits whole)
    (lead : whole.head? = some '0' → whole = ['0']) (isFraction : IsDigits fraction) :
    IsUnsigned (whole ++ '.' :: fraction) := by
  refine ⟨⟨false, whole, some fraction, none⟩, ⟨isWhole, lead, ?_, nofun⟩, rfl, ?_⟩
  · rintro digits ⟨⟩
    exact isFraction
  · rw [Numeral.unsigned, Numeral.exponentText, List.append_nil]
    rfl

theorem isDigits_zero : IsDigits ['0'] := ⟨nofun, by simp⟩

theorem isDigit_of_zeros {n : Nat} : ∀ c ∈ Decimal.zeros n, c.isDigit = true := by
  intro c member
  rw [List.eq_of_mem_replicate member]
  rfl

theorem isUnsigned_positional {digits : List Char} (isDigits : IsDigits digits)
    (lead : digits.head? ≠ some '0') (point : Int) :
    IsUnsigned (Decimal.positional digits point) := by
  obtain ⟨given, all⟩ := isDigits
  unfold Decimal.positional
  split
  case isTrue small =>
    refine isUnsigned_decimal isDigits_zero (fun _ => rfl) ⟨?_, ?_⟩
    · exact List.append_ne_nil_of_right_ne_nil _ given
    · intro c member
      exact (List.mem_append.mp member).elim (isDigit_of_zeros c) (all c)
  case isFalse large =>
    obtain ⟨d, rest, rfl⟩ := List.exists_cons_of_ne_nil given
    dsimp only
    split
    case isTrue short =>
      refine isUnsigned_decimal ⟨?_, ?_⟩ (fun zero => absurd zero lead) isDigits_zero
      · exact List.append_ne_nil_of_left_ne_nil given _
      · intro c member
        exact (List.mem_append.mp member).elim (all c) (isDigit_of_zeros c)
    case isFalse long =>
      obtain ⟨places, shape⟩ : ∃ places, point.toNat = places + 1 :=
        Nat.exists_eq_succ_of_ne_zero (by omega)
      rw [shape] at long ⊢
      refine isUnsigned_decimal ⟨nofun, ?_⟩ (fun zero => absurd zero lead) ⟨?_, ?_⟩
      · exact fun c member => all c (List.mem_of_mem_take member)
      · rw [ne_eq, List.drop_eq_nil_iff]
        exact long
      · exact fun c member => all c (List.mem_of_mem_drop member)

theorem isUnsigned_scientific {digits : List Char} (isDigits : IsDigits digits) (power : Int) :
    IsUnsigned (Decimal.scientific digits power) := by
  obtain ⟨given, all⟩ := isDigits
  obtain ⟨d, rest, rfl⟩ := List.exists_cons_of_ne_nil given
  have first : IsDigits [d] := ⟨List.cons_ne_nil _ _, fun c member => all c (by simp_all)⟩
  have powers : ∀ e ∈ some (decide (power < 0), Nat.toDigits 10 power.natAbs), IsDigits e.2 := by
    rintro e ⟨⟩
    exact isDigits_toDigits _
  have lead : [d].head? = some '0' → [d] = ['0'] := by
    rintro ⟨⟩
    rfl
  cases rest with
  | nil =>
    refine ⟨⟨false, [d], none, _⟩, ⟨first, lead, by simp, powers⟩, rfl, ?_⟩
    simp [Numeral.unsigned, Numeral.fractionText, Numeral.exponentText, Decimal.scientific,
      Decimal.digitsOf]
  | cons c rest =>
    have fraction : ∀ places ∈ some (c :: rest), IsDigits places := by
      rintro places ⟨⟩
      exact ⟨List.cons_ne_nil _ _, fun c member => all c (List.mem_cons_of_mem _ member)⟩
    refine ⟨⟨false, [d], some (c :: rest), _⟩, ⟨first, lead, fraction, powers⟩, rfl, ?_⟩
    simp [Numeral.unsigned, Numeral.fractionText, Numeral.exponentText, Decimal.scientific,
      Decimal.digitsOf]

theorem isUnsigned_write (layout : Decimal.Layout) (d : Decimal.Numeral) :
    IsUnsigned (layout.write d) := by
  unfold Decimal.Layout.write
  dsimp only
  split
  case isTrue => exact isUnsigned_decimal isDigits_zero (fun _ => rfl) isDigits_zero
  case isFalse positive =>
    have digits : IsDigits (Decimal.digitsOf d.digits) := isDigits_toDigits _
    split
    · exact isUnsigned_positional digits (fun zero => positive (toDigits_of_lead _ zero)) _
    · exact isUnsigned_scientific digits _

/-! ### All numbers -/

def Number.Legible (n : Number) : Prop := ∃ value, parse? (String.ofList n.text) = .ok value

/-- A number is written as a numeral, or as null if it has no value. What fits a word reads as
itself. -/
theorem Number.text_cases (n : Number) :
    (¬n.IsWord ∧ n.text = ['n', 'u', 'l', 'l']) ∨
      ∃ numeral : Numeral, numeral.WellFormed ∧ n.text = numeral.text ∧
        (n.IsWord → ∀ exponentAt stop, numeral.value exponentAt stop = .ok n) := by
  match n with
  | .whole (.ofNat n) =>
    refine .inr ⟨.ofNat false n, Numeral.ofNat_wellFormed false n, ?_, fun word => ?_⟩
    · rw [Numeral.text_ofNat]
      rfl
    · exact Numeral.value_ofNat (Int.ofNat_le.mp word.2)
  | .whole (.negSucc n) =>
    refine .inr ⟨.ofNat true (n + 1), Numeral.ofNat_wellFormed true (n + 1), ?_, fun word => ?_⟩
    · rw [Numeral.text_ofNat]
      rfl
    · exact Numeral.value_negative (by have := word.1; omega)
  | .double bits =>
    cases shape : Decimal.Binary.ofBits? bits with
    | none =>
      refine .inl ⟨id, ?_⟩
      rw [text, Decimal.text?, shape]
      rfl
    | some b =>
      obtain ⟨numeral, formed, positive, same⟩ := isUnsigned_write Decimal.Layout.document
        (if b.mantissa = 0 then ⟨0, 0⟩ else Decimal.shortest b)
      refine .inr ⟨{ numeral with negative := Decimal.isNegative bits },
        ⟨formed.whole, formed.lead, formed.fraction, formed.exponent⟩, ?_, nofun⟩
      rw [text, Decimal.text?, shape, Option.map_some, Option.getD_some, ← same]
      rfl

end Json

end Uplift
