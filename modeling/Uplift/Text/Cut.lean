/-!
# Cutting text at byte offsets

Offsets count the bytes of the UTF-8 form. A cut exists only between two
characters; `cut?_eq_some` says that the two parts make up the text and that
the first one has the asked number of bytes.
-/

namespace Uplift.Text

def byteSize : List Char → Nat
  | [] => 0
  | c :: rest => c.utf8Size + byteSize rest

theorem byteSize_append (h t : List Char) : byteSize (h ++ t) = byteSize h + byteSize t := by
  induction h with
  | nil => simp [byteSize]
  | cons c h ih => simp [byteSize, ih]; omega

/-- The parts of a text before and from byte `n`; none if `n` is inside a
character or past the end. -/
def cut? : Nat → List Char → Option (List Char × List Char)
  | 0, cs => some ([], cs)
  | _ + 1, [] => none
  | n + 1, c :: cs =>
    if c.utf8Size ≤ n + 1 then
      (cut? (n + 1 - c.utf8Size) cs).map fun (h, t) => (c :: h, t)
    else none

theorem utf8Size_pos (c : Char) : 0 < c.utf8Size := Char.utf8Size_pos c

theorem cut?_byteSize (h t : List Char) : cut? (byteSize h) (h ++ t) = some (h, t) := by
  induction h with
  | nil => simp [byteSize, cut?]
  | cons c h ih =>
    have := utf8Size_pos c
    obtain ⟨n, hn⟩ : ∃ n, byteSize (c :: h) = n + 1 := ⟨byteSize (c :: h) - 1, by simp [byteSize]; omega⟩
    have hsub : n + 1 - c.utf8Size = byteSize h := by simp [byteSize] at hn; omega
    have hle : c.utf8Size ≤ n + 1 := by simp [byteSize] at hn; omega
    rw [hn, List.cons_append, cut?, if_pos hle, hsub, ih]
    rfl

theorem cut?_eq_some {n : Nat} {cs h t : List Char} :
    cut? n cs = some (h, t) ↔ cs = h ++ t ∧ byteSize h = n := by
  constructor
  · intro hc
    induction cs generalizing n h t with
    | nil =>
      cases n with
      | zero => simp_all [cut?, byteSize]
      | succ n => simp [cut?] at hc
    | cons c cs ih =>
      cases n with
      | zero => simp_all [cut?, byteSize]
      | succ n =>
        rw [cut?] at hc
        split at hc
        · rename_i hle
          obtain ⟨⟨h', t'⟩, hcut, heq⟩ := Option.map_eq_some_iff.1 hc
          cases heq
          obtain ⟨rfl, hb⟩ := ih hcut
          exact ⟨rfl, by simp [byteSize]; omega⟩
        · simp at hc
  · rintro ⟨rfl, rfl⟩
    exact cut?_byteSize h t

/-- The bytes from `start` up to `stop`, where both are character boundaries. -/
def slice? (start stop : Nat) (cs : List Char) : Option (List Char) :=
  match cut? start cs with
  | none => none
  | some (_, rest) =>
    if start ≤ stop then (cut? (stop - start) rest).map (·.1) else none

end Uplift.Text
