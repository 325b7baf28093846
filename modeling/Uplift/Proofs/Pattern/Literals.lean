import Uplift.Proofs.Pattern.Pieces

/-!
# Occurrences of a literal

A literal is found from the left. Occurrences that are found do not overlap, and an occurrence
that is passed over begins inside one that is found, so none lies wholly between two of them.
To replace what is found is `String.replace`.
-/

namespace Uplift

open Text (byteSize byteSize_append byteSize_toList)
open Match (Spread)
open String.Slice.Pattern (SearchStep ToForwardSearcher)
open String.Slice.Pattern.Model (IsValidSearchFrom MatchesAt)
open String.Slice.Pattern.Model.ForwardStringSearcher (isLongestMatchAt_iff_splits
  matchesAt_iff_splits lawfulToForwardSearcherModel)

/-- The needle stands at a byte offset between two characters. -/
def Text.Occurs (needle content : String) (offset : Nat) : Prop :=
  ∃ head tail : String, content = head ++ needle ++ tail ∧ head.utf8ByteSize = offset

theorem Text.byteSize_pos {cs : List Char} (nonempty : cs ≠ []) : 0 < byteSize cs := by
  obtain ⟨c, rest, rfl⟩ := List.exists_cons_of_ne_nil nonempty
  have := utf8Size_pos c
  simp only [byteSize]
  omega

theorem Text.contains_iff (needle cs : List Char) :
    contains needle cs = true ↔ needle <:+: cs := by
  induction cs with
  | nil => simp only [contains, List.isEmpty_iff, List.infix_nil]
  | cons c cs ih =>
    rw [contains, Bool.or_eq_true, startsWith_iff, List.infix_cons_iff]
    exact or_congr Iff.rfl ih

namespace Matcher

/-! ### Completeness -/

/-- Every occurrence begins inside one that is found. -/
theorem Scan.complete {needle : List Char} {n : Nat} {cs : List Char} {starts : List Nat}
    (scan : Scan needle n cs starts) (nonempty : needle ≠ []) {head tail : List Char}
    (occurs : cs = head ++ (needle ++ tail)) :
    ∃ start ∈ starts, start ≤ n + byteSize head ∧
      n + byteSize head < start + byteSize needle := by
  induction scan generalizing head with
  | done =>
    obtain ⟨-, blank⟩ := List.append_eq_nil_iff.mp occurs.symm
    exact absurd (List.append_eq_nil_iff.mp blank).1 nonempty
  | here others ih =>
    rename_i n rest starts
    rcases List.append_eq_append_iff.mp occurs with ⟨between, rfl, later⟩ | ⟨common, parts, -⟩
    · obtain ⟨start, listed, before, inside⟩ := ih later
      rw [byteSize_append]
      exact ⟨start, List.mem_cons_of_mem _ listed, by omega, by omega⟩
    · -- The occurrence begins in the one that is found, or right behind it.
      have size : byteSize needle = byteSize head + byteSize common := by
        rw [← byteSize_append, ← parts]
      cases common with
      | nil =>
        rw [List.append_nil] at parts
        subst parts
        have later : rest = [] ++ (needle ++ tail) := List.append_cancel_left occurs
        obtain ⟨start, listed, before, inside⟩ := ih later
        exact ⟨start, List.mem_cons_of_mem _ listed, before, inside⟩
      | cons d common =>
        have := Text.byteSize_pos (List.cons_ne_nil d common)
        exact ⟨n, List.mem_cons_self, by omega, by omega⟩
  | later absent others ih =>
    rename_i n c rest starts
    cases head with
    | nil => exact absurd ⟨tail, occurs.symm⟩ absent
    | cons d head =>
      obtain ⟨rfl, later⟩ := List.cons.inj occurs
      obtain ⟨start, listed, before, inside⟩ := ih later
      simp only [byteSize]
      exact ⟨start, listed, by omega, by omega⟩

end Matcher

/-! ### Replacing from the left -/

namespace Pattern

open Matcher (literalStarts literalStarts_of_prefix literalStarts_of_absent literalStarts_scan
  ofStart)

theorem replaceFrom_behind (p : Pattern) (past front text : List Char) {ms : List Match}
    (spread : Spread (byteSize past + byteSize front) text ms) :
    p.replaceFrom (past ++ (front ++ text)) (byteSize past) ms =
      front ++ p.replaceFrom (past ++ (front ++ text)) (byteSize past + byteSize front) ms := by
  have whole : past ++ (front ++ text) = past ++ front ++ text := (List.append_assoc ..).symm
  cases spread with
  | nil =>
    rw [replaceFrom_nil, ← byteSize_append, whole, replaceFrom_nil]
  | cons gap body rest parts starts stops others =>
    rename_i m ms
    subst parts
    have startsAt : m.start = byteSize past + byteSize (front ++ gap) := by
      rw [starts, byteSize_append, Nat.add_assoc]
    have first := p.replaceFrom_cons past (front ++ gap) (body ++ rest) m ms startsAt
    rw [← byteSize_append] at starts
    have second := p.replaceFrom_cons (past ++ front) gap (body ++ rest) m ms starts
    rw [← byteSize_append, whole, second]
    simp only [List.append_assoc] at first ⊢
    exact first

/-- What becomes of `cs`, which stands behind `past`, if the occurrences of a needle are
replaced. -/
def replaceNeedle (p : Pattern) (needle : String) (past cs : List Char) : List Char :=
  p.replaceFrom (past ++ cs) (byteSize past)
    ((literalStarts needle.toList (byteSize past) 0 cs).map (ofStart needle))

variable {p : Pattern} {needle : String}

theorem replaceNeedle_nil (past : List Char) : p.replaceNeedle needle past [] = [] :=
  p.replaceFrom_nil past []

theorem replaceNeedle_here (nonempty : needle.toList ≠ []) (past rest : List Char) :
    p.replaceNeedle needle past (needle.toList ++ rest) =
      (p.transform.apply (ofStart needle (byteSize past))).toList ++
        p.replaceNeedle needle (past ++ needle.toList) rest := by
  have starts : literalStarts needle.toList (byteSize past) 0 (needle.toList ++ rest) =
      byteSize past :: literalStarts needle.toList (byteSize (past ++ needle.toList)) 0 rest := by
    obtain ⟨c, tail, chars⟩ := List.exists_cons_of_ne_nil nonempty
    rw [chars, literalStarts_of_prefix, ← byteSize_append]
  have first := p.replaceFrom_cons past [] (needle.toList ++ rest)
    (ofStart needle (byteSize past)) ((literalStarts needle.toList
      (byteSize (past ++ needle.toList)) 0 rest).map (ofStart needle)) rfl
  unfold replaceNeedle
  rw [starts, List.map_cons, List.append_assoc]
  refine first.trans ?_
  rw [byteSize_append]
  rfl

theorem replaceNeedle_next (nonempty : needle.toList ≠ []) (past : List Char) {c : Char}
    {rest : List Char} (absent : ¬needle.toList <+: c :: rest) :
    p.replaceNeedle needle past (c :: rest) =
      c :: p.replaceNeedle needle (past ++ [c]) rest := by
  have scan := literalStarts_scan nonempty (byteSize past + byteSize [c]) rest
  have behind := p.replaceFrom_behind past [c] rest scan.spread
  have moved : byteSize past + c.utf8Size = byteSize past + byteSize [c] := rfl
  unfold replaceNeedle
  rw [literalStarts_of_absent absent, moved, byteSize_append, List.append_assoc]
  exact behind

theorem replaceNeedle_absent (nonempty : needle.toList ≠ []) (past front rest : List Char)
    (absent : ∀ t t', front = t ++ t' → t' ≠ [] → ¬needle.toList <+: t' ++ rest) :
    p.replaceNeedle needle past (front ++ rest) =
      front ++ p.replaceNeedle needle (past ++ front) rest := by
  induction front generalizing past with
  | nil => rw [List.nil_append, List.nil_append, List.append_nil]
  | cons c front ih =>
    have others : ∀ t t', front = t ++ t' → t' ≠ [] → ¬needle.toList <+: t' ++ rest :=
      fun t t' parts => absent (c :: t) t' (congrArg (c :: ·) parts)
    have here : ¬needle.toList <+: c :: (front ++ rest) :=
      absent [] (c :: front) rfl (List.cons_ne_nil c front)
    rw [List.cons_append, replaceNeedle_next nonempty past here, ih _ others,
      List.append_assoc, List.cons_append]
    rfl

end Pattern

/-- What `String.replace` adds at a step of its search. -/
def Text.addStep (content : String.Slice) (new sofar : String) : SearchStep content → String
  | .matched _ _ => sofar ++ new
  | .rejected start stop => sofar ++ (content.slice! start stop).copy

theorem Text.replace_eq_foldl (content needle new : String) :
    content.replace needle new =
      (ToForwardSearcher.toSearcher needle content.toSlice).toList.foldl
        (addStep content.toSlice new) "" := by
  rw [Std.Iter.foldl_toList]
  unfold String.replace String.Slice.replace
  congr 1
  funext sofar step
  have same : (String.ToSlice.toSlice new).copy = new := String.copy_toSlice
  cases step with
  | matched => exact congrArg (sofar ++ ·) same
  | rejected => rfl

theorem Text.not_prefix_of_absent {needle : String} {content : String.Slice}
    {start stop : content.Pos} {past between tail : String}
    (starts : start.Splits past (between ++ tail)) (stops : stop.Splits (past ++ between) tail)
    (absent : ∀ pos, start ≤ pos → pos < stop → ¬MatchesAt needle pos) (t t' : List Char)
    (cut : between.toList = t ++ t') (nonempty : t' ≠ []) :
    ¬needle.toList <+: t' ++ tail.toList := by
  intro occurs
  obtain ⟨more, occurs⟩ := occurs
  have parts : between = String.ofList t ++ String.ofList t' := by
    rw [← String.ofList_append, ← cut, String.ofList_toList]
  have whole : content.copy = (past ++ String.ofList t) ++ (String.ofList t' ++ tail) := by
    rw [starts.eq_append, parts]
    simp only [String.append_assoc]
  obtain ⟨pos, place⟩ : ∃ pos : content.Pos,
      pos.Splits (past ++ String.ofList t) (String.ofList t' ++ tail) :=
    ⟨_, String.Slice.Pos.splits_ofEqAppend whole⟩
  have begins : String.ofList t' ++ tail = needle ++ String.ofList more := by
    rw [← String.toList_inj, String.toList_append, String.toList_append, String.toList_ofList,
      String.toList_ofList, occurs]
  refine absent pos ?_ ?_ ?_
  · refine (starts.le_iff_exists_eq_append place).mpr ⟨String.ofList t, rfl, ?_⟩
    rw [parts, String.append_assoc]
  · refine (place.lt_iff_exists_eq_append stops).mpr ⟨String.ofList t', ?_, ?_, rfl⟩
    · rwa [Ne, String.ofList_eq_empty_iff]
    · rw [parts, String.append_assoc]
  · exact matchesAt_iff_splits.mpr ⟨_, _, begins ▸ place⟩

namespace Pattern

/-- From each place that the search comes to, `String.replace` adds what the pattern makes of the
rest of the text. -/
theorem foldl_addStep {p : Pattern} {needle new : String} (nonempty : needle ≠ "")
    (fixed : ∀ m, p.transform.apply m = new) {content : String.Slice} {pos : content.Pos}
    {steps : List (SearchStep content)} (valid : IsValidSearchFrom needle pos steps)
    {past rest : String} (splits : pos.Splits past rest) (sofar : String) :
    steps.foldl (Text.addStep content new) sofar =
      sofar ++ String.ofList (p.replaceNeedle needle past.toList rest.toList) := by
  have chars : needle.toList ≠ [] := mt String.toList_eq_nil_iff.mp nonempty
  induction valid generalizing past rest sofar with
  | endPos =>
    have nothing : "" = rest := (String.Slice.splits_endPos content).eq_right splits
    rw [← nothing, String.toList_empty, replaceNeedle_nil]
    exact String.append_empty.symm
  | matched found others ih =>
    obtain ⟨front, tail, first, behind⟩ := isLongestMatchAt_iff_splits.mp found
    obtain ⟨rfl, rfl⟩ := splits.eq first
    have filled := replaceNeedle_here chars (p := p) past.toList tail.toList
    rw [fixed, ← String.toList_append, ← String.toList_append] at filled
    rw [List.foldl_cons, ih behind, filled, Text.addStep, String.ofList_append,
      String.ofList_toList, String.append_assoc]
  | mismatched forth absent others ih =>
    rename_i steps start stop
    obtain ⟨between, -, reached, parts⟩ :=
      (splits.lt_iff_exists_eq_append stop.splits).mp forth
    have stopsAt : stop.Splits (past ++ between) _ := reached ▸ stop.splits
    generalize (content.sliceFrom stop).copy = tail at parts stopsAt
    subst parts
    obtain ⟨inOrder, passed⟩ :=
      String.Slice.copy_slice_eq_iff_splits.mpr ⟨past, tail, splits, stopsAt⟩
    have nowhere := Text.not_prefix_of_absent splits stopsAt absent
    have kept := replaceNeedle_absent chars (p := p) past.toList between.toList tail.toList nowhere
    rw [← String.toList_append, ← String.toList_append] at kept
    rw [List.foldl_cons, ih stopsAt, kept, Text.addStep,
      ← String.Slice.slice_eq_slice! (h := inOrder), passed, String.ofList_append,
      String.ofList_toList, String.append_assoc]

/-- To replace what a literal finds by a fixed text is to replace the needle from the left. -/
theorem applyAll_literal {p : Pattern} {needle new : String} (nonempty : needle ≠ "")
    (looksFor : p.matcher = .literal needle) (fixed : ∀ m, p.transform.apply m = new)
    (content : String) : (p.applyAll content).1 = content.replace needle new := by
  have valid := (lawfulToForwardSearcherModel nonempty).isValidSearchFrom_toList content.toSlice
  have searched := foldl_addStep nonempty fixed valid content.toSlice.splits_startPos ""
  rw [Text.replace_eq_foldl, searched, applyAll_text, looksFor, Matcher.find_literal nonempty,
    String.empty_append, String.copy_toSlice]
  rfl

end Pattern

/-! ### All matches of a literal -/

theorem Text.exists_of_slice? {start stop : Nat} {cs body : List Char}
    (taken : slice? start stop cs = some body) :
    ∃ head tail, cs = head ++ (body ++ tail) ∧ byteSize head = start ∧
      stop = start + byteSize body := by
  unfold slice? at taken
  split at taken
  · cases taken
  · rename_i head rest first
    obtain ⟨rfl, size⟩ := cut?_eq_some.mp first
    split at taken
    · rename_i inOrder
      obtain ⟨⟨body', tail⟩, second, rfl⟩ := Option.map_eq_some_iff.mp taken
      obtain ⟨rfl, length⟩ := cut?_eq_some.mp second
      refine ⟨head, tail, rfl, size, ?_⟩
      dsimp only
      omega
    · cases taken

namespace Matcher

/-- The matches of a needle in a text: all of its occurrences from the left, without those that
begin inside an occurrence in front of them. -/
structure FoundFromLeft (needle content : String) (found : List Match) : Prop where
  ascending : found.Pairwise fun m m' => m.start < m'.start ∧ m.stop ≤ m'.start
  occurs : ∀ m ∈ found, Text.Occurs needle content m.start ∧
    m.stop = m.start + needle.utf8ByteSize ∧ m.groups = [some needle]
  complete : ∀ offset, Text.Occurs needle content offset →
    ∃ m ∈ found, m.start ≤ offset ∧ offset < m.stop

theorem find_foundFromLeft {needle : String} (nonempty : needle ≠ "") (content : String) :
    FoundFromLeft needle content ((literal needle).find content) := by
  have chars : needle.toList ≠ [] := mt String.toList_eq_nil_iff.mp nonempty
  have scan := literalStarts_scan chars 0 content.toList
  have placed : ∀ m ∈ (literal needle).find content, Text.Occurs needle content m.start ∧
      m.stop = m.start + needle.utf8ByteSize ∧ m.groups = [some needle] := by
    intro m found
    have holds := (literal needle).find_holds content m found
    rw [find_literal nonempty] at found
    obtain ⟨start, -, rfl⟩ := List.mem_map.mp found
    obtain ⟨body, taken, same⟩ := Option.map_eq_some_iff.mp holds.symm
    obtain ⟨head, tail, parts, size, -⟩ := Text.exists_of_slice? taken
    refine ⟨⟨String.ofList head, String.ofList tail, ?_, ?_⟩, ?_, rfl⟩
    · rw [← same, ← String.ofList_append, ← String.ofList_append, List.append_assoc, ← parts,
        String.ofList_toList]
    · rw [← byteSize_toList, String.toList_ofList, size]
    · rw [← byteSize_toList]
      rfl
  constructor
  · refine ((literal needle).find_spread content).pairwise.imp_of_mem fun {m m'} first _ apart => ?_
    obtain ⟨-, stop, -⟩ := placed m first
    have size := Text.byteSize_pos chars
    rw [byteSize_toList] at size
    exact ⟨by omega, apart⟩
  · exact placed
  · rintro offset ⟨head, tail, parts, rfl⟩
    have occurs : content.toList = head.toList ++ (needle.toList ++ tail.toList) := by
      rw [parts, String.toList_append, String.toList_append, List.append_assoc]
    obtain ⟨start, listed, before, inside⟩ := scan.complete chars occurs
    rw [Nat.zero_add, byteSize_toList] at before inside
    rw [find_literal nonempty]
    exact ⟨ofStart needle start, List.mem_map_of_mem listed, before, inside⟩

theorem isMatch_literal {needle : String} (nonempty : needle ≠ "") (content : String) :
    (literal needle).isMatch content = true ↔ (literal needle).find content ≠ [] := by
  have given : needle.isEmpty = false := Bool.eq_false_iff.mpr fun blank =>
    nonempty (String.isEmpty_iff.mp blank)
  have search := find_foundFromLeft nonempty content
  rw [isMatch, given, Bool.not_false, Bool.true_and, Text.contains_iff]
  constructor
  · rintro ⟨head, tail, parts⟩ none
    have occurs : Text.Occurs needle content (byteSize head) := by
      refine ⟨String.ofList head, String.ofList tail, ?_, ?_⟩
      · rw [← String.toList_inj, String.toList_append, String.toList_append, String.toList_ofList,
          String.toList_ofList, parts]
      · rw [← byteSize_toList, String.toList_ofList]
    obtain ⟨m, found, -⟩ := search.complete _ occurs
    rw [none] at found
    cases found
  · intro some
    obtain ⟨m, found⟩ := List.exists_mem_of_ne_nil _ some
    obtain ⟨⟨head, tail, parts, -⟩, -⟩ := search.occurs m found
    refine ⟨head.toList, tail.toList, ?_⟩
    rw [parts, String.toList_append, String.toList_append]

/-- A literal finds its needle from the left, without overlap, and passes over no occurrence
that is clear of those it finds; replacing them is `String.replace`. The empty needle is
nowhere found. -/
theorem literal_found_from_left (needle content : String) (nonempty : needle ≠ "") :
    FoundFromLeft needle content ((literal needle).find content) ∧
    ((literal needle).isMatch content = true ↔ (literal needle).find content ≠ []) ∧
    (∀ (p : Pattern) (new : String),
      ({ p with matcher := .literal needle, transform := .replace new }.applyAll content).1 =
        content.replace needle new) ∧
    (literal "").find content = [] ∧ (literal "").isMatch content = false := by
  refine ⟨find_foundFromLeft nonempty content, isMatch_literal nonempty content, ?_,
    find_empty content, rfl⟩
  intro p new
  exact Pattern.applyAll_literal nonempty rfl (fun _ => rfl) content

def doubleAccent : Pattern where
  id := "double-accent"
  name := "Double accent"
  category := .styling
  matcher := .literal "éé"
  transform := .replace "e"

/-- In `éééaé` the needle is found once, at byte 0; the occurrence at byte 2 begins inside that
one. -/
theorem doubleAccent_found_once :
    "éé" ≠ "" ∧ (literal "éé").find "éééaé" = [⟨0, 4, [some "éé"]⟩] ∧
      (literal "éé").isMatch "éééaé" = true ∧
      (∃ m ∈ (literal "éé").find "éééaé", m.start ≤ 2 ∧ 2 < m.stop) ∧
      (doubleAccent.applyAll "éééaé").1 = "éééaé".replace "éé" "e" := by
  have nonempty : "éé" ≠ "" := by decide
  obtain ⟨search, isMatch, replaced, -⟩ := literal_found_from_left "éé" "éééaé" nonempty
  have found : (literal "éé").find "éééaé" = [⟨0, 4, [some "éé"]⟩] := by decide
  have some : (literal "éé").find "éééaé" ≠ [] := by
    rw [found]
    nofun
  have second : Text.Occurs "éé" "éééaé" 2 := ⟨"é", "aé", by decide, by decide⟩
  exact ⟨nonempty, found, isMatch.mpr some, search.complete 2 second, replaced doubleAccent "e"⟩

end Matcher

end Uplift
