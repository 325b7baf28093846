import Mathlib.Data.List.Forall2
import Uplift.Proofs.Analysis.OnePass

/-!
# Matches in turn

The patterns take turns at a text. In its turn each finds its matches in what the patterns
before it have left, and there is one rewrite for each of these matches (`rewritesBy_turns`),
in the order of the patterns and then of the places in the text (`turns_ordered`).
-/

namespace Uplift

open Text (byteSize byteSize_append byteSize_toList)
open Match (Spread)

namespace Analysis

def textInTurn (patterns : List Pattern) (content : String) (index : Nat)
    (find : Pattern → String → List Match := Pattern.find) : String :=
  (patterns.take index).foldl (fun text p => (p.replaceAll text (find p text)).1) content

/-- A match, with the index of the pattern that found it in its turn. -/
structure Turn where
  index : Nat
  found : Match

namespace Turn

def Before (t t' : Turn) : Prop :=
  t.index < t'.index ∨ t.index = t'.index ∧ t.found.stop ≤ t'.found.start

def later (t : Turn) : Turn := { t with index := t.index + 1 }

end Turn

def turns (patterns : List Pattern) (content : String)
    (find : Pattern → String → List Match := Pattern.find) : List Turn :=
  patterns.zipIdx.flatMap fun (p, i) =>
    (find p (textInTurn patterns content i find)).map (Turn.mk i)

section Found

variable {find : Pattern → String → List Match}

theorem turns_cons (p : Pattern) (ps : List Pattern) (content : String) :
    turns (p :: ps) content find = (find p content).map (Turn.mk 0) ++
      (turns ps (p.replaceAll content (find p content)).1 find).map .later := by
  unfold turns
  rw [List.zipIdx_cons, List.flatMap_cons, Nat.zero_add, List.zipIdx_succ, List.flatMap_map,
    List.map_flatMap]
  simp only [List.map_map]
  rfl

theorem turns_ordered (spread : ∀ p text, Spread 0 text.toList (find p text))
    (patterns : List Pattern) (content : String) :
    (turns patterns content find).Pairwise Turn.Before := by
  induction patterns generalizing content with
  | nil => exact .nil
  | cons p ps ih =>
    rw [turns_cons]
    refine List.pairwise_append.mpr ⟨?_, ?_, ?_⟩
    · refine List.pairwise_map.mpr ((spread p content).pairwise.imp ?_)
      exact fun apart => .inr ⟨rfl, apart⟩
    · refine List.pairwise_map.mpr ((ih _).imp fun {t t'} before => ?_)
      rcases before with less | ⟨same, apart⟩
      · exact .inl (Nat.succ_lt_succ less)
      · exact .inr ⟨congrArg Nat.succ same, apart⟩
    · intro t own t' others
      obtain ⟨m, -, rfl⟩ := List.mem_map.mp own
      obtain ⟨t', -, rfl⟩ := List.mem_map.mp others
      exact .inl (Nat.succ_pos _)

theorem turns_eq_nil_iff {patterns : List Pattern} {content : String} :
    turns patterns content find = [] ↔
      ∀ (i : Nat) (p : Pattern), patterns[i]? = some p →
        find p (textInTurn patterns content i find) = [] := by
  unfold turns
  rw [List.flatMap_eq_nil_iff]
  constructor
  · intro none i p there
    exact List.map_eq_nil_iff.mp (none (p, i) (List.mem_zipIdx_iff_getElem?.mpr there))
  · intro none (p, i) there
    exact List.map_eq_nil_iff.mpr (none i p (List.mem_zipIdx_iff_getElem?.mp there))

end Found

/-! ### Rewrites in turn -/

/-- `after` is `before` with a match replaced that was found in a text. What stood in front of
the match may have become something else since then. -/
def Replaced (text : String) (m : Match) (replacement before after : String) : Prop :=
  ∃ past body rest done : String, text = past ++ body ++ rest ∧ m.start = past.utf8ByteSize ∧
    m.stop = m.start + body.utf8ByteSize ∧ before = done ++ body ++ rest ∧
    after = done ++ replacement ++ rest

def InTurn (find : Pattern → String → List Match) (patterns : List Pattern) (content : String)
    (r : Rewrite) (t : Turn) : Prop :=
  patterns[t.index]? = some r.pattern ∧
    Replaced (textInTurn patterns content t.index find) t.found
      (r.pattern.transform.apply t.found) r.before r.after

theorem replaced_ofList {past done gap body rest : List Char} {m : Match}
    (starts : m.start = byteSize past + byteSize gap)
    (stops : m.stop = m.start + byteSize body) (replacement : String) :
    Replaced (String.ofList (past ++ (gap ++ (body ++ rest)))) m replacement
      (String.ofList (done ++ (gap ++ (body ++ rest))))
      (String.ofList (done ++ gap ++ replacement.toList ++ rest)) := by
  refine ⟨.ofList (past ++ gap), .ofList body, .ofList rest, .ofList (done ++ gap), ?_, ?_, ?_,
    ?_, ?_⟩
  · simp only [String.ofList_append, String.append_assoc]
  · rw [← byteSize_toList, String.toList_ofList, byteSize_append, starts]
  · rw [← byteSize_toList, String.toList_ofList, stops]
  · simp only [String.ofList_append, String.append_assoc]
  · simp only [String.ofList_append, String.ofList_toList]

theorem rewriteMatches_replaced {p : Pattern} {n : Nat} {text : List Char} {ms : List Match}
    (spread : Spread n text ms) {drift : Drift} {past done : List Char}
    (cursor : n = byteSize past) (fits : drift.Fits past done) :
    List.Forall₂
      (fun r m => r.pattern = p ∧ Replaced (String.ofList (past ++ text)) m (p.transform.apply m)
        r.before r.after)
      (rewriteMatches p drift (String.ofList (done ++ text)) ms).1 ms := by
  -- Each match moves its gap and body over to `past`, and to `done` what they have become.
  induction spread generalizing drift past done with
  | nil => exact .nil
  | cons gap body rest parts starts stops others ih =>
    rename_i n text m ms
    subst cursor parts
    have stopsAt : m.stop = byteSize (past ++ (gap ++ body)) := by
      rw [stops, starts, byteSize_append, byteSize_append, Nat.add_assoc]
    have goesOn := ih stopsAt (fits.add gap body (p.transform.apply m).toList)
    have whole : past ++ (gap ++ body) ++ rest = past ++ (gap ++ (body ++ rest)) := by
      simp only [List.append_assoc]
    rw [whole] at goesOn
    rw [rewriteMatches_cons fits starts stops ms]
    exact .cons ⟨rfl, replaced_ofList starts stops _⟩ goesOn

/-- Every match of every pattern in its turn has its rewrite, and there are no others. -/
theorem rewritesBy_turns {find : Pattern → String → List Match}
    (spread : ∀ p text, Spread 0 text.toList (find p text)) (patterns : List Pattern)
    (content : String) :
    List.Forall₂ (InTurn find patterns content) (rewritesBy find patterns content)
      (turns patterns content find) := by
  induction patterns generalizing content with
  | nil => exact .nil
  | cons p ps ih =>
    rw [rewritesBy_cons spread, turns_cons]
    refine List.rel_append ?_ ?_
    · have fits : Drift.Fits {} [] [] := rfl
      have first := rewriteMatches_replaced (p := p) (spread p content) rfl fits
      simp only [List.nil_append, String.ofList_toList] at first
      refine List.forall₂_map_right_iff.mpr (first.imp fun r m made => ?_)
      obtain ⟨rfl, replaced⟩ := made
      exact ⟨rfl, replaced⟩
    · exact List.forall₂_map_right_iff.mpr (ih _)

end Analysis

end Uplift
