import Mathlib.Data.List.Induction
import Uplift.Proofs.Collaborator.Settings

/-!
# The same update once more

Of two parameters whose keys go the same way the shorter key is set first, so setting all of
them over their own result gives that result again (`setAll_again`). A manifest that lists what
a step needs is left as it is. What is written reads as itself where its numbers fit a word, so
both updates leave every file as it is when they are made again (`updates_settle`).
-/

namespace Uplift

namespace BuildConfig

open Json (Members)

variable {params : Keyed String} {old new root : Members}

/-- Setting a parameter first changes nothing, if it is also set last and no key before goes on
from its own. -/
theorem setAll_first (last : String × String)
    (behind : ∀ param ∈ params, param.1 < last.1) (ordered : (Json.object root).Ordered) :
    setAll (params ++ [last]) (assign last.1 (valueOf last.2) root).2 =
      setAll (params ++ [last]) root := by
  obtain ⟨key, raw⟩ := last
  -- The earlier parameters turn the object into others, so it stays general.
  induction params generalizing root with
  | nil =>
    have again := walk_walk (segments key) (valueOf raw) (valueOf raw) root
    simp only [List.nil_append, setAll, List.foldlM_cons, assign, again]
  | cons param rest ih =>
    obtain ⟨first, others⟩ := List.forall_mem_cons.mp behind
    obtain ⟨own, text⟩ := param
    have noWay : ¬segments key <+: segments own := segments_not_within first
    have moved : (assign own (valueOf text) (assign key (valueOf raw) root).2).1 =
          (assign own (valueOf text) root).1 ∧
        setAll (rest ++ [(key, raw)])
            (assign own (valueOf text) (assign key (valueOf raw) root).2).2 =
          setAll (rest ++ [(key, raw)]) (assign own (valueOf text) root).2 := by
      by_cases within : segments own <+: segments key
      · have given : segments own ≠ [] := (segments_spec own).1
        have same := walk_within within given (valueOf raw) (valueOf text) root
        exact ⟨congrArg Prod.fst same, congrArg (setAll _ ·.2) same⟩
      · have apart : Apart (segments key) (segments own) := ⟨noWay, within⟩
        obtain ⟨results, states⟩ := walk_comm apart (valueOf raw) (valueOf text) ordered
        refine ⟨results, ?_⟩
        have reached := ordered_walk (segments own) ordered (valueOf_ordered text)
        exact (congrArg (setAll _) states).trans (ih reached others)
    obtain ⟨result, state⟩ := moved
    rw [List.cons_append]
    cases made : (assign own (valueOf text) root).1 with
    | ok => rw [setAll_of_made made, setAll_of_made (result.trans made), state]
    | error segment => rw [setAll_of_failed made, setAll_of_failed (result.trans made)]

theorem setAll_again (ascending : params.Ascending) (ordered : (Json.object old).Ordered)
    (set : setAll params old = .ok new) : setAll params new = .ok new := by
  induction params using List.reverseRecOn generalizing new with
  | nil =>
    cases set
    rfl
  | append_singleton front last ih =>
    obtain ⟨mid, first, one⟩ := setAll_append.mp set
    obtain ⟨earlier, -, behind⟩ := List.pairwise_append.mp ascending
    have before : ∀ param ∈ front, param.1 < last.1 := fun param member =>
      behind param member last List.mem_cons_self
    obtain ⟨-, ⟨⟩⟩ := setAll_cons.mp one
    rw [setAll_first last before (ordered_setAll first ordered)]
    exact setAll_append.mpr ⟨mid, ih earlier first, one⟩

end BuildConfig

namespace Manifest

theorem addAll?_again {old new : Json.Members} {packages : List Package}
    (ordered : (Json.object old).Ordered) (added : addAll? old packages = some new) :
    addAll? new packages = some new := by
  have listed : ∀ p ∈ packages, Lists new p.name := (addAll?_ok added ordered).2.1
  obtain ⟨again, same⟩ := addAll?_iff.mpr (.inl listed)
  cases addAll?_added same with
  | nothing => exact same
  | some missing =>
    obtain ⟨p, member, missing⟩ := missing
    exact absurd (listed p member) missing

end Manifest

/-! ### Updates -/

open JsonFile (Holds Opened Prints)

variable {m : Memory} {path : Path} {new : Json.Members}

/-- The file is this object in print, and the update that has written it comes through once more
and leaves the content of every file as it is, if the numbers of the object fit a word and it is
nested no deeper than what can be read. -/
structure Settled (update : Call Memory Unit) (path : Path) (m : Memory) (new : Json.Members) :
    Prop where
  prints : Prints (update m).after path new
  again : (Json.object new).InWords → (Json.object new).Fits Json.maxDepth →
    (update (update m).after).result = .ok () ∧
      Memory.Agrees (update m).after (update (update m).after).after

theorem settled_of_repeats {update : Call Memory Unit} (ordered : (Json.object new).Ordered)
    (writes : ∀ m : Memory, m.denies path = false → Holds m path new →
      update m = ⟨.ok (), m.tryPut path (some (JsonFile.render new)), 0⟩)
    (first : update m = ⟨.ok (), m.tryPut path (some (JsonFile.render new)), 0⟩)
    (writable : m.denies path = false) : Settled update path m new := by
  have prints : Prints (update m).after path new := by
    rw [first]
    exact JsonFile.prints_tryPut new writable
  refine ⟨prints, fun words fits => ?_⟩
  have writable' : (update m).after.denies path = false := by
    rw [first, Memory.denies_tryPut]
    exact writable
  rw [writes _ writable' (prints.holds ordered words fits)]
  exact ⟨rfl, prints.agrees⟩

/-- An update of a manifest, and one of a build configuration whose parameters stand in the order
of their keys, has turned the object in its file into another one when it comes through. The file
is that object in print, and the same update settles it. -/
theorem updates_settle (m : Memory) (s : Step) :
    ((Manifest.update s m).result = .ok () → ∃ old new, Holds m s.path old ∧
        Manifest.addAll? old (s.dependencies.map Manifest.Package.parse) = some new ∧
        Settled (Manifest.update s) s.path m new) ∧
      (s.params.Ascending → (BuildConfig.update s m).result = .ok () →
        ∃ old new, Opened m s.path old ∧ BuildConfig.setAll s.params old = .ok new ∧
          Settled (BuildConfig.update s) s.path m new) := by
  constructor
  · intro done
    obtain ⟨old, new, holds, added, writable⟩ := Manifest.added_of_update done
    have ordered : (Json.object new).Ordered := (Manifest.addAll?_ok added holds.ordered).1
    have again := Manifest.addAll?_again holds.ordered added
    refine ⟨old, new, holds, added, settled_of_repeats ordered ?_
      (Manifest.update_of_added holds added writable) writable⟩
    exact fun m writable holds => Manifest.update_of_added holds again writable
  · intro ascending done
    obtain ⟨old, new, opened, set, writable⟩ := BuildConfig.set_of_update done
    have ordered : (Json.object new).Ordered := BuildConfig.ordered_setAll set opened.ordered
    have again := BuildConfig.setAll_again ascending opened.ordered set
    refine ⟨old, new, opened, set, settled_of_repeats ordered ?_
      (BuildConfig.update_of_set opened set writable) writable⟩
    exact fun m writable holds => BuildConfig.update_of_set (.inl holds) again writable

def nestedStep : Step where
  id := ⟨"config-change:tsconfig.json:0"⟩
  kind := .configChange
  path := ⟨"tsconfig.json"⟩
  params := [("paths", "\x7b\n  \"app\": 1\n\x7d"), ("paths.lib", "2")]

def nestedPaths : Json.Members :=
  [("paths", .object [("app", .number (.whole 1)), ("lib", .number (.whole 2))])]

theorem nestedStep_sets : BuildConfig.setAll nestedStep.params [] = .ok nestedPaths := by
  have app : BuildConfig.valueOf "\x7b\n  \"app\": 1\n\x7d" =
      .object [("app", .number (.whole 1))] := by
    have text : (Json.object [("app", .number (.whole 1))]).pretty =
      "\x7b\n  \"app\": 1\n\x7d" := by decide +kernel
    rw [← text]
    exact BuildConfig.valueOf_pretty
      (.object (List.pairwise_singleton _ _) (List.forall_mem_singleton.mpr (.number _)))
      (.object (List.forall_mem_singleton.mpr (.number ⟨by decide, by decide⟩)))
      (.object (List.forall_mem_singleton.mpr (.number _ _)))
  have lib : BuildConfig.valueOf "2" = .number (.whole 2) := by
    have text : (Json.number (.whole 2)).pretty = "2" := by decide +kernel
    rw [← text]
    exact BuildConfig.valueOf_pretty (.number _) (.number ⟨by decide, by decide⟩) (.number _ _)
  have first : BuildConfig.segments "paths" = ["paths"] := by cbv
  have second : BuildConfig.segments "paths.lib" = ["paths", "lib"] := by cbv
  refine BuildConfig.setAll_cons.mpr ⟨?_, BuildConfig.setAll_cons.mpr ⟨?_, ?_⟩⟩
  · rw [app, BuildConfig.assign, first]
    rfl
  · rw [app, lib, BuildConfig.assign, BuildConfig.assign, first, second]
    rfl
  · rw [app, lib, BuildConfig.assign, BuildConfig.assign, first, second]
    rfl

theorem nestedStep_settles :
    nestedStep.params.Ascending ∧ (BuildConfig.update nestedStep ({} : Memory)).result = .ok () ∧
      let after := (BuildConfig.update nestedStep ({} : Memory)).after
      Prints after nestedStep.path nestedPaths ∧
        (BuildConfig.update nestedStep after).result = .ok () ∧
        Memory.Agrees after (BuildConfig.update nestedStep after).after := by
  have ascending : nestedStep.params.Ascending := by decide +kernel
  have opened : Opened ({} : Memory) nestedStep.path [] := .inr ⟨rfl, rfl⟩
  have done : (BuildConfig.update nestedStep ({} : Memory)).result = .ok () := by
    rw [BuildConfig.update_of_set opened nestedStep_sets rfl]
  obtain ⟨old, new, opened', set', settled⟩ := (updates_settle {} nestedStep).2 ascending done
  obtain rfl := opened.unique opened'
  obtain rfl : nestedPaths = new := Except.ok.inj (nestedStep_sets.symm.trans set')
  have words : (Json.object nestedPaths).InWords := by
    have one : (Json.Number.whole 1).IsWord := ⟨by decide, by decide⟩
    have two : (Json.Number.whole 2).IsWord := ⟨by decide, by decide⟩
    refine .object (List.forall_mem_singleton.mpr (.object ?_))
    exact List.forall_mem_cons.mpr ⟨.number one, List.forall_mem_singleton.mpr (.number two)⟩
  have fits : (Json.object nestedPaths).Fits Json.maxDepth := by
    refine .object (List.forall_mem_singleton.mpr (.object ?_))
    exact List.forall_mem_cons.mpr ⟨.number _ _, List.forall_mem_singleton.mpr (.number _ _)⟩
  exact ⟨ascending, done, settled.prints, settled.again words fits⟩

end Uplift
