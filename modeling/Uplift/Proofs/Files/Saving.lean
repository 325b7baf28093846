import Uplift.Files.Disk
import Uplift.Proofs.Except

/-!
# Where a file is saved

Saving a file changes the entry at the place that its path leads to, and no other.
-/

namespace Uplift

namespace Disk

/-- Where a path leads, whether or not something is there. -/
def LeadsTo (d : Disk) (p : Path) (l : Location) : Prop :=
  ∃ route, routeOf p = .ok route ∧ d.resolve route = .ok l

theorem entryAt?_set_other (d : Disk) (e : Entry) {l l' : Location} (other : l' ≠ l) :
    (d.set l e).entryAt? l' = d.entryAt? l' := by
  have found : ((d.entries.filter (·.1 ≠ l)) ++ [(l, e)]).find? (·.1 = l') =
      d.entries.find? (·.1 = l') := by
    have last : [(l, e)].find? (·.1 = l') = none := by
      simp [List.find?, Ne.symm other]
    rw [List.find?_append, last, Option.or_none, List.find?_filter]
    congr 1
    funext entry
    by_cases here : entry.1 = l'
    · simp [here, other]
    · simp [here]
  unfold entryAt? set
  rw [found]

theorem putFile_ok {d d' : Disk} {parent : Location} {r : Route} {content : Content}
    (put : d.putFile parent r content = .ok d') :
    ∃ name, r.names.getLast? = some name ∧ name ≠ ".." ∧ ¬name.utf8ByteSize > maxNameBytes ∧
      r.mustBeDir = false ∧ d.isDirAt (parent ++ [name]) = false ∧
      d' = d.set (parent ++ [name]) (.file content) := by
  unfold putFile at put
  split at put
  · cases put
  · cases put
  · rename_i name notUp last
    split at put
    · cases put
    · rename_i short
      dsimp only at put
      split at put
      · cases put
      · rename_i free
        obtain ⟨plain, noDir⟩ := Bool.or_eq_false_iff.mp (Bool.eq_false_iff.mpr free)
        cases put
        exact ⟨name, last, notUp, short, plain, noDir, rfl⟩

theorem resolve_of_last {d : Disk} {r : Route} {name : String} {parent : Location}
    (last : r.names.getLast? = some name) (notUp : name ≠ "..")
    (short : ¬name.utf8ByteSize > maxNameBytes)
    (entered : d.enter d.base (parentNames r) = .ok parent) :
    d.resolve r = .ok (parent ++ [name]) := by
  unfold resolve
  rw [last]
  split
  · rename_i none
    cases none
  · rename_i up
    exact absurd (Option.some.inj up) notUp
  · rename_i same
    obtain rfl := Option.some.inj same
    have parent : d.enter d.base r.names.dropLast = .ok parent := entered
    rw [parent]
    exact if_neg short

theorem saveAt_elsewhere {d d' : Disk} {p : Path} {content : Content} {l : Location}
    (saved : d.saveAt p content = .ok d') (elsewhere : ¬d.LeadsTo p l) :
    d'.entryAt? l = d.entryAt? l := by
  unfold saveAt at saved
  obtain ⟨route, found, saved⟩ := bind_ok saved
  obtain ⟨parent, entered, saved⟩ := bind_ok saved
  obtain ⟨name, last, notUp, short, -, -, rfl⟩ := putFile_ok saved
  have there := resolve_of_last last notUp short entered
  refine entryAt?_set_other d _ fun same => elsewhere ⟨route, found, ?_⟩
  rw [there, same]

end Disk

end Uplift
