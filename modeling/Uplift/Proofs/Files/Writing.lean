import Uplift.Files.Walk
import Uplift.Proofs.Files.Contents
import Uplift.Proofs.Files.Saving

/-!
# Writing files and reading them back

A write makes the directories on its way where nothing was and then sets one entry
(`makeDirs_addsDirs`, `putFile_ok`). So the way that was made can be gone again, and what was
written is what a read finds there (`readAt_of_writeAt`). A store of which this can be said is
faithful; stores on disk and in memory are.
-/

namespace Uplift

namespace Disk

theorem entryAt?_set_self (d : Disk) {l : Location} (e : Entry) (below : l ≠ []) :
    (d.set l e).entryAt? l = some e := by
  have gone : (d.entries.filter (·.1 ≠ l)).find? (·.1 = l) = none := by
    rw [List.find?_filter]
    simp
  simp only [entryAt?, set, if_neg below, List.find?_append, gone]
  simp

theorem entryAt?_erase_other (d : Disk) {l l' : Location} (other : l' ≠ l) :
    (d.erase l).entryAt? l' = d.entryAt? l' := by
  have found : (d.entries.filter (·.1 ≠ l)).find? (·.1 = l') = d.entries.find? (·.1 = l') := by
    rw [List.find?_filter]
    congr 1
    funext entry
    by_cases here : entry.1 = l'
    · simp [here, other]
    · simp [here]
  simp only [entryAt?, erase, found]

theorem entryAt?_erase_self (d : Disk) {l : Location} (below : l ≠ []) :
    (d.erase l).entryAt? l = none := by
  have gone : (d.entries.filter (·.1 ≠ l)).find? (·.1 = l) = none := by
    rw [List.find?_filter]
    simp
  simp only [entryAt?, erase, if_neg below, gone, Option.map_none]

/-! ### Directories on the way -/

structure AddsDirs (d d' : Disk) : Prop where
  base : d'.base = d.base
  entries : ∀ l, d'.entryAt? l = d.entryAt? l ∨ d.entryAt? l = none ∧ d'.entryAt? l = some .dir

namespace AddsDirs

theorem refl (d : Disk) : AddsDirs d d := ⟨rfl, fun _ => .inl rfl⟩

theorem trans {d₁ d₂ d₃ : Disk} (h : AddsDirs d₁ d₂) (h' : AddsDirs d₂ d₃) : AddsDirs d₁ d₃ := by
  refine ⟨h'.base.trans h.base, fun l => ?_⟩
  rcases h.entries l with same | ⟨none, made⟩ <;> rcases h'.entries l with same' | ⟨none', made'⟩
  · exact .inl (same'.trans same)
  · exact .inr ⟨same ▸ none', made'⟩
  · exact .inr ⟨none, same'.trans made⟩
  · exact .inr ⟨none, made'⟩

theorem of_set {d : Disk} {l : Location} (none : d.entryAt? l = none) :
    AddsDirs d (d.set l .dir) := by
  refine ⟨rfl, fun l' => ?_⟩
  by_cases here : l' = l
  · subst here
    have below : l' ≠ [] := by
      rintro rfl
      cases none
    exact .inr ⟨none, d.entryAt?_set_self .dir below⟩
  · exact .inl (d.entryAt?_set_other .dir here)

theorem kept {d d' : Disk} (h : AddsDirs d d') {l : Location} {e : Entry}
    (held : d.entryAt? l = some e) : d'.entryAt? l = some e := by
  rcases h.entries l with same | ⟨none, -⟩
  · exact same.trans held
  · rw [none] at held
    cases held

end AddsDirs

theorem makeDirs_addsDirs {d d' : Disk} {here there : Location} {names : List String}
    (made : d.makeDirs here names = .ok (d', there)) : AddsDirs d d' := by
  fun_induction makeDirs d here names with
  | case1 d here =>
    cases made
    exact .refl _
  | case2 | case4 | case6 | case7 => cases made
  | case3 d here rest notTop ih => exact ih made
  | case5 d here name rest notUp short l isDir ih => exact ih made
  | case8 d here name rest notUp short l none ih => exact (AddsDirs.of_set none).trans (ih made)

theorem enter_of_makeDirs {d d' : Disk} {here there : Location} {names : List String}
    (made : d.makeDirs here names = .ok (d', there)) : d'.enter here names = .ok there := by
  fun_induction makeDirs d here names with
  | case1 d here =>
    cases made
    rfl
  | case2 | case4 | case6 | case7 => cases made
  | case3 d here rest notTop ih =>
    rw [enter, if_pos rfl, if_neg notTop]
    exact ih made
  | case5 d here name rest notUp short l isDir ih =>
    have kept := (makeDirs_addsDirs made).kept isDir
    rw [enter, if_neg notUp, if_neg short, kept]
    exact ih made
  | case8 d here name rest notUp short l none ih =>
    have isDir := d.entryAt?_set_self .dir (l := l) (by simp [l])
    have kept := (makeDirs_addsDirs made).kept isDir
    rw [enter, if_neg notUp, if_neg short, kept]
    exact ih made

theorem enter_of_dirs {d d' : Disk}
    (kept : ∀ l, d.entryAt? l = some .dir → d'.entryAt? l = some .dir) {here there : Location}
    {names : List String} (entered : d.enter here names = .ok there) :
    d'.enter here names = .ok there := by
  fun_induction enter d here names with
  | case1 here =>
    cases entered
    rfl
  | case2 | case4 | case6 | case7 | case8 => cases entered
  | case3 here rest notTop ih =>
    rw [enter, if_pos rfl, if_neg notTop]
    exact ih entered
  | case5 here name rest notUp short isDir ih =>
    rw [enter, if_neg notUp, if_neg short, kept _ isDir]
    exact ih entered

theorem resolve_of_dirs {d d' : Disk} (base : d'.base = d.base)
    (kept : ∀ l, d.entryAt? l = some .dir → d'.entryAt? l = some .dir) {r : Route} {l : Location}
    (resolved : d.resolve r = .ok l) : d'.resolve r = .ok l := by
  unfold resolve at resolved ⊢
  rw [base]
  split at resolved
  · exact resolved
  · exact enter_of_dirs kept resolved
  · obtain ⟨parent, entered, resolved⟩ := bind_ok resolved
    rw [enter_of_dirs kept entered]
    exact resolved

theorem ne_of_noDir {d : Disk} {l l' : Location} (noDir : d.isDirAt l = false)
    (isDir : d.entryAt? l' = some .dir) : l' ≠ l := by
  rintro rfl
  rw [isDirAt, isDir] at noDir
  cases noDir

theorem dirs_kept_of_set {d : Disk} {l : Location} (noDir : d.isDirAt l = false) (e : Entry)
    (l' : Location) (isDir : d.entryAt? l' = some .dir) :
    (d.set l e).entryAt? l' = some .dir := by
  rw [entryAt?_set_other d e (ne_of_noDir noDir isDir), isDir]

theorem dirs_kept_of_erase {d : Disk} {l : Location} (noDir : d.isDirAt l = false)
    (l' : Location) (isDir : d.entryAt? l' = some .dir) :
    (d.erase l).entryAt? l' = some .dir := by
  rw [entryAt?_erase_other d (ne_of_noDir noDir isDir), isDir]

/-! ### Reading back -/

theorem readAt_of_writeAt {d d' : Disk} {p : Path} {text : String}
    (written : d.writeAt p (.text text) = .ok d') : d'.readAt p = .ok text := by
  unfold writeAt at written
  obtain ⟨route, found, written⟩ := bind_ok written
  obtain ⟨⟨made, parent⟩, walked, put⟩ := bind_ok written
  obtain ⟨name, last, notUp, short, plain, noDir, rfl⟩ := putFile_ok put
  have base : (made.set (parent ++ [name]) (.file (.text text))).base = d.base :=
    (makeDirs_addsDirs walked).base
  have entered := enter_of_dirs (dirs_kept_of_set noDir (.file (.text text)))
    (enter_of_makeDirs walked)
  rw [← base] at entered
  have resolved := resolve_of_last last notUp short entered
  have held := made.entryAt?_set_self (.file (.text text)) (l := parent ++ [name]) (by simp)
  simp [readAt, lookUp, found, resolved, held, plain, bind, Except.bind, pure, Except.pure]

theorem readAt_of_removeAt {d d' : Disk} {p : Path} (removed : d.removeAt p = .ok d') :
    d'.readAt p = .error .notFound := by
  unfold removeAt at removed
  obtain ⟨route, found, removed⟩ := bind_ok removed
  unfold readAt lookUp
  rw [found]
  split at removed
  · rename_i nowhere
    cases removed
    simp [nowhere, bind, Except.bind]
  · cases removed
  · rename_i l resolved
    split at removed
    · cases removed
    · rename_i content held
      split at removed
      · cases removed
      · cases removed
        have noDir : d.isDirAt l = false := by simp [isDirAt, held]
        have below : l ≠ [] := by
          rintro rfl
          cases held
        have base : (d.erase l).base = d.base := rfl
        have resolved' := resolve_of_dirs base (dirs_kept_of_erase noDir) resolved
        simp [resolved', d.entryAt?_erase_self below, bind, Except.bind]
    · rename_i odd
      cases removed
      simp [resolved, odd, bind, Except.bind]
    · rename_i none
      cases removed
      simp [resolved, none, bind, Except.bind]

/-- Taking away a file whose path leads nowhere is an error that counts as success. -/
theorem readAt_of_nowhere {d : Disk} {p : Path} (nowhere : d.removeAt p = .error .notFound) :
    d.readAt p = .error .notFound := by
  unfold removeAt at nowhere
  unfold readAt lookUp
  cases found : routeOf p with
  | error e =>
    rw [found] at nowhere
    exact congrArg _ (Except.error.inj nowhere)
  | ok route =>
    rw [found] at nowhere
    simp only [bind, Except.bind] at nowhere
    -- along a route every other failure has its own cause
    split at nowhere
    · cases nowhere
    · rename_i e other resolved
      exact absurd (Except.error.inj nowhere) other
    · repeat' split at nowhere
      all_goals cases nowhere

end Disk

/-! ### Faithful stores -/

/-- What was written to a file is what it holds, and what was taken away is not there. -/
class FileStore.Faithful (σ : Type) [FileStore σ] : Prop where
  read_of_write {store store' : σ} {path : Path} {content : String} :
    write store path content = .ok store' → read store' path = .ok content
  read_of_remove {store store' : σ} {path : Path} :
    remove store path = .ok store' → read store' path = .error (.missing path)

theorem FileStore.read?_of_put {σ : Type} [FileStore σ] [Faithful σ] {store store' : σ}
    {path : Path} {content : Option String} (put : FileStore.put store path content = .ok store') :
    read? store' path = .ok content := by
  cases content with
  | none => simp [read?, Faithful.read_of_remove put]
  | some text => simp [read?, Faithful.read_of_write put]

instance : FileStore.Faithful Disk where
  read_of_write {d d' path content} written := by
    have written : d.write path content = .ok d' := written
    unfold Disk.write at written
    split at written
    · rename_i kept
      cases written
      have read := Disk.readAt_of_writeAt kept
      simp [FileStore.read, Disk.read, read]
    · cases written
  read_of_remove {d d' path} removed := by
    have removed : d.remove path = .ok d' := removed
    unfold Disk.remove at removed
    split at removed
    · rename_i gone
      cases removed
      simp [FileStore.read, Disk.read, Disk.readAt_of_removeAt gone]
    · rename_i nowhere
      cases removed
      simp [FileStore.read, Disk.read, Disk.readAt_of_nowhere nowhere]
    · cases removed

instance : FileStore.Faithful Memory where
  read_of_write {m m' path content} written := by
    have put : FileStore.put m path (some content) = .ok m' := written
    have held := Memory.get?_of_put put
    simp [FileStore.read, Memory.read, held]
  read_of_remove {m m' path} removed := by
    have put : FileStore.put m path none = .ok m' := removed
    have held := Memory.get?_of_put put
    simp [FileStore.read, Memory.read, held]

end Uplift
