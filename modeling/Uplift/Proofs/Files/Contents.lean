import Uplift.Files.Memory

/-!
# What a memory store holds

Two stores agree if every path holds the same content in both and the same paths are
read-only. `tryPut` is an attempt to give a file a content, and `get?_tryPut` says all it
does. A change at one path is undone by giving the path its old content back
(`tryPut_undoes`).
-/

namespace Uplift.Memory

theorem get?_congr (m : Memory) {p q : Path} (h : q.same p = true) : m.get? q = m.get? p :=
  Files.lookup_congr h m.files

/-- Reading a memory store never fails; a file that is not there is no failure. -/
theorem read?_eq (m : Memory) (p : Path) : FileStore.read? m p = .ok (m.get? p) := by
  simp only [FileStore.read?, FileStore.read, read]
  cases m.get? p <;> rfl

theorem denies_congr (m : Memory) {p q : Path} (h : q.same p = true) :
    m.denies q = m.denies p := by
  unfold denies
  rw [funext (Files.same_congr_left h)]

theorem denies_of_readOnly_nil {m : Memory} (none : m.readOnly = []) (p : Path) :
    m.denies p = false := by
  unfold denies
  rw [none]
  rfl

theorem lookup_of_mem {files : Files} {p : Path} (member : p ∈ files.map (·.1)) :
    ∃ content, files.lookup p = some content := by
  induction files with
  | nil => cases member
  | cons entry rest ih =>
    rw [Files.lookup]
    cases same : p.same entry.1 with
    | true => exact ⟨entry.2, rfl⟩
    | false =>
      rcases List.mem_cons.mp member with rfl | among
      · exact absurd (Path.same_refl _) (Bool.eq_false_iff.mp same)
      · exact ih among

theorem list_ok {m : Memory} {r : Request} {listed : List Path}
    (scanned : FileStore.list m r = .ok listed) :
    ∃ filter : PathFilter, listed = (m.files.map (·.1)).filter filter.accepts := by
  have scanned : m.list r = .ok listed := scanned
  unfold list at scanned
  cases chosen : PathFilter.ofRequest r with
  | error e =>
    rw [chosen] at scanned
    cases scanned
  | ok filter =>
    rw [chosen] at scanned
    cases scanned
    exact ⟨filter, rfl⟩

theorem stored_of_listed {m : Memory} {r : Request} {listed : List Path}
    (scanned : FileStore.list m r = .ok listed) {path : Path} (member : path ∈ listed) :
    path ∈ m.files.map (·.1) := by
  obtain ⟨filter, rfl⟩ := list_ok scanned
  exact (List.mem_filter.mp member).1

theorem get?_of_listed {m : Memory} {r : Request} {listed : List Path}
    (scanned : FileStore.list m r = .ok listed) {path : Path} (member : path ∈ listed) :
    ∃ content, m.get? path = some content := lookup_of_mem (stored_of_listed scanned member)

/-! ### Agreement -/

structure Agrees (m m' : Memory) : Prop where
  contents : ∀ q, m'.get? q = m.get? q
  readOnly : m'.readOnly = m.readOnly

namespace Agrees

theorem refl (m : Memory) : Agrees m m := ⟨fun _ => rfl, rfl⟩

theorem trans {m₁ m₂ m₃ : Memory} (h : Agrees m₁ m₂) (h' : Agrees m₂ m₃) : Agrees m₁ m₃ :=
  ⟨fun q => (h'.contents q).trans (h.contents q), h'.readOnly.trans h.readOnly⟩

theorem denies {m m' : Memory} (h : Agrees m m') (p : Path) : m'.denies p = m.denies p := by
  rw [Memory.denies, Memory.denies, h.readOnly]

end Agrees

/-! ### Attempts to put a content -/

def tryPut (m : Memory) (p : Path) (content : Option String) : Memory :=
  (FileStore.put m p content).toOption.getD m

theorem put_eq (m : Memory) (p : Path) (content : Option String) :
    FileStore.put m p content =
      if m.denies p then .error (.unwritable p .readOnly) else .ok (m.tryPut p content) := by
  cases content <;> cases h : m.denies p <;>
    simp [tryPut, FileStore.put, FileStore.write, FileStore.remove, write, remove, h, Except.toOption]

theorem get?_tryPut (m : Memory) (p : Path) (content : Option String) (q : Path) :
    (m.tryPut p content).get? q =
      if m.denies p = false ∧ q.same p = true then content else m.get? q := by
  cases hd : m.denies p with
  | true => cases content <;> simp [tryPut, FileStore.put, FileStore.write, FileStore.remove, write,
      remove, hd, Except.toOption]
  | false =>
    cases hq : q.same p <;> cases content <;>
      simp [tryPut, FileStore.put, FileStore.write, FileStore.remove, write, remove, hd,
        Except.toOption, get?, hq, Files.lookup_put_same, Files.lookup_put_other,
        Files.lookup_erase_same, Files.lookup_erase_other]

theorem get?_of_put {m m' : Memory} {p : Path} {content : Option String}
    (put : FileStore.put m p content = .ok m') : m'.get? p = content := by
  rw [put_eq] at put
  split at put
  · cases put
  · rename_i writable
    cases put
    rw [get?_tryPut, if_pos ⟨Bool.eq_false_iff.mpr writable, p.same_refl⟩]

theorem readOnly_tryPut (m : Memory) (p : Path) (content : Option String) :
    (m.tryPut p content).readOnly = m.readOnly := by
  cases content <;> cases h : m.denies p <;>
    simp [tryPut, FileStore.put, FileStore.write, FileStore.remove, write, remove, h, Except.toOption]

theorem denies_tryPut (m : Memory) (p : Path) (content : Option String) (q : Path) :
    (m.tryPut p content).denies q = m.denies q := by
  rw [denies, denies, readOnly_tryPut]

theorem tryPut_agrees {m m' : Memory} (h : Agrees m m') (p : Path) (content : Option String) :
    Agrees (m.tryPut p content) (m'.tryPut p content) := by
  refine ⟨fun q => ?_, ?_⟩
  · rw [get?_tryPut, get?_tryPut, h.denies, h.contents]
  · rw [readOnly_tryPut, readOnly_tryPut, h.readOnly]

/-! ### Changes at one path -/

/-- At most the content at `p` has changed, and not even that if `p` is read-only. -/
structure ChangesAt (p : Path) (m m' : Memory) : Prop where
  elsewhere : ∀ q, q.same p = false → m'.get? q = m.get? q
  refused : m.denies p = true → m'.get? p = m.get? p
  readOnly : m'.readOnly = m.readOnly

theorem Agrees.changesAt {m m' : Memory} (h : Agrees m m') (p : Path) : ChangesAt p m m' :=
  ⟨fun q _ => h.contents q, fun _ => h.contents p, h.readOnly⟩

theorem ChangesAt.agrees {p : Path} {m m' : Memory} (h : ChangesAt p m m')
    (denied : m.denies p = true) : Agrees m m' := by
  refine ⟨fun q => ?_, h.readOnly⟩
  cases same : q.same p with
  | false => exact h.elsewhere q same
  | true => rw [get?_congr m' same, get?_congr m same, h.refused denied]

theorem tryPut_changesAt (m : Memory) (p : Path) (content : Option String) :
    ChangesAt p m (m.tryPut p content) := by
  refine ⟨fun q other => ?_, fun denied => ?_, readOnly_tryPut m p content⟩
  · simp [get?_tryPut, other]
  · simp [get?_tryPut, denied]

/-- Where a write is refused so is the restoring write, hence nothing is lost there. -/
theorem tryPut_undoes {p : Path} {m m' : Memory} (h : ChangesAt p m m') :
    Agrees m (m'.tryPut p (m.get? p)) := by
  have denies : m'.denies p = m.denies p := by rw [Memory.denies, Memory.denies, h.readOnly]
  cases denied : m.denies p with
  | true => exact (h.agrees denied).trans ((tryPut_changesAt m' p _).agrees (denies.trans denied))
  | false =>
    refine ⟨fun q => ?_, (readOnly_tryPut m' p _).trans h.readOnly⟩
    rw [get?_tryPut, denies, denied]
    cases same : q.same p with
    | true => simp [get?_congr m same]
    | false => simpa using h.elsewhere q same

end Uplift.Memory
