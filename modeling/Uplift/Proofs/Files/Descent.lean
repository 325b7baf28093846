import Mathlib.Data.List.Induction
import Uplift.Proofs.Files.Placement
import Uplift.Proofs.Files.Writing

/-!
# Paths that lead straight down

A relative path without `..` leads from the base down through the directories that it names.
What is found at such a path depends on the entries on its way alone (`lookUp_straight`), and a
write to it can change no others (`makeDirs_straight`).
-/

namespace Uplift

namespace Path

abbrev names (p : Path) : List String := (Disk.Route.ofPath p).names

/-- A relative path of a file that goes down only, by names that are short enough. -/
structure Straight (p : Path) : Prop where
  noNul : p.text.toList.contains '\x00' = false
  relative : p.isAbsolute = false
  ofFile : (Disk.Route.ofPath p).mustBeDir = false
  down : ".." ∉ p.names
  short : ∀ name ∈ p.names, name.utf8ByteSize ≤ Disk.maxNameBytes

theorem names_join (place : Path) {p : Path} (relative : p.isAbsolute = false) :
    (place.join p).names = place.names ++ p.names := by
  obtain ⟨front, blank, joined, own, none, -⟩ := parts_join place p relative
  change ((place.join p).parts.filter _).map _ = (place.parts.filter _).map _ ++ _
  rw [joined, own, List.filter_append, List.filter_append, List.map_append, List.map_append]
  have vanishes : blank.filter (fun part => part ≠ [] ∧ part ≠ ['.']) = [] := by
    rcases none with rfl | rfl <;> rfl
  rw [vanishes, List.map_nil, List.append_nil]
  rfl

def nameOf? : Component → Option String
  | .root | .here => none
  | .up => some ".."
  | .name s => some s

theorem names_eq (p : Path) : p.names = p.components.filterMap nameOf? := by
  have start : p.lead.filterMap nameOf? = [] := by
    unfold lead
    split
    · rfl
    · split <;> rfl
  rw [components_eq, List.filterMap_append, start, List.nil_append]
  change (p.parts.filter _).map _ = _
  induction p.parts with
  | nil => rfl
  | cons part rest ih =>
    rw [List.filter_cons, List.filterMap_cons, componentOf]
    by_cases blank : part = [] ∨ part = ['.']
    · rw [if_pos blank, if_neg (by rcases blank with rfl | rfl <;> simp)]
      exact ih
    · rw [if_neg blank, if_pos (by simpa using blank), List.map_cons, ih]
      by_cases up : part = ['.', '.']
      · subst up
        rfl
      · rw [if_neg up]
        rfl

theorem names_congr {p q : Path} (same : p.same q = true) : p.names = q.names := by
  rw [names_eq, names_eq, components_of_same same]

end Path

namespace Disk

def shown : Option Entry → Except FileCause Entry
  | some .dir => .ok .dir
  | some (.file content) => .ok (.file content)
  | some .oddFile | none => .error .notFound

def lookDown (d : Disk) (here : Location) : List String → Except FileCause Entry
  | [] => .ok .dir
  | [name] => shown (d.entryAt? (here ++ [name]))
  | name :: rest =>
    match d.entryAt? (here ++ [name]) with
    | some .dir => lookDown d (here ++ [name]) rest
    | some (.file _) => .error .notDirectory
    | some .oddFile | none => .error .notFound

theorem enter_cons (d : Disk) (here : Location) {name : String} {rest : List String}
    (down : ".." ∉ name :: rest)
    (short : ∀ name' ∈ name :: rest, name'.utf8ByteSize ≤ maxNameBytes) (names : List String) :
    d.enter here (name :: names) =
      match d.entryAt? (here ++ [name]) with
      | some .dir => d.enter (here ++ [name]) names
      | some (.file _) => .error .notDirectory
      | some .oddFile | none => .error .notFound := by
  rw [List.mem_cons, not_or] at down
  have fits : ¬name.utf8ByteSize > maxNameBytes := Nat.not_lt.mpr (short name List.mem_cons_self)
  rcases stands : d.entryAt? (here ++ [name]) with _ | _ | _ | _ <;>
    simp [enter, Ne.symm down.1, fits, stands]

theorem lookDown_cons (d : Disk) (here : Location) {name : String} {rest : List String}
    (more : rest ≠ []) :
    d.lookDown here (name :: rest) =
      match d.entryAt? (here ++ [name]) with
      | some .dir => d.lookDown (here ++ [name]) rest
      | some (.file _) => .error .notDirectory
      | some .oddFile | none => .error .notFound := by
  cases rest with
  | nil => exact absurd rfl more
  | cons next rest => rfl

theorem lookDown_eq (d : Disk) (here : Location) {names : List String} {last : String}
    (ends : names.getLast? = some last) (down : ".." ∉ names)
    (short : ∀ name ∈ names, name.utf8ByteSize ≤ maxNameBytes) :
    d.lookDown here names =
      d.enter here names.dropLast >>= fun parent => shown (d.entryAt? (parent ++ [last])) := by
  fun_induction lookDown d here names with
  | case1 => cases ends
  | case2 here name =>
    obtain rfl : name = last := Option.some.inj ends
    rfl
  | case3 here name rest more isDir ih =>
    rw [List.dropLast_cons_of_ne_nil more, enter_cons d here down short, isDir]
    exact ih (by rw [← ends, List.getLast?_cons_of_ne_nil more])
      (fun up => down (List.mem_cons_of_mem _ up))
      fun other among => short other (List.mem_cons_of_mem _ among)
  | case4 here name rest more content isFile =>
    rw [List.dropLast_cons_of_ne_nil more, enter_cons d here down short, isFile]
    rfl
  | case5 here name rest more missing | case6 here name rest more missing =>
    rw [List.dropLast_cons_of_ne_nil more, enter_cons d here down short, missing]
    rfl

end Disk

theorem Path.Straight.routed {p : Path} (straight : p.Straight) :
    Disk.routeOf p = .ok (Disk.Route.ofPath p) := by
  unfold Disk.routeOf
  rw [straight.noNul, straight.relative]
  rfl

theorem Path.names_ne_nil {p : Path} (ofFile : (Disk.Route.ofPath p).mustBeDir = false) :
    p.names ≠ [] := by
  have last := List.getLast?_eq_some_getLast p.parts_ne_nil
  have member := List.getLast_mem p.parts_ne_nil
  generalize p.parts.getLast p.parts_ne_nil = part at last member
  unfold parts at last
  simp only [Disk.Route.ofPath, last, Option.getD_some, Bool.or_eq_false_iff,
    decide_eq_false_iff_not] at ofFile
  obtain ⟨⟨some, undotted⟩, -⟩ := ofFile
  refine List.ne_nil_of_mem (a := String.ofList part) ?_
  exact List.mem_map_of_mem (List.mem_filter.mpr ⟨member, by simp [some, undotted]⟩)

namespace Disk

theorem lookUp_straight (d : Disk) {p : Path} (straight : p.Straight) :
    d.lookUp p = d.lookDown d.base p.names := by
  have last := List.getLast?_eq_some_getLast (Path.names_ne_nil straight.ofFile)
  have member := List.getLast_mem (Path.names_ne_nil straight.ofFile)
  generalize p.names.getLast (Path.names_ne_nil straight.ofFile) = name at last member
  have resolved : d.resolve (Route.ofPath p) =
      (d.enter d.base p.names.dropLast).map (· ++ [name]) := by
    unfold resolve
    split
    · rename_i none
      rw [none] at last
      cases last
    · rename_i up
      exact absurd (List.mem_of_getLast? up) straight.down
    · rename_i name' notUp last'
      obtain rfl : name = name' := Option.some.inj (last.symm.trans last')
      have fits : ¬name.utf8ByteSize > maxNameBytes := Nat.not_lt.mpr (straight.short name member)
      simp only [fits, if_false]
      cases d.enter d.base p.names.dropLast <;> rfl
  rw [lookDown_eq d d.base last straight.down straight.short]
  unfold lookUp
  rw [straight.routed]
  simp only [bind, Except.bind, resolved, straight.ofFile]
  cases d.enter d.base p.names.dropLast with
  | error e => rfl
  | ok parent =>
    simp only [Except.map]
    cases d.entryAt? (parent ++ [name]) with
    | none => rfl
    | some e => cases e <;> rfl

/-! ### Trees -/

def Rooted (d : Disk) : Prop :=
  ∀ l name e, d.entryAt? (l ++ [name]) = some e → d.entryAt? l = some .dir

theorem Rooted.dir_above {d : Disk} (rooted : d.Rooted) {l rest : Location} {e : Entry}
    (stands : d.entryAt? (l ++ rest) = some e) (below : rest ≠ []) :
    d.entryAt? l = some .dir := by
  induction rest using List.reverseRecOn generalizing e with
  | nil => exact absurd rfl below
  | append_singleton front name ih =>
    rw [← List.append_assoc] at stands
    have parent := rooted _ _ _ stands
    by_cases top : front = []
    · rw [top, List.append_nil] at parent
      exact parent
    · exact ih parent top

theorem Rooted.none_below {d : Disk} (rooted : d.Rooted) {l : Location}
    (none : d.entryAt? l = none) (rest : Location) : d.entryAt? (l ++ rest) = Option.none := by
  by_cases here : rest = []
  · rw [here, List.append_nil, none]
  · cases stands : d.entryAt? (l ++ rest) with
    | none => rfl
    | some e =>
      rw [rooted.dir_above stands here] at none
      cases none

theorem rooted_of_entries {d : Disk}
    (inDir : ∀ entry ∈ d.entries, d.entryAt? entry.1.dropLast = some .dir) : d.Rooted := by
  intro l name e stands
  unfold entryAt? at stands
  rw [if_neg (by simp)] at stands
  obtain ⟨entry, found, -⟩ := Option.map_eq_some_iff.mp stands
  have place : entry.1 = l ++ [name] := by simpa using List.find?_some found
  have parent := inDir entry (List.mem_of_find?_eq_some found)
  rw [place, List.dropLast_concat] at parent
  exact parent

/-! ### Looking down -/

/-- Something holds all along the way of the names: at each place on it, and with the names
that are still to come there. -/
def Along (P : Location → List String → Prop) (here : Location) (names : List String) : Prop :=
  ∀ front rest, names = front ++ rest → front ≠ [] → P (here ++ front) rest

theorem along_cons {P : Location → List String → Prop} {here : Location} {name : String}
    {rest : List String} :
    Along P here (name :: rest) ↔ P (here ++ [name]) rest ∧ Along P (here ++ [name]) rest := by
  constructor
  · intro way
    refine ⟨way [name] rest rfl (by simp), fun front rest' parts given => ?_⟩
    simpa using way (name :: front) rest' (by rw [parts]; rfl) (by simp)
  · rintro ⟨first, later⟩ front rest' parts given
    obtain ⟨name', front, rfl⟩ := List.exists_cons_of_ne_nil given
    obtain ⟨rfl, others⟩ := List.cons.inj parts
    cases front with
    | nil =>
      obtain rfl : rest = rest' := others
      exact first
    | cons next front => simpa using later (next :: front) rest' others (by simp)

theorem lookDown_file {d : Disk} {here : Location} {names : List String} {content : Content}
    (found : d.lookDown here names = .ok (.file content)) :
    d.entryAt? (here ++ names) = some (.file content) := by
  fun_induction lookDown d here names with
  | case1 | case4 | case5 | case6 => cases found
  | case2 here name =>
    unfold shown at found
    split at found
    · cases found
    · rename_i stands
      cases found
      exact stands
    · cases found
    · cases found
  | case3 here name rest more isDir ih => simpa using ih found

theorem lookDown_missing {d : Disk} {here : Location} {names : List String} (some : names ≠ [])
    (bare : Along (fun l rest => d.entryAt? l = none ∨
      d.entryAt? l = Option.some .dir ∧ rest ≠ []) here names) :
    d.lookDown here names = .error .notFound := by
  fun_induction lookDown d here names with
  | case1 => exact absurd rfl some
  | case2 here name =>
    rcases (along_cons.mp bare).1 with none | ⟨-, more⟩
    · rw [none]
      rfl
    · exact absurd rfl more
  | case3 here name rest more isDir ih => exact ih more (along_cons.mp bare).2
  | case4 here name rest more content isFile =>
    rcases (along_cons.mp bare).1 with none | ⟨isDir, -⟩
    · rw [none] at isFile
      cases isFile
    · rw [isDir] at isFile
      cases isFile
  | case5 | case6 => rfl

/-- New directories on the way of a path do not change what is found there, as long as the path
itself is none of them. -/
theorem lookDown_frame {d d' : Disk} (rooted : d.Rooted) {here : Location} {names : List String}
    (way : Along (fun l rest => d'.entryAt? l = d.entryAt? l ∨
      d.entryAt? l = none ∧ d'.entryAt? l = some .dir ∧ rest ≠ []) here names) :
    d'.lookDown here names = d.lookDown here names := by
  fun_induction lookDown d here names with
  | case1 => rfl
  | case2 here name =>
    rcases (along_cons.mp way).1 with same | ⟨-, -, more⟩
    · rw [lookDown, same]
    · exact absurd rfl more
  | case3 here name rest more isDir ih =>
    obtain ⟨same | ⟨none, -⟩, later⟩ := along_cons.mp way
    · rw [lookDown_cons d' here more, same, isDir]
      exact ih later
    · rw [none] at isDir
      cases isDir
  | case4 here name rest more content stands | case5 here name rest more stands =>
    rcases (along_cons.mp way).1 with same | ⟨none, -⟩
    · rw [lookDown_cons d' here more, same, stands]
    · rw [none] at stands
      cases stands
  | case6 here name rest more none =>
    obtain ⟨same | ⟨-, made, -⟩, later⟩ := along_cons.mp way
    · rw [lookDown_cons d' here more, same, none]
    · -- behind a directory that was made there is nothing but other such directories
      rw [lookDown_cons d' here more, made]
      refine lookDown_missing more fun front rest' parts given => ?_
      rcases later front rest' parts given with same | ⟨-, dir, rest⟩
      · exact .inl (same.trans (rooted.none_below none front))
      · exact .inr ⟨dir, rest⟩

/-! ### Writing -/

def Open (d : Disk) : Location → List String → Prop :=
  Along fun l _ => d.entryAt? l = none ∨ d.entryAt? l = some .dir

theorem open_cons {d : Disk} {here : Location} {name : String} {rest : List String} :
    d.Open here (name :: rest) ↔
      (d.entryAt? (here ++ [name]) = none ∨ d.entryAt? (here ++ [name]) = some .dir) ∧
        d.Open (here ++ [name]) rest :=
  along_cons

theorem open_set {d : Disk} {here : Location} {name : String} {rest : List String} :
    (d.set (here ++ [name]) .dir).Open (here ++ [name]) rest ↔ d.Open (here ++ [name]) rest := by
  have same (front : List String) (given : front ≠ []) :
      (d.set (here ++ [name]) .dir).entryAt? (here ++ [name] ++ front) =
        d.entryAt? (here ++ [name] ++ front) :=
    entryAt?_set_other d .dir (by simpa using given)
  constructor <;> intro way front rest' parts given
  · exact same front given ▸ way front rest' parts given
  · exact (same front given).symm ▸ way front rest' parts given

theorem makeDirs_of_open {d : Disk} {here : Location} {names : List String}
    (down : ".." ∉ names) (short : ∀ name ∈ names, name.utf8ByteSize ≤ maxNameBytes)
    (way : d.Open here names) : ∃ d', d.makeDirs here names = .ok (d', here ++ names) := by
  fun_induction makeDirs d here names with
  | case1 d here => exact ⟨d, by simp⟩
  | case2 | case3 => simp at down
  | case4 d here name rest notUp long =>
    exact absurd (short name List.mem_cons_self) (Nat.not_le.mpr long)
  | case5 d here name rest notUp fits l isDir ih =>
    obtain ⟨d', made⟩ := ih (fun up => down (List.mem_cons_of_mem _ up))
      (fun other among => short other (List.mem_cons_of_mem _ among)) (open_cons.mp way).2
    exact ⟨d', by rw [made, List.append_assoc]; rfl⟩
  | case6 d here name rest notUp fits l content stands
  | case7 d here name rest notUp fits l stands =>
    rcases (open_cons.mp way).1 with none | isDir
    · rw [none] at stands
      cases stands
    · rw [isDir] at stands
      cases stands
  | case8 d here name rest notUp fits l none ih =>
    obtain ⟨d', made⟩ := ih (fun up => down (List.mem_cons_of_mem _ up))
      (fun other among => short other (List.mem_cons_of_mem _ among))
      (open_set.mpr (open_cons.mp way).2)
    exact ⟨d', by rw [made, List.append_assoc]; rfl⟩

theorem makeDirs_straight {d d' : Disk} {here there : Location} {names : List String}
    (down : ".." ∉ names) (made : d.makeDirs here names = .ok (d', there)) :
    there = here ++ names ∧ (∀ name ∈ names, name.utf8ByteSize ≤ maxNameBytes) ∧
      d.Open here names ∧
      ∀ l, d'.entryAt? l = d.entryAt? l ∨
        d.entryAt? l = none ∧ d'.entryAt? l = some .dir ∧
          ∃ front rest, names = front ++ rest ∧ l = here ++ front := by
  fun_induction makeDirs d here names with
  | case1 d here =>
    cases made
    refine ⟨by simp, by simp, fun front rest parts given => ?_, fun _ => .inl rfl⟩
    exact absurd (List.append_eq_nil_iff.mp parts.symm).1 given
  | case2 | case3 => simp at down
  | case4 | case6 | case7 => cases made
  | case5 d here name rest notUp fits l isDir ih =>
    obtain ⟨rfl, short, way, entries⟩ := ih (fun up => down (List.mem_cons_of_mem _ up)) made
    refine ⟨by simp [l], List.forall_mem_cons.mpr ⟨Nat.not_lt.mp fits, short⟩,
      open_cons.mpr ⟨.inr isDir, way⟩, fun l' => ?_⟩
    rcases entries l' with same | ⟨none, dir, front, rest', rfl, rfl⟩
    · exact .inl same
    · exact .inr ⟨none, dir, name :: front, rest', rfl, by simp [l]⟩
  | case8 d here name rest notUp fits l none ih =>
    obtain ⟨rfl, short, way, entries⟩ := ih (fun up => down (List.mem_cons_of_mem _ up)) made
    refine ⟨by simp [l], List.forall_mem_cons.mpr ⟨Nat.not_lt.mp fits, short⟩,
      open_cons.mpr ⟨.inl none, open_set.mp way⟩, fun l' => ?_⟩
    by_cases own : l' = l
    · have kept := (makeDirs_addsDirs made).kept (d.entryAt?_set_self .dir (l := l) (by simp [l]))
      exact .inr ⟨own ▸ none, own ▸ kept, [name], rest, rfl, own⟩
    · rw [← entryAt?_set_other d .dir own]
      rcases entries l' with same | ⟨none, dir, front, rest', rfl, rfl⟩
      · exact .inl same
      · exact .inr ⟨none, dir, name :: front, rest', rfl, by simp [l]⟩

/-- A file can be put where the names lead: the way is open, and no directory is there. -/
structure Room (d : Disk) (names : List String) : Prop where
  way : d.Open d.base names.dropLast
  free : d.entryAt? (d.base ++ names) ≠ some .dir

/-- From `d` to `d'` a file was put where the names lead, with the directories on its way. -/
structure PutAt (names : List String) (content : Content) (d d' : Disk) : Prop where
  base : d'.base = d.base
  file : d'.entryAt? (d.base ++ names) = some (.file content)
  entries : ∀ l, l = d.base ++ names ∨ d'.entryAt? l = d.entryAt? l ∨
    d.entryAt? l = none ∧ d'.entryAt? l = some .dir ∧
      ∃ front rest, rest ≠ [] ∧ names = front ++ rest ∧ l = d.base ++ front

theorem routeOf_ok {p : Path} {route : Route} (routed : routeOf p = .ok route) :
    route = Route.ofPath p ∧ p.text.toList.contains '\x00' = false ∧ p.isAbsolute = false := by
  unfold routeOf at routed
  split at routed
  · cases routed
  · split at routed
    · cases routed
    · rename_i noNul relative
      cases routed
      exact ⟨rfl, Bool.eq_false_iff.mpr noNul, Bool.eq_false_iff.mpr relative⟩

/-- What a write to a path that goes down says about the path and the tree, and what it does. -/
theorem writeAt_straight {d d' : Disk} {p : Path} {content : Content} (down : ".." ∉ p.names)
    (written : d.writeAt p content = .ok d') :
    p.Straight ∧ d.Room p.names ∧ PutAt p.names content d d' := by
  unfold writeAt at written
  obtain ⟨route, routed, written⟩ := bind_ok written
  obtain ⟨rfl, noNul, relative⟩ := routeOf_ok routed
  obtain ⟨⟨made, parent⟩, walked, put⟩ := bind_ok written
  obtain ⟨name, last, -, fits, ofFile, noDir, rfl⟩ := putFile_ok put
  obtain ⟨front, parts⟩ := List.getLast?_eq_some_iff.mp last
  have parts : p.names = front ++ [name] := parts
  have parents : parentNames (Route.ofPath p) = front := by
    unfold parentNames
    rw [show (Route.ofPath p).names = _ from parts, List.dropLast_concat]
  rw [parents] at walked
  rw [parts, List.mem_append, not_or] at down
  obtain ⟨rfl, short, way, entries⟩ := makeDirs_straight down.1 walked
  have place : d.base ++ p.names = d.base ++ front ++ [name] := by
    rw [parts, List.append_assoc]
  have kept := makeDirs_addsDirs walked
  refine ⟨⟨noNul, relative, ofFile, ?_, ?_⟩, ⟨?_, ?_⟩, ⟨kept.base, ?_, fun l => ?_⟩⟩
  · rw [parts, List.mem_append, not_or]
    exact down
  · rw [parts]
    intro other among
    rcases List.mem_append.mp among with early | last
    · exact short other early
    · exact List.mem_singleton.mp last ▸ Nat.not_lt.mp fits
  · rw [parts, List.dropLast_concat]
    exact way
  · rw [place]
    intro isDir
    rw [isDirAt, kept.kept isDir] at noDir
    cases noDir
  · rw [place]
    exact made.entryAt?_set_self _ (by simp)
  · by_cases own : l = d.base ++ p.names
    · exact .inl own
    · right
      rw [entryAt?_set_other made _ (place ▸ own)]
      rcases entries l with same | ⟨none, dir, front', rest, rfl, rfl⟩
      · exact .inl same
      · exact .inr ⟨none, dir, front', rest ++ [name], by simp, by simp [parts], rfl⟩

theorem putFile_of_free {d : Disk} {parent : Location} {r : Route} {name : String}
    (last : r.names.getLast? = some name) (notUp : name ≠ "..")
    (fits : ¬name.utf8ByteSize > maxNameBytes) (ofFile : r.mustBeDir = false)
    (noDir : d.isDirAt (parent ++ [name]) = false) (content : Content) :
    d.putFile parent r content = .ok (d.set (parent ++ [name]) (.file content)) := by
  unfold putFile
  split
  · rename_i none
    rw [none] at last
    cases last
  · rename_i up
    exact absurd (Option.some.inj (last.symm.trans up)) notUp
  · rename_i last'
    obtain rfl := Option.some.inj (last.symm.trans last')
    simp [fits, ofFile, noDir]

theorem writeAt_of_room {d : Disk} {p : Path} (straight : p.Straight) (room : d.Room p.names)
    (content : Content) : ∃ d', d.writeAt p content = .ok d' := by
  have last := List.getLast?_eq_some_getLast (Path.names_ne_nil straight.ofFile)
  generalize p.names.getLast (Path.names_ne_nil straight.ofFile) = name at last
  obtain ⟨front, parts⟩ := List.getLast?_eq_some_iff.mp last
  obtain ⟨way, free⟩ := room
  rw [parts, List.dropLast_concat] at way
  have down : ".." ∉ front := fun up => straight.down (by simp [parts, up])
  obtain ⟨made, walked⟩ := makeDirs_of_open down
    (fun other among => straight.short other (by simp [parts, among])) way
  obtain ⟨-, -, -, entries⟩ := makeDirs_straight down walked
  -- none of the directories that were made is where the file goes
  have noDir : made.isDirAt (d.base ++ front ++ [name]) = false := by
    rw [isDirAt, decide_eq_false_iff_not]
    intro isDir
    rcases entries (d.base ++ front ++ [name]) with same | ⟨-, -, front', rest, rfl, own⟩
    · rw [parts, ← List.append_assoc] at free
      exact free (same.symm.trans isDir)
    · have lengths := congrArg List.length own
      simp at lengths
  have parents : parentNames (Route.ofPath p) = front := by
    unfold parentNames
    rw [show (Route.ofPath p).names = _ from parts, List.dropLast_concat]
  have notUp : name ≠ ".." := fun up => straight.down (by simp [parts, up])
  have fits : ¬name.utf8ByteSize > maxNameBytes :=
    Nat.not_lt.mpr (straight.short name (by simp [parts]))
  refine ⟨made.set (d.base ++ front ++ [name]) (.file content), ?_⟩
  unfold writeAt
  simp only [straight.routed, bind, Except.bind, parents, walked]
  exact putFile_of_free last notUp fits straight.ofFile noDir content

end Disk

end Uplift
