import Mathlib.Data.List.Forall2
import Mathlib.Data.List.Nodup
import Uplift.Proofs.Json.Typed

/-!
# Records by their fields

A `RecordField` tells under which name a part of a structure stands and which trees give it. If the
slots of a record follow such fields, then decoding an object gives exactly the structure in
which every field has the value that its member tells, or the default value where it has no
member (`decodeText_ok_iff`). So the order of the members does not matter, nor do unknown ones.
-/

namespace Uplift.Json

/-- A part of a structure, and what it is read from. -/
structure RecordField (σ : Type) where
  name : String
  Value : Type
  get : σ → Value
  set : Value → σ → σ
  read? : Tree → Option Value

variable {σ : Type}

/-- Fields are told apart by their names and make up the whole structure. -/
structure RecordField.Lawful (fields : List (RecordField σ)) : Prop where
  distinct : (fields.map (·.name)).Nodup
  get_set : ∀ f ∈ fields, ∀ v s, f.get (f.set v s) = v
  get_other : ∀ f ∈ fields, ∀ g ∈ fields, g.name ≠ f.name → ∀ v s, g.get (f.set v s) = g.get s
  ext : ∀ s s', (∀ f ∈ fields, f.get s = f.get s') → s = s'

theorem RecordField.Lawful.eq_of_name {fields : List (RecordField σ)} (lawful : Lawful fields)
    {f g : RecordField σ} (member : f ∈ fields) (member' : g ∈ fields)
    (same : g.name = f.name) : g = f :=
  List.inj_on_of_nodup_map lawful.distinct member' member same

/-- The structure with some of its fields, and those of `default` for the others. -/
def RecordField.overlay (fields : List (RecordField σ)) (given : String → Prop)
    [DecidablePred given] (s default : σ) : σ :=
  fields.foldr (fun f rest => if given f.name then f.set (f.get s) rest else rest) default

theorem RecordField.overlay_cons (f : RecordField σ) (fields : List (RecordField σ))
    (given : String → Prop) [DecidablePred given] (s default : σ) :
    overlay (f :: fields) given s default =
      if given f.name then f.set (f.get s) (overlay fields given s default)
      else overlay fields given s default := rfl

section Overlay

variable {fields some : List (RecordField σ)} (lawful : RecordField.Lawful fields)
  (among : ∀ f ∈ some, f ∈ fields) {given : String → Prop} [DecidablePred given] (s default : σ)
  {f : RecordField σ}

include lawful among

theorem get_overlay_left (member : f ∈ fields) (left : ¬given f.name) :
    f.get (RecordField.overlay some given s default) = f.get default := by
  induction some with
  | nil => rfl
  | cons g some ih =>
    obtain ⟨own, among⟩ := List.forall_mem_cons.mp among
    rw [RecordField.overlay_cons]
    split
    case isTrue here =>
      have different : f.name ≠ g.name := fun same => left (same ▸ here)
      rw [lawful.get_other g own f member different, ih among]
    case isFalse => exact ih among

theorem get_overlay_given (member : f ∈ some) (here : given f.name) :
    f.get (RecordField.overlay some given s default) = f.get s := by
  induction some with
  | nil => cases member
  | cons g some ih =>
    obtain ⟨own, behind⟩ := List.forall_mem_cons.mp among
    rw [RecordField.overlay_cons]
    by_cases same : f.name = g.name
    · obtain rfl := lawful.eq_of_name own (among f member) same
      rw [if_pos here, lawful.get_set f own]
    · have member : f ∈ some :=
        (List.mem_cons.mp member).resolve_left fun equal => same (congrArg RecordField.name equal)
      split
      · rw [lawful.get_other g own f (behind f member) same, ih behind member]
      · exact ih behind member

end Overlay

/-! ### What members give -/

def known (fields : List (RecordField σ)) (members : List (Option String × Tree)) :
    List (Option String × Tree) :=
  members.filter fun member => member.1.any (· ∈ fields.map (·.name))

theorem mem_known {fields : List (RecordField σ)} {f : RecordField σ} (member : f ∈ fields)
    {members : List (Option String × Tree)} {tree : Tree} :
    (some f.name, tree) ∈ known fields members ↔ (some f.name, tree) ∈ members := by
  rw [known, List.mem_filter]
  refine and_iff_left ?_
  simpa using ⟨f, member, rfl⟩

theorem not_mem_names_known {fields : List (RecordField σ)} {f : RecordField σ}
    (member : f ∈ fields) {members : List (Option String × Tree)} :
    some f.name ∉ (known fields members).map (·.1) ↔ ∀ tree, (some f.name, tree) ∉ members := by
  constructor
  · intro absent tree given
    exact absent (List.mem_map.mpr ⟨_, (mem_known member).mpr given, rfl⟩)
  · intro none among
    obtain ⟨⟨key, tree⟩, given, ⟨⟩⟩ := List.mem_map.mp among
    exact none tree ((mem_known member).mp given)

/-- Every member has a name, those of fields stand once, and with their values put into `default`
they make up `s`. -/
structure Gives (fields : List (RecordField σ)) (default : σ)
    (members : List (Option String × Tree)) (s : σ) : Prop where
  named : ∀ member ∈ members, member.1 ≠ none
  once : ((known fields members).map (·.1)).Nodup
  held : ∀ f ∈ fields, ∀ tree, (some f.name, tree) ∈ members → f.read? tree = some (f.get s)
  left : ∀ f ∈ fields, (∀ tree, (some f.name, tree) ∉ members) → f.get s = f.get default

theorem mem_cons_other {name key : String} (different : name ≠ key) (tree t : Tree)
    (members : List (Option String × Tree)) :
    (some name, t) ∈ (some key, tree) :: members ↔ (some name, t) ∈ members := by
  rw [List.mem_cons]
  exact or_iff_right fun first => different (Option.some.inj (Prod.mk.inj first).1)

section Cons

variable {fields : List (RecordField σ)} (lawful : RecordField.Lawful fields) {default s : σ}
  {tree : Tree} {members : List (Option String × Tree)}

include lawful

theorem gives_nil : Gives fields default [] s ↔ s = default := by
  refine ⟨fun gives => lawful.ext s default fun f member => gives.left f member nofun, ?_⟩
  rintro rfl
  exact ⟨nofun, List.nodup_nil, nofun, fun _ _ _ => rfl⟩

omit lawful in
theorem gives_cons_unknown {key : String} (unknown : ∀ f ∈ fields, f.name ≠ key) :
    Gives fields default ((some key, tree) :: members) s ↔ Gives fields default members s := by
  have others : known fields ((some key, tree) :: members) = known fields members := by
    refine List.filter_cons_of_neg ?_
    simpa using unknown
  have same {f : RecordField σ} (member : f ∈ fields) (t : Tree) :=
    mem_cons_other (unknown f member) tree t members
  constructor
  · rintro ⟨named, once, held, left⟩
    refine ⟨(List.forall_mem_cons.mp named).2, others ▸ once, ?_, ?_⟩
    · exact fun f member t given => held f member t ((same member t).mpr given)
    · exact fun f member none => left f member fun t => mt (same member t).mp (none t)
  · rintro ⟨named, once, held, left⟩
    refine ⟨List.forall_mem_cons.mpr ⟨nofun, named⟩, others ▸ once, ?_, ?_⟩
    · exact fun f member t given => held f member t ((same member t).mp given)
    · exact fun f member none => left f member fun t => mt (same member t).mpr (none t)

theorem gives_cons_known {f : RecordField σ} (member : f ∈ fields) :
    Gives fields default ((some f.name, tree) :: members) s ↔
      ∃ v, f.read? tree = some v ∧ (∀ t, (some f.name, t) ∉ members) ∧
        Gives fields (f.set v default) members s := by
  have others : known fields ((some f.name, tree) :: members) =
      (some f.name, tree) :: known fields members := by
    refine List.filter_cons_of_pos ?_
    simpa using ⟨f, member, rfl⟩
  have single : some f.name ∉ (known fields members).map (·.1) ↔
      ∀ t, (some f.name, t) ∉ members := not_mem_names_known member
  constructor
  · rintro ⟨named, once, held, left⟩
    rw [others, List.map_cons, List.nodup_cons] at once
    refine ⟨f.get s, held f member tree List.mem_cons_self, single.mp once.1,
      (List.forall_mem_cons.mp named).2, once.2, ?_, ?_⟩
    · exact fun g among t given => held g among t (List.mem_cons_of_mem _ given)
    · intro g among none
      by_cases same : g.name = f.name
      · rw [lawful.eq_of_name member among same, lawful.get_set f member]
      · rw [lawful.get_other f member g among same]
        exact left g among fun t => mt (mem_cons_other same tree t members).mp (none t)
  · rintro ⟨v, read, none, named, once, held, left⟩
    have value : f.get s = v := by rw [left f member none, lawful.get_set f member]
    refine ⟨List.forall_mem_cons.mpr ⟨nofun, named⟩, ?_, ?_, ?_⟩
    · rw [others, List.map_cons, List.nodup_cons]
      exact ⟨single.mpr none, once⟩
    · intro g among t given
      rcases List.mem_cons.mp given with first | later
      · obtain ⟨name, rfl⟩ := Prod.mk.inj first
        rw [lawful.eq_of_name member among (Option.some.inj name), read, value]
      · exact held g among t later
    · intro g among absent
      have different : g.name ≠ f.name := by
        intro same
        exact absent tree (by rw [same]; exact List.mem_cons_self)
      rw [left g among fun t given => absent t (List.mem_cons_of_mem _ given),
        lawful.get_other f member g among different]

omit lawful in
theorem not_gives_cons_none : ¬Gives fields default ((none, tree) :: members) s :=
  fun gives => gives.named _ List.mem_cons_self rfl

end Cons

def Unseen (fields : List (RecordField σ)) (seen : List String)
    (members : List (Option String × Tree)) : Prop :=
  ∀ f ∈ fields, f.name ∈ seen → ∀ tree, (some f.name, tree) ∉ members

section Unseen

variable {fields : List (RecordField σ)} {seen : List String} {tree : Tree}
  {members : List (Option String × Tree)}

theorem unseen_nil : Unseen fields seen [] := nofun

theorem nothing_seen : Unseen fields [] members := nofun

theorem unseen_cons_unknown {key : String} (unknown : ∀ f ∈ fields, f.name ≠ key) :
    Unseen fields seen ((some key, tree) :: members) ↔ Unseen fields seen members := by
  refine forall₂_congr fun f member => imp_congr_right fun _ => forall_congr' fun t => ?_
  exact not_congr (mem_cons_other (unknown f member) tree t members)

theorem unseen_cons_known {f : RecordField σ} (member : f ∈ fields) :
    Unseen fields seen ((some f.name, tree) :: members) ↔
      f.name ∉ seen ∧ Unseen fields seen members := by
  constructor
  · intro unseen
    exact ⟨fun among => unseen f member among tree List.mem_cons_self,
      fun g other among t given => unseen g other among t (List.mem_cons_of_mem _ given)⟩
  · rintro ⟨fresh, unseen⟩ g other among t given
    have different : g.name ≠ f.name := fun same => fresh (same ▸ among)
    exact unseen g other among t ((mem_cons_other different tree t members).mp given)

theorem unseen_seen_cons {f : RecordField σ} (member : f ∈ fields) :
    Unseen fields (f.name :: seen) members ↔
      (∀ t, (some f.name, t) ∉ members) ∧ Unseen fields seen members := by
  constructor
  · intro unseen
    exact ⟨unseen f member List.mem_cons_self,
      fun g other among => unseen g other (List.mem_cons_of_mem _ among)⟩
  · rintro ⟨none, unseen⟩ g other among t
    rcases List.mem_cons.mp among with same | among
    · rw [same]
      exact none t
    · exact unseen g other among t

end Unseen

/-! ### Records that follow fields -/

structure Slot.Follows (slot : Slot σ) (f : RecordField σ) : Prop where
  name : slot.name = f.name
  optional : slot.required = false
  read : ∀ {tree d}, Depicts tree d → ∀ start s,
    (slot.read (start, d) s).toOption = (f.read? tree).map (f.set · s)

theorem Slot.of_follows {name : String} {α : Type} {decoder : Decoder α} {get : σ → α}
    {set : α → σ → σ} {write : σ → Json} {read? : Tree → Option α}
    (decodes : ∀ {tree d}, Depicts tree d → ∀ start, (decoder (start, d)).toOption = read? tree) :
    (Slot.of name decoder set write false).Follows ⟨name, α, get, set, read?⟩ where
  name := rfl
  optional := rfl
  read depicts start _ := (toOption_map _ _).trans (congrArg _ (decodes depicts start))

theorem field?_cases {record : Record σ} {fields : List (RecordField σ)}
    (follows : List.Forall₂ Slot.Follows record fields) (name : String) :
    (record.field? name = none ∧ ∀ f ∈ fields, f.name ≠ name) ∨
      ∃ slot f, record.field? name = some slot ∧ f ∈ fields ∧ f.name = name ∧ slot.Follows f := by
  induction follows with
  | nil => exact .inl ⟨rfl, nofun⟩
  | @cons slot f record fields head tail ih =>
    by_cases here : f.name = name
    · refine .inr ⟨slot, f, ?_, List.mem_cons_self, here, head⟩
      rw [Record.field?, List.find?_cons_of_pos]
      simpa [head.name] using here
    · have behind : Record.field? (slot :: record) name = Record.field? record name := by
        rw [Record.field?, List.find?_cons_of_neg]
        · rfl
        · simpa [head.name] using here
      rw [behind]
      rcases ih with ⟨none, others⟩ | ⟨slot', f', found, member, same, own⟩
      · exact .inl ⟨none, List.forall_mem_cons.mpr ⟨here, others⟩⟩
      · exact .inr ⟨slot', f', found, List.mem_cons_of_mem _ member, same, own⟩

theorem complete_ok {record : Record σ} {fields : List (RecordField σ)}
    (follows : List.Forall₂ Slot.Follows record fields) (seen : List String) :
    record.complete seen = .ok () := by
  have optional : ∀ slot ∈ record, slot.required = false := by
    induction follows with
    | nil => exact nofun
    | cons head tail ih => exact List.forall_mem_cons.mpr ⟨head.optional, ih⟩
  refine if_pos (List.all_eq_true.mpr fun slot member => ?_)
  rw [optional slot member]
  rfl

mutual

/-- Nothing that the grammar allows is refused by who passes over it. -/
theorem Depicts.skip {tree : Tree} {d : Document} (depicts : Depicts tree d) :
    d.skip = .ok () := by
  match depicts with
  | .null => rfl
  | .bool b => rfl
  | .number n exponentAt stop => rfl
  | .string same => rfl
  | .array shown =>
    rw [Document.skip, shown.skip]
    rfl
  | .object shown room =>
    rw [Document.skip, shown.skip]
    rfl

theorem DepictsItems.skip {items : List Tree} {placed : List Placed}
    (depicts : DepictsItems items placed) : Document.skipItems placed = .ok () := by
  match depicts with
  | .nil => rfl
  | .cons head tail =>
    rw [Document.skipItems, head.skip]
    exact tail.skip

theorem DepictsMembers.skip {members : List (Option String × Tree)}
    {placed : List (Except Fault String × Placed)} (depicts : DepictsMembers members placed) :
    Document.skipMembers placed = .ok () := by
  match depicts with
  | .nil => rfl
  | .cons same head tail =>
    rw [Document.skipMembers, head.skip]
    exact tail.skip

end

/-! ### Reading members -/

theorem readMembers_unknown {record : Record σ} {key : String}
    (unknown : record.field? key = none) {d : Document} (skipped : d.skip = .ok ())
    (start : Nat) (placed : List (Except Fault String × Placed)) (seen : List String) (s : σ) :
    record.readMembers ((.ok key, start, d) :: placed) seen s =
      record.readMembers placed seen s := by
  simp only [Record.readMembers, Decoder.readKey, bind, Except.bind, unknown, skipped]

theorem readMembers_known {record : Record σ} {key : String} {slot : Slot σ}
    (found : record.field? key = some slot) (placed : Placed)
    (rest : List (Except Fault String × Placed)) (seen : List String) (s : σ) :
    record.readMembers ((.ok key, placed) :: rest) seen s =
      if key ∈ seen then .error .mismatch
      else slot.read placed s >>= record.readMembers rest (key :: seen) := by
  simp only [Record.readMembers, Decoder.readKey, bind, Except.bind, found]

theorem Gives.of_overlay {fields : List (RecordField σ)} (lawful : RecordField.Lawful fields)
    {members : List (Option String × Tree)} (named : ∀ member ∈ members, member.1 ≠ none)
    (once : ((known fields members).map (·.1)).Nodup) {s : σ}
    (held : ∀ f ∈ fields, ∀ tree, (some f.name, tree) ∈ members → f.read? tree = some (f.get s))
    (default : σ) :
    Gives fields default members
      (RecordField.overlay fields (some · ∈ members.map (·.1)) s default) := by
  refine ⟨named, once, fun f member tree given => ?_, fun f member none => ?_⟩
  · have listed : some f.name ∈ members.map (·.1) := List.mem_map.mpr ⟨_, given, rfl⟩
    rw [get_overlay_given lawful (fun _ => id) _ _ member listed]
    exact held f member tree given
  · refine get_overlay_left lawful (fun _ => id) _ _ member fun listed => ?_
    obtain ⟨⟨key, tree⟩, given, ⟨⟩⟩ := List.mem_map.mp listed
    exact none tree given

section Follows

variable {record : Record σ} {fields : List (RecordField σ)} (lawful : RecordField.Lawful fields)
  (follows : List.Forall₂ Slot.Follows record fields)

include lawful follows

/-- Reading members in their order gives what they give in any order, if none of them is under a
name that was seen before. -/
theorem readMembers_ok_iff {members : List (Option String × Tree)}
    {placed : List (Except Fault String × Placed)} (depicts : DepictsMembers members placed)
    (seen : List String) (default s : σ) :
    (∃ seen', record.readMembers placed seen default = .ok (seen', s)) ↔
      Gives fields default members s ∧ Unseen fields seen members := by
  match depicts with
  | .nil =>
    rw [gives_nil lawful, and_iff_left unseen_nil]
    constructor
    · rintro ⟨seen', ⟨⟩⟩
      rfl
    · rintro rfl
      exact ⟨seen, rfl⟩
  | @DepictsMembers.cons _ key tree members start d placed same head tail =>
    subst same
    cases key with
    | error fault => exact iff_of_false nofun fun both => not_gives_cons_none both.1
    | ok key =>
      dsimp only [Except.toOption]
      rcases field?_cases follows key with ⟨none, unknown⟩ | ⟨slot, f, found, member, rfl, own⟩
      · rw [readMembers_unknown none head.skip, readMembers_ok_iff tail,
          gives_cons_unknown unknown, unseen_cons_unknown unknown]
      rw [readMembers_known found, gives_cons_known lawful member, unseen_cons_known member]
      by_cases among : f.name ∈ seen
      · rw [if_pos among]
        exact iff_of_false nofun fun both => both.2.1 among
      rw [if_neg among, and_iff_right among]
      have read := own.read head start default
      cases value : f.read? tree with
      | none =>
        rw [value] at read
        cases decoded : slot.read (start, d) default with
        | ok s =>
          rw [decoded] at read
          cases read
        | error misfit => exact iff_of_false nofun nofun
      | some v =>
        rw [value] at read
        rw [ok_of_toOption read]
        change (∃ seen', record.readMembers placed (f.name :: seen) (f.set v default) = _) ↔ _
        rw [readMembers_ok_iff tail, unseen_seen_cons member]
        constructor
        · rintro ⟨gives, none, unseen⟩
          exact ⟨⟨v, rfl, none, gives⟩, unseen⟩
        · rintro ⟨⟨_, ⟨⟩, none, gives⟩, unseen⟩
          exact ⟨gives, none, unseen⟩

theorem decode_ok_iff {members : List (Option String × Tree)} {d : Document}
    (depicts : Depicts (.object members) d) (start : Nat) (default s : σ) :
    record.decode default (start, d) = .ok s ↔ Gives fields default members s := by
  cases depicts with
  | @object _ body placed shown room =>
    have read := readMembers_ok_iff lawful follows shown [] default s
    rw [and_iff_left nothing_seen] at read
    rw [← read, Record.decode]
    cases record.readMembers placed [] default with
    | error misfit => exact iff_of_false nofun nofun
    | ok result =>
      obtain ⟨seen, s'⟩ := result
      change (record.complete seen >>= fun _ => pure s') = .ok s ↔ _
      rw [complete_ok follows]
      constructor
      · rintro ⟨⟩
        exact ⟨seen, rfl⟩
      · rintro ⟨seen', ⟨⟩⟩
        rfl

/-- A text that spells an object decodes to what its members give, and to nothing else. -/
theorem decodeText_ok_iff {members : List (Option String × Tree)} {text : String}
    (isText : IsText (.object members) text) (default s : σ) :
    decodeText (record.decode default) text = .ok s ↔ Gives fields default members s := by
  obtain ⟨lead, body, gap, led, spelled, blank, rfl⟩ := isText
  obtain ⟨d, read, depicts⟩ := read_spelled led spelled blank
  rw [← decode_ok_iff lawful follows depicts lead.length default s, decodeText, read]
  dsimp only
  cases record.decode default (lead.length, d) <;> rfl

end Follows

/-! ### What was encoded -/

structure Slot.Writes (s : σ) (slot : Slot σ) (f : RecordField σ) : Prop where
  name : slot.name = f.name
  told : ∀ {tree}, Tells tree (slot.write s) → f.read? tree = some (f.get s)

theorem exists_slot {s : σ} {record : Record σ} {fields : List (RecordField σ)}
    (writes : List.Forall₂ (Slot.Writes s) record fields) {f : RecordField σ}
    (listed : f ∈ fields) : ∃ slot ∈ record, slot.Writes s f := by
  induction writes with
  | nil => cases listed
  | @cons slot g record fields own others ih =>
    rcases List.mem_cons.mp listed with rfl | behind
    · exact ⟨slot, List.mem_cons_self, own⟩
    · obtain ⟨slot', among, writes⟩ := ih behind
      exact ⟨slot', List.mem_cons_of_mem _ among, writes⟩

theorem written_members {s : σ} {record : Record σ} {fields : List (RecordField σ)}
    (writes : List.Forall₂ (Slot.Writes s) record fields)
    {members : List (Option String × Tree)}
    (told : TellsMembers members (record.map fun slot => (slot.name, slot.write s))) :
    members.map (·.1) = fields.map (some ·.name) ∧
      ∀ member ∈ members, ∃ f ∈ fields, member.1 = some f.name ∧
        f.read? member.2 = some (f.get s) := by
  induction writes generalizing members with
  | nil =>
    cases told
    exact ⟨rfl, nofun⟩
  | @cons slot f record fields own others ih =>
    cases told with
    | @cons _ tree trees _ _ head tail =>
      obtain ⟨names, each⟩ := ih tail
      refine ⟨?_, List.forall_mem_cons.mpr ⟨⟨f, List.mem_cons_self, ?_, own.told head⟩, ?_⟩⟩
      · rw [List.map_cons, List.map_cons, names, own.name]
      · rw [own.name]
      · intro member among
        obtain ⟨g, listed, values⟩ := each member among
        exact ⟨g, List.mem_cons_of_mem _ listed, values⟩

theorem gives_encoded {s : σ} {record : Record σ} {fields : List (RecordField σ)}
    (lawful : RecordField.Lawful fields) (writes : List.Forall₂ (Slot.Writes s) record fields)
    {members : List (Option String × Tree)}
    (told : TellsMembers members (record.map fun slot => (slot.name, slot.write s)))
    (default : σ) : Gives fields default members s := by
  obtain ⟨names, each⟩ := written_members writes told
  refine ⟨fun member among => ?_, ?_, fun f listed tree among => ?_, fun f listed none => ?_⟩
  · obtain ⟨f, -, name, -⟩ := each member among
    rw [name]
    exact nofun
  · have distinct : (members.map (·.1)).Nodup := by
      have marked := lawful.distinct.map (f := some) fun _ _ => Option.some.inj
      rw [List.map_map] at marked
      rw [names]
      exact marked
    exact distinct.sublist (List.filter_sublist.map _)
  · obtain ⟨g, listed', name, value⟩ := each _ among
    rwa [lawful.eq_of_name listed listed' (Option.some.inj name).symm] at value
  · have given : some f.name ∈ members.map (·.1) := by
      rw [names]
      exact List.mem_map.mpr ⟨f, listed, rfl⟩
    obtain ⟨⟨key, tree⟩, among, ⟨⟩⟩ := List.mem_map.mp given
    exact absurd among (none tree)

end Uplift.Json
