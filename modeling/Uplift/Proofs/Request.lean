import Uplift.Proofs.Json.Fields
import Uplift.Request

/-!
# Requests as documents

What a request is encoded as decodes to that request, however the text is laid out. The fields
may stand in any order and among any others; one that is left out has its default, and a text
with a field given twice or with an unknown label is refused (`decoding_undoes_encoding`).
-/

namespace Uplift

open Json

theorem Move.label_of_ofLabel? {s : String} {m : Move} (known : ofLabel? s = some m) :
    m.label = s :=
  of_decide_eq_true (List.find?_some known :)

theorem Safety.label_of_ofLabel? {s : String} {level : Safety} (known : ofLabel? s = some level) :
    level.label = s :=
  of_decide_eq_true (List.find?_some known :)

theorem Move.single_bytes (s : String) (m : Move) (known : ofLabel? s = some m) :
    ∀ c ∈ s.toList, c.utf8Size = 1 := by
  have all : m.label.toList.all (·.utf8Size = 1) = true := by cases m <;> decide
  rw [← label_of_ofLabel? known]
  simpa using all

theorem Safety.single_bytes (s : String) (level : Safety) (known : ofLabel? s = some level) :
    ∀ c ∈ s.toList, c.utf8Size = 1 := by
  have all : level.label.toList.all (·.utf8Size = 1) = true := by cases level <;> decide
  rw [← label_of_ofLabel? known]
  simpa using all

namespace Request

/-! ### Fields -/

def textField (name : String) (set : String → Request → Request) (get : Request → String) :
    RecordField Request := ⟨name, String, get, set, Tree.string?⟩

def flagField (name : String) (set : Bool → Request → Request) (get : Request → Bool) :
    RecordField Request := ⟨name, Bool, get, set, Tree.bool?⟩

def textsField (name : String) (set : List String → Request → Request)
    (get : Request → List String) : RecordField Request :=
  ⟨name, List String, get, set, Tree.strings?⟩

def fields : List (RecordField Request) := [
  textField "source_version" (fun v r => { r with source := v }) (·.source),
  textField "target_version" (fun v r => { r with target := v }) (·.target),
  ⟨"migration_type", Move, (·.move), fun v r => { r with move := v },
    fun tree => tree.label?.bind Move.ofLabel?⟩,
  ⟨"safety_level", Safety, (·.safety), fun v r => { r with safety := v },
    fun tree => tree.label?.bind Safety.ofLabel?⟩,
  flagField "auto_apply" (fun v r => { r with autoApply := v }) (·.autoApply),
  flagField "dry_run" (fun v r => { r with dryRun := v }) (·.dryRun),
  flagField "backup_enabled" (fun v r => { r with backup := v }) (·.backup),
  flagField "rollback_enabled" (fun v r => { r with rollback := v }) (·.rollback),
  flagField "include_tests" (fun v r => { r with includeTests := v }) (·.includeTests),
  textsField "include" (fun v r => { r with included := v }) (·.included),
  textsField "exclude" (fun v r => { r with excluded := v }) (·.excluded),
  textField "manifest_path" (fun v r => { r with manifest := ⟨v⟩ }) (·.manifest.text),
  textField "build_config_path" (fun v r => { r with buildConfig := ⟨v⟩ }) (·.buildConfig.text),
  ⟨"config_overrides", Keyed String, (·.overrides), fun v r => { r with overrides := v },
    Tree.stringMap?⟩]

theorem fields_lawful : RecordField.Lawful fields where
  distinct := by decide
  get_set := by simp [fields, textField, flagField, textsField]
  get_other := by simp [fields, textField, flagField, textsField]
  ext s s' same := by
    simp only [fields, List.forall_mem_cons, textField, flagField, textsField] at same
    obtain ⟨source, target, move, safety, apply, dry, backup, rollback, tests, included, excluded,
      manifest, config, overrides, -⟩ := same
    rw [Request.mk.injEq]
    exact ⟨source, target, move, safety, apply, dry, backup, rollback, tests, included, excluded,
      congrArg Path.mk manifest, congrArg Path.mk config, overrides⟩

section Kinds

variable (name : String)

theorem text_follows (set : String → Request → Request) (get : Request → String) :
    (text name set get).Follows (textField name set get) :=
  Slot.of_follows Decoder.toOption_string

theorem flag_follows (set : Bool → Request → Request) (get : Request → Bool) :
    (flag name set get).Follows (flagField name set get) :=
  Slot.of_follows Decoder.toOption_bool

theorem texts_follows (set : List String → Request → Request) (get : Request → List String) :
    (texts name set get).Follows (textsField name set get) :=
  Slot.of_follows Decoder.toOption_strings

variable (r : Request)

theorem text_writes (set : String → Request → Request) (get : Request → String) :
    Slot.Writes r (text name set get) (textField name set get) := ⟨rfl, Tells.string?⟩

theorem flag_writes (set : Bool → Request → Request) (get : Request → Bool) :
    Slot.Writes r (flag name set get) (flagField name set get) := ⟨rfl, Tells.bool?⟩

theorem texts_writes (set : List String → Request → Request) (get : Request → List String) :
    Slot.Writes r (texts name set get) (textsField name set get) := ⟨rfl, Tells.strings?⟩

end Kinds

theorem record_follows : List.Forall₂ Slot.Follows record fields :=
  .cons (text_follows ..) <| .cons (text_follows ..) <|
  .cons (Slot.of_follows (Decoder.toOption_label Move.single_bytes)) <|
  .cons (Slot.of_follows (Decoder.toOption_label Safety.single_bytes)) <|
  .cons (flag_follows ..) <| .cons (flag_follows ..) <| .cons (flag_follows ..) <|
  .cons (flag_follows ..) <| .cons (flag_follows ..) <|
  .cons (texts_follows ..) <| .cons (texts_follows ..) <|
  .cons (text_follows ..) <| .cons (text_follows ..) <|
  .cons (Slot.of_follows Decoder.toOption_stringMap) .nil

theorem record_writes {r : Request} (ascending : r.overrides.Ascending) :
    List.Forall₂ (Slot.Writes r) record fields :=
  .cons (text_writes ..) <| .cons (text_writes ..) <|
  .cons ⟨rfl, fun told => told.label? (Move.ofLabel?_label r.move)⟩ <|
  .cons ⟨rfl, fun told => told.label? (Safety.ofLabel?_label r.safety)⟩ <|
  .cons (flag_writes ..) <| .cons (flag_writes ..) <| .cons (flag_writes ..) <|
  .cons (flag_writes ..) <| .cons (flag_writes ..) <|
  .cons (texts_writes ..) <| .cons (texts_writes ..) <|
  .cons (text_writes ..) <| .cons (text_writes ..) <|
  .cons ⟨rfl, Tells.stringMap? ascending⟩ .nil

/-! ### Decoding -/

variable {members : List (Option String × Tree)} {text : String}

/-- An object decodes to what its members give, and to nothing else. -/
theorem ofJson?_ok_iff (isText : IsText (.object members) text) (r : Request) :
    ofJson? text = .ok r ↔ Gives fields {} members r := by
  rw [← decodeText_ok_iff fields_lawful record_follows isText, ofJson?]
  cases decodeText (record.decode {}) text with
  | ok r' => simp
  | error misfit => simp

theorem refused_of_not_ok (other : ∀ r, ofJson? text ≠ .ok r) :
    ∃ misfit, ofJson? text = .error (.ofMisfit text misfit) := by
  rw [ofJson?] at other ⊢
  cases decoded : decodeText (record.decode {}) text with
  | ok r =>
    rw [decoded] at other
    exact absurd rfl (other r)
  | error misfit => exact ⟨misfit, rfl⟩

theorem ofJson?_encoded {r : Request} (ascending : r.overrides.Ascending) {tree : Tree}
    (isText : IsText tree text) (told : Tells tree r.toJson) : ofJson? text = .ok r := by
  cases told with
  | object each =>
    exact (ofJson?_ok_iff isText r).mpr
      (gives_encoded fields_lawful (record_writes ascending) each {})

theorem gives_of_perm {members' : List (Option String × Tree)} {r : Request}
    (named : ∀ member ∈ members', member.1 ≠ none)
    (same : (known fields members).Perm (known fields members'))
    (gives : Gives fields {} members r) : Gives fields {} members' r where
  named := named
  once := (same.map _).nodup_iff.mp gives.once
  held f listed tree given := gives.held f listed tree
    ((mem_known listed).mp (same.mem_iff.mpr ((mem_known listed).mpr given)))
  left f listed none := gives.left f listed fun tree given => none tree
    ((mem_known listed).mp (same.mem_iff.mp ((mem_known listed).mpr given)))

/-- Some fields of what a request is encoded as, among any other members, decode to the request
with those fields and the default for the others. -/
theorem ofJson?_partly_encoded {r : Request} (ascending : r.overrides.Ascending)
    (isText : IsText (.object members) text) (named : ∀ member ∈ members, member.1 ≠ none)
    (once : ((known fields members).map (·.1)).Nodup)
    (encoded : ∀ slot ∈ record, ∀ tree, (some slot.name, tree) ∈ members →
      Tells tree (slot.write r)) :
    ∃ r', ofJson? text = .ok r' ∧
      ∀ f ∈ fields, f.get r' = if some f.name ∈ members.map (·.1) then f.get r else f.get {} := by
  have held : ∀ f ∈ fields, ∀ tree, (some f.name, tree) ∈ members →
      f.read? tree = some (f.get r) := by
    intro f listed tree given
    obtain ⟨slot, own, writes⟩ := exists_slot (record_writes ascending) listed
    exact writes.told (encoded slot own tree (writes.name ▸ given))
  refine ⟨_, (ofJson?_ok_iff isText _).mpr (.of_overlay fields_lawful named once held {}), ?_⟩
  intro f listed
  split
  case isTrue given => exact get_overlay_given fields_lawful (fun _ => id) r {} listed given
  case isFalse left => exact get_overlay_left fields_lawful (fun _ => id) r {} listed left

theorem refused_of_unknown_label (isText : IsText (.object members) text) {tree : Tree}
    (unknown : (some "migration_type", tree) ∈ members ∧ (∀ m : Move, tree.label? ≠ some m.label) ∨
      (some "safety_level", tree) ∈ members ∧ ∀ s : Safety, tree.label? ≠ some s.label) :
    ∃ misfit, ofJson? text = .error (.ofMisfit text misfit) := by
  refine refused_of_not_ok fun r decoded => ?_
  have gives := (ofJson?_ok_iff isText r).mp decoded
  rcases unknown with ⟨given, other⟩ | ⟨given, other⟩
  · have read : tree.label?.bind Move.ofLabel? = some r.move :=
      gives.held fields[2] (List.getElem_mem _) tree given
    obtain ⟨label, named, known⟩ := Option.bind_eq_some_iff.mp read
    exact other r.move (by rw [Move.label_of_ofLabel? known, named])
  · have read : tree.label?.bind Safety.ofLabel? = some r.safety :=
      gives.held fields[3] (List.getElem_mem _) tree given
    obtain ⟨label, named, known⟩ := Option.bind_eq_some_iff.mp read
    exact other r.safety (by rw [Safety.label_of_ofLabel? known, named])

/-- What a request is encoded as decodes to that request. Any text of an object, however its
blanks, strings and numerals are spelled, gives the same in any order of its fields and among any
other members; a field has what its member tells, or its default without one; some of the fields
of an encoded request give those fields of it. A field that is given twice is refused, and so is
an unknown label. -/
theorem decoding_undoes_encoding :
    (∀ r : Request, r.overrides.Ascending →
      ofJson? r.toJson.compact = .ok r ∧ ofJson? r.toJson.pretty = .ok r) ∧
    (∀ members members' text text', IsText (.object members) text →
      IsText (.object members') text' → (∀ member ∈ members, member.1 ≠ none) →
      (∀ member ∈ members', member.1 ≠ none) →
      (known fields members).Perm (known fields members') →
      ∀ r, ofJson? text = .ok r ↔ ofJson? text' = .ok r) ∧
    (∀ members text r, IsText (.object members) text → ofJson? text = .ok r →
      ∀ f ∈ fields,
        (∀ tree, (some f.name, tree) ∈ members → f.read? tree = some (f.get r)) ∧
        ((∀ tree, (some f.name, tree) ∉ members) → f.get r = f.get {})) ∧
    (∀ (r : Request) members text, r.overrides.Ascending → IsText (.object members) text →
      (∀ member ∈ members, member.1 ≠ none) → ((known fields members).map (·.1)).Nodup →
      (∀ slot ∈ record, ∀ tree, (some slot.name, tree) ∈ members → Tells tree (slot.write r)) →
      ∃ r', ofJson? text = .ok r' ∧ ∀ f ∈ fields,
        f.get r' = if some f.name ∈ members.map (·.1) then f.get r else f.get {}) ∧
    (∀ members text, IsText (.object members) text →
      ¬((known fields members).map (·.1)).Nodup →
      ∃ misfit, ofJson? text = .error (.ofMisfit text misfit)) ∧
    (∀ members text tree, IsText (.object members) text →
      ((some "migration_type", tree) ∈ members ∧ (∀ m : Move, tree.label? ≠ some m.label) ∨
        (some "safety_level", tree) ∈ members ∧ ∀ s : Safety, tree.label? ≠ some s.label) →
      ∃ misfit, ofJson? text = .error (.ofMisfit text misfit)) := by
  refine ⟨fun r ascending => ?_, ?_, ?_, ?_, ?_, ?_⟩
  · obtain ⟨tree, isText, told⟩ := isText_compact r.toJson
    obtain ⟨tree', isText', told'⟩ := isText_pretty r.toJson
    exact ⟨ofJson?_encoded ascending isText told, ofJson?_encoded ascending isText' told'⟩
  · intro members members' text text' isText isText' named named' same r
    rw [ofJson?_ok_iff isText, ofJson?_ok_iff isText']
    exact ⟨gives_of_perm named' same, gives_of_perm named same.symm⟩
  · intro members text r isText decoded f listed
    have gives := (ofJson?_ok_iff isText r).mp decoded
    exact ⟨gives.held f listed, gives.left f listed⟩
  · intro r members text ascending isText named once encoded
    exact ofJson?_partly_encoded ascending isText named once encoded
  · intro members text isText twice
    refine refused_of_not_ok fun r decoded => ?_
    exact twice ((ofJson?_ok_iff isText r).mp decoded).once
  · exact fun members text tree isText unknown => refused_of_unknown_label isText unknown

theorem isText_object (members : List (String × Json)) :
    ∃ trees, IsText (.object trees) (Json.object members).compact ∧
      TellsMembers trees members := by
  obtain ⟨tree, isText, told⟩ := isText_compact (.object members)
  cases told with
  | object each => exact ⟨_, isText, each⟩

theorem mixed_members_decode :
    ofJson? (toJson { source := "\"\n", overrides := [("a.b", "é"), ("c", "")] }).pretty =
      .ok { source := "\"\n", overrides := [("a.b", "é"), ("c", "")] } ∧
    (∃ r, ofJson? (Json.object [("x", .array [.null]), ("dry_run", .bool true),
        ("source_version", .string "1")]).compact = .ok r ∧
      ofJson? (Json.object [("source_version", .string "1"),
        ("dry_run", .bool true)]).compact = .ok r ∧
      r.source = "1" ∧ r.dryRun = true ∧ r.backup = true) ∧
    (∃ fault, ofJson? (Json.object [("dry_run", .bool true), ("x", .null),
        ("dry_run", .bool true)]).compact = .error fault) ∧
    (∃ fault, ofJson? (Json.object [("migration_type",
        .string "rewrite-everything")]).compact = .error fault) := by
  obtain ⟨encoded, order, -, part, twice, label⟩ := decoding_undoes_encoding
  refine ⟨(encoded _ (by decide)).2, ?_, ?_, ?_⟩
  · obtain ⟨trees, isText, told⟩ := isText_object [("x", .array [.null]),
      ("dry_run", .bool true), ("source_version", .string "1")]
    obtain ⟨trees', isText', told'⟩ := isText_object [("source_version", .string "1"),
      ("dry_run", .bool true)]
    obtain _ | ⟨_, unknown, _ | ⟨_, ⟨⟩, _ | ⟨_, ⟨⟩, ⟨⟩⟩⟩⟩ := told
    obtain _ | ⟨_, ⟨⟩, _ | ⟨_, ⟨⟩, ⟨⟩⟩⟩ := told'
    have once : ([some "dry_run", some "source_version"] : List (Option String)).Nodup := by decide
    obtain ⟨r, decoded, same⟩ := part { source := "1", dryRun := true } _ _ .nil isText (by simp)
      once (by
        simpa [record, text, flag, texts, Slot.of] using
          And.intro (Tells.string "1") (Tells.bool true))
    refine ⟨r, decoded, (order _ _ _ _ isText isText' (by simp) (by simp) (.swap ..) r).mp decoded,
      ?_, ?_, ?_⟩
    · exact same fields[0] (List.getElem_mem _)
    · exact same fields[5] (List.getElem_mem _)
    · exact same fields[6] (List.getElem_mem _)
  · obtain ⟨trees, isText, told⟩ := isText_object [("dry_run", .bool true), ("x", .null),
      ("dry_run", .bool true)]
    obtain _ | ⟨_, _, _ | ⟨_, _, _ | ⟨_, _, ⟨⟩⟩⟩⟩ := told
    have again : ¬([some "dry_run", some "dry_run"] : List (Option String)).Nodup := by decide
    obtain ⟨misfit, refused⟩ := twice _ _ isText again
    exact ⟨_, refused⟩
  · obtain ⟨trees, isText, told⟩ := isText_object [("migration_type",
      .string "rewrite-everything")]
    obtain _ | ⟨_, ⟨⟩, ⟨⟩⟩ := told
    obtain ⟨misfit, refused⟩ := label _ _ _ isText (.inl ⟨List.mem_singleton_self _, fun m => by
      cases m <;> simp [Tree.label?, Move.label]⟩)
    exact ⟨_, refused⟩

end Request

end Uplift
