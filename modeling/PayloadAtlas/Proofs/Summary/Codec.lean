import PayloadAtlas.Proofs.Json.Decode
import PayloadAtlas.Proofs.Json.Read

/-!
# Summaries come back

A written summary is read as it was, if and only if it does not nest deeper than a text may
(`Summary.ofText_toText_iff`). Members that are left out and members that are written and empty stay apart,
since the parts of a summary come back one by one: fields, parameters, shapes and drifts. Examples, and what is
known about the realm, are any values, and come back as such values do (`Summary.gives_reread`).
-/

namespace PayloadAtlas

open Json Json.Decoder

/-! ## Keys -/

theorem keys_optionalMember {α : Type} (key : String) (x : Option α) (write : α → Value) :
    ((optionalMember key x write).map Prod.fst).Sublist [key] := by
  cases x with
  | none => exact List.nil_sublist _
  | some a => exact List.Sublist.refl _

/-! ## Parts of a summary -/

/-- A field comes back by its `decoder`. -/
theorem Field.gives_decoder (f : Field) : Gives Field.decoder f.toJson f := by
  refine gives_record ?_ (by simp)
  refine .cons rfl ((gives_text f.name).field _ _) ?_
  refine .cons rfl ((gives_text f.typeText).field _ _) ?_
  exact .cons rfl ((gives_text f.defaultText).field _ _) .nil

theorem Field.gives_list (fs : List Field) : Gives (list Field.decoder) (Field.listToJson fs) fs :=
  Decoder.gives_list_self fun f _ => f.gives_decoder

/-- A drift report comes back by its `decoder`. -/
theorem Drift.gives_decoder (d : Drift) : Gives Drift.decoder d.toJson d := by
  have hstrings : ∀ xs : List String, Gives (list text) (.ofStrings xs) xs :=
    fun xs => Decoder.gives_list_self fun x _ => gives_text x
  refine gives_record ?_ (by simp)
  refine .cons rfl ((hstrings d.added).field _ _) ?_
  refine .cons rfl ((hstrings d.removed).field _ _) ?_
  exact .cons rfl ((hstrings d.changed).field _ _) .nil

/-- What an example comes back as: its numbers may be others, and of members with one key the last counts. -/
def rereadExample (ms : Members) : Members := Value.membersOf (Value.rereadMembers ms)

theorem rereadExample_eq {ms : Members} (h : (Value.object ms).ComesBack) : rereadExample ms = ms :=
  Value.object.inj h.reread_eq

/-- The numbers of a written value are read as some numbers. -/
abbrev IsRead (v : Value) : Prop := v.Sound fun n => n.reread?.isSome

/-- An example is taken as what it comes back as. -/
theorem takes_example {ρ : Type} {ms : Members} (h : IsRead (.object ms)) (set : Option Members → ρ → ρ) :
    Takes (field "example_payload" (option members) set) (.object ms) (set (some (rereadExample ms))) :=
  ((gives_members h.1).option (by simp)).field _ _

/-- What a parameter comes back as, by its example. -/
def HandlerParameter.reread (p : HandlerParameter) : HandlerParameter :=
  { p with example? := p.example?.map rereadExample }

theorem HandlerParameter.example_mem {p : HandlerParameter} {P : Json.Number → Prop} (h : p.toJson.Sound P)
    {ms : Members} (hms : p.example? = some ms) : (Value.object ms).Sound P := by
  refine (Value.sound_object.mp h).2 ("example_payload", .object ms) ?_
  simp [optionalMember, hms]

/-- A parameter comes back as `reread` says, whatever of it is left out. -/
theorem HandlerParameter.gives_reread {p : HandlerParameter} (h : IsRead p.toJson) :
    Gives HandlerParameter.decoder p.toJson p.reread := by
  -- the members in the order in which they are written, and those that may be left out last
  have hmembers : p.toJson = .object (("name", .string p.name) :: ("annotation_text", .string p.declaredType)
      :: (optionalMember "model" p.model .string
        ++ (optionalMember "model_fields" p.modelFields Field.listToJson
          ++ (optionalMember "example_payload" p.example? .object ++ [])))) := by
    simp [toJson]
  have hkeys : (optionalMember "model" p.model .string
      ++ (optionalMember "model_fields" p.modelFields Field.listToJson
        ++ (optionalMember "example_payload" p.example? .object ++ []))
      |>.map Prod.fst).Sublist ["model", "model_fields", "example_payload"] := by
    simp only [List.map_append, List.append_nil]
    exact (keys_optionalMember "model" _ _).append
      ((keys_optionalMember "model_fields" _ _).append (keys_optionalMember "example_payload" _ _))
  have hexample : ∀ ms ∈ p.example?, IsRead (.object ms) := fun ms hms => example_mem h hms
  rw [hmembers]
  refine gives_record ?_ (List.Nodup.sublist ((hkeys.cons_cons _).cons_cons _) (by simp))
  refine .cons rfl ((gives_text p.name).field _ _) ?_
  refine .cons rfl ((gives_text p.declaredType).field _ _) ?_
  refine .optional rfl (fun m _ => ((gives_text m).option (by simp)).field _ _) ?_
  refine .optional rfl
    (fun fs _ => ((Field.gives_list fs).option (by simp [Field.listToJson])).field _ _) ?_
  refine .optional rfl (fun ms hms => takes_example (hexample ms hms) _) ?_
  obtain ⟨name, declaredType, model, modelFields, example?⟩ := p
  cases model <;> cases modelFields <;> cases example? <;> exact .nil

/-- What a shape comes back as, by its parameters and its example. -/
def Shape.reread (s : Shape) : Shape :=
  { s with parameters := s.parameters.map HandlerParameter.reread, example? := s.example?.map rereadExample }

theorem scoreBound_le_wordLimit : scoreBound ≤ wordLimit := by decide

theorem Shape.parameter_mem {s : Shape} {P : Json.Number → Prop} (h : s.toJson.Sound P) :
    ∀ p ∈ s.parameters, p.toJson.Sound P := by
  intro p hp
  have hparameters : (Value.array (s.parameters.map HandlerParameter.toJson)).Sound P :=
    (Value.sound_object.mp h).2 ("parameters", .array (s.parameters.map HandlerParameter.toJson)) (by simp)
  exact Value.sound_array.mp hparameters p.toJson (List.mem_map_of_mem hp)

theorem Shape.example_mem {s : Shape} {P : Json.Number → Prop} (h : s.toJson.Sound P) {ms : Members}
    (hms : s.example? = some ms) : (Value.object ms).Sound P := by
  refine (Value.sound_object.mp h).2 ("example_payload", .object ms) ?_
  simp [optionalMember, hms]

/-- A shape comes back as `reread` says, if its score is below the bound. -/
theorem Shape.gives_reread {s : Shape} (h : IsRead s.toJson) (hscore : s.score < scoreBound) :
    Gives Shape.decoder s.toJson s.reread := by
  have hmembers : s.toJson = .object (("path", .string s.path) :: ("method", .string s.method)
      :: ("function", .string s.function) :: ("module", .string s.module)
      :: ("source_path", .string s.sourcePath)
      :: ("parameters", .array (s.parameters.map HandlerParameter.toJson))
      :: ("registered", .bool s.registered) :: ("shape_score", .ofNat s.score)
      :: (optionalMember "example_payload" s.example? .object ++ [])) := by
    simp [toJson]
  have hkeys := keys_optionalMember "example_payload" s.example? Value.object
  have hexample : ∀ ms ∈ s.example?, IsRead (.object ms) := fun ms hms => example_mem h hms
  have hparameters := parameter_mem h
  rw [hmembers]
  refine gives_record ?_ ?_
  · -- the fields, in the order in which they are written
    refine .cons rfl ((gives_text s.path).field _ _) ?_
    refine .cons rfl ((gives_text s.method).field _ _) ?_
    refine .cons rfl ((gives_text s.function).field _ _) ?_
    refine .cons rfl ((gives_text s.module).field _ _) ?_
    refine .cons rfl ((gives_text s.sourcePath).field _ _) ?_
    refine .cons rfl ((Decoder.gives_list fun p hp =>
      HandlerParameter.gives_reread (hparameters p hp)).field _ _) ?_
    refine .cons rfl ((gives_bool s.registered).field _ _) ?_
    refine .cons rfl ((gives_natBelow hscore scoreBound_le_wordLimit).field _ _) ?_
    refine .optional rfl (fun ms hms => takes_example (hexample ms hms) _) ?_
    obtain ⟨path, method, function, module, sourcePath, parameters, registered, score, example?⟩ := s
    cases example? <;> exact .nil
  · -- no key comes twice
    have hall : ["path", "method", "function", "module", "source_path", "parameters", "registered",
        "shape_score", "example_payload"].Nodup := by
      simp
    refine List.Nodup.sublist ?_ hall
    simp only [List.map_cons, List.append_nil]
    iterate 8 refine List.Sublist.cons_cons _ ?_
    exact hkeys

/-- What a summary comes back as, by its shapes and what is known about the realm. -/
def Summary.reread (s : Summary) : Summary :=
  { s with realmMetadata := s.realmMetadata.reread, shapes := s.shapes.map Shape.reread }

theorem Summary.shape_mem {s : Summary} {P : Json.Number → Prop} (h : s.toJson.Sound P) :
    ∀ t ∈ s.shapes, t.toJson.Sound P := by
  intro t ht
  have hshapes : (Value.array (s.shapes.map Shape.toJson)).Sound P :=
    (Value.sound_object.mp h).2 ("payload_shapes", .array (s.shapes.map Shape.toJson)) (by simp)
  exact Value.sound_array.mp hshapes t.toJson (List.mem_map_of_mem ht)

theorem Summary.realm_mem {s : Summary} {P : Json.Number → Prop} (h : s.toJson.Sound P) :
    s.realmMetadata.Sound P :=
  (Value.sound_object.mp h).2 ("realm_metadata", s.realmMetadata) (by simp)

/-- A summary comes back as `reread` says: but for the numbers in examples and in the realm, which are as they are
read. -/
theorem Summary.gives_reread {s : Summary} (h : IsRead s.toJson) (htotal : s.scoreTotal < scoreBound)
    (hscores : ∀ t ∈ s.shapes, t.score < scoreBound) : Gives Summary.decoder s.toJson s.reread := by
  have hshapes := Summary.shape_mem h
  refine gives_record ?_ (by simp)
  refine .cons rfl ((gives_text s.timestamp).field _ _) ?_
  refine .cons rfl ((gives_natBelow htotal scoreBound_le_wordLimit).field _ _) ?_
  refine .cons rfl ((gives_value (Summary.realm_mem h).1).field _ _) ?_
  refine .cons rfl ((Decoder.gives_list fun t ht =>
    Shape.gives_reread (hshapes t ht) (hscores t ht)).field _ _) ?_
  exact .cons rfl ((Drift.gives_decoder s.drift).field _ _) .nil

/-! ## Summaries that come back whole -/

theorem HandlerParameter.reread_eq {p : HandlerParameter} (h : p.toJson.Sound fun n => n.reread? = some n) :
    p.reread = p := by
  cases hms : p.example? with
  | none => rw [reread, hms, Option.map_none, ← hms]
  | some ms =>
    have hobject := example_mem h hms
    rw [reread, hms, Option.map_some, rereadExample_eq ⟨hobject.2, hobject.1⟩, ← hms]

/-- A shape whose numbers come back is the same. -/
theorem Shape.reread_eq {s : Shape} (h : s.toJson.Sound fun n => n.reread? = some n) : s.reread = s := by
  have hparameters : s.parameters.map HandlerParameter.reread = s.parameters := by
    rw [List.map_congr_left fun p hp => HandlerParameter.reread_eq (parameter_mem h p hp), List.map_id']
  cases hms : s.example? with
  | none => rw [reread, hparameters, hms, Option.map_none, ← hms]
  | some ms =>
    have hobject := example_mem h hms
    rw [reread, hparameters, hms, Option.map_some, rereadExample_eq ⟨hobject.2, hobject.1⟩, ← hms]

theorem Summary.reread_eq {s : Summary} (h : s.toJson.Sound fun n => n.reread? = some n) : s.reread = s := by
  have hshapes : s.shapes.map Shape.reread = s.shapes := by
    rw [List.map_congr_left fun t ht => Shape.reread_eq (shape_mem h t ht), List.map_id']
  have hrealm := realm_mem h
  have hcomes : s.realmMetadata.ComesBack := ⟨hrealm.2, hrealm.1⟩
  rw [reread, hshapes, hcomes.reread_eq]

/-- The values of a summary are well-formed, and its scores are. -/
structure Summary.WellFormed (s : Summary) : Prop where
  json : s.toJson.WellFormed
  total : s.scoreTotal < scoreBound
  scores : ∀ t ∈ s.shapes, t.score < scoreBound

/-- A well-formed summary comes back by `decoder` if its doubles do. -/
theorem Summary.gives_self {s : Summary} (hs : s.WellFormed)
    (hdoubles : ∀ x, Number.double x ∈ s.toJson.numbers → ReadsBack x) :
    Gives Summary.decoder s.toJson s := by
  have hjson : s.toJson.ComesBack :=
    hs.json.comesBack fun x hx => (readsBack_iff x).mp (hdoubles x hx)
  have hgives := Summary.gives_reread ⟨hjson.readable, hjson.keys⟩ hs.total hs.scores
  rwa [Summary.reread_eq ⟨hjson.numbers, hjson.keys⟩] at hgives

/-- A written summary is read as it was, if and only if it does not nest deeper than `nestingLimit`. -/
theorem Summary.ofText_toText_iff {s : Summary} (hs : s.WellFormed)
    (hdoubles : ∀ x, Number.double x ∈ s.toJson.numbers → ReadsBack x) :
    Summary.ofText s.toText = .ok s ↔ s.toJson.depth ≤ nestingLimit := by
  obtain ⟨hok, hdeep⟩ := (Summary.gives_self hs hdoubles).ofText
  constructor
  · intro hread
    by_contra hdepth
    obtain ⟨f, hf⟩ := hdeep (Nat.lt_of_not_le hdepth)
    rw [Summary.ofText, Summary.toText, hf] at hread
    cases hread
  · exact hok

/-- A summary with empty parts, escapes, a number of 64 bits and a double. -/
def Summary.ofNotes : Summary where
  timestamp := "2026-02-01T09:30:00.000000"
  scoreTotal := 3
  realmMetadata := .object [("rate", .number (.double ⟨false, 7205759403792794, -56⟩)),
    ("seed", .number (.integer (-9223372036854775808))), ("quote\"\n\x01", .array [])]
  shapes := [{ path := "/notes", method := "POST", function := "create_note", registered := true,
               score := 3, example? := some []
               parameters := [{ name := "note", declaredType := "Note", modelFields := some [] },
                 { name := "tag", model := some "", example? := some [("id", .array [.null])] }] }]
  drift := { added := ["POST /notes"] }

/-- The summary comes back, with a member that is left out, one that is empty and one that is there. -/
theorem Summary.ofText_toText_notes :
    Summary.ofNotes.WellFormed ∧ (∀ x, Number.double x ∈ Summary.ofNotes.toJson.numbers → ReadsBack x) ∧
      Summary.ofNotes.toJson.depth ≤ nestingLimit ∧
      Summary.ofText Summary.ofNotes.toText = .ok Summary.ofNotes := by
  have hnumbers : Summary.ofNotes.toJson.numbers =
      [.integer 3, .double ⟨false, 7205759403792794, -56⟩, .integer (-9223372036854775808), .integer 3] :=
    rfl
  have hwell : Summary.ofNotes.WellFormed := by
    refine ⟨⟨?_, ?_⟩, by decide, by decide⟩
    · simp [ofNotes, toJson, Shape.toJson, HandlerParameter.toJson, Drift.toJson, optionalMember,
        Field.listToJson, Value.ofStrings, Value.keysDiffer, Value.itemsKeysDiffer,
        Value.membersKeysDiffer, Value.ofNat]
    · rw [hnumbers]
      simp [IsWord, wordLimit]
  have hdoubles : ∀ x, Number.double x ∈ Summary.ofNotes.toJson.numbers → ReadsBack x := by
    intro x hx
    have hx : x = ⟨false, 7205759403792794, -56⟩ := by simpa [hnumbers] using hx
    rw [readsBack_iff, hx]
    decide +kernel
  have hdepth : Summary.ofNotes.toJson.depth ≤ nestingLimit := by decide
  exact ⟨hwell, hdoubles, hdepth, (Summary.ofText_toText_iff hwell hdoubles).mpr hdepth⟩

end PayloadAtlas
