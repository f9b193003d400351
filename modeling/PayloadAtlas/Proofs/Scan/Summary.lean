import PayloadAtlas.Proofs.Json.Read
import PayloadAtlas.Proofs.Summary.Codec
import PayloadAtlas.Scan.Scanner

/-!
# Summaries of scans

What a scan comes to is well-formed (`Scanner.wellFormed_summary`), if the strategy for examples makes values
that are: scores stay below their bound, examples are made by setting members, and what is known about the
realm was read.
-/

namespace PayloadAtlas

open Json Json.Value

variable {P : Number → Prop}

/-! ## Examples in shapes -/

/-- The examples in a shape are made by `strategy`, and its score is at most the greatest one. -/
structure Shape.MadeBy (strategy : ExampleStrategy) (s : Shape) : Prop where
  parameters : ∀ p ∈ s.parameters, ∀ ms ∈ p.example?, ∃ fields, ms = strategy.object fields
  example? : ∀ ms ∈ s.example?, ms = Shape.examples s.parameters
  score_le : s.score ≤ Shape.maxScore

/-- All shapes of a scan are made by its strategy. -/
theorem Shape.madeBy_shapes {c : Shape.Context} {files : List SourceFile} :
    ∀ s ∈ c.shapes files, s.MadeBy c.strategy := by
  intro s hs
  rw [Shape.Context.shapes, List.mem_flatMap] at hs
  obtain ⟨file, _, hs⟩ := hs
  rw [List.mem_flatMap] at hs
  obtain ⟨f, _, hs⟩ := hs
  obtain ⟨route, _, rfl⟩ := List.mem_map.mp hs
  refine ⟨?_, ?_, Nat.min_le_left _ _⟩
  · intro p hp ms hms
    obtain ⟨q, _, rfl⟩ := List.mem_map.mp hp
    rw [Shape.Context.parameter] at hms
    split at hms
    · cases hms
    · cases hms
      exact ⟨_, rfl⟩
  · intro ms hms
    rw [Shape.Context.shape] at hms
    dsimp only at hms
    split at hms
    · cases hms
    · cases hms
      rfl

/-- An example of a model, by `object`, is made of the values of the strategy. -/
theorem ExampleStrategy.object_eq {Q : Value → Prop} {strategy : ExampleStrategy}
    (h : ∀ name declaredType, Q (strategy name declaredType)) (fields : List Field) :
    ∃ entries, strategy.object fields = membersOf entries ∧ ∀ m ∈ entries, Q m.2 := by
  refine ⟨_, rfl, fun m hm => ?_⟩
  obtain ⟨f, _, rfl⟩ := List.mem_map.mp hm
  exact h f.name f.typeText

/-- The example of a shape is made of those of its parameters, so that what holds of these holds of it. -/
theorem Shape.examples_eq {Q : Value → Prop} {ps : List HandlerParameter}
    (h : ∀ p ∈ ps, ∀ ms ∈ p.example?, Q (.object ms)) :
    ∃ entries, Shape.examples ps = membersOf entries ∧ ∀ m ∈ entries, Q m.2 := by
  refine ⟨_, rfl, fun m hm => ?_⟩
  obtain ⟨p, hp, hpm⟩ := List.mem_filterMap.mp hm
  have hexample := h p hp
  split at hpm
  · next heq =>
    cases hpm
    exact hexample _ heq
  · cases hpm

/-! ## Numbers and keys -/

/-- Whether an example, if there is one, has numbers with `P`, and keys that differ. -/
def ExampleSound (P : Number → Prop) (example? : Option Members) : Prop :=
  ∀ ms ∈ example?, (Value.object ms).Sound P

/-- Whether the examples of a shape are sound, and its score is at most the greatest one. -/
structure Shape.Sound (P : Number → Prop) (s : Shape) : Prop where
  parameters : ∀ p ∈ s.parameters, ExampleSound P p.example?
  example? : ExampleSound P s.example?
  score_le : s.score ≤ Shape.maxScore

/-- A shape is sound if the values of its strategy are. -/
theorem Shape.MadeBy.sound {strategy : ExampleStrategy} {s : Shape} (h : s.MadeBy strategy)
    (hstrategy : ∀ name declaredType, (strategy name declaredType).Sound P) : s.Sound P := by
  have hparameters : ∀ p ∈ s.parameters, ExampleSound P p.example? := by
    intro p hp ms hms
    obtain ⟨fields, rfl⟩ := h.parameters p hp ms hms
    obtain ⟨entries, hentries, hsound⟩ := ExampleStrategy.object_eq hstrategy fields
    exact hentries ▸ sound_membersOf hsound
  refine ⟨hparameters, fun ms hms => ?_, h.score_le⟩
  obtain ⟨entries, hentries, hsound⟩ := Shape.examples_eq hparameters
  rw [h.example? ms hms, hentries]
  exact sound_membersOf hsound

/-- The strategy `usual` makes texts, truth values, the number zero and what is empty. -/
theorem ExampleStrategy.sound_usual (hP : P (.integer 0)) (name declaredType : String) :
    (ExampleStrategy.usual name declaredType).Sound P := by
  rw [ExampleStrategy.usual]
  dsimp only
  split_ifs
  · exact ⟨by simpa [numbers, Value.ofNat] using hP, trivial⟩
  · exact ⟨by simp [numbers], trivial⟩
  · exact sound_array.mpr (by simp)
  · exact sound_object.mpr (by simp)
  · exact ⟨by simp [numbers], trivial⟩
  · exact ⟨by simp [numbers], trivial⟩

/-- The strategy `usual` makes nothing that has something in it. -/
theorem ExampleStrategy.depth_usual_le (name declaredType : String) :
    (ExampleStrategy.usual name declaredType).depth ≤ 1 := by
  rw [ExampleStrategy.usual]
  dsimp only
  split_ifs <;> simp [Value.depth, depthOfItems, depthOfMembers, Value.ofNat]

/-! ## JSON -/

theorem sound_string (s : String) : (Value.string s).Sound P := ⟨by simp [numbers], trivial⟩

theorem sound_ofStrings (xs : List String) : (Value.ofStrings xs).Sound P := by
  rw [Value.ofStrings, sound_array]
  intro x hx
  obtain ⟨s, _, rfl⟩ := List.mem_map.mp hx
  exact sound_string s

theorem sound_ofNat {n : Nat} (h : P (.integer n)) : (Value.ofNat n).Sound P :=
  ⟨by simpa [Value.ofNat, numbers] using h, trivial⟩

/-- What may be left out is a member only if it is there. -/
theorem forall_mem_optionalMember {α : Type} {Q : String × Value → Prop} {key : String} {x : Option α}
    {write : α → Value} (h : ∀ a ∈ x, Q (key, write a)) : ∀ m ∈ optionalMember key x write, Q m := by
  cases x with
  | none => simp [optionalMember]
  | some a => simpa [optionalMember] using h a rfl

/-- Fields are written as texts. -/
theorem Field.sound_listToJson (fs : List Field) : (Field.listToJson fs).Sound P := by
  rw [Field.listToJson, sound_array]
  intro v hv
  obtain ⟨f, _, rfl⟩ := List.mem_map.mp hv
  rw [Field.toJson, sound_object]
  exact ⟨by simp, by simp [sound_string]⟩

/-- A parameter has no numbers but those of its example. -/
theorem HandlerParameter.sound_toJson {p : HandlerParameter} (h : ExampleSound P p.example?) :
    p.toJson.Sound P := by
  have hkeys : (["name", "annotation_text"] ++ ["model"] ++ ["model_fields"] ++ ["example_payload"]).Nodup := by
    simp
  rw [HandlerParameter.toJson, sound_object]
  constructor
  · refine List.Nodup.sublist ?_ hkeys
    simp only [List.map_append]
    exact (((List.Sublist.refl _).append (keys_optionalMember _ _ _)).append
      (keys_optionalMember _ _ _)).append (keys_optionalMember _ _ _)
  · simp only [List.forall_mem_append]
    exact ⟨⟨⟨by simp [sound_string], forall_mem_optionalMember fun m _ => sound_string m⟩,
      forall_mem_optionalMember fun fs _ => Field.sound_listToJson fs⟩, forall_mem_optionalMember h⟩

/-- The keys that a shape is always written with, in their order. -/
def Shape.firstKeys : List String :=
  ["path", "method", "function", "module", "source_path", "parameters", "registered", "shape_score"]

/-- A shape has the numbers of its examples, and its score. -/
theorem Shape.sound_toJson {s : Shape} (h : s.Sound P) (hP : ∀ n : Nat, n < scoreBound → P (.integer n)) :
    s.toJson.Sound P := by
  have hkeys : (Shape.firstKeys ++ ["example_payload"]).Nodup := by simp [Shape.firstKeys]
  have hparameters : (Value.array (s.parameters.map HandlerParameter.toJson)).Sound P := by
    rw [sound_array]
    intro v hv
    obtain ⟨p, hp, rfl⟩ := List.mem_map.mp hv
    exact HandlerParameter.sound_toJson (h.parameters p hp)
  have hscore : P (.integer s.score) := hP _ (Nat.lt_of_le_of_lt h.score_le (by decide))
  rw [Shape.toJson, sound_object]
  constructor
  · refine List.Nodup.sublist ?_ hkeys
    rw [List.map_append]
    exact (List.Sublist.refl _).append (keys_optionalMember _ _ _)
  · rw [List.forall_mem_append]
    refine ⟨?_, forall_mem_optionalMember h.example?⟩
    simp only [List.forall_mem_cons]
    exact ⟨sound_string _, sound_string _, sound_string _, sound_string _, sound_string _, hparameters,
      ⟨by simp [numbers], trivial⟩, sound_ofNat hscore, by simp⟩

theorem Drift.sound_toJson (d : Drift) : d.toJson.Sound P := by
  rw [Drift.toJson, sound_object]
  exact ⟨by simp, by simp [sound_ofStrings]⟩

/-- A summary has the numbers of its shapes and of the realm, and its total. -/
theorem Summary.sound_toJson {s : Summary} (hshapes : ∀ t ∈ s.shapes, t.Sound P)
    (htotal : s.scoreTotal < scoreBound) (hrealm : s.realmMetadata.Sound P)
    (hP : ∀ n : Nat, n < scoreBound → P (.integer n)) : s.toJson.Sound P := by
  have hlist : (Value.array (s.shapes.map Shape.toJson)).Sound P := by
    rw [sound_array]
    intro v hv
    obtain ⟨t, ht, rfl⟩ := List.mem_map.mp hv
    exact Shape.sound_toJson (hshapes t ht) hP
  rw [Summary.toJson, sound_object]
  refine ⟨by simp, ?_⟩
  simp only [List.forall_mem_cons]
  exact ⟨sound_string _, sound_ofNat (hP _ htotal), hrealm, hlist, Drift.sound_toJson _, by simp⟩

/-! ## Depth -/

theorem depthOfItems_le_iff {xs : List Value} {n : Nat} :
    depthOfItems xs ≤ n ↔ ∀ x ∈ xs, x.depth ≤ n := by
  induction xs with
  | nil => simp [depthOfItems]
  | cons x xs ih => rw [depthOfItems, List.forall_mem_cons, Nat.max_le, ih]

theorem depthOfMembers_le_iff {ms : List (String × Value)} {n : Nat} :
    depthOfMembers ms ≤ n ↔ ∀ m ∈ ms, m.2.depth ≤ n := by
  induction ms with
  | nil => simp [depthOfMembers]
  | cons m ms ih => rw [depthOfMembers, List.forall_mem_cons, Nat.max_le, ih]

/-- Setting members one after the other, in `membersOf`, makes an object no deeper than the deepest of them. -/
theorem depth_membersOf_le {ms : List (String × Value)} {n : Nat} (h : ∀ m ∈ ms, m.2.depth ≤ n) :
    (Value.object (membersOf ms)).depth ≤ n + 1 := by
  rw [Value.depth, Nat.add_le_add_iff_right, depthOfMembers_le_iff]
  refine Value.membersOf_induction (P := fun acc => ∀ m ∈ acc, m.2.depth ≤ n) (by simp) ?_
  intro acc hacc m hm
  exact Association.forall_mem_set hacc (h m hm)

/-- How deep the examples of a shape nest at most: those of its parameters, and the example made of them. -/
structure Shape.ExampleDepthLe (s : Shape) (n : Nat) : Prop where
  parameters : ∀ p ∈ s.parameters, ∀ ms ∈ p.example?, (Value.object ms).depth ≤ n
  example? : ∀ ms ∈ s.example?, (Value.object ms).depth ≤ n + 1

/-- The example of a model nests one level deeper than the values of the strategy. -/
theorem Shape.MadeBy.exampleDepthLe {strategy : ExampleStrategy} {s : Shape} (h : s.MadeBy strategy)
    {n : Nat} (hstrategy : ∀ name declaredType, (strategy name declaredType).depth ≤ n) :
    s.ExampleDepthLe (n + 1) := by
  have hparameters : ∀ p ∈ s.parameters, ∀ ms ∈ p.example?, (Value.object ms).depth ≤ n + 1 := by
    intro p hp ms hms
    obtain ⟨fields, rfl⟩ := h.parameters p hp ms hms
    obtain ⟨entries, hentries, hdepth⟩ :=
      ExampleStrategy.object_eq (Q := fun v => v.depth ≤ n) hstrategy fields
    exact hentries ▸ depth_membersOf_le hdepth
  refine ⟨hparameters, fun ms hms => ?_⟩
  obtain ⟨entries, hentries, hdepth⟩ := Shape.examples_eq (Q := fun v => v.depth ≤ n + 1) hparameters
  rw [h.example? ms hms, hentries]
  exact depth_membersOf_le hdepth

theorem depth_ofStrings_le (xs : List String) : (Value.ofStrings xs).depth ≤ 1 := by
  rw [Value.ofStrings, Value.depth, Nat.add_le_add_iff_right, depthOfItems_le_iff]
  intro x hx
  obtain ⟨s, _, rfl⟩ := List.mem_map.mp hx
  exact Nat.le_refl 0

theorem Field.depth_listToJson_le (fs : List Field) : (Field.listToJson fs).depth ≤ 2 := by
  rw [Field.listToJson, Value.depth, Nat.add_le_add_iff_right, depthOfItems_le_iff]
  intro x hx
  obtain ⟨f, _, rfl⟩ := List.mem_map.mp hx
  exact Nat.le_refl 1

theorem HandlerParameter.depth_toJson_le {p : HandlerParameter} {n : Nat}
    (h : ∀ ms ∈ p.example?, (Value.object ms).depth ≤ n) : p.toJson.depth ≤ max 2 n + 1 := by
  rw [HandlerParameter.toJson, Value.depth, Nat.add_le_add_iff_right, depthOfMembers_le_iff]
  simp only [List.forall_mem_append]
  refine ⟨⟨⟨by simp [Value.depth], forall_mem_optionalMember fun m _ => Nat.zero_le _⟩,
    forall_mem_optionalMember fun fs _ => ?_⟩, forall_mem_optionalMember fun ms hms => ?_⟩
  · exact Nat.le_trans (Field.depth_listToJson_le fs) (Nat.le_max_left 2 n)
  · exact Nat.le_trans (h ms hms) (Nat.le_max_right 2 n)

/-- Parameters are in a list, and this is in the shape. -/
theorem Shape.depth_toJson_le {s : Shape} {n : Nat} (h : s.ExampleDepthLe n) :
    s.toJson.depth ≤ max 2 n + 3 := by
  have hparameters : (Value.array (s.parameters.map HandlerParameter.toJson)).depth ≤ max 2 n + 2 := by
    rw [Value.depth, Nat.add_le_add_iff_right, depthOfItems_le_iff]
    intro v hv
    obtain ⟨p, hp, rfl⟩ := List.mem_map.mp hv
    exact HandlerParameter.depth_toJson_le (h.parameters p hp)
  rw [Shape.toJson, Value.depth, Nat.add_le_add_iff_right, depthOfMembers_le_iff, List.forall_mem_append]
  refine ⟨?_, forall_mem_optionalMember fun ms hms => ?_⟩
  · simpa [Value.depth, Value.ofNat] using hparameters
  · have hexample := h.example? ms hms
    show (Value.object ms).depth ≤ _
    omega

theorem Drift.depth_toJson_le (d : Drift) : d.toJson.depth ≤ 2 := by
  rw [Drift.toJson, Value.depth, Nat.add_le_add_iff_right, depthOfMembers_le_iff]
  simp [depth_ofStrings_le]

/-- How deep a summary nests: `realmMetadata` is one level further down, and its shapes are two. -/
theorem Summary.depth_toJson_le {s : Summary} {n : Nat} (hshapes : ∀ t ∈ s.shapes, t.ExampleDepthLe n) :
    s.toJson.depth ≤ max (max 2 n + 5) (s.realmMetadata.depth + 1) := by
  have hlist : (Value.array (s.shapes.map Shape.toJson)).depth ≤ max 2 n + 4 := by
    rw [Value.depth, Nat.add_le_add_iff_right, depthOfItems_le_iff]
    intro v hv
    obtain ⟨t, ht, rfl⟩ := List.mem_map.mp hv
    exact Shape.depth_toJson_le (hshapes t ht)
  have hdrift := Drift.depth_toJson_le s.drift
  have hmembers : s.toJson.depth ≤ max (max 2 n + 4) s.realmMetadata.depth + 1 := by
    rw [Summary.toJson, Value.depth, Nat.add_le_add_iff_right, depthOfMembers_le_iff]
    simp only [List.forall_mem_cons]
    refine ⟨Nat.zero_le _, Nat.zero_le _, Nat.le_max_right _ _, Nat.le_trans hlist (Nat.le_max_left _ _), ?_, by simp⟩
    exact Nat.le_trans hdrift (by omega)
  omega

theorem Summary.depth_realm_lt (s : Summary) : s.realmMetadata.depth < s.toJson.depth := by
  rw [Summary.toJson, Value.depth, Nat.lt_succ_iff]
  have hmembers := depthOfMembers_le_iff.mp (Nat.le_refl (depthOfMembers
    [("timestamp", .string s.timestamp), ("shape_score_total", .ofNat s.scoreTotal),
      ("realm_metadata", s.realmMetadata), ("payload_shapes", .array (s.shapes.map Shape.toJson)),
      ("drift", s.drift.toJson)]))
  exact hmembers ("realm_metadata", s.realmMetadata) (by simp)

/-! ## Scans -/

/-- A value is well-formed if its numbers have a word and its keys differ. -/
theorem wellFormed_iff_sound {v : Value} : v.WellFormed ↔ v.Sound Number.HasWord := by
  constructor
  · intro h
    refine ⟨fun n hn => ?_, h.keys⟩
    cases n with
    | integer n => exact h.integers n hn
    | double x => trivial
  · exact fun h => ⟨h.2, fun n hn => h.1 (.integer n) hn⟩

theorem hasWord_of_lt {n : Nat} (h : n < scoreBound) : (Number.integer n).HasWord := by
  have hbound := scoreBound_le_wordLimit
  exact ⟨by omega, by omega⟩

/-- The `realm` was read from a text, or is an empty object. -/
theorem Artifacts.realm_cases (d : Disk) (path : String) :
    Artifacts.realm d path = .object [] ∨
      ∃ text, Decoder.ofText Decoder.value text = .ok (Artifacts.realm d path) := by
  rw [Artifacts.realm, Artifacts.readFile]
  cases d.readText path with
  | error e => exact .inl rfl
  | ok text =>
    dsimp only
    cases hread : Decoder.ofText Decoder.value text with
    | error f => exact .inl rfl
    | ok v => exact .inr ⟨text, hread⟩

namespace Scanner

/-- What a scan comes to is put together by `conclude` from the files that were analysed. -/
theorem scan_eq_conclude {s : Scanner} {d : Disk} {time : String} {outcome : ScanOutcome}
    (h : s.scan d time = .ok outcome) :
    ∃ paths, (Walk.ofConfig s.config.scan).files d = .ok paths ∧
      outcome = s.conclude d time (Analysed.ofPaths d (Walk.ofConfig s.config.scan).root paths) := by
  rw [Scanner.scan] at h
  cases hfiles : (Walk.ofConfig s.config.scan).files d with
  | error e => simp [hfiles, bind, Except.bind] at h
  | ok paths =>
    simp only [hfiles, bind, Except.bind, pure, Except.pure, Except.ok.injEq] at h
    exact ⟨paths, rfl, h.symm⟩

theorem madeBy_conclude (s : Scanner) (d : Disk) (time : String) (analysed : List Analysed) :
    ∀ t ∈ (s.conclude d time analysed).summary.shapes, t.MadeBy s.strategy :=
  Shape.madeBy_shapes (c := s.context d _)

theorem scoreTotal_conclude_lt (s : Scanner) (d : Disk) (time : String) (analysed : List Analysed) :
    (s.conclude d time analysed).summary.scoreTotal < scoreBound :=
  Nat.lt_of_le_of_lt (Nat.min_le_left _ _) (by decide)

/-- The summary of a scan is `WellFormed` if the strategy makes values that are. -/
theorem wellFormed_summary {s : Scanner} (hs : ∀ name declaredType, (s.strategy name declaredType).WellFormed)
    {d : Disk} {time : String} {outcome : ScanOutcome} (h : s.scan d time = .ok outcome) :
    outcome.summary.WellFormed := by
  obtain ⟨paths, _, rfl⟩ := scan_eq_conclude h
  generalize Analysed.ofPaths d (Walk.ofConfig s.config.scan).root paths = analysed
  -- the numbers are those of the shapes, of the realm, and of the scores
  have hshapes : ∀ t ∈ (s.conclude d time analysed).summary.shapes, t.Sound Number.HasWord := fun t ht =>
    (madeBy_conclude s d time analysed t ht).sound fun name declaredType =>
      wellFormed_iff_sound.mp (hs name declaredType)
  have hrealm : (Artifacts.realm d s.config.realmPath).Sound Number.HasWord := by
    rcases Artifacts.realm_cases d s.config.realmPath with hnone | ⟨text, htext⟩
    · rw [hnone, sound_object]
      exact ⟨by simp, by simp⟩
    · exact wellFormed_iff_sound.mp (wellFormed_of_ofText htext)
  have htotal := scoreTotal_conclude_lt s d time analysed
  exact ⟨wellFormed_iff_sound.mpr (Summary.sound_toJson hshapes htotal hrealm fun n hn => hasWord_of_lt hn),
    htotal, fun t ht => Nat.lt_of_le_of_lt (hshapes t ht).score_le (by decide)⟩

end Scanner

end PayloadAtlas
