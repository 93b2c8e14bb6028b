import PistonGrid.Document
import PistonGrid.Proofs.JsonGrammar
import PistonGrid.Proofs.KeyedLists

/-!
# Stored values read back

Whatever is stored as a document, a configuration with any name or a snapshot with any numbers, is read
back from its compact text as it was.  The text is read as the value that was written
(`Json.parse_compact`); what is left is that the value is taken apart as it was put together.

* `Json.fields?_ofFields` — a record is read field by field under the names it was written with.
* `ofJson?_toJson`, for each kind of document; `round_trip` — from values to texts.
-/

set_option autoImplicit false

namespace PistonGrid

namespace Json

/-! ## Numbers -/

theorem uint8?_ofNat (n : UInt8) : (ofNat n.toNat).uint8? = some n := by
  simp [uint8?, ofNat, nat?, n.toNat_lt]

theorem uint32?_ofNat (n : UInt32) : (ofNat n.toNat).uint32? = some n := by
  simp [uint32?, ofNat, nat?, n.toNat_lt]

theorem uint64?_ofNat (n : UInt64) : (ofNat n.toNat).uint64? = some n := by
  simp [uint64?, ofNat, nat?, n.toNat_lt]

/-- Zero is never written with a sign, and the least number has room. -/
theorem int?_ofInt {bound : Nat} {n : Int} (hlow : -(bound : Int) ≤ n) (hhigh : n < bound) :
    (ofInt n).int? bound = some n := by
  by_cases hneg : n < 0
  · have hmag : 0 < n.natAbs ∧ n.natAbs ≤ bound := by omega
    have hback : -(n.natAbs : Int) = n := by omega
    simp only [ofInt, hneg, decide_true, int?, hmag, and_self, ↓reduceIte, hback]
  · have hmag : n.natAbs < bound := by omega
    have hback : (n.natAbs : Int) = n := by omega
    simp only [ofInt, hneg, decide_false, int?, hmag, ↓reduceIte, hback]

theorem int32?_ofInt (n : Int32) : (ofInt n.toInt).int32? = some n := by
  rw [int32?, int?_ofInt n.le_toInt n.toInt_lt]
  simp

/-! ## Records and arrays -/

/-- Reading one thing after the other, when each is read back. -/
theorem mapM_map_some {α β γ : Type} {write : α → β} {read : β → Option γ} {result : α → γ}
    {l : List α} (h : ∀ a ∈ l, read (write a) = some (result a)) :
    (l.map write).mapM read = some (l.map result) := by
  induction l with
  | nil => rfl
  | cons a l ih =>
    obtain ⟨ha, hl⟩ := List.forall_mem_cons.mp h
    simp [ha, ih hl]

/-- A field is found under its name, which no other field has. -/
theorem member?_of_mem {fs : List (String × Json)} (hnodup : (fs.map (·.1)).Nodup)
    {f : String × Json} (hf : f ∈ fs) :
    member? f.1 (fs.map fun (key, v) => (some key, v)) = some (some f.2) := by
  have honly : (fs.map fun (key, v) => (some key, v)).filter (·.1 == some f.1) = [(some f.1, f.2)] := by
    rw [List.filter_map]
    have hsame : ((fun m : Option String × Json => m.1 == some f.1) ∘ fun (g : String × Json) =>
        (some g.1, g.2)) = fun g => g.1 == f.1 := by
      funext g
      simp
    rw [hsame, filter_key_eq hnodup hf]
    rfl
  rw [member?, honly]

/-- A record is read field by field under the names it was written with. -/
theorem fields?_ofFields {keys : List String} {fs : List (String × Json)}
    (hkeys : fs.map (·.1) = keys) (hnodup : keys.Nodup) :
    (ofFields fs).fields? keys = some (fs.map fun f => some f.2) := by
  have hsome : (fs.map fun (key, v) => (some key, v)).all (·.1.isSome) = true := by simp
  subst hkeys
  rw [ofFields, fields?, if_pos hsome]
  exact mapM_map_some fun f hf => member?_of_mem hnodup hf

theorem vector?_array {α : Type} {n : Nat} {write : α → Json} {read : Json → Option α}
    (h : ∀ a, read (write a) = some a) (values : Vector α n) :
    (Json.array (values.toList.map write)).vector? n read = some values := by
  have hread : (values.toList.map write).mapM read = some values.toList := by
    have hall := mapM_map_some (l := values.toList) fun a _ => h a
    rwa [List.map_id'] at hall
  have hback : values.toList.toArray = values.toArray := Array.toArray_toList
  simp [vector?, hread, hback]

end Json

/-! ## The documents -/

theorem Heading.ofJson?_toJson (h : Heading) : ofJson? h.toJson = some h := ofName?_name h

theorem RegisterTag.ofJson?_toJson (t : RegisterTag) : ofJson? t.toJson = some t := by
  rw [ofJson?, toJson, Json.uint8?_ofNat]
  rfl

theorem OptionsTag.ofJson?_toJson (t : OptionsTag) : ofJson? t.toJson = some t := by
  rw [ofJson?, toJson, Json.uint8?_ofNat]
  rfl

theorem StartPoint.ofJson?_toJson (s : StartPoint) : ofJson? s.toJson = some s := by
  have hfields : s.toJson.fields? ["x", "y", "direction"] =
      some [some (.ofNat s.x.toNat), some (.ofNat s.y.toNat), some s.heading.toJson] :=
    Json.fields?_ofFields rfl (by decide)
  simp [ofJson?, hfields, Json.uint32?_ofNat, Heading.ofJson?_toJson]

theorem Snapshot.ofJson?_toJson (s : Snapshot) : ofJson? s.toJson = some s := by
  have hfields : s.toJson.fields? ["id", "x", "y", "direction", "registers", "priority", "ended"] =
      some [some (.ofNat s.id.toNat), some (.ofNat s.x.toNat), some (.ofNat s.y.toNat),
        some s.heading.toJson, some (.array (s.registers.toList.map fun r => .ofNat r.toNat)),
        some (.ofInt s.priority.toInt), some (.bool s.ended)] :=
    Json.fields?_ofFields rfl (by decide)
  simp [ofJson?, hfields, Json.uint64?_ofNat, Json.uint32?_ofNat, Heading.ofJson?_toJson,
    Json.vector?_array Json.uint32?_ofNat, Json.int32?_ofInt, Json.bool?]

theorem Config.ofJson?_toJson (c : Config) : ofJson? c.toJson = some c := by
  obtain ⟨limit, hjson, hlimit⟩ : ∃ limit, c.toJson = .ofFields [("name", .ofString c.name),
      ("max_cycles", limit)] ∧ limit.nullable? Json.uint64? = some c.maxCycles := by
    unfold toJson
    cases c.maxCycles with
    | none => exact ⟨.null, rfl, rfl⟩
    | some n => exact ⟨.ofNat n.toNat, rfl, congrArg (Option.map some) (Json.uint64?_ofNat n)⟩
  have hfields : c.toJson.fields? ["name", "max_cycles"] =
      some [some (.ofString c.name), some limit] := by
    rw [hjson]
    exact Json.fields?_ofFields rfl (by decide)
  have hname : (Json.ofString c.name).text? = some c.name := rfl
  simp [ofJson?, hfields, field?, hname, hlimit]

/-! ## Texts -/

/-- What is read back as a value is read back from its text. -/
theorem Json.round_trip {α : Type} {toJson : α → Json} {ofJson? : Json → Option α}
    (hwrite : ∀ a, (toJson a).Faithful) (hread : ∀ a, ofJson? (toJson a) = some a) (a : α) :
    (Json.parse (toJson a).compact).bind ofJson? = some a := by
  rw [Json.parse_compact (hwrite a), Option.bind_some, hread]

theorem Heading.toJson_faithful (h : Heading) : h.toJson.Faithful := .string h.name

theorem StartPoint.toJson_faithful (s : StartPoint) : s.toJson.Faithful := by
  refine .fields ?_
  simp only [List.forall_mem_cons]
  exact ⟨.integer _ _, .integer _ _, s.heading.toJson_faithful, by simp⟩

theorem Snapshot.toJson_faithful (s : Snapshot) : s.toJson.Faithful := by
  have hregisters : ∀ v ∈ s.registers.toList.map fun r => Json.ofNat r.toNat, v.Faithful := by
    intro v hv
    obtain ⟨r, _, rfl⟩ := List.mem_map.mp hv
    exact .integer _ _
  refine .fields ?_
  simp only [List.forall_mem_cons]
  exact ⟨.integer _ _, .integer _ _, .integer _ _, s.heading.toJson_faithful, .array hregisters,
    .integer _ _, .bool _, by simp⟩

theorem Config.toJson_faithful (c : Config) : c.toJson.Faithful := by
  refine .fields ?_
  simp only [List.forall_mem_cons]
  refine ⟨.string _, ?_, by simp⟩
  cases c.maxCycles with
  | none => exact .null
  | some n => exact .integer _ _

/-- **Stored values read back.** A configuration, whatever characters its name is made of and whatever
its bound, is what its text is read as; and so is every snapshot, start point, heading, register number
and register hint. -/
theorem documents_round_trip :
    (∀ c : Config, Config.parse? c.render = some c) ∧
      (∀ s : Snapshot, (Json.parse s.toJson.compact).bind Snapshot.ofJson? = some s) ∧
      (∀ s : StartPoint, (Json.parse s.toJson.compact).bind StartPoint.ofJson? = some s) ∧
      (∀ h : Heading, (Json.parse h.toJson.compact).bind Heading.ofJson? = some h) ∧
      (∀ r : RegisterTag, (Json.parse r.toJson.compact).bind RegisterTag.ofJson? = some r) ∧
      (∀ o : OptionsTag, (Json.parse o.toJson.compact).bind OptionsTag.ofJson? = some o) :=
  ⟨Json.round_trip Config.toJson_faithful Config.ofJson?_toJson,
    Json.round_trip Snapshot.toJson_faithful Snapshot.ofJson?_toJson,
    Json.round_trip StartPoint.toJson_faithful StartPoint.ofJson?_toJson,
    Json.round_trip Heading.toJson_faithful Heading.ofJson?_toJson,
    Json.round_trip (fun _ => .integer _ _) RegisterTag.ofJson?_toJson,
    Json.round_trip (fun _ => .integer _ _) OptionsTag.ofJson?_toJson⟩

end PistonGrid
