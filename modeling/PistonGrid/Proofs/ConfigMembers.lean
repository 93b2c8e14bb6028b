import PistonGrid.Document
import PistonGrid.Proofs.JsonReading

/-!
# Which objects are configurations

A configuration is read from an object by its two known members.  The order of the members, the spelling of
their keys, the blanks between the parts of the text and all unknown members, however often they occur and
whatever values they have, make no difference.

* `Json.valuesAt` — the values that an object has under a key; `Json.member?_eq_some_iff`.
* `Settles` — what these values say about a field: it takes its default if there are none, and one value may
  stand for it.  `exists_settles_iff` — when they settle it; `Settles.perm` — their order does not matter.
* `Config.Meant` — the members settle both fields; `Config.ofJson?_object_iff` — an object is read as that.
* `ObjectText` — the text of an object; `ObjectText.parse?_iff`, `ObjectText.parse?_eq`.
-/

set_option autoImplicit false

namespace PistonGrid

/-! ## Known members -/

namespace Json

/-- The values that an object has under a key, in order. -/
def valuesAt (key : String) (members : List (Option String × Json)) : List Json :=
  (members.filter (·.1 == some key)).map (·.2)

/-- A look-up succeeds if the key is absent or occurs once. -/
theorem member?_eq_some_iff {key : String} {members : List (Option String × Json)} {found : Option Json} :
    member? key members = some found ↔ valuesAt key members = found.toList := by
  rw [member?, valuesAt]
  generalize members.filter (·.1 == some key) = known
  match known with
  | [] => cases found <;> simp
  | [m] => cases found <;> simp
  | m :: m' :: rest => cases found <;> simp

end Json

section

variable {α : Type} {fallback : α} {Reads : Json → α → Prop} {values values' : List Json} {a : α}

/-- The values under a key settle a field: there are none, and it takes its default; or there is one, and it
stands for the field. -/
def Settles (fallback : α) (Reads : Json → α → Prop) (values : List Json) (a : α) : Prop :=
  (values = [] ∧ a = fallback) ∨ ∃ v, values = [v] ∧ Reads v a

theorem Settles.perm (hperm : values.Perm values') (h : Settles fallback Reads values a) :
    Settles fallback Reads values' a := by
  rcases h with ⟨rfl, ha⟩ | ⟨v, rfl, hv⟩
  · exact .inl ⟨List.nil_perm.mp hperm, ha⟩
  · exact .inr ⟨v, List.singleton_perm.mp hperm |>.symm, hv⟩

/-- Something is settled if the key occurs at most once, and then with a value that stands for something. -/
theorem exists_settles_iff : (∃ a, Settles fallback Reads values a) ↔
    values.length ≤ 1 ∧ ∀ v ∈ values, ∃ a, Reads v a := by
  match values with
  | [] => simp [Settles]
  | [v] => simp [Settles]
  | v :: v' :: rest => simp [Settles]

/-- A field is read as what the values under its key settle. -/
theorem field?_member?_iff {read : Json → Option α} {key : String}
    {members : List (Option String × Json)} :
    (∃ found, Json.member? key members = some found ∧ Config.field? fallback read found = some a) ↔
      Settles fallback (fun v a => read v = some a) (Json.valuesAt key members) a := by
  simp only [Json.member?_eq_some_iff]
  constructor
  · rintro ⟨found, hvalues, hread⟩
    cases found with
    | none => exact .inl ⟨hvalues, (Option.some.inj hread).symm⟩
    | some v => exact .inr ⟨v, hvalues, hread⟩
  · rintro (⟨hvalues, rfl⟩ | ⟨v, hvalues, hread⟩)
    · exact ⟨none, hvalues, rfl⟩
    · exact ⟨some v, hvalues, hread⟩

end

/-! ## Configurations -/

namespace Config

/-- A value stands for a name. -/
def NameReads (v : Json) (name : String) : Prop := v = .string (some name)

/-- A value stands for a bound on cycles: nothing for none, a natural number of 64 bits for itself. -/
def LimitReads (v : Json) (limit : Option UInt64) : Prop :=
  (v = .null ∧ limit = none) ∨ ∃ n, n < UInt64.size ∧ v = .integer false n ∧ limit = some (.ofNat n)

theorem text?_iff {v : Json} {name : String} : v.text? = some name ↔ NameReads v name := by
  cases v <;> simp [Json.text?, NameReads]

theorem nullable?_uint64?_iff {v : Json} {limit : Option UInt64} :
    v.nullable? Json.uint64? = some limit ↔ LimitReads v limit := by
  cases v with
  | null => simp [Json.nullable?, LimitReads, eq_comm]
  | integer negative n =>
    cases negative with
    | true => simp [Json.nullable?, Json.uint64?, Json.nat?, LimitReads]
    | false =>
      have hread : (Json.integer false n).nullable? Json.uint64? =
          if n < UInt64.size then some (some (.ofNat n)) else none := by
        simp only [Json.nullable?, Json.uint64?, Json.nat?]
        split <;> rfl
      rw [hread]
      constructor
      · intro h
        split at h
        · exact .inr ⟨n, ‹_›, rfl, (Option.some.inj h).symm⟩
        · cases h
      · rintro (⟨h, _⟩ | ⟨m, hm, h, rfl⟩)
        · cases h
        · cases h
          exact if_pos hm
  | bool | decimal | string | array | object => simp [Json.nullable?, Json.uint64?, Json.nat?, LimitReads]

theorem limitReads_iff {v : Json} :
    (∃ limit, LimitReads v limit) ↔ v = .null ∨ ∃ n, n < UInt64.size ∧ v = .integer false n := by
  constructor
  · rintro ⟨limit, ⟨hv, _⟩ | ⟨n, hn, hv, _⟩⟩
    · exact .inl hv
    · exact .inr ⟨n, hn, hv⟩
  · rintro (hv | ⟨n, hn, hv⟩)
    · exact ⟨none, .inl ⟨hv, rfl⟩⟩
    · exact ⟨some (.ofNat n), .inr ⟨n, hn, hv, rfl⟩⟩

/-- The members of an object stand for a configuration. -/
structure Meant (members : List (Option String × Json)) (c : Config) : Prop where
  name : Settles standard.name NameReads (Json.valuesAt "name" members) c.name
  maxCycles : Settles standard.maxCycles LimitReads (Json.valuesAt "max_cycles" members) c.maxCycles

/-- **An object is read by its known members**, if all its keys are texts. -/
theorem ofJson?_object_iff {members : List (Option String × Json)} {c : Config}
    (hkeys : ∀ m ∈ members, m.1.isSome = true) :
    ofJson? (.object members) = some c ↔ Meant members c := by
  have hfields : (Json.object members).fields? ["name", "max_cycles"] =
      ["name", "max_cycles"].mapM (Json.member? · members) := by
    rw [Json.fields?, if_pos (List.all_eq_true.mpr hkeys)]
  have hread : ofJson? (.object members) = some c ↔
      (∃ found, Json.member? "name" members = some found ∧
        field? standard.name Json.text? found = some c.name) ∧
      ∃ found, Json.member? "max_cycles" members = some found ∧
        field? standard.maxCycles (Json.nullable? Json.uint64?) found = some c.maxCycles := by
    rw [ofJson?, hfields]
    cases hname : Json.member? "name" members with
    | none => simp [hname]
    | some name =>
      cases hlimit : Json.member? "max_cycles" members with
      | none => simp [hname, hlimit]
      | some limit =>
        simp only [List.mapM_cons, hname, hlimit, List.mapM_nil, Option.pure_def, Option.bind_eq_bind,
          Option.bind_some, Option.bind_eq_some_iff, Option.some.injEq, exists_eq_left']
        constructor
        · rintro ⟨a, ha, b, hb, rfl⟩
          exact ⟨ha, hb⟩
        · exact fun ⟨ha, hb⟩ => ⟨c.name, ha, c.maxCycles, hb, rfl⟩
  rw [hread, field?_member?_iff, field?_member?_iff]
  simp only [text?_iff, nullable?_uint64?_iff]
  exact ⟨fun h => ⟨h.1, h.2⟩, fun h => ⟨h.name, h.maxCycles⟩⟩

end Config

/-! ## Texts -/

/-- The text of an object in which neither a key nor the value of `name` holds half of a surrogate pair that
stands alone. -/
structure ObjectText (members : List (Option String × Json)) (text : String) : Prop where
  spelled : Json.SpelledText (.object members) text
  keys : ∀ m ∈ members, m.1.isSome = true
  name : .string none ∉ Json.valuesAt "name" members

instance (members : List (Option String × Json)) (text : String) : Decidable (ObjectText members text) :=
  decidable_of_iff (Json.SpelledText (.object members) text ∧ (∀ m ∈ members, m.1.isSome = true) ∧
    .string none ∉ Json.valuesAt "name" members)
    ⟨fun h => ⟨h.1, h.2.1, h.2.2⟩, fun h => ⟨h.spelled, h.keys, h.name⟩⟩

namespace ObjectText

variable {members members' : List (Option String × Json)} {text text' : String}

/-- **What a text is read as.** -/
theorem parse?_iff (h : ObjectText members text) {c : Config} :
    Config.parse? text = some c ↔ Config.Meant members c := by
  rw [Config.parse?, Json.parse_spelled h.spelled, Option.bind_some]
  exact Config.ofJson?_object_iff h.keys

/-- Texts of the same known members are read alike. -/
theorem parse?_eq (h : ObjectText members text) (h' : ObjectText members' text')
    (hname : (Json.valuesAt "name" members).Perm (Json.valuesAt "name" members'))
    (hlimit : (Json.valuesAt "max_cycles" members).Perm (Json.valuesAt "max_cycles" members')) :
    Config.parse? text = Config.parse? text' := by
  refine Option.ext fun c => ?_
  rw [h.parse?_iff, h'.parse?_iff]
  exact ⟨fun hc => ⟨hc.name.perm hname, hc.maxCycles.perm hlimit⟩,
    fun hc => ⟨hc.name.perm hname.symm, hc.maxCycles.perm hlimit.symm⟩⟩

/-- In such a text every string under `name` stands for a name. -/
theorem nameReads_iff (h : ObjectText members text) (v : Json) (hv : v ∈ Json.valuesAt "name" members) :
    (∃ name, Config.NameReads v name) ↔ ∃ content, v = .string content := by
  constructor
  · rintro ⟨name, hname⟩
    exact ⟨some name, hname⟩
  · rintro ⟨content, rfl⟩
    cases content with
    | none => exact absurd hv h.name
    | some name => exact ⟨name, rfl⟩

/-- The two fields are settled each by itself. -/
theorem exists_meant_iff : (∃ c, Config.Meant members c) ↔
    (∃ name, Settles Config.standard.name Config.NameReads (Json.valuesAt "name" members) name) ∧
      ∃ limit, Settles Config.standard.maxCycles Config.LimitReads
        (Json.valuesAt "max_cycles" members) limit := by
  constructor
  · rintro ⟨c, hc⟩
    exact ⟨⟨c.name, hc.name⟩, c.maxCycles, hc.maxCycles⟩
  · rintro ⟨⟨name, hname⟩, limit, hlimit⟩
    exact ⟨⟨name, limit⟩, hname, hlimit⟩

end ObjectText

/-- A text spells a natural number if it is a literal without sign, fraction and exponent. -/
theorem Json.spelled_natural_iff {n : Nat} {t : List Char} :
    Spelled (.integer false n) t ↔ Integral t ∧ n = Nat.ofDigitChars 10 t 0 := by
  constructor
  · intro h
    cases h with
    | integer negative hd => exact ⟨hd, rfl⟩
  · rintro ⟨hd, rfl⟩
    exact .integer false hd

/-- **Configurations are read by their known members**, in any order and with any blanks between the
parts of the text: just if `name` occurs at most once, and then with a string, and `max_cycles` at most
once, and then with `null` or a literal of a natural number of 64 bits.  A field whose key is absent has
its default.  So two texts that agree under the two keys are read alike. -/
theorem configurations_read_by_known_members {members : List (Option String × Json)} {text : String}
    (h : ObjectText members text) :
    ((∃ c, Config.parse? text = some c) ↔
      ((Json.valuesAt "name" members).length ≤ 1 ∧
        ∀ v ∈ Json.valuesAt "name" members, ∃ content, v = .string content) ∧
      (Json.valuesAt "max_cycles" members).length ≤ 1 ∧
        ∀ v ∈ Json.valuesAt "max_cycles" members,
          v = .null ∨ ∃ n, n < UInt64.size ∧ v = .integer false n) ∧
    (∀ n t, Json.Spelled (.integer false n) t ↔ Json.Integral t ∧ n = Nat.ofDigitChars 10 t 0) ∧
    (∀ c, Config.parse? text = some c →
      ((Json.valuesAt "name" members = [] ∧ c.name = "program") ∨
        Json.valuesAt "name" members = [.string (some c.name)]) ∧
      ((Json.valuesAt "max_cycles" members = [] ∧ c.maxCycles = none) ∨
        (Json.valuesAt "max_cycles" members = [.null] ∧ c.maxCycles = none) ∨
        ∃ n, n < UInt64.size ∧ Json.valuesAt "max_cycles" members = [.integer false n] ∧
          c.maxCycles = some (.ofNat n))) ∧
    ∀ members' text', ObjectText members' text' →
      (Json.valuesAt "name" members).Perm (Json.valuesAt "name" members') →
      (Json.valuesAt "max_cycles" members).Perm (Json.valuesAt "max_cycles" members') →
      Config.parse? text = Config.parse? text' := by
  refine ⟨?_, fun _ _ => Json.spelled_natural_iff, ?_, fun _ _ h' => h.parse?_eq h'⟩
  · simp only [h.parse?_iff, ObjectText.exists_meant_iff, exists_settles_iff]
    refine and_congr (and_congr_right fun _ => forall₂_congr h.nameReads_iff) ?_
    exact and_congr_right fun _ => forall₂_congr fun v _ => Config.limitReads_iff
  · intro c hc
    obtain ⟨hname, hlimit⟩ := h.parse?_iff.mp hc
    constructor
    · rcases hname with hname | ⟨v, hv, rfl⟩
      · exact .inl hname
      · exact .inr hv
    · rcases hlimit with hlimit | ⟨v, hv, ⟨rfl, hnone⟩ | ⟨n, hn, rfl, hsome⟩⟩
      · exact .inl hlimit
      · exact .inr (.inl ⟨hv, hnone⟩)
      · exact .inr (.inr ⟨n, hn, hv, hsome⟩)

/-- Blanks, an unknown key twice, a number too large to store, half of a surrogate pair that nobody reads,
a known key spelled with an escape, and a name with a whole pair in it. -/
def untidyText : String :=
  "\x7b \"depth\" : [1e400, \x7b\"\\ud800\": -0\x7d],\n\t\"max_cycles\":18446744073709551615 ,"
    ++ " \"depth\":null, \"n\\u0061me\" : \"a\\/b\\uD834\\udd1e\" \x7d\n"

/-- The same known members in the other order. -/
def tidyText : String := "\x7b\"name\":\"a/b𝄞\",\"max_cycles\":18446744073709551615\x7d"

/-- Both are read, and as the same configuration. -/
theorem configurations_read_by_known_members_untidy :
    Config.parse? untidyText = Config.parse? tidyText ∧
      ∃ c, Config.parse? untidyText = some c ∧ c.name = "a/b𝄞" ∧
        c.maxCycles = some (.ofNat 18446744073709551615) := by
  have h : ObjectText [(some "depth", .array [.decimal "1e400".toList, .object [(none, .integer true 0)]]),
      (some "max_cycles", .integer false 18446744073709551615), (some "depth", .null),
      (some "name", .string (some "a/b𝄞"))] untidyText := by
    decide +kernel
  have h' : ObjectText [(some "name", .string (some "a/b𝄞")),
      (some "max_cycles", .integer false 18446744073709551615)] tidyText := by
    decide +kernel
  obtain ⟨hsome, _, hfields, hsame⟩ := configurations_read_by_known_members h
  refine ⟨hsame _ _ h' (.refl _) (.refl _), ?_⟩
  obtain ⟨c, hc⟩ := hsome.mpr
    ⟨⟨by decide, List.forall_mem_singleton.mpr ⟨_, rfl⟩⟩,
      by decide, List.forall_mem_singleton.mpr (.inr ⟨_, by decide, rfl⟩)⟩
  obtain ⟨hname, hlimit⟩ := hfields c hc
  have hstring : [Json.string (some "a/b𝄞")] = [.string (some c.name)] :=
    hname.resolve_left fun h => by cases h.1
  obtain ⟨n, _, hinteger, hn⟩ : ∃ n, n < UInt64.size ∧
      [Json.integer false 18446744073709551615] = [.integer false n] ∧ c.maxCycles = some (.ofNat n) :=
    (hlimit.resolve_left fun h => by cases h.1).resolve_left fun h => by cases h.1
  simp only [List.cons.injEq, Json.string.injEq, Option.some.injEq, Json.integer.injEq, and_true,
    true_and] at hstring hinteger
  exact ⟨c, hc, hstring.symm, hinteger ▸ hn⟩

end PistonGrid
