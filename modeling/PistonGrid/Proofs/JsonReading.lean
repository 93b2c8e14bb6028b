import PistonGrid.Proofs.JsonGrammar

/-!
# The reader keeps to the grammar

What the reader takes from the head of a text spells the value that it gives, so it accepts no text outside
the grammar: together with `parse_spelled`, it reads exactly the texts that spell a value.

* `readNumber_sound`, `scanString_sound` — the parts of a text, one lemma for each.
* `Sound` — a reader skips blanks and takes a text that spells what it gives.  `readElements_sound`,
  `readMembers_sound`, `readValue_sound` — one more unit of fuel keeps this; `sound` — for any fuel.
* `parse_eq_some_iff` — the texts that are read.  Since values can be compared (`same_iff`), it can be decided
  whether a text spells a value.
-/

set_option autoImplicit false

namespace PistonGrid.Json

/-! ## Numbers -/

/-- A part that was read behind the one in front of it. -/
theorem of_map_cons {α : Type} {a : α} {as : List α} {rest : List Char}
    {found : Option (List α × List Char)}
    (h : (found.map fun (t, rest) => (a :: t, rest)) = some (as, rest)) :
    ∃ t, found = some (t, rest) ∧ as = a :: t := by
  obtain ⟨⟨t, rest⟩, ht, heq⟩ := Option.map_eq_some_iff.mp h
  cases heq
  exact ⟨t, ht, rfl⟩

section

variable {cs ds rest : List Char}

theorem readDigits_sound (h : readDigits cs = some (ds, rest)) : Digits ds ∧ cs = ds ++ rest := by
  unfold readDigits at h
  simp only at h
  split at h
  · cases h
  · rename_i hne
    cases h
    refine ⟨⟨?_, List.all_eq_true.mp List.all_takeWhile⟩, List.takeWhile_append_dropWhile.symm⟩
    simpa using hne

theorem readIntegral_sound (h : readIntegral cs = some (ds, rest)) : Integral ds ∧ cs = ds ++ rest := by
  unfold readIntegral at h
  split at h
  · cases h
    exact ⟨.inl rfl, rfl⟩
  · rename_i hzero
    obtain ⟨hds, rfl⟩ := readDigits_sound h
    refine ⟨.inr ⟨hds, ?_⟩, rfl⟩
    intro hhead
    obtain ⟨ds, rfl⟩ := List.head?_eq_some_iff.mp hhead
    exact hzero _ rfl

theorem readFraction_sound (h : readFraction cs = some (ds, rest)) : Fraction ds ∧ cs = ds ++ rest := by
  unfold readFraction at h
  split at h
  · obtain ⟨digits, hdigits, rfl⟩ := of_map_cons h
    obtain ⟨hds, rfl⟩ := readDigits_sound hdigits
    exact ⟨.inr ⟨digits, hds, rfl⟩, rfl⟩
  · cases h
    exact ⟨.inl rfl, rfl⟩

theorem readSignedDigits_sound (h : readSignedDigits cs = some (ds, rest)) :
    ∃ sign digits, sign ∈ [[], ['+'], ['-']] ∧ Digits digits ∧ ds = sign ++ digits ∧ cs = ds ++ rest := by
  unfold readSignedDigits at h
  split at h
  · obtain ⟨digits, hdigits, rfl⟩ := of_map_cons h
    obtain ⟨hds, rfl⟩ := readDigits_sound hdigits
    exact ⟨['+'], digits, by simp, hds, rfl, rfl⟩
  · obtain ⟨digits, hdigits, rfl⟩ := of_map_cons h
    obtain ⟨hds, rfl⟩ := readDigits_sound hdigits
    exact ⟨['-'], digits, by simp, hds, rfl, rfl⟩
  · obtain ⟨hds, rfl⟩ := readDigits_sound h
    exact ⟨[], ds, by simp, hds, rfl, rfl⟩

theorem readExponent_sound (h : readExponent cs = some (ds, rest)) : Exponent ds ∧ cs = ds ++ rest := by
  unfold readExponent at h
  split at h
  · obtain ⟨tail, htail, rfl⟩ := of_map_cons h
    obtain ⟨sign, digits, hsign, hds, rfl, rfl⟩ := readSignedDigits_sound htail
    exact ⟨.inr ⟨'e', sign, digits, by simp, hsign, hds, rfl⟩, rfl⟩
  · obtain ⟨tail, htail, rfl⟩ := of_map_cons h
    obtain ⟨sign, digits, hsign, hds, rfl, rfl⟩ := readSignedDigits_sound htail
    exact ⟨.inr ⟨'E', sign, digits, by simp, hsign, hds, rfl⟩, rfl⟩
  · cases h
    exact ⟨.inl rfl, rfl⟩

theorem readUnsigned_sound {negative : Bool} {v : Json} (h : readUnsigned negative cs = some (v, rest)) :
    ∃ t, Spelled v (signed negative t) ∧ cs = t ++ rest := by
  unfold readUnsigned at h
  split at h
  · cases h
  rename_i integral _ hintegral
  obtain ⟨hi, rfl⟩ := readIntegral_sound hintegral
  split at h
  · cases h
  rename_i fraction _ hfraction
  obtain ⟨hf, rfl⟩ := readFraction_sound hfraction
  split at h
  · cases h
  rename_i exponent _ hexponent
  obtain ⟨he, rfl⟩ := readExponent_sound hexponent
  split at h
  · rename_i hempty
    cases h
    rw [Bool.and_eq_true, List.isEmpty_iff, List.isEmpty_iff] at hempty
    obtain ⟨rfl, rfl⟩ := hempty
    exact ⟨integral, .integer negative hi, rfl⟩
  · rename_i hproper
    cases h
    refine ⟨integral ++ fraction ++ exponent, .decimal negative hi hf he ?_, by simp⟩
    simpa using hproper

theorem readNumber_sound {v : Json} (h : readNumber cs = some (v, rest)) :
    ∃ t, Spelled v t ∧ cs = t ++ rest := by
  unfold readNumber at h
  split at h
  · obtain ⟨t, ht, rfl⟩ := readUnsigned_sound h
    exact ⟨'-' :: t, ht, rfl⟩
  · obtain ⟨t, ht, rfl⟩ := readUnsigned_sound h
    exact ⟨t, ht, rfl⟩

end

/-! ## Strings -/

theorem scanString_sound {cs rest : List Char} {units : List Nat}
    (h : scanString cs = some (units, rest)) : ∃ t, Units units t ∧ cs = t ++ '"' :: rest := by
  fun_induction scanString cs generalizing units rest with
  | case1 => cases h
  | case2 rest' =>
    cases h
    exact ⟨[], .nil, rfl⟩
  | case3 => cases h
  | case4 a b c d rest' unit hquad ih =>
    obtain ⟨units, hunits, rfl⟩ := of_map_cons h
    obtain ⟨t, ht, rfl⟩ := ih hunits
    exact ⟨_, .quad (hexQuad?_eq_some_iff.mp hquad) ht, rfl⟩
  | case5 => cases h
  | case6 k rest' hk c hescape ih =>
    obtain ⟨units, hunits, rfl⟩ := of_map_cons h
    obtain ⟨t, ht, rfl⟩ := ih hunits
    exact ⟨_, .simple (simpleEscape?_eq_some_iff.mp hescape) ht, rfl⟩
  | case7 => cases h
  | case8 c rest' hquote _ _ hplain ih =>
    obtain ⟨units, hunits, rfl⟩ := of_map_cons h
    obtain ⟨t, ht, rfl⟩ := ih hunits
    rw [Bool.or_eq_true, decide_eq_true_eq, decide_eq_true_eq, not_or] at hplain
    exact ⟨_, .plain c hquote hplain.1 (by omega) ht, rfl⟩

theorem readString_sound {cs rest : List Char} {content : Option String}
    (h : readString cs = some (content, rest)) :
    ∃ t, SpelledString content t ∧ '"' :: cs = t ++ rest := by
  obtain ⟨⟨units, rest⟩, hunits, heq⟩ := Option.map_eq_some_iff.mp h
  cases heq
  obtain ⟨t, ht, rfl⟩ := scanString_sound hunits
  refine ⟨'"' :: (t ++ ['"']), ?_, by simp⟩
  cases hjoin : joinUnits units with
  | none =>
    refine .broken ht fun cs hcs => ?_
    rw [(joinUnits_eq_some_iff ht.lt).mpr hcs] at hjoin
    cases hjoin
  | some cs =>
    refine .text ht ?_
    rw [String.toList_ofList]
    exact (joinUnits_eq_some_iff ht.lt).mp hjoin

/-! ## Values -/

/-- A reader skips blanks and takes a text that spells what it gives. -/
def Sound {α : Type} (Spells : α → List Char → Prop) (read : List Char → Option (α × List Char)) : Prop :=
  ∀ cs a rest, read cs = some (a, rest) → ∃ b t, Blanks b ∧ Spells a t ∧ cs = b ++ (t ++ rest)

theorem Blanks.append {b b' : List Char} (hb : Blanks b) (hb' : Blanks b') : Blanks (b ++ b') :=
  List.forall_mem_append.mpr ⟨hb, hb'⟩

theorem exists_blanks (cs : List Char) : ∃ b, Blanks b ∧ cs = b ++ skipBlanks cs :=
  ⟨cs.takeWhile isBlank, fun c hc => isBlank_iff.mp (List.all_eq_true.mp List.all_takeWhile c hc),
    List.takeWhile_append_dropWhile.symm⟩

section

variable {fuel : Nat}

theorem readElements_sound (hvalue : Sound Spelled (readValue fuel))
    (helements : Sound SpelledElements (readElements fuel)) :
    Sound SpelledElements (readElements (fuel + 1)) := by
  intro cs elements rest h
  rw [readElements] at h
  split at h
  · cases h
  rename_i v behind hv
  obtain ⟨b, t, hb, ht, rfl⟩ := hvalue _ _ _ hv
  obtain ⟨b₁, hb₁, hbehind⟩ := exists_blanks behind
  split at h
  · rename_i others hcomma
    obtain ⟨vs, hvs, rfl⟩ := of_map_cons h
    obtain ⟨b₂, u, hb₂, hu, rfl⟩ := helements _ _ _ hvs
    refine ⟨b, _, hb, .cons ht hb₁ hb₂ hu, ?_⟩
    rw [hbehind, hcomma]
    simp
  · rename_i hbracket
    cases h
    refine ⟨b, _, hb, .last ht hb₁, ?_⟩
    rw [hbehind, hbracket]
    simp
  · cases h

theorem readMembers_sound (hvalue : Sound Spelled (readValue fuel))
    (hmembers : Sound SpelledMembers (readMembers fuel)) :
    Sound SpelledMembers (readMembers (fuel + 1)) := by
  intro cs members rest h
  obtain ⟨b, hb, hcs⟩ := exists_blanks cs
  rw [readMembers] at h
  split at h
  · rename_i behind hquote
    split at h
    · cases h
    rename_i key afterKey hkey
    obtain ⟨k, hk, hkeyText⟩ := readString_sound hkey
    obtain ⟨b₁, hb₁, hafterKey⟩ := exists_blanks afterKey
    split at h
    · rename_i afterColon hcolon
      split at h
      · cases h
      rename_i v afterValue hv
      obtain ⟨b₂, t, hb₂, ht, rfl⟩ := hvalue _ _ _ hv
      obtain ⟨b₃, hb₃, hafterValue⟩ := exists_blanks afterValue
      split at h
      · rename_i others hcomma
        obtain ⟨ms, hms, rfl⟩ := of_map_cons h
        obtain ⟨b₄, u, hb₄, hu, rfl⟩ := hmembers _ _ _ hms
        refine ⟨b, _, hb, .cons hk hb₁ hb₂ ht hb₃ hb₄ hu, ?_⟩
        rw [hcs, hquote, hkeyText, hafterKey, hcolon, hafterValue, hcomma]
        simp
      · rename_i hbrace
        cases h
        refine ⟨b, _, hb, .last hk hb₁ hb₂ ht hb₃, ?_⟩
        rw [hcs, hquote, hkeyText, hafterKey, hcolon, hafterValue, hbrace]
        simp
      · cases h
    · cases h
  · cases h

theorem readValue_sound (helements : Sound SpelledElements (readElements fuel))
    (hmembers : Sound SpelledMembers (readMembers fuel)) : Sound Spelled (readValue (fuel + 1)) := by
  intro cs v rest h
  obtain ⟨b, hb, hcs⟩ := exists_blanks cs
  rw [readValue] at h
  split at h
  · rename_i behind hbrace
    obtain ⟨b₁, hb₁, hbehind⟩ := exists_blanks behind
    split at h
    · rename_i hclose
      cases h
      refine ⟨b, _, hb, .emptyObject hb₁, ?_⟩
      rw [hcs, hbrace, hbehind, hclose]
      simp
    · obtain ⟨⟨members, rest⟩, hread, heq⟩ := Option.map_eq_some_iff.mp h
      cases heq
      obtain ⟨b₂, t, hb₂, ht, hinner⟩ := hmembers _ _ _ hread
      refine ⟨b, _, hb, .object (hb₁.append hb₂) ht, ?_⟩
      rw [hcs, hbrace, hbehind, hinner]
      simp
  · rename_i behind hbracket
    obtain ⟨b₁, hb₁, hbehind⟩ := exists_blanks behind
    split at h
    · rename_i hclose
      cases h
      refine ⟨b, _, hb, .emptyArray hb₁, ?_⟩
      rw [hcs, hbracket, hbehind, hclose]
      simp
    · obtain ⟨⟨elements, rest⟩, hread, heq⟩ := Option.map_eq_some_iff.mp h
      cases heq
      obtain ⟨b₂, t, hb₂, ht, hinner⟩ := helements _ _ _ hread
      refine ⟨b, _, hb, .array (hb₁.append hb₂) ht, ?_⟩
      rw [hcs, hbracket, hbehind, hinner]
      simp
  · rename_i behind hquote
    obtain ⟨⟨content, rest⟩, hread, heq⟩ := Option.map_eq_some_iff.mp h
    cases heq
    obtain ⟨t, ht, htext⟩ := readString_sound hread
    exact ⟨b, t, hb, .string ht, by rw [hcs, hquote, htext]⟩
  · rename_i hnull
    cases h
    exact ⟨b, _, hb, .null, by rw [hcs, hnull]; rfl⟩
  · rename_i htrue
    cases h
    exact ⟨b, _, hb, .yes, by rw [hcs, htrue]; rfl⟩
  · rename_i hfalse
    cases h
    exact ⟨b, _, hb, .no, by rw [hcs, hfalse]; rfl⟩
  · obtain ⟨t, ht, htext⟩ := readNumber_sound h
    exact ⟨b, t, hb, ht, by rw [← htext, ← hcs]⟩

/-- **The readers keep to the grammar**, whatever their fuel. -/
theorem sound (fuel : Nat) : Sound Spelled (readValue fuel) ∧
    Sound SpelledElements (readElements fuel) ∧ Sound SpelledMembers (readMembers fuel) := by
  induction fuel with
  | zero =>
    refine ⟨?_, ?_, ?_⟩
    · intro cs v rest h
      rw [readValue] at h
      cases h
    · intro cs elements rest h
      rw [readElements] at h
      cases h
    · intro cs members rest h
      rw [readMembers] at h
      cases h
  | succ fuel ih =>
    obtain ⟨hvalue, helements, hmembers⟩ := ih
    exact ⟨readValue_sound helements hmembers, readElements_sound hvalue helements,
      readMembers_sound hvalue hmembers⟩

end

/-- **A text is read just if it spells a value**, and as that value. -/
theorem parse_eq_some_iff {text : String} {v : Json} : parse text = some v ↔ SpelledText v text := by
  refine ⟨?_, parse_spelled⟩
  intro h
  rw [parse] at h
  split at h
  · rename_i w rest hread
    split at h
    · rename_i hempty
      cases h
      obtain ⟨b, t, hb, ht, htext⟩ := (sound _).1 _ _ _ hread
      obtain ⟨b', hb', hrest⟩ := exists_blanks rest
      rw [List.isEmpty_iff.mp hempty, List.append_nil] at hrest
      have hspelled := SpelledText.mk hb ht hb'
      rwa [← hrest, ← htext, String.ofList_toList] at hspelled
    · cases h
  · cases h

/-! ## Deciding -/

mutual

/-- Two values are the same. -/
def same : Json → Json → Bool
  | .null, .null => true
  | .bool b, .bool b' => b == b'
  | .integer negative n, .integer negative' n' => negative == negative' && n == n'
  | .decimal literal, .decimal literal' => literal == literal'
  | .string content, .string content' => content == content'
  | .array elements, .array elements' => sameElements elements elements'
  | .object members, .object members' => sameMembers members members'
  | _, _ => false

/-- Two arrays have the same elements. -/
def sameElements : List Json → List Json → Bool
  | [], [] => true
  | v :: vs, w :: ws => same v w && sameElements vs ws
  | _, _ => false

/-- Two objects have the same members. -/
def sameMembers : List (Option String × Json) → List (Option String × Json) → Bool
  | [], [] => true
  | (key, v) :: ms, (key', w) :: ms' => key == key' && same v w && sameMembers ms ms'
  | _, _ => false

end

mutual

theorem same_iff : ∀ v w : Json, same v w = true ↔ v = w
  | .null, w => by cases w <;> simp [same]
  | .bool _, w => by cases w <;> simp [same]
  | .integer _ _, w => by cases w <;> simp [same]
  | .decimal _, w => by cases w <;> simp [same]
  | .string _, w => by cases w <;> simp [same]
  | .array elements, w => by cases w <;> simp [same, sameElements_iff elements]
  | .object members, w => by cases w <;> simp [same, sameMembers_iff members]

theorem sameElements_iff : ∀ vs ws : List Json, sameElements vs ws = true ↔ vs = ws
  | [], ws => by cases ws <;> simp [sameElements]
  | v :: vs, ws => by cases ws <;> simp [sameElements, same_iff v, sameElements_iff vs]

theorem sameMembers_iff : ∀ ms ms' : List (Option String × Json), sameMembers ms ms' = true ↔ ms = ms'
  | [], ms' => by cases ms' <;> simp [sameMembers]
  | (key, v) :: ms, ms' => by
    cases ms' with
    | nil => simp [sameMembers]
    | cons m ms' => simp [sameMembers, same_iff v, sameMembers_iff ms, Prod.ext_iff, and_assoc]

end

instance : DecidableEq Json := fun v w => decidable_of_iff (same v w = true) (same_iff v w)

/-- Whether a text spells a value is found out by reading it. -/
instance (v : Json) (text : String) : Decidable (SpelledText v text) :=
  decidable_of_iff (parse text = some v) parse_eq_some_iff

end PistonGrid.Json
