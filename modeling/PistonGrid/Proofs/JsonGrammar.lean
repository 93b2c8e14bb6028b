import PistonGrid.Json.Reader
import PistonGrid.Proofs.DigitRuns

/-!
# The grammar of JSON texts

Which texts spell which values, said without reference to a reader: any blanks between the parts, any
choice of escapes, any number of members.  The reader reads all of them, however deep they are nested.

* `Blanks`, `Integral`, `Fraction`, `Exponent` — the small parts of a text.
* `Units` — the code units that a string writes, by the table of `escapes` and by `HexQuad`; `Denotes` —
  the text that code units stand for, with the two halves of each surrogate pair side by side.
  `joinUnits_eq_some_iff` — the reader joins them to that text, and to nothing if there is none.
* `Spelled` — a text spells a value, with `SpelledElements` and `SpelledMembers` for what stands between
  the brackets of arrays and objects.
* `readValue_spelled` — the reader finds the value at the head of a text and stops behind it.
  `parse_spelled` — it reads every text that spells a value.
* `Faithful` — the compact text of a value spells it.  `parse_compact` — then it is read back.
-/

set_option autoImplicit false

namespace PistonGrid.Json

/-! ## The grammar -/

/-- A stretch of blanks, possibly empty. -/
def Blanks (b : List Char) : Prop := ∀ c ∈ b, c ∈ [' ', '\t', '\n', '\r']

/-- One or more digits. -/
def Digits (ds : List Char) : Prop := ds ≠ [] ∧ ∀ c ∈ ds, c.isDigit = true

/-- The integral part of a number: no superfluous zeros. -/
def Integral (ds : List Char) : Prop := ds = ['0'] ∨ (Digits ds ∧ ds.head? ≠ some '0')

/-- The fraction of a number with its point, or nothing. -/
def Fraction (fs : List Char) : Prop := fs = [] ∨ ∃ ds, Digits ds ∧ fs = '.' :: ds

/-- The exponent of a number with its mark and an optional sign, or nothing. -/
def Exponent (es : List Char) : Prop :=
  es = [] ∨ ∃ mark sign ds, mark ∈ ['e', 'E'] ∧ sign ∈ [[], ['+'], ['-']] ∧ Digits ds ∧
    es = mark :: (sign ++ ds)

/-- A number with its sign. -/
def signed (negative : Bool) (t : List Char) : List Char := if negative then '-' :: t else t

/-- The one-letter escapes, each with the character that it stands for. -/
def escapes : List (Char × Char) :=
  [('"', '"'), ('\\', '\\'), ('/', '/'), ('b', Char.ofNat 8), ('f', Char.ofNat 12), ('n', '\n'),
    ('r', '\r'), ('t', '\t')]

/-- Four hexadecimal digits, in either case, write a number. -/
def HexQuad (a b c d : Char) (n : Nat) : Prop :=
  ∃ p q r s, Numeral.HexDigit a p ∧ Numeral.HexDigit b q ∧ Numeral.HexDigit c r ∧
    Numeral.HexDigit d s ∧ n = p * 16 ^ 3 + q * 16 ^ 2 + r * 16 + s

/-- The code units of a string and a way to write them between quotes: each of them as it is, by a
one-letter escape, or by four hexadecimal digits. -/
inductive Units : List Nat → List Char → Prop where
  | nil : Units [] []
  | plain {units : List Nat} {t : List Char} (c : Char) (quote : c ≠ '"') (backslash : c ≠ '\\')
      (printable : 32 ≤ c.toNat) (rest : Units units t) : Units (c.toNat :: units) (c :: t)
  | simple {units : List Nat} {t : List Char} {k c : Char} (escape : (k, c) ∈ escapes)
      (rest : Units units t) : Units (c.toNat :: units) ('\\' :: k :: t)
  | quad {units : List Nat} {t : List Char} {a b c d : Char} {unit : Nat}
      (escape : HexQuad a b c d unit) (rest : Units units t) :
      Units (unit :: units) ('\\' :: 'u' :: a :: b :: c :: d :: t)

/-- The code unit for the upper ten bits of a character beyond the first `2 ^ 16`. -/
def highHalf (c : Char) : Nat := 0xD800 + (c.toNat - 0x10000) / 0x400

/-- The code unit for the lower ten bits of such a character. -/
def lowHalf (c : Char) : Nat := 0xDC00 + (c.toNat - 0x10000) % 0x400

/-- The text that code units stand for: each of them is the code point of a character, but two that are
the halves of a character stand for it together. -/
inductive Denotes : List Nat → List Char → Prop where
  | nil : Denotes [] []
  | single {units : List Nat} {cs : List Char} (c : Char) (rest : Denotes units cs) :
      Denotes (c.toNat :: units) (c :: cs)
  | pair {units : List Nat} {cs : List Char} (c : Char) (beyond : 0x10000 ≤ c.toNat)
      (rest : Denotes units cs) :
      Denotes (highHalf c :: lowHalf c :: units) (c :: cs)

/-- A string in its quotes, with the text that it stands for; there may be none. -/
inductive SpelledString : Option String → List Char → Prop where
  | text {units : List Nat} {t : List Char} {s : String} (h : Units units t)
      (meaning : Denotes units s.toList) : SpelledString (some s) ('"' :: (t ++ ['"']))
  | broken {units : List Nat} {t : List Char} (h : Units units t)
      (meaningless : ∀ cs, ¬Denotes units cs) : SpelledString none ('"' :: (t ++ ['"']))

mutual

/-- A text spells a value; neither begins nor ends with blanks. -/
inductive Spelled : Json → List Char → Prop where
  | null : Spelled .null ['n', 'u', 'l', 'l']
  | yes : Spelled (.bool true) ['t', 'r', 'u', 'e']
  | no : Spelled (.bool false) ['f', 'a', 'l', 's', 'e']
  | integer (negative : Bool) {ds : List Char} (integral : Integral ds) :
      Spelled (.integer negative (Nat.ofDigitChars 10 ds 0)) (signed negative ds)
  | decimal (negative : Bool) {ds fs es : List Char} (integral : Integral ds)
      (fraction : Fraction fs) (exponent : Exponent es) (proper : fs ++ es ≠ []) :
      Spelled (.decimal (signed negative (ds ++ fs ++ es))) (signed negative (ds ++ fs ++ es))
  | string {content : Option String} {t : List Char} (h : SpelledString content t) :
      Spelled (.string content) t
  | emptyArray {b : List Char} (hb : Blanks b) : Spelled (.array []) ('[' :: (b ++ [']']))
  | array {b t : List Char} {elements : List Json} (hb : Blanks b)
      (h : SpelledElements elements t) : Spelled (.array elements) ('[' :: (b ++ t))
  | emptyObject {b : List Char} (hb : Blanks b) : Spelled (.object []) ('{' :: (b ++ ['}']))
  | object {b t : List Char} {members : List (Option String × Json)} (hb : Blanks b)
      (h : SpelledMembers members t) : Spelled (.object members) ('{' :: (b ++ t))

/-- One or more elements of an array, from the first of them up to the closing bracket. -/
inductive SpelledElements : List Json → List Char → Prop where
  | last {v : Json} {t b : List Char} (h : Spelled v t) (hb : Blanks b) :
      SpelledElements [v] (t ++ (b ++ [']']))
  | cons {v : Json} {t b b' u : List Char} {elements : List Json} (h : Spelled v t) (hb : Blanks b)
      (hb' : Blanks b') (rest : SpelledElements elements u) :
      SpelledElements (v :: elements) (t ++ (b ++ ',' :: (b' ++ u)))

/-- One or more members of an object, from the first key up to the closing brace. -/
inductive SpelledMembers : List (Option String × Json) → List Char → Prop where
  | last {key : Option String} {v : Json} {k b₁ b₂ t b₃ : List Char} (hk : SpelledString key k)
      (hb₁ : Blanks b₁) (hb₂ : Blanks b₂) (h : Spelled v t) (hb₃ : Blanks b₃) :
      SpelledMembers [(key, v)] (k ++ (b₁ ++ ':' :: (b₂ ++ (t ++ (b₃ ++ ['}'])))))
  | cons {key : Option String} {v : Json} {k b₁ b₂ t b₃ b₄ u : List Char}
      {members : List (Option String × Json)} (hk : SpelledString key k) (hb₁ : Blanks b₁)
      (hb₂ : Blanks b₂) (h : Spelled v t) (hb₃ : Blanks b₃) (hb₄ : Blanks b₄)
      (rest : SpelledMembers members u) :
      SpelledMembers ((key, v) :: members)
        (k ++ (b₁ ++ ':' :: (b₂ ++ (t ++ (b₃ ++ ',' :: (b₄ ++ u))))))

end

/-- A text that holds a value and nothing else but blanks. -/
inductive SpelledText : Json → String → Prop where
  | mk {v : Json} {b t b' : List Char} (hb : Blanks b) (h : Spelled v t) (hb' : Blanks b') :
      SpelledText v (String.ofList (b ++ (t ++ b')))

/-! ## Blanks -/

theorem Blanks.nil : Blanks [] := by simp [Blanks]

theorem isBlank_iff {c : Char} : isBlank c = true ↔ c ∈ [' ', '\t', '\n', '\r'] := by
  simp [isBlank, or_assoc]

theorem skipBlanks_append {b : List Char} (hb : Blanks b) (t : List Char) :
    skipBlanks (b ++ t) = skipBlanks t :=
  List.dropWhile_append_of_pos fun c hc => isBlank_iff.mpr (hb c hc)

theorem skipBlanks_cons {c : Char} (hc : isBlank c = false) (t : List Char) :
    skipBlanks (c :: t) = c :: t := by
  simp [skipBlanks, hc]

theorem skipBlanks_blanks {b : List Char} (hb : Blanks b) : skipBlanks b = [] := by
  simpa [skipBlanks] using skipBlanks_append hb []

/-! ## Numbers -/

/-- The text behind a number does not prolong it. -/
def Ends (rest : List Char) : Prop :=
  ∀ c ∈ rest.head?, c.isDigit = false ∧ c ≠ '.' ∧ c ≠ 'e' ∧ c ≠ 'E'

theorem ends_cons {c : Char} (h : c.isDigit = false ∧ c ≠ '.' ∧ c ≠ 'e' ∧ c ≠ 'E') (t : List Char) :
    Ends (c :: t) := by
  simpa [Ends] using h

theorem isBlank_ends {c : Char} (h : isBlank c = true) :
    c.isDigit = false ∧ c ≠ '.' ∧ c ≠ 'e' ∧ c ≠ 'E' := by
  simp only [isBlank, Bool.or_eq_true, decide_eq_true_eq] at h
  rcases h with ((rfl | rfl) | rfl) | rfl <;> decide

/-- Blanks prolong no number, so what counts is what stands behind them. -/
theorem ends_append {b t : List Char} (hb : Blanks b) (ht : Ends t) : Ends (b ++ t) := by
  cases b with
  | nil => exact ht
  | cons c b => exact ends_cons (isBlank_ends (isBlank_iff.mpr (hb c List.mem_cons_self))) _

theorem readDigits_append {ds rest : List Char} (h : Digits ds)
    (hrest : ∀ c ∈ rest.head?, c.isDigit = false) : readDigits (ds ++ rest) = some (ds, rest) := by
  have hstop : rest.takeWhile Char.isDigit = [] ∧ rest.dropWhile Char.isDigit = rest := by
    cases rest with
    | nil => exact ⟨rfl, rfl⟩
    | cons c rest => simp [hrest c rfl]
  simp [readDigits, List.takeWhile_append_of_pos h.2, List.dropWhile_append_of_pos h.2, hstop, h.1]

theorem readIntegral_append {ds rest : List Char} (h : Integral ds)
    (hrest : ∀ c ∈ rest.head?, c.isDigit = false) : readIntegral (ds ++ rest) = some (ds, rest) := by
  rcases h with rfl | ⟨hds, hhead⟩
  · rfl
  · obtain ⟨c, ds, rfl⟩ := List.exists_cons_of_ne_nil hds.1
    have hc : c ≠ '0' := by simpa using hhead
    rw [← readDigits_append hds hrest]
    unfold readIntegral
    split
    · rename_i heq
      cases heq
      exact absurd rfl hc
    · rfl

theorem readFraction_append {fs rest : List Char} (h : Fraction fs)
    (hrest : ∀ c ∈ rest.head?, c.isDigit = false ∧ c ≠ '.') :
    readFraction (fs ++ rest) = some (fs, rest) := by
  rcases h with rfl | ⟨ds, hds, rfl⟩
  · unfold readFraction
    split
    · rename_i heq
      rw [List.nil_append] at heq
      exact absurd rfl (hrest '.' (by simp [heq])).2
    · rfl
  · rw [List.cons_append, readFraction, readDigits_append hds fun c hc => (hrest c hc).1]
    rfl

theorem readSignedDigits_append {sign ds rest : List Char} (hsign : sign ∈ [[], ['+'], ['-']])
    (hds : Digits ds) (hrest : ∀ c ∈ rest.head?, c.isDigit = false) :
    readSignedDigits (sign ++ ds ++ rest) = some (sign ++ ds, rest) := by
  have hread := readDigits_append hds hrest
  simp only [List.mem_cons, List.not_mem_nil, or_false] at hsign
  rcases hsign with rfl | rfl | rfl
  · obtain ⟨c, ds, rfl⟩ := List.exists_cons_of_ne_nil hds.1
    have hc := hds.2 c List.mem_cons_self
    rw [List.nil_append, ← hread]
    unfold readSignedDigits
    split
    · rename_i heq
      cases heq
      exact absurd hc (by decide)
    · rename_i heq
      cases heq
      exact absurd hc (by decide)
    · rfl
  · simp [readSignedDigits, hread]
  · simp [readSignedDigits, hread]

theorem readExponent_append {es rest : List Char} (h : Exponent es) (hrest : Ends rest) :
    readExponent (es ++ rest) = some (es, rest) := by
  rcases h with rfl | ⟨mark, sign, ds, hmark, hsign, hds, rfl⟩
  · unfold readExponent
    split
    · rename_i heq
      rw [List.nil_append] at heq
      exact absurd rfl (hrest 'e' (by simp [heq])).2.2.1
    · rename_i heq
      rw [List.nil_append] at heq
      exact absurd rfl (hrest 'E' (by simp [heq])).2.2.2
    · rfl
  · have hread := readSignedDigits_append hsign hds fun c hc => (hrest c hc).1
    simp only [List.mem_cons, List.not_mem_nil, or_false] at hmark
    rcases hmark with rfl | rfl
    · rw [List.cons_append, readExponent, hread]
      rfl
    · rw [List.cons_append, readExponent, hread]
      rfl

/-- No part of a number can be taken for the beginning of the part in front of it. -/
theorem fraction_head {fs t : List Char} (h : Fraction fs) (ht : ∀ c ∈ t.head?, c.isDigit = false) :
    ∀ c ∈ (fs ++ t).head?, c.isDigit = false := by
  rcases h with rfl | ⟨ds, _, rfl⟩
  · exact ht
  · intro c hc
    cases hc
    decide

theorem exponent_head {es t : List Char} (h : Exponent es)
    (ht : ∀ c ∈ t.head?, c.isDigit = false ∧ c ≠ '.') :
    ∀ c ∈ (es ++ t).head?, c.isDigit = false ∧ c ≠ '.' := by
  rcases h with rfl | ⟨mark, sign, ds, hmark, _, _, rfl⟩
  · exact ht
  · intro c hc
    cases hc
    simp only [List.mem_cons, List.not_mem_nil, or_false] at hmark
    rcases hmark with rfl | rfl <;> decide

theorem readUnsigned_append (negative : Bool) {ds fs es rest : List Char} (hd : Integral ds)
    (hf : Fraction fs) (he : Exponent es) (hrest : Ends rest) :
    readUnsigned negative (ds ++ (fs ++ (es ++ rest))) =
      if fs.isEmpty && es.isEmpty then
        some (.integer negative (Nat.ofDigitChars 10 ds 0), rest)
      else some (.decimal (signed negative (ds ++ fs ++ es)), rest) := by
  have hexp := exponent_head he fun c hc => ⟨(hrest c hc).1, (hrest c hc).2.1⟩
  have hfrac := fraction_head hf fun c hc => (hexp c hc).1
  simp only [readUnsigned, readIntegral_append hd hfrac, readFraction_append hf hexp,
    readExponent_append he hrest, signed]

/-- A number begins with its sign or with a digit. -/
theorem signed_cons (negative : Bool) {ds : List Char} (hd : Integral ds) (t : List Char) :
    ∃ c u, signed negative (ds ++ t) = c :: u ∧ (c = '-' ∨ c.isDigit = true) := by
  cases negative with
  | true => exact ⟨'-', ds ++ t, rfl, .inl rfl⟩
  | false =>
    rcases hd with rfl | ⟨hds, _⟩
    · exact ⟨'0', t, rfl, .inr (by decide)⟩
    · obtain ⟨c, u, rfl⟩ := List.exists_cons_of_ne_nil hds.1
      exact ⟨c, u ++ t, rfl, .inr (hds.2 c List.mem_cons_self)⟩

theorem not_blank_of_number {c : Char} (hc : c = '-' ∨ c.isDigit = true) : isBlank c = false := by
  rw [Bool.eq_false_iff]
  intro hblank
  rcases hc with rfl | hc
  · exact absurd hblank (by decide)
  · rw [(isBlank_ends hblank).1] at hc
    cases hc

theorem signed_append (negative : Bool) (t u : List Char) :
    signed negative t ++ u = signed negative (t ++ u) := by
  cases negative <;> rfl

theorem readNumber_signed (negative : Bool) {ds : List Char} (hd : Integral ds) (t : List Char) :
    readNumber (signed negative (ds ++ t)) = readUnsigned negative (ds ++ t) := by
  cases negative with
  | true => rfl
  | false =>
    have hminus : ∀ u, ds ++ t ≠ '-' :: u := by
      intro u heq
      rcases hd with rfl | ⟨⟨hne, hds⟩, _⟩
      · cases heq
      · obtain ⟨c, ds, rfl⟩ := List.exists_cons_of_ne_nil hne
        cases heq
        exact absurd (hds '-' List.mem_cons_self) (by decide)
    rw [signed, if_neg (by decide), readNumber]
    exact hminus

/-! ## Strings -/

theorem scanString_plain {c : Char} (quote : c ≠ '"') (backslash : c ≠ '\\')
    (printable : 32 ≤ c.toNat) (t : List Char) :
    scanString (c :: t) = (scanString t).map fun (units, rest) => (c.toNat :: units, rest) := by
  have hlow : ¬ c.toNat < 32 := by omega
  rw [scanString]
  · simp [backslash, hlow]
  · exact quote
  · intro _ _ _ _ _ hc _
    exact backslash hc
  · intro _ _ hc _
    exact backslash hc

theorem simpleEscape?_eq_some_iff {k c : Char} : simpleEscape? k = some c ↔ (k, c) ∈ escapes := by
  constructor
  · intro h
    unfold simpleEscape? at h
    split_ifs at h <;> cases h <;> simp_all [escapes]
  · intro h
    simp only [escapes, List.mem_cons, Prod.mk.injEq, List.not_mem_nil, or_false] at h
    rcases h with ⟨rfl, rfl⟩ | ⟨rfl, rfl⟩ | ⟨rfl, rfl⟩ | ⟨rfl, rfl⟩ | ⟨rfl, rfl⟩ | ⟨rfl, rfl⟩ |
      ⟨rfl, rfl⟩ | ⟨rfl, rfl⟩ <;> rfl

theorem hexQuad?_eq_some_iff {a b c d : Char} {n : Nat} :
    hexQuad? a b c d = some n ↔ HexQuad a b c d n := by
  simp only [HexQuad, ← Numeral.hexValue?_eq_some_iff, hexQuad?]
  constructor
  · intro h
    split at h
    · rename_i p q r s hp hq hr hs
      cases h
      exact ⟨p, q, r, s, hp, hq, hr, hs, by omega⟩
    · cases h
  · rintro ⟨p, q, r, s, hp, hq, hr, hs, rfl⟩
    simp only [hp, hq, hr, hs, Option.some.injEq]
    omega

theorem scanString_simple {k c : Char} (escape : simpleEscape? k = some c) (t : List Char) :
    scanString ('\\' :: k :: t) =
      (scanString t).map fun (units, rest) => (c.toNat :: units, rest) := by
  rw [scanString]
  · simp [escape]
  · rintro _ _ _ _ _ rfl _
    exact absurd escape (by simp [simpleEscape?])

theorem scanString_units {units : List Nat} {t : List Char} (h : Units units t) (rest : List Char) :
    scanString (t ++ '"' :: rest) = some (units, rest) := by
  induction h with
  | nil => rfl
  | plain c quote backslash printable _ ih =>
    rw [List.cons_append, scanString_plain quote backslash printable, ih]
    rfl
  | simple escape _ ih =>
    rw [List.cons_append, List.cons_append, scanString_simple (simpleEscape?_eq_some_iff.mpr escape), ih]
    rfl
  | quad escape _ ih => simp [scanString, hexQuad?_eq_some_iff.mpr escape, ih]

theorem toNat_cases (c : Char) : c.toNat < 0xD800 ∨ (0xDFFF < c.toNat ∧ c.toNat < 0x110000) := c.valid

/-- Code units are no larger than code points. -/
theorem Units.lt {units : List Nat} {t : List Char} (h : Units units t) : ∀ u ∈ units, u < 0x110000 := by
  have hchar : ∀ c : Char, c.toNat < 0x110000 := fun c => by
    have hvalid := toNat_cases c
    omega
  induction h with
  | nil => nofun
  | plain c _ _ _ _ ih => exact List.forall_mem_cons.mpr ⟨hchar c, ih⟩
  | simple _ _ ih => exact List.forall_mem_cons.mpr ⟨hchar _, ih⟩
  | quad escape _ ih =>
    obtain ⟨p, q, r, s, ⟨hp, _⟩, ⟨hq, _⟩, ⟨hr, _⟩, ⟨hs, _⟩, rfl⟩ := escape
    exact List.forall_mem_cons.mpr ⟨by omega, ih⟩

theorem isHighHalf_iff {u : Nat} : isHighHalf u = true ↔ 0xD800 ≤ u ∧ u < 0xDC00 := by
  simp [isHighHalf]

theorem isLowHalf_iff {u : Nat} : isLowHalf u = true ↔ 0xDC00 ≤ u ∧ u < 0xE000 := by
  simp [isLowHalf]

/-- A character is never half of a surrogate pair. -/
theorem not_half (c : Char) : isHighHalf c.toNat = false ∧ isLowHalf c.toNat = false := by
  have hvalid := toNat_cases c
  rw [← Bool.not_eq_true, ← Bool.not_eq_true, isHighHalf_iff, isLowHalf_iff]
  omega

theorem joinUnits_single (c : Char) (units : List Nat) :
    joinUnits (c.toNat :: units) = (joinUnits units).map (c :: ·) := by
  obtain ⟨hhigh, hlow⟩ := not_half c
  cases units with
  | nil => simp [joinUnits, hhigh, hlow]
  | cons u units => simp [joinUnits, hhigh, hlow]

theorem joinUnits_pair {c : Char} (beyond : 0x10000 ≤ c.toNat) (units : List Nat) :
    joinUnits (highHalf c :: lowHalf c :: units) = (joinUnits units).map (c :: ·) := by
  have hvalid := toNat_cases c
  have hhigh : isHighHalf (highHalf c) = true := isHighHalf_iff.mpr (by unfold highHalf; omega)
  have hlow : isLowHalf (lowHalf c) = true := isLowHalf_iff.mpr (by unfold lowHalf; omega)
  have hjoin : joinHalves (highHalf c) (lowHalf c) = c := by
    have hnat : 0x10000 + (highHalf c - 0xD800) * 0x400 + (lowHalf c - 0xDC00) = c.toNat := by
      unfold highHalf lowHalf
      omega
    rw [joinHalves, hnat, Char.ofNat_toNat]
  simp [joinUnits, hhigh, hlow, hjoin]

/-- A number that is no half of a pair, and not too large, is the code point of a character. -/
theorem toNat_ofNat_unit {u : Nat} (hlt : u < 0x110000) (hhigh : ¬isHighHalf u = true)
    (hlow : ¬isLowHalf u = true) : (Char.ofNat u).toNat = u := by
  rw [isHighHalf_iff] at hhigh
  rw [isLowHalf_iff] at hlow
  have hvalid : u.isValidChar := by
    unfold Nat.isValidChar
    omega
  rw [Char.ofNat, dif_pos hvalid]
  rfl

/-- Two halves are those of the character that they make up. -/
theorem joinHalves_halves {high low : Nat} (hhigh : isHighHalf high = true) (hlow : isLowHalf low = true) :
    0x10000 ≤ (joinHalves high low).toNat ∧ highHalf (joinHalves high low) = high ∧
      lowHalf (joinHalves high low) = low := by
  rw [isHighHalf_iff] at hhigh
  rw [isLowHalf_iff] at hlow
  have hnat : (joinHalves high low).toNat = 0x10000 + (high - 0xD800) * 0x400 + (low - 0xDC00) := by
    refine toNat_ofNat_unit (by omega) ?_ ?_
    · rw [isHighHalf_iff]
      omega
    · rw [isLowHalf_iff]
      omega
  unfold highHalf lowHalf
  omega

/-- **The reader joins code units to the text that they stand for.** -/
theorem joinUnits_eq_some_iff {units : List Nat} (hlt : ∀ u ∈ units, u < 0x110000) {cs : List Char} :
    joinUnits units = some cs ↔ Denotes units cs := by
  constructor
  · intro h
    fun_induction joinUnits units generalizing cs with
    | case1 =>
      cases h
      exact .nil
    | case2 => cases h
    | case3 unit hhalf =>
      cases h
      rw [Bool.or_eq_true, not_or] at hhalf
      have hsingle := Denotes.single (Char.ofNat unit) .nil
      rwa [toNat_ofNat_unit (hlt unit List.mem_cons_self) hhalf.1 hhalf.2] at hsingle
    | case4 unit next rest hhigh hlow ih =>
      obtain ⟨cs, hcs, rfl⟩ := Option.map_eq_some_iff.mp h
      obtain ⟨beyond, hunit, hnext⟩ := joinHalves_halves hhigh hlow
      have hpair := Denotes.pair (joinHalves unit next) beyond
        (ih (fun u hu => hlt u (List.mem_cons_of_mem _ (List.mem_cons_of_mem _ hu))) hcs)
      rwa [hunit, hnext] at hpair
    | case5 => cases h
    | case6 => cases h
    | case7 unit next rest hhigh hlow ih =>
      obtain ⟨hunit, hothers⟩ := List.forall_mem_cons.mp hlt
      obtain ⟨cs, hcs, rfl⟩ := Option.map_eq_some_iff.mp h
      have hsingle := Denotes.single (Char.ofNat unit) (ih hothers hcs)
      rwa [toNat_ofNat_unit hunit hhigh hlow] at hsingle
  · intro h
    induction h with
    | nil => rfl
    | single c _ ih =>
      rw [joinUnits_single, ih (List.forall_mem_cons.mp hlt).2]
      rfl
    | pair c beyond _ ih =>
      rw [joinUnits_pair beyond, ih fun u hu => hlt u (List.mem_cons_of_mem _ (List.mem_cons_of_mem _ hu))]
      rfl

/-- A string is its opening quote and what the reader makes of the rest. -/
theorem SpelledString.read {content : Option String} {t : List Char} (h : SpelledString content t) :
    ∃ u, t = '"' :: u ∧ ∀ rest, readString (u ++ rest) = some (content, rest) := by
  cases h with
  | @text units u s h meaning =>
    refine ⟨u ++ ['"'], rfl, fun rest => ?_⟩
    rw [List.append_assoc, readString, List.singleton_append, scanString_units h]
    simp [(joinUnits_eq_some_iff h.lt).mpr meaning]
  | @broken units u h meaningless =>
    refine ⟨u ++ ['"'], rfl, fun rest => ?_⟩
    have hnone : joinUnits units = none := Option.eq_none_iff_forall_ne_some.mpr fun cs hcs =>
      meaningless cs ((joinUnits_eq_some_iff h.lt).mp hcs)
    rw [List.append_assoc, readString, List.singleton_append, scanString_units h]
    simp [hnone]

/-! ## Values -/

theorem readValue_blanks {b : List Char} (hb : Blanks b) (fuel : Nat) (t : List Char) :
    readValue fuel (b ++ t) = readValue fuel t := by
  cases fuel with
  | zero => rfl
  | succ fuel => rw [readValue, readValue, skipBlanks_append hb]

theorem readElements_blanks {b : List Char} (hb : Blanks b) (fuel : Nat) (t : List Char) :
    readElements fuel (b ++ t) = readElements fuel t := by
  cases fuel with
  | zero => rfl
  | succ fuel => rw [readElements, readElements, readValue_blanks hb]

theorem readMembers_blanks {b : List Char} (hb : Blanks b) (fuel : Nat) (t : List Char) :
    readMembers fuel (b ++ t) = readMembers fuel t := by
  cases fuel with
  | zero => rfl
  | succ fuel => rw [readMembers, readMembers, skipBlanks_append hb]

/-- Only numbers begin with a sign or a digit. -/
theorem readValue_number {c : Char} (hc : c = '-' ∨ c.isDigit = true) (fuel : Nat) (t : List Char) :
    readValue (fuel + 1) (c :: t) = readNumber (c :: t) := by
  rw [readValue, skipBlanks_cons (not_blank_of_number hc)]
  split
  all_goals try (rename_i heq; cases heq; exact absurd hc (by decide))
  rfl

theorem readValue_signed (negative : Bool) {ds : List Char} (hd : Integral ds) (fuel : Nat)
    (t : List Char) :
    readValue (fuel + 1) (signed negative (ds ++ t)) = readUnsigned negative (ds ++ t) := by
  rw [← readNumber_signed negative hd]
  obtain ⟨c, u, heq, hc⟩ := signed_cons negative hd t
  rw [heq]
  exact readValue_number hc fuel u

/-- A value begins neither with a blank nor like the end of an array. -/
theorem Spelled.head {v : Json} {t : List Char} (h : Spelled v t) :
    ∃ c u, t = c :: u ∧ isBlank c = false ∧ c ≠ ']' := by
  have hnumber : ∀ {c : Char}, c = '-' ∨ c.isDigit = true → isBlank c = false ∧ c ≠ ']' := by
    refine fun hc => ⟨not_blank_of_number hc, ?_⟩
    rintro rfl
    exact absurd hc (by decide)
  cases h with
  | null => exact ⟨_, _, rfl, by decide, by decide⟩
  | yes => exact ⟨_, _, rfl, by decide, by decide⟩
  | no => exact ⟨_, _, rfl, by decide, by decide⟩
  | integer negative hd =>
    obtain ⟨c, u, heq, hc⟩ := signed_cons negative hd []
    rw [List.append_nil] at heq
    exact ⟨c, u, heq, hnumber hc⟩
  | decimal negative hd hf he =>
    obtain ⟨c, u, heq, hc⟩ := signed_cons negative hd _
    rw [← List.append_assoc] at heq
    exact ⟨c, u, heq, hnumber hc⟩
  | string h =>
    obtain ⟨u, rfl, _⟩ := h.read
    exact ⟨_, _, rfl, by decide, by decide⟩
  | emptyArray hb => exact ⟨_, _, rfl, by decide, by decide⟩
  | array hb h => exact ⟨_, _, rfl, by decide, by decide⟩
  | emptyObject hb => exact ⟨_, _, rfl, by decide, by decide⟩
  | object hb h => exact ⟨_, _, rfl, by decide, by decide⟩

theorem SpelledElements.head {elements : List Json} {t : List Char} (h : SpelledElements elements t) :
    ∃ c u, t = c :: u ∧ isBlank c = false ∧ c ≠ ']' := by
  cases h with
  | last h hb =>
    obtain ⟨c, u, rfl, hc⟩ := h.head
    exact ⟨c, _, rfl, hc⟩
  | cons h hb hb' rest =>
    obtain ⟨c, u, rfl, hc⟩ := h.head
    exact ⟨c, _, rfl, hc⟩

theorem SpelledMembers.head {members : List (Option String × Json)} {t : List Char}
    (h : SpelledMembers members t) : ∃ u, t = '"' :: u := by
  cases h with
  | last hk hb₁ hb₂ h hb₃ =>
    obtain ⟨u, rfl, _⟩ := hk.read
    exact ⟨_, rfl⟩
  | cons hk hb₁ hb₂ h hb₃ hb₄ rest =>
    obtain ⟨u, rfl, _⟩ := hk.read
    exact ⟨_, rfl⟩

theorem readValue_array {b t : List Char} {elements : List Json} (hb : Blanks b)
    (h : SpelledElements elements t) (fuel : Nat) (rest : List Char) :
    readValue (fuel + 1) ('[' :: (b ++ t) ++ rest) =
      (readElements fuel (t ++ rest)).map fun (elements, rest) => (.array elements, rest) := by
  obtain ⟨c, u, rfl, hblank, hc⟩ := h.head
  rw [List.cons_append, readValue, skipBlanks_cons (by decide)]
  simp only
  rw [List.append_assoc, skipBlanks_append hb, List.cons_append, skipBlanks_cons hblank]
  split
  · rename_i heq
    cases heq
    exact absurd rfl hc
  · rfl

theorem readValue_object {b t : List Char} {members : List (Option String × Json)} (hb : Blanks b)
    (h : SpelledMembers members t) (fuel : Nat) (rest : List Char) :
    readValue (fuel + 1) ('{' :: (b ++ t) ++ rest) =
      (readMembers fuel (t ++ rest)).map fun (members, rest) => (.object members, rest) := by
  obtain ⟨u, rfl⟩ := h.head
  rw [List.cons_append, readValue, skipBlanks_cons (by decide)]
  simp only
  rw [List.append_assoc, skipBlanks_append hb, List.cons_append, skipBlanks_cons (by decide)]
  rfl

section

variable {fuel : Nat} {t rest rest' final : List Char} {v : Json}

/-- Behind an element the reader closes the array or goes on. -/
theorem readElements_last (hv : readValue fuel t = some (v, rest))
    (hrest : skipBlanks rest = ']' :: final) : readElements (fuel + 1) t = some ([v], final) := by
  simp only [readElements, hv, hrest]

theorem readElements_cons {vs : List Json} (hv : readValue fuel t = some (v, rest))
    (hrest : skipBlanks rest = ',' :: rest') (hvs : readElements fuel rest' = some (vs, final)) :
    readElements (fuel + 1) t = some (v :: vs, final) := by
  simp only [readElements, hv, hrest, hvs, Option.map_some]

variable {key : Option String} {k b b' : List Char}

/-- Behind a member the reader closes the object or goes on. -/
theorem readMembers_last (hk : SpelledString key k) (hb : Blanks b) (hb' : Blanks b')
    (hv : readValue fuel t = some (v, rest)) (hrest : skipBlanks rest = '}' :: final) :
    readMembers (fuel + 1) (k ++ (b ++ ':' :: (b' ++ t))) = some ([(key, v)], final) := by
  obtain ⟨u, rfl, hread⟩ := hk.read
  rw [List.cons_append, readMembers, skipBlanks_cons (by decide)]
  simp only [hread, skipBlanks_append hb, skipBlanks_cons (show isBlank ':' = false by decide),
    readValue_blanks hb', hv, hrest]

theorem readMembers_cons {members : List (Option String × Json)} (hk : SpelledString key k)
    (hb : Blanks b) (hb' : Blanks b') (hv : readValue fuel t = some (v, rest))
    (hrest : skipBlanks rest = ',' :: rest')
    (hmembers : readMembers fuel rest' = some (members, final)) :
    readMembers (fuel + 1) (k ++ (b ++ ':' :: (b' ++ t))) = some ((key, v) :: members, final) := by
  obtain ⟨u, rfl, hread⟩ := hk.read
  rw [List.cons_append, readMembers, skipBlanks_cons (by decide)]
  simp only [hread, skipBlanks_append hb, skipBlanks_cons (show isBlank ':' = false by decide),
    readValue_blanks hb', hv, hrest, hmembers, Option.map_some]

end

mutual

/-- **The reader reads every spelling of a value** and stops right behind it.  The induction is on the
grammar; the fuel only has to exceed the length of the text. -/
theorem readValue_spelled {v : Json} {t : List Char} :
    Spelled v t → ∀ (fuel : Nat) (rest : List Char), 2 * t.length ≤ fuel + 1 → Ends rest →
      readValue (fuel + 1) (t ++ rest) = some (v, rest)
  | .null, _, _, _, _ => rfl
  | .yes, _, _, _, _ => rfl
  | .no, _, _, _, _ => rfl
  | .integer negative hd, fuel, rest, _, hrest => by
    rw [signed_append, readValue_signed negative hd]
    exact readUnsigned_append negative hd (.inl rfl) (.inl rfl) hrest
  | .decimal negative hd hf he hproper, fuel, rest, _, hrest => by
    rw [signed_append, List.append_assoc, List.append_assoc, readValue_signed negative hd,
      readUnsigned_append negative hd hf he hrest, if_neg]
    simpa [List.isEmpty_iff] using hproper
  | .string h, fuel, rest, _, _ => by
    obtain ⟨u, rfl, hread⟩ := h.read
    rw [List.cons_append, readValue, skipBlanks_cons (by decide)]
    simp only [hread, Option.map_some]
  | .emptyArray hb, fuel, rest, _, _ => by
    rw [List.cons_append, readValue, skipBlanks_cons (by decide)]
    simp only
    rw [List.append_assoc, skipBlanks_append hb]
    rfl
  | .array hb h, fuel, rest, hf, _ => by
    rw [List.length_cons, List.length_append] at hf
    obtain ⟨fuel, rfl⟩ : ∃ n, fuel = n + 1 := ⟨fuel - 1, by omega⟩
    rw [readValue_array hb h, readElements_spelled h fuel rest (by omega)]
    rfl
  | .emptyObject hb, fuel, rest, _, _ => by
    rw [List.cons_append, readValue, skipBlanks_cons (by decide)]
    simp only
    rw [List.append_assoc, skipBlanks_append hb]
    rfl
  | .object hb h, fuel, rest, hf, _ => by
    rw [List.length_cons, List.length_append] at hf
    obtain ⟨fuel, rfl⟩ : ∃ n, fuel = n + 1 := ⟨fuel - 1, by omega⟩
    rw [readValue_object hb h, readMembers_spelled h fuel rest (by omega)]
    rfl

theorem readElements_spelled {elements : List Json} {t : List Char} :
    SpelledElements elements t → ∀ (fuel : Nat) (rest : List Char), 2 * t.length ≤ fuel →
      readElements (fuel + 1) (t ++ rest) = some (elements, rest)
  | @SpelledElements.last v t b h hb, fuel, rest, hf => by
    simp only [List.length_append, List.length_cons] at hf
    obtain ⟨fuel, rfl⟩ : ∃ n, fuel = n + 1 := ⟨fuel - 1, by omega⟩
    have hends : Ends (b ++ ']' :: rest) := ends_append hb (ends_cons (by decide) rest)
    have hv := readValue_spelled h fuel _ (by omega) hends
    simp only [List.append_assoc, List.singleton_append]
    refine readElements_last hv ?_
    rw [skipBlanks_append hb, skipBlanks_cons (by decide)]
  | @SpelledElements.cons v t b₁ b₂ u elements h hb₁ hb₂ h', fuel, rest, hf => by
    simp only [List.length_append, List.length_cons] at hf
    obtain ⟨fuel, rfl⟩ : ∃ n, fuel = n + 1 := ⟨fuel - 1, by omega⟩
    have hends : Ends (b₁ ++ ',' :: (b₂ ++ (u ++ rest))) :=
      ends_append hb₁ (ends_cons (by decide) _)
    have hv := readValue_spelled h fuel _ (by omega) hends
    have he := readElements_spelled h' fuel rest (by omega)
    rw [← readElements_blanks hb₂] at he
    simp only [List.append_assoc, List.cons_append]
    refine readElements_cons hv ?_ he
    rw [skipBlanks_append hb₁, skipBlanks_cons (by decide)]

theorem readMembers_spelled {members : List (Option String × Json)} {t : List Char} :
    SpelledMembers members t → ∀ (fuel : Nat) (rest : List Char), 2 * t.length ≤ fuel →
      readMembers (fuel + 1) (t ++ rest) = some (members, rest)
  | @SpelledMembers.last key v k b₁ b₂ t b₃ hk hb₁ hb₂ h hb₃, fuel, rest, hf => by
    simp only [List.length_append, List.length_cons] at hf
    obtain ⟨fuel, rfl⟩ : ∃ n, fuel = n + 1 := ⟨fuel - 1, by omega⟩
    have hends : Ends (b₃ ++ '}' :: rest) := ends_append hb₃ (ends_cons (by decide) rest)
    have hv := readValue_spelled h fuel _ (by omega) hends
    simp only [List.append_assoc, List.cons_append, List.nil_append]
    refine readMembers_last hk hb₁ hb₂ hv ?_
    rw [skipBlanks_append hb₃, skipBlanks_cons (by decide)]
  | @SpelledMembers.cons key v k b₁ b₂ t b₃ b₄ u members hk hb₁ hb₂ h hb₃ hb₄ h', fuel, rest, hf => by
    simp only [List.length_append, List.length_cons] at hf
    obtain ⟨fuel, rfl⟩ : ∃ n, fuel = n + 1 := ⟨fuel - 1, by omega⟩
    have hends : Ends (b₃ ++ ',' :: (b₄ ++ (u ++ rest))) :=
      ends_append hb₃ (ends_cons (by decide) _)
    have hv := readValue_spelled h fuel _ (by omega) hends
    have hm := readMembers_spelled h' fuel rest (by omega)
    rw [← readMembers_blanks hb₄] at hm
    simp only [List.append_assoc, List.cons_append]
    refine readMembers_cons hk hb₁ hb₂ hv ?_ hm
    rw [skipBlanks_append hb₃, skipBlanks_cons (by decide)]

end

/-- **Every spelled text is read**, and as what it spells. -/
theorem parse_spelled {v : Json} {text : String} (h : SpelledText v text) : parse text = some v := by
  cases h with
  | @mk b t b' hb h hb' =>
    have hread : readValue (2 * (b ++ (t ++ b')).length + 1 + 1) (b ++ (t ++ b')) = some (v, b') := by
      rw [readValue_blanks hb]
      refine readValue_spelled h _ b' ?_ ?_
      · simp only [List.length_append]
        omega
      · simpa using ends_append hb' (t := []) (by simp [Ends])
    rw [parse, String.toList_ofList]
    simp only [hread, skipBlanks_blanks hb', List.isEmpty_nil, ↓reduceIte]

/-! ## Compact texts -/

/-- The compact text of a value spells it. -/
def Faithful (v : Json) : Prop := Spelled v v.chars

theorem parse_compact {v : Json} (h : v.Faithful) : parse v.compact = some v := by
  have htext : SpelledText v v.compact := by
    simpa [compact] using SpelledText.mk .nil h .nil
  exact parse_spelled htext

theorem hexQuad?_low : ∀ n < 32,
    hexQuad? '0' '0' (hexDigit (n / 16)) (hexDigit (n % 16)) = some n := by
  decide

/-- Each character is written as it is or by the escape that stands for it. -/
theorem units_escape {units : List Nat} {t : List Char} (h : Units units t) (c : Char) :
    Units (c.toNat :: units) (escape c ++ t) := by
  have hchar : ∀ {n : Nat}, c.toNat = n → c = Char.ofNat n := fun hn => by
    rw [← hn, Char.ofNat_toNat]
  unfold escape
  split
  · subst_vars
    exact .simple (by decide) h
  split
  · subst_vars
    exact .simple (by decide) h
  split
  · subst_vars
    exact .simple (by decide) h
  split
  · subst_vars
    exact .simple (by decide) h
  split
  · subst_vars
    exact .simple (by decide) h
  split
  · rename_i hn
    rw [hchar hn]
    exact .simple (by decide) h
  split
  · rename_i hn
    rw [hchar hn]
    exact .simple (by decide) h
  split
  · rename_i hn
    exact .quad (hexQuad?_eq_some_iff.mp (hexQuad?_low _ hn)) h
  · rename_i hquote hbackslash _ _ _ _ _ hn
    exact .plain c hquote hbackslash (by omega) h

theorem units_flatMap_escape (cs : List Char) : Units (cs.map Char.toNat) (cs.flatMap escape) := by
  induction cs with
  | nil => exact .nil
  | cons c cs ih => exact units_escape ih c

theorem denotes_toNat (cs : List Char) : Denotes (cs.map Char.toNat) cs := by
  induction cs with
  | nil => exact .nil
  | cons c cs ih => exact .single c ih

theorem spelledString_chars (s : String) : SpelledString (some s) (stringChars (some s)) := by
  simpa [stringChars] using
    SpelledString.text (units_flatMap_escape s.toList) (denotes_toNat s.toList)

/-- Decimal digits are written without superfluous zeros. -/
theorem head_toDigits {n : Nat} (hn : n ≠ 0) : (Nat.toDigits 10 n).head? ≠ some '0' := by
  induction n using Nat.strongRecOn with
  | ind n ih =>
    by_cases hlt : n < 10
    · have hdigit : ∀ m < 10, m ≠ 0 → m.digitChar ≠ '0' := by decide
      simpa [Nat.toDigits_of_lt_base hlt] using hdigit n hlt hn
    · have hfront := ih (n / 10) (by omega) (by omega)
      obtain ⟨c, u, heq⟩ := List.exists_cons_of_ne_nil (Nat.toDigits_ne_nil (n := n / 10) (b := 10))
      rw [Nat.toDigits_of_base_le (by decide) (by omega), heq]
      rw [heq] at hfront
      exact hfront

theorem integral_toDigits (n : Nat) : Integral (Nat.toDigits 10 n) := by
  by_cases hn : n = 0
  · subst hn
    exact .inl rfl
  · refine .inr ⟨⟨Nat.toDigits_ne_nil, ?_⟩, head_toDigits hn⟩
    exact fun c hc => Nat.isDigit_of_mem_toDigits (by decide) (by decide) hc

namespace Faithful

theorem null : Faithful .null := Spelled.null

theorem bool (b : Bool) : Faithful (.bool b) := by
  cases b with
  | true => exact Spelled.yes
  | false => exact Spelled.no

theorem integer (negative : Bool) (n : Nat) : Faithful (.integer negative n) := by
  have h := Spelled.integer negative (integral_toDigits n)
  rwa [Nat.ofDigitChars_ten_toDigits] at h

theorem string (s : String) : Faithful (.string (some s)) := Spelled.string (spelledString_chars s)

theorem elements : ∀ {v : Json} {rest : List Json}, (∀ w ∈ v :: rest, w.Faithful) →
    SpelledElements (v :: rest) (elementChars (v :: rest))
  | v, [], h => by
    rw [elementChars]
    exact .last (h v List.mem_cons_self) .nil
  | v, w :: rest, h => by
    obtain ⟨hv, hrest⟩ := List.forall_mem_cons.mp h
    rw [elementChars]
    · exact .cons hv .nil .nil (elements hrest)
    · simp

theorem array : ∀ {vs : List Json}, (∀ v ∈ vs, v.Faithful) → Faithful (.array vs)
  | [], _ => by
    rw [Faithful, chars, elementChars]
    exact .emptyArray .nil
  | v :: vs, h => by
    rw [Faithful, chars]
    exact .array .nil (elements h)

theorem members : ∀ (key : String) {v : Json} {rest : List (String × Json)}, v.Faithful →
    (∀ f ∈ rest, f.2.Faithful) →
    SpelledMembers ((some key, v) :: rest.map fun (k, w) => (some k, w))
      (memberChars ((some key, v) :: rest.map fun (k, w) => (some k, w)))
  | key, v, [], hv, _ => by
    have h := SpelledMembers.last (spelledString_chars key) .nil .nil hv .nil
    simpa [memberChars] using h
  | key, v, (key', w) :: rest, hv, h => by
    obtain ⟨hw, hrest⟩ := List.forall_mem_cons.mp h
    have h := SpelledMembers.cons (spelledString_chars key) .nil .nil hv .nil .nil
      (members key' hw hrest)
    rw [List.map_cons, memberChars]
    · simpa using h
    · simp

/-- Named fields are written under their names. -/
theorem fields : ∀ {fs : List (String × Json)}, (∀ f ∈ fs, f.2.Faithful) → Faithful (.ofFields fs)
  | [], _ => by
    rw [Faithful, ofFields, List.map_nil, chars, memberChars]
    exact .emptyObject .nil
  | (key, v) :: fs, h => by
    obtain ⟨hv, hfs⟩ := List.forall_mem_cons.mp h
    rw [Faithful, ofFields, chars]
    exact .object .nil (members key hv hfs)

end Faithful

end PistonGrid.Json
