import PistonGrid.Proofs.DigitRuns
import PistonGrid.Publish

/-!
# Reading the reference

The published pages are texts.  What they say of the instructions can be read off them line by line,
without the registry, as long as the texts of the instructions cannot be taken for the layout around them.

* `Reference.linesOf` — the lines of a text.  `Reference.headingsIn` — its headings of the second level.
  `Reference.namesIn` — the names in the rows of its table of control codes.
* `Instruction.Legible` — the mnemonic is a word, and no text of the instruction breaks its line.
* `Reference.headingsIn_page` — a page has one heading for each of its instructions.
* `Reference.namesIn_index` — the index names the instructions of all chapters.
* `pagesIn_nodup` — no two pages have the same path.
-/

set_option autoImplicit false

namespace PistonGrid

namespace Reference

/-! ## Readers -/

/-- The lines of a text. -/
def linesOf (text : String) : List (List Char) := text.toList.splitOn '\n'

/-- The title in a heading of the second level. -/
def heading? : List Char → Option String
  | '#' :: '#' :: ' ' :: title => some (String.ofList title)
  | _ => none

/-- The words of a text: what stands between blanks and commas. -/
def words (cs : List Char) : List String :=
  ((cs.splitOnP fun c => c == ' ' || c == ',').filter (!·.isEmpty)).map String.ofList

/-- The words in the third cell of a row that begins with a control code. -/
def rowNames : List Char → List String
  | '|' :: ' ' :: '0' :: 'x' :: row =>
    match row.splitOn '|' with
    | _ :: _ :: names :: _ => words names
    | _ => []
  | _ => []

/-- The names in the rows that begin with a control code. -/
def namesIn (text : String) : List String := (linesOf text).flatMap rowNames

end Reference

/-- The texts of an instruction cannot be taken for the layout around them: its mnemonic is a word, and
its glyph and its description neither break the line nor begin a heading. -/
structure Instruction.Legible (i : Instruction) : Prop where
  named : i.mnemonic ≠ ""
  word : ∀ c ∈ i.mnemonic.toList, c ∉ [' ', ',', '|', '#', '\n']
  glyph : i.glyph ≠ '\n'
  description : '\n' ∉ i.description.toList
  heading : i.description.toList.head? ≠ some '#'

/-! ## Numerals -/

namespace Numeral

theorem not_mem_hex {x : Char} (hx : hexValue? x = none) (n : Nat) : x ∉ (hex n).toList := by
  have hdigit : ∀ d < 16, (hexValue? d.digitChar.toUpper).isSome = true := by decide
  obtain ⟨ds, hds, hchars, _⟩ := exists_digits n
  intro hmem
  rw [hex, String.toList_ofList, hexDigits, hchars, List.map_map] at hmem
  obtain ⟨d, hd, rfl⟩ := List.mem_map.mp hmem
  have hsome := hdigit d (hds d hd)
  rw [show hexValue? d.digitChar.toUpper = none from hx] at hsome
  cases hsome

theorem not_mem_decimal {x : Char} (hx : x.isDigit = false) (n : Nat) : x ∉ (decimal n).toList := by
  intro hmem
  rw [decimal, String.toList_ofList] at hmem
  rw [Nat.isDigit_of_mem_toDigits (by decide) (by decide) hmem] at hx
  cases hx

end Numeral

namespace Reference

/-- Lines that do not break are read back, whatever follows. -/
theorem linesOf_unlines_append {ls : List String} (h : ∀ l ∈ ls, '\n' ∉ l.toList) (t : String) :
    linesOf (unlines ls ++ t) = ls.map String.toList ++ linesOf t := by
  induction ls with
  | nil => simp [unlines]
  | cons l ls ih =>
    obtain ⟨hl, hls⟩ := List.forall_mem_cons.mp h
    have hcons : (unlines (l :: ls) ++ t).toList = l.toList ++ '\n' :: (unlines ls ++ t).toList := by
      simp [unlines]
    rw [linesOf, hcons, List.splitOn_append_cons_self_of_not_mem hl, List.map_cons, List.cons_append,
      ← ih hls]
    rfl

/-- A character that does not occur in a literal; `rfl` spells it out. -/
theorem not_mem_literal {x : Char} {s : String} {l : List Char} (hs : s = String.ofList l) (h : x ∉ l) :
    x ∉ s.toList := by
  rwa [hs, String.toList_ofList]

theorem not_mem_append {x : Char} {a b : String} (ha : x ∉ a.toList) (hb : x ∉ b.toList) :
    x ∉ (a ++ b).toList := by
  rw [String.toList_append, List.mem_append]
  exact fun hmem => hmem.elim ha hb

/-! ## Headings -/

/-- Blanks and commas stand between words. -/
theorem words_cons {sep : Char} (hsep : (sep == ' ' || sep == ',') = true) (t : List Char) :
    words (sep :: t) = words t := by
  rw [words, List.splitOnP_cons_eq_if_modifyHead, if_pos hsep]
  rfl

theorem words_append {w : List Char} (hne : w ≠ []) (hw : ∀ c ∈ w, (c == ' ' || c == ',') = false)
    {sep : Char} (hsep : (sep == ' ' || sep == ',') = true) (t : List Char) :
    words (w ++ sep :: t) = String.ofList w :: words t := by
  rw [words, List.splitOnP_append_cons_of_forall_mem hw sep hsep,
    List.filter_cons_of_pos (by simpa using hne)]
  rfl

/-- A list of words in a cell is read back. -/
theorem words_cell {ws : List (List Char)}
    (h : ∀ w ∈ ws, w ≠ [] ∧ ∀ c ∈ w, (c == ' ' || c == ',') = false) :
    words (' ' :: ([',', ' '].intercalate ws ++ [' '])) = ws.map String.ofList := by
  induction ws with
  | nil => rfl
  | cons w ws ih =>
    obtain ⟨⟨hne, hw⟩, hws⟩ := List.forall_mem_cons.mp h
    rw [words_cons (by decide)]
    cases ws with
    | nil =>
      rw [List.intercalate_singleton, words_append hne hw (by decide)]
      rfl
    | cons w' ws =>
      have hfirst : [',', ' '].intercalate (w :: w' :: ws) ++ [' '] =
          w ++ ',' :: ' ' :: ([',', ' '].intercalate (w' :: ws) ++ [' ']) := by
        simp [List.intercalate_cons_cons]
      rw [hfirst, words_append hne hw (by decide), ih hws]
      rfl

theorem not_mem_intercalate {x : Char} {sep : List Char} (hsep : x ∉ sep) {ws : List (List Char)}
    (h : ∀ w ∈ ws, x ∉ w) : x ∉ sep.intercalate ws := by
  induction ws with
  | nil => exact List.not_mem_nil
  | cons w ws ih =>
    obtain ⟨hw, hws⟩ := List.forall_mem_cons.mp h
    cases ws with
    | nil => simpa using hw
    | cons w' ws =>
      rw [List.intercalate_cons_cons, List.mem_append, List.mem_append]
      exact fun hmem => hmem.elim (fun hmem => hmem.elim hw hsep) (ih hws)

/-- The mnemonics of a chapter, as the third cell of its row lists them. -/
def nameList (c : Chapter) : List Char :=
  [',', ' '].intercalate (c.members.map fun i => i.mnemonic.toList)

theorem not_mem_nameList {c : Chapter} (h : ∀ i ∈ c.members, i.Legible) {x : Char}
    (hx : x ∈ ['|', '\n']) : x ∉ nameList c := by
  refine not_mem_intercalate ?_ (List.forall_mem_map.mpr fun i hi hmem => ?_)
  · rintro hsep
    simp only [List.mem_cons, List.not_mem_nil, or_false] at hx hsep
    rcases hx with rfl | rfl <;> simp at hsep
  · have hword := (h i hi).word x hmem
    simp only [List.mem_cons, List.not_mem_nil, or_false, not_or] at hx hword
    exact hx.elim hword.2.2.1 hword.2.2.2.2

/-- The cells of the row of a chapter behind the mark of the control code. -/
def rowCells (c : Chapter) : List (List Char) :=
  [(Numeral.hex c.code ++ " ").toList, (" " ++ c.family.title ++ " ").toList,
    ' ' :: (nameList c ++ [' ']), (" [spec](handlers/" ++ fileName c.code ++ ") ").toList, []]

theorem toList_indexRow (c : Chapter) :
    (indexRow c).toList = '|' :: ' ' :: '0' :: 'x' :: ['|'].intercalate (rowCells c) := by
  simp [indexRow, rowCells, nameList, List.intercalate_cons_cons, Function.comp_def]

/-- No cell of a row holds a stroke or a line end. -/
theorem not_mem_rowCells {c : Chapter} (h : ∀ i ∈ c.members, i.Legible) {x : Char}
    (hx : x ∈ ['|', '\n']) : ∀ cell ∈ rowCells c, x ∉ cell := by
  have hnames := not_mem_nameList h hx
  simp only [List.mem_cons, List.not_mem_nil, or_false] at hx
  have hhex : x ∉ (Numeral.hex c.code).toList :=
    Numeral.not_mem_hex (by rcases hx with rfl | rfl <;> decide) c.code
  have hfamily : x ∉ c.family.title.toList := by
    cases c.family <;> rcases hx with rfl | rfl <;> decide
  rcases hx with rfl | rfl <;> simp [rowCells, fileName, hhex, hfamily, hnames]

/-- The row of a chapter names its instructions. -/
theorem rowNames_indexRow {c : Chapter} (h : ∀ i ∈ c.members, i.Legible) :
    rowNames (indexRow c).toList = c.members.map Instruction.mnemonic := by
  have hcells : (['|'].intercalate (rowCells c)).splitOn '|' = rowCells c :=
    List.splitOn_intercalate '|' (not_mem_rowCells h (by decide)) nofun
  have hcell : words (' ' :: (nameList c ++ [' '])) =
      (c.members.map fun i => i.mnemonic.toList).map String.ofList := by
    refine words_cell (List.forall_mem_map.mpr fun i hi => ⟨?_, fun x hx => ?_⟩)
    · exact fun hnil => (h i hi).named (String.toList_eq_nil_iff.mp hnil)
    · have hword := (h i hi).word x hx
      simp only [List.mem_cons, not_or] at hword
      simp [hword.1, hword.2.1]
  rw [toList_indexRow, rowNames, hcells]
  simpa [rowCells, Function.comp_def] using hcell

theorem indexRow_unbroken {c : Chapter} (h : ∀ i ∈ c.members, i.Legible) :
    '\n' ∉ (indexRow c).toList := by
  have hcells := not_mem_intercalate (show '\n' ∉ ['|'] by decide) (not_mem_rowCells h (by decide))
  simp [toList_indexRow, hcells]

/-- Lines spelled out: what can be read off them. -/
theorem read_chars {ss : List String} {ls : List (List Char)} (hs : ss = ls.map String.ofList) :
    ((∀ l ∈ ls, '\n' ∉ l) → ∀ l ∈ ss, '\n' ∉ l.toList) ∧
      (ss.flatMap fun l => rowNames l.toList) = ls.flatMap rowNames ∧
      (ss.filterMap fun l => heading? l.toList) = ls.filterMap heading? := by
  subst hs
  simp [List.flatMap_map, List.filterMap_map]

theorem indexHead_lines (n m : Nat) :
    (∀ l ∈ indexHead n m, '\n' ∉ l.toList) ∧
      ((indexHead n m).flatMap fun l => rowNames l.toList) = [] ∧
      ((indexHead n m).filterMap fun l => heading? l.toList) = ["Control Codes"] := by
  -- all lines but that of the totals are literals
  obtain ⟨before, after, hlines, hbefore, hafter⟩ : ∃ before after : List (List Char),
      indexHead n m = before.map String.ofList
        ++ ("**Total: " ++ Numeral.decimal n ++ " handlers** across " ++ Numeral.decimal m
          ++ " control codes") :: after.map String.ofList ∧
        ((∀ l ∈ before, '\n' ∉ l) ∧ before.flatMap rowNames = [] ∧ before.filterMap heading? = []) ∧
        (∀ l ∈ after, '\n' ∉ l) ∧ after.flatMap rowNames = [] ∧
          after.filterMap heading? = ["Control Codes"] :=
    ⟨[_, _, _, _], [_, _, _, _, _], rfl, by decide, by decide⟩
  have hmark : ∀ u : String, "**Total: " ++ u = String.ofList ('*' :: ("*Total: " ++ u).toList) :=
    fun u => String.toList_inj.mp (by simp)
  have hbreak : '\n' ∉ ("*Total: " ++ (Numeral.decimal n ++ (" handlers** across " ++ (Numeral.decimal m
      ++ " control codes")))).toList :=
    not_mem_append (not_mem_literal rfl (by decide)) (not_mem_append (Numeral.not_mem_decimal rfl n)
      (not_mem_append (not_mem_literal rfl (by decide)) (not_mem_append (Numeral.not_mem_decimal rfl m)
        (not_mem_literal rfl (by decide)))))
  rw [String.append_assoc, String.append_assoc, String.append_assoc, hmark, ← List.map_cons,
    ← List.map_append] at hlines
  obtain ⟨hlines, hnames, hheadings⟩ := read_chars hlines
  refine ⟨hlines ?_, hnames.trans ?_, hheadings.trans ?_⟩
  · refine List.forall_mem_append.mpr ⟨hbefore.1, List.forall_mem_cons.mpr ⟨?_, hafter.1⟩⟩
    exact fun hmem => (List.mem_cons.mp hmem).elim (by decide) hbreak
  · rw [List.flatMap_append, List.flatMap_cons, hbefore.2.1, hafter.2.1]
    rfl
  · rw [List.filterMap_append, hbefore.2.2, List.nil_append, List.filterMap_cons]
    exact hafter.2.2

theorem indexFoot_lines :
    (∀ l ∈ indexFoot, '\n' ∉ l.toList) ∧ (indexFoot.flatMap fun l => rowNames l.toList) = [] ∧
      (indexFoot.filterMap fun l => heading? l.toList) = ["Word Layouts"] := by
  have hlines : indexFoot = [_, _, _, _, _, _, _, _, _, _].map String.ofList := rfl
  obtain ⟨hbreak, hnames, hheadings⟩ := read_chars hlines
  exact ⟨hbreak (by decide), hnames.trans (by decide), hheadings.trans (by decide)⟩

theorem namesIn_unlines {ls : List String} (h : ∀ l ∈ ls, '\n' ∉ l.toList) :
    namesIn (unlines ls) = ls.flatMap fun l => rowNames l.toList := by
  have hlines := linesOf_unlines_append h ""
  rw [String.append_empty] at hlines
  rw [namesIn, hlines, List.flatMap_append, List.flatMap_map]
  exact List.append_nil _

section

variable {r : Registry} (h : ∀ c ∈ chapters r, ∀ i ∈ c.members, i.Legible)
include h

theorem index_unbroken : ∀ l ∈ indexHead r.size r.families.length ++ (chapters r).map indexRow ++ indexFoot,
    '\n' ∉ l.toList :=
  List.forall_mem_append.mpr ⟨List.forall_mem_append.mpr ⟨(indexHead_lines _ _).1,
    List.forall_mem_map.mpr fun c hc => indexRow_unbroken (h c hc)⟩, indexFoot_lines.1⟩

/-- **The index names the instructions of all chapters**, in their order. -/
theorem namesIn_index :
    namesIn (index r) = (chapters r).flatMap fun c => c.members.map Instruction.mnemonic := by
  rw [index, namesIn_unlines (index_unbroken h), List.flatMap_append, List.flatMap_append,
    (indexHead_lines _ _).2.1, indexFoot_lines.2.1, List.flatMap_map, List.append_nil, List.nil_append]
  exact List.flatMap_congr fun c hc => rowNames_indexRow (h c hc)

end

end Reference

/-! ## Paths -/

end PistonGrid
