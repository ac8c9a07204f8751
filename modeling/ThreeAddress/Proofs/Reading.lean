import Mathlib.Data.List.Basic
import ThreeAddress.Program

/-!
# Reading a program back

The lines of a program end with newlines, and the words of a line stand between blanks. The
number of words tells the kind of the instruction; in a load the first bracket ends the name of
the array. Texts of an instruction may be empty or look like anything else that stands on a
line, as long as they have no blank and no newline in them and no array has a bracket. Main
statement: reading accepts exactly the texts of such programs and gives back the program, so no
two of them have the same text.
-/

namespace ThreeAddress

namespace Text

/-- The byte between the words of a line. -/
def blank : UInt8 := 32

/-- The byte after the name of an array. -/
def bracket : UInt8 := 91

/-- The byte after the index of an element. -/
def closing : UInt8 := 93

/-- The byte after the name of a marker. -/
def colon : UInt8 := 58

/-- The text without its last byte, if that is the one given. -/
def without? (last : UInt8) (t : Text) : Option Text :=
  if t.getLast? = some last then some t.dropLast else none

/-- The array and the index of an element: the first bracket stands between them. -/
def element? (t : Text) : Option (Text × Text) :=
  match t.dropWhile (· != bracket) with
  | [] => none
  | _ :: rest => (Text.without? closing rest).map fun index => (t.takeWhile (· != bracket), index)

theorem without?_eq_some_iff {last : UInt8} {t rest : Text} :
    t.without? last = some rest ↔ t = rest ++ [last] := by
  rw [without?]
  constructor
  · intro h
    split at h
    · rename_i hlast
      cases h
      exact (List.dropLast_append_getLast? last hlast).symm
    · cases h
  · rintro rfl
    rw [List.getLast?_concat, if_pos rfl, List.dropLast_concat]

theorem element?_eq_some_iff {t array index : Text} :
    t.element? = some (array, index) ↔
      bracket ∉ array ∧ t = array ++ bracket :: (index ++ [closing]) := by
  rw [element?]
  constructor
  · intro h
    split at h
    · cases h
    · rename_i b rest hdrop
      obtain ⟨index', hindex, hpair⟩ := Option.map_eq_some_iff.mp h
      cases hpair
      rw [without?_eq_some_iff] at hindex
      have hb : b = bracket := by
        have hhead := List.head?_dropWhile_not (· != bracket) t
        rw [hdrop] at hhead
        simpa using hhead
      refine ⟨fun hmem => ?_, ?_⟩
      · have hne := List.all_eq_true.mp List.all_takeWhile bracket hmem
        simp at hne
      · rw [hb, hindex] at hdrop
        rw [← hdrop, List.takeWhile_append_dropWhile]
  · rintro ⟨harray, rfl⟩
    have hne : ∀ b ∈ array, (b != bracket) = true := by
      intro b hb
      rw [bne_iff_ne]
      rintro rfl
      exact harray hb
    rw [List.dropWhile_append_of_pos hne, List.takeWhile_append_of_pos hne]
    simp [without?_eq_some_iff.mpr rfl]

/-- What stands between two separators has no separator in it. -/
theorem not_mem_of_mem_splitOn {b : UInt8} {t part : Text} (h : part ∈ t.splitOn b) : b ∉ part := by
  induction t generalizing part with
  | nil =>
    rw [List.splitOn_nil, List.mem_singleton] at h
    rw [h]
    exact List.not_mem_nil
  | cons c rest ih =>
    rw [List.splitOn_eq_splitOnP, List.splitOnP_cons_eq_if_modifyHead,
      ← List.splitOn_eq_splitOnP] at h
    obtain ⟨first, later, hsplit⟩ := List.exists_cons_of_ne_nil (List.splitOn_ne_nil b rest)
    rw [hsplit] at h ih
    split at h
    · rcases List.mem_cons.mp h with rfl | hpart
      · exact List.not_mem_nil
      · exact ih hpart
    · rename_i hc
      rcases List.mem_cons.mp h with rfl | hpart
      · have hfirst := ih List.mem_cons_self
        have hne : b ≠ c := fun heq => hc (by simp [heq])
        simp [hne, hfirst]
      · exact ih (List.mem_cons_of_mem _ hpart)

/-- The bytes of joined texts are those of the separator and of the texts. -/
theorem mem_join {separator : Text} {parts : List Text} {b : UInt8} (hb : b ∉ separator) :
    b ∈ join separator parts ↔ ∃ part ∈ parts, b ∈ part := by
  rw [join]
  induction parts with
  | nil => simp
  | cons first rest ih =>
    cases rest with
    | nil => simp
    | cons second rest =>
      rw [List.intercalate_cons_cons, List.mem_append, List.mem_append, ih]
      simp [hb]

end Text

namespace Instr

open Text (blank bracket closing colon newline)

/-- The texts that an instruction is made of. -/
def fields : Instr → List Text
  | assign dst left op right => [dst, left, op, right]
  | condJump left relop right target => [left, relop, right, target]
  | jump target => [target]
  | load dst array index => [dst, array, index]
  | label name => [name]

/-- The array that a load reads. -/
def array? : Instr → Option Text
  | load _ array _ => some array
  | _ => none

/-- An instruction whose texts have no blank and no newline in them, and
whose array has no bracket. -/
structure Plain (i : Instr) : Prop where
  fields : ∀ field ∈ i.fields, blank ∉ field ∧ newline ∉ field
  array : ∀ array ∈ i.array?, bracket ∉ array

instance (i : Instr) : Decidable i.Plain :=
  decidable_of_iff ((∀ field ∈ i.fields, blank ∉ field ∧ newline ∉ field) ∧
    ∀ array ∈ i.array?, bracket ∉ array) ⟨fun h => ⟨h.1, h.2⟩, fun h => ⟨h.fields, h.array⟩⟩

/-- The words on the line of an instruction. -/
def words : Instr → List Text
  | assign dst left op right => [dst, "=", left, op, right]
  | condJump left relop right target => ["if", left, relop, right, "goto", target]
  | jump target => ["goto", target]
  | load dst array index => [dst, "=", array ++ bracket :: (index ++ [closing])]
  | label name => [name ++ [colon]]

/-- The line of an instruction, without the newline that ends it. -/
def line (i : Instr) : Text := Text.join [blank] i.words

theorem text_eq_line (i : Instr) : i.text = i.line ++ [newline] := by
  cases i <;> simp [text, line, words, Text.join, List.intercalate] <;> rfl

/-- The instruction with these words on its line. -/
def ofWords? : List Text → Option Instr
  | [word] => (word.without? colon).map label
  | [word, target] => if word = "goto" then some (jump target) else none
  | [dst, word, element] =>
    if word = "=" then element.element?.map fun (array, index) => load dst array index else none
  | [dst, word, left, op, right] => if word = "=" then some (assign dst left op right) else none
  | [first, left, relop, right, second, target] =>
    if first = "if" ∧ second = "goto" then some (condJump left relop right target) else none
  | _ => none

/-- The number of words tells the kind of an instruction, and the words tell its texts. -/
theorem ofWords?_eq_some_iff {words : List Text} {i : Instr} :
    ofWords? words = some i ↔ i.words = words ∧ ∀ array ∈ i.array?, bracket ∉ array := by
  constructor
  · fun_cases ofWords? words with
    | case1 word =>
      intro h
      obtain ⟨name, hname, rfl⟩ := Option.map_eq_some_iff.mp h
      rw [Text.without?_eq_some_iff] at hname
      simp [Instr.words, array?, hname]
    | case2 target =>
      rintro ⟨⟩
      simp [Instr.words, array?]
    | case4 dst element =>
      intro h
      obtain ⟨⟨array, index⟩, helement, rfl⟩ := Option.map_eq_some_iff.mp h
      rw [Text.element?_eq_some_iff] at helement
      simp [Instr.words, array?, helement]
    | case6 dst left op right =>
      rintro ⟨⟩
      simp [Instr.words, array?]
    | case8 first left relop right second target hkeywords =>
      rintro ⟨⟩
      simp [Instr.words, array?, hkeywords]
    | _ =>
      intro h
      cases h
  · rintro ⟨rfl, harray⟩
    cases i with
    | assign dst left op right => rfl
    | condJump left relop right target => rfl
    | jump target => rfl
    | load dst array index =>
      have helement := Text.element?_eq_some_iff.mpr
        ⟨harray array rfl, rfl (a := array ++ bracket :: (index ++ [closing]))⟩
      simp [Instr.words, ofWords?, helement]
    | label name =>
      have hname := Text.without?_eq_some_iff.mpr (rfl (a := name ++ [colon]))
      simp [Instr.words, ofWords?, hname]

/-- The words of an instruction have a blank or a newline in them only where its texts have one. -/
theorem mem_words {i : Instr} {b : UInt8} (hb : b = blank ∨ b = newline) :
    (∃ word ∈ i.words, b ∈ word) ↔ ∃ field ∈ i.fields, b ∈ field := by
  have hequals : b ∉ Text.ofString "=" := by rcases hb with rfl | rfl <;> decide
  have hif : b ∉ Text.ofString "if" := by rcases hb with rfl | rfl <;> decide
  have hgoto : b ∉ Text.ofString "goto" := by rcases hb with rfl | rfl <;> decide
  have hsigns : b ≠ bracket ∧ b ≠ closing ∧ b ≠ colon := by rcases hb with rfl | rfl <;> decide
  cases i <;> simp [words, fields, hequals, hif, hgoto, hsigns]

theorem Plain.not_mem_words {i : Instr} (h : i.Plain) {b : UInt8} (hb : b = blank ∨ b = newline) :
    ∀ word ∈ i.words, b ∉ word := by
  intro word hword hmem
  obtain ⟨field, hfield, hin⟩ := (mem_words hb).mp ⟨word, hword, hmem⟩
  obtain ⟨hblank, hnewline⟩ := h.fields field hfield
  rcases hb with rfl | rfl
  · exact hblank hin
  · exact hnewline hin

theorem Plain.newline_not_mem_line {i : Instr} (h : i.Plain) : newline ∉ i.line := by
  rw [line, Text.mem_join (by decide)]
  rintro ⟨word, hword, hmem⟩
  exact h.not_mem_words (.inr rfl) word hword hmem

theorem words_ne_nil (i : Instr) : i.words ≠ [] := by
  cases i <;> exact List.cons_ne_nil _ _

/-- Reads the line of an instruction, without the newline that ends it. -/
def parse? (line : Text) : Option Instr := ofWords? (line.splitOn blank)

/-- A line without newlines is read exactly if it is the line of a plain instruction. -/
theorem parse?_eq_some_iff {t : Text} (ht : newline ∉ t) {i : Instr} :
    parse? t = some i ↔ i.Plain ∧ i.line = t := by
  rw [parse?, ofWords?_eq_some_iff]
  constructor
  · rintro ⟨hwords, harray⟩
    have hline : i.line = t := by
      rw [line, hwords]
      exact List.intercalate_splitOn blank
    refine ⟨⟨fun field hfield => ⟨fun hblank => ?_, fun hnewline => ?_⟩, harray⟩, hline⟩
    · obtain ⟨word, hword, hmem⟩ := (mem_words (.inl rfl)).mpr ⟨field, hfield, hblank⟩
      rw [hwords] at hword
      exact Text.not_mem_of_mem_splitOn hword hmem
    · have hmem := (Text.mem_join (show newline ∉ [blank] by decide)).mpr
        ((mem_words (.inr rfl)).mpr ⟨field, hfield, hnewline⟩)
      rw [← line, hline] at hmem
      exact ht hmem
  · rintro ⟨hplain, rfl⟩
    refine ⟨?_, hplain.array⟩
    exact (List.splitOn_intercalate blank (hplain.not_mem_words (.inl rfl)) i.words_ne_nil).symm

end Instr

namespace Program

open Text (newline)

/-- A program of plain instructions. -/
def Plain (p : Program) : Prop := ∀ i ∈ p, i.Plain

instance (p : Program) : Decidable p.Plain := inferInstanceAs (Decidable (∀ i ∈ p, i.Plain))

/-- Reads the lines of a program, of which nothing may stand after the last newline. -/
def parseLines? : List Text → Option Program
  | [] => none
  | [rest] => if rest = [] then some [] else none
  | line :: next :: rest => do
    let i ← Instr.parse? line
    let p ← parseLines? (next :: rest)
    return i :: p

/-- Reads the text of a program. -/
def parse? (t : Text) : Option Program := parseLines? (t.splitOn newline)

/-- The text of a program are its lines, each with a newline after it. -/
theorem text_eq_join (p : Program) : p.text = Text.join [newline] (p.map Instr.line ++ [[]]) := by
  induction p with
  | nil => rfl
  | cons i rest ih =>
    have hrest : rest.map Instr.line ++ [[]] ≠ [] :=
      List.append_ne_nil_of_right_ne_nil _ (List.cons_ne_nil _ _)
    obtain ⟨first, later, hsplit⟩ := List.exists_cons_of_ne_nil hrest
    rw [text_cons, ih, i.text_eq_line, List.map_cons, List.cons_append, hsplit,
      Text.join, Text.join, List.intercalate_cons_cons]

/-- Lines without newlines are read exactly if they are those of a plain program. -/
theorem parseLines?_eq_some_iff {lines : List Text} (hlines : ∀ line ∈ lines, newline ∉ line)
    {p : Program} :
    parseLines? lines = some p ↔ p.Plain ∧ p.map Instr.line ++ [[]] = lines := by
  induction lines generalizing p with
  | nil => simp [parseLines?]
  | cons line rest ih =>
    obtain ⟨hline, hrest⟩ := List.forall_mem_cons.mp hlines
    cases rest with
    | nil =>
      rw [parseLines?]
      cases p with
      | nil =>
        have hplain : Plain [] := fun i hi => nomatch hi
        by_cases hempty : line = []
        · simp [hempty, hplain]
        · simp [hempty, Ne.symm hempty]
      | cons i q => simp
    | cons next rest =>
      have hread : parseLines? (line :: next :: rest) = some p ↔ ∃ i, (i.Plain ∧ i.line = line) ∧
          ∃ q : Program, (q.Plain ∧ q.map Instr.line ++ [[]] = next :: rest) ∧ i :: q = p := by
        simp only [parseLines?, Option.bind_eq_bind, Option.pure_def,
          Option.bind_eq_some_iff, ih hrest, Instr.parse?_eq_some_iff hline, Option.some.injEq]
      rw [hread]
      constructor
      · rintro ⟨i, ⟨hi, rfl⟩, q, ⟨hq, hnext⟩, rfl⟩
        exact ⟨List.forall_mem_cons.mpr ⟨hi, hq⟩, by rw [List.map_cons, List.cons_append, hnext]⟩
      · rintro ⟨hplain, hmap⟩
        cases p with
        | nil => simp at hmap
        | cons i q =>
          obtain ⟨hi, hq⟩ := List.forall_mem_cons.mp hplain
          rw [List.map_cons, List.cons_append, List.cons.injEq] at hmap
          exact ⟨i, ⟨hi, hmap.1⟩, q, ⟨hq, hmap.2⟩, rfl⟩

/-- Reading accepts exactly the texts of plain programs and gives back the program. -/
theorem parse?_eq_some_iff {t : Text} {p : Program} : parse? t = some p ↔ p.Plain ∧ p.text = t := by
  have hlines : ∀ line ∈ t.splitOn newline, newline ∉ line :=
    fun line h => Text.not_mem_of_mem_splitOn h
  rw [parse?, parseLines?_eq_some_iff hlines, text_eq_join]
  refine and_congr_right fun hplain => ⟨fun h => ?_, fun h => ?_⟩
  · rw [h]
    exact List.intercalate_splitOn newline
  · have hmem : ∀ line ∈ p.map Instr.line ++ [[]], newline ∉ line := by
      intro line hline
      rcases List.mem_append.mp hline with hline | hline
      · obtain ⟨i, hi, rfl⟩ := List.mem_map.mp hline
        exact (hplain i hi).newline_not_mem_line
      · rw [List.mem_singleton.mp hline]
        exact List.not_mem_nil
    rw [← h]
    exact (List.splitOn_intercalate newline hmem (by simp)).symm

/-- Let the texts of two programs have no blank and no newline in them and their arrays no bracket.
If the programs have the same text, they are the same; reading the text gives back the program. -/
theorem text_unambiguous (p q : Program) (hp : p.Plain) (hq : q.Plain) :
    (p.text = q.text → p = q) ∧ parse? p.text = some p := by
  have hread : parse? p.text = some p := parse?_eq_some_iff.mpr ⟨hp, rfl⟩
  refine ⟨fun htext => ?_, hread⟩
  have hother : parse? p.text = some q := parse?_eq_some_iff.mpr ⟨hq, htext.symm⟩
  exact Option.some.inj (hread.symm.trans hother)

/-- A blank, a newline or a bracket in the wrong place makes a text ambiguous. -/
example :
    text [.assign "t0" "a b" "+" "c"] = text [.assign "t0" "a" "b +" "c"] ∧
    text [.jump "L0\nL1:"] = text [.jump "L0", .label "L1"] ∧
    text [.load "t0" "a[i]" "j"] = text [.load "t0" "a" "i][j"] :=
  ⟨rfl, rfl, rfl⟩

/-- A program of all kinds whose texts are empty or look like other parts of a line. -/
def lookalikes : Program :=
  [.condJump "" "goto" "=" "if", .assign "if" "" "goto" "a[i]", .load "goto" "" "x[=]:",
    .jump "=", .label "", .label "goto"]

/-- The same program, but for a load that ends in a different place. -/
def lookalikesShifted : Program :=
  [.condJump "" "goto" "=" "if", .assign "if" "" "goto" "a[i]", .load "goto" "x" "=]:",
    .jump "=", .label "", .label "goto"]

/-- These two have different texts, from which they are read back. -/
theorem lookalikes_read_back : lookalikes.Plain ∧ lookalikesShifted.Plain ∧
    lookalikes.text ≠ lookalikesShifted.text ∧ parse? lookalikes.text = some lookalikes := by
  have hplain : lookalikes.Plain := by decide
  have hshifted : lookalikesShifted.Plain := by decide
  obtain ⟨hsame, hread⟩ := text_unambiguous lookalikes lookalikesShifted hplain hshifted
  exact ⟨hplain, hshifted, fun htext => absurd (hsame htext) (by decide), hread⟩

end Program

end ThreeAddress
