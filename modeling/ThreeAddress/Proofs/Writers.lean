import Mathlib.Algebra.Ring.Int.Defs
import Mathlib.Order.Bounds.Basic
import ThreeAddress.Program

/-!
# Writing a program accounts for every byte

A program is offered to a writer line by line. What the writer would answer if all lines were
offered, whatever it answered before, is known without the program's loop, and so is the first
failure among these answers. A count is a signed word and may be any, also a negative one; the sum
of the counts is taken as a word. Main statement: the lines offered are those up to the first
failure, the count is the sum of the answers so far, and for a store with limited room the bytes,
the count, the failure and the number of writes follow from the room and the text of the program.
-/

namespace ThreeAddress

variable {σ ε : Type}

/-! ## Any writer -/

namespace Writer

/-- What a writer answers to texts offered one after another, whether or not it fails on the way. -/
def answers (write : Writer σ ε) : σ → List Text → List (WriteReply ε)
  | _, [] => []
  | s, t :: rest => (write s t).1 :: answers write (write s t).2 rest

/-- The writer that also keeps what it was offered and what it answered. -/
def recorded (write : Writer σ ε) : Writer (σ × List (Text × WriteReply ε)) ε := fun s t =>
  let (reply, next) := write s.1 t
  (reply, next, s.2 ++ [(t, reply)])

end Writer

/-- How many of the writes with these answers are made: those up to and
including the first failure. -/
def writesMade (answers : List (WriteReply ε)) : Nat := answers.findIdx (·.error.isSome) + 1

theorem writesMade_cons_of_error {answer : WriteReply ε} {rest : List (WriteReply ε)} {e : ε}
    (h : answer.error = some e) : writesMade (answer :: rest) = 1 := by
  simp [writesMade, List.findIdx_cons, h]

theorem writesMade_cons_of_none {answer : WriteReply ε} {rest : List (WriteReply ε)}
    (h : answer.error = none) : writesMade (answer :: rest) = writesMade rest + 1 := by
  simp [writesMade, List.findIdx_cons, h]

namespace Program

variable {write : Writer σ ε} {i : Instr} {rest : Program} {s : σ}

/-- A write that fails is the last one. -/
theorem writeTo_cons_of_error {e : ε} (h : (write s i.text).1.error = some e) :
    writeTo write (i :: rest) s = write s i.text := by
  rw [writeTo]
  rcases hreply : write s i.text with ⟨⟨taken, error⟩, s'⟩
  rw [hreply] at h
  cases h
  rfl

/-- After a write that succeeds the others follow. -/
theorem writeTo_cons_of_none (h : (write s i.text).1.error = none) :
    writeTo write (i :: rest) s =
      let later := writeTo write rest (write s i.text).2
      (⟨(write s i.text).1.taken + later.1.taken, later.1.error⟩, later.2) := by
  rw [writeTo]
  rcases hreply : write s i.text with ⟨⟨taken, error⟩, s'⟩
  rw [hreply] at h
  cases h
  rfl

/-- The reply has the sum of the counts up to the first failure, as a word, and that failure. -/
theorem writeTo_reply (write : Writer σ ε) (p : Program) (s : σ) :
    (p.writeTo write s).1 =
      let answers := write.answers s (p.map Instr.text)
      ⟨.ofInt ((answers.take (writesMade answers)).map (·.taken.toInt)).sum,
        answers.findSome? (·.error)⟩ := by
  induction p generalizing s with
  | nil => rfl
  | cons i rest ih =>
    rw [List.map_cons, Writer.answers]
    cases herror : (write s i.text).1.error with
    | some e =>
      rw [writeTo_cons_of_error herror]
      simp only [writesMade_cons_of_error herror, List.take_succ_cons, List.take_zero,
        List.map_cons, List.map_nil, List.sum_singleton, List.findSome?_cons, herror,
        Int64.ofInt_toInt]
      rw [← herror]
    | none =>
      rw [writeTo_cons_of_none herror]
      simp [writesMade_cons_of_none herror, herror, ih, Int64.ofInt_add]

/-- A writer that keeps a record gives the same reply and comes to the same state; its record shows
the lines up to the first failure. -/
theorem writeTo_recorded (write : Writer σ ε) (p : Program) (s : σ)
    (before : List (Text × WriteReply ε)) :
    p.writeTo write.recorded (s, before) =
      let texts := p.map Instr.text
      let answers := write.answers s texts
      ((p.writeTo write s).1, (p.writeTo write s).2,
        before ++ (texts.zip answers).take (writesMade answers)) := by
  induction p generalizing s before with
  | nil => simp [writeTo]
  | cons i rest ih =>
    simp only [List.map_cons, Writer.answers]
    -- The two writers answer alike, so one case split serves both.
    cases herror : (write s i.text).1.error with
    | some e =>
      have hrecorded : (write.recorded (s, before) i.text).1.error = some e := herror
      rw [writeTo_cons_of_error herror, writeTo_cons_of_error hrecorded]
      simp [Writer.recorded, writesMade_cons_of_error herror]
    | none =>
      have hrecorded : (write.recorded (s, before) i.text).1.error = none := herror
      rw [writeTo_cons_of_none herror, writeTo_cons_of_none hrecorded]
      simp [Writer.recorded, writesMade_cons_of_none herror, ih]

end Program

theorem Writer.length_answers (write : Writer σ ε) (s : σ) (texts : List Text) :
    (write.answers s texts).length = texts.length := by
  induction texts generalizing s with
  | nil => rfl
  | cons t rest ih => exact congrArg (· + 1) (ih _)

/-! ## Stores with limited room -/

namespace Store

theorem fitting_nil (s : Store) : s.fitting [] = [] := by
  rw [fitting]
  split
  · rfl
  · exact List.take_nil

/-- A text for which there is not enough room. -/
abbrev Cuts (s : Store) (t : Text) : Prop := (s.fitting t).length < t.length

/-- A write takes its bytes from the room left, as far as it goes. -/
theorem fitting_write {s : Store} {limit : Nat} (h : s.limit = some limit) (t rest : Text) :
    (write s t).2.fitting rest = rest.take (limit - s.written.length - t.length) := by
  have hroom : limit - (s.written ++ t.take (limit - s.written.length)).length =
      limit - s.written.length - t.length := by
    rw [List.length_append, List.length_take]
    omega
  simp only [fitting, write, h]
  rw [hroom]

/-- What fits of a text that goes on is what fits of its beginning and, after
that is written, of the rest. -/
theorem fitting_append (s : Store) (t rest : Text) :
    s.fitting (t ++ rest) = s.fitting t ++ (write s t).2.fitting rest := by
  cases h : s.limit with
  | none => simp only [fitting, write, h]
  | some limit =>
    rw [fitting_write h]
    simp only [fitting, h]
    rw [List.take_append]

/-- After a write that was cut nothing fits. -/
theorem fitting_of_cuts {s : Store} {t : Text} (hcuts : s.Cuts t) (rest : Text) :
    (write s t).2.fitting rest = [] := by
  cases h : s.limit with
  | none =>
    simp only [Cuts, fitting, h] at hcuts
    exact absurd hcuts (Nat.lt_irrefl _)
  | some limit =>
    simp only [Cuts, fitting, h, List.length_take] at hcuts
    have hroom : limit - s.written.length - t.length = 0 := by omega
    rw [fitting_write h, hroom, List.take_zero]

theorem length_fitting_le (s : Store) (t : Text) : (s.fitting t).length ≤ t.length := by
  rw [fitting]
  split
  · exact le_rfl
  · exact List.length_take_le' _ _

/-- An empty store cuts the texts that are longer than its limit. -/
theorem cuts_iff (limit : Nat) (lenient : Bool) (t : Text) :
    ({ limit := some limit, lenient } : Store).Cuts t ↔ limit < t.length := by
  simp [Cuts, fitting]

theorem not_cuts_nil (s : Store) : ¬ s.Cuts [] := Nat.not_lt_zero _

/-- A text is cut if its beginning is, or after that is written the rest. -/
theorem cuts_append (s : Store) (t rest : Text) :
    s.Cuts (t ++ rest) ↔ s.Cuts t ∨ (write s t).2.Cuts rest := by
  have ht := s.length_fitting_le t
  have hrest := (write s t).2.length_fitting_le rest
  rw [Cuts, Cuts, Cuts, s.fitting_append, List.length_append, List.length_append]
  omega

/-- Only a strict store fails, and it fails when a write is cut. -/
theorem error_write (s : Store) (t : Text) :
    (write s t).1.error.isSome = true ↔ s.lenient = false ∧ s.Cuts t := by
  by_cases h : s.Cuts t ∧ s.lenient = false
  · simp [write, h]
  · have hnot : ¬ (s.lenient = false ∧ s.Cuts t) := fun hs => h hs.symm
    simp [write, h, hnot]

theorem cuts_of_error {s : Store} {t : Text} {e : Failure} (h : (write s t).1.error = some e) :
    s.lenient = false ∧ s.Cuts t :=
  (s.error_write t).mp (by rw [h]; rfl)

theorem not_cuts_of_no_error {s : Store} {t : Text} (h : (write s t).1.error = none)
    (hstrict : s.lenient = false) : ¬ s.Cuts t := by
  intro hcuts
  have hsome := (s.error_write t).mpr ⟨hstrict, hcuts⟩
  rw [h] at hsome
  cases hsome

end Store

namespace Program

/-- A store takes what fits of the whole text, and counts its bytes. -/
theorem writeTo_store (p : Program) (s : Store) :
    (p.writeTo Store.write s).1.taken = .ofNat (s.fitting p.text).length ∧
      (p.writeTo Store.write s).2.written = s.written ++ s.fitting p.text := by
  induction p generalizing s with
  | nil =>
    have htext : text [] = [] := rfl
    rw [htext, s.fitting_nil, List.append_nil]
    exact ⟨rfl, rfl⟩
  | cons i rest ih =>
    rw [text_cons, s.fitting_append]
    cases herror : (Store.write s i.text).1.error with
    | some e =>
      rw [writeTo_cons_of_error herror, Store.fitting_of_cuts (Store.cuts_of_error herror).2,
        List.append_nil]
      exact ⟨rfl, rfl⟩
    | none =>
      obtain ⟨htaken, hwritten⟩ := ih (Store.write s i.text).2
      rw [writeTo_cons_of_none herror, List.length_append, Int64.ofNat_add, ← List.append_assoc]
      exact ⟨congrArg ((Store.write s i.text).1.taken + ·) htaken, hwritten⟩

/-- A strict store fails exactly when the text does not fit, a lenient one never. -/
theorem error_writeTo_store (p : Program) (s : Store) :
    (p.writeTo Store.write s).1.error.isSome = true ↔ s.lenient = false ∧ s.Cuts p.text := by
  induction p generalizing s with
  | nil => exact iff_of_false Bool.false_ne_true fun h => s.not_cuts_nil h.2
  | cons i rest ih =>
    rw [text_cons, s.cuts_append]
    cases herror : (Store.write s i.text).1.error with
    | some e =>
      obtain ⟨hstrict, hcuts⟩ := Store.cuts_of_error herror
      rw [writeTo_cons_of_error herror, herror]
      exact iff_of_true rfl ⟨hstrict, .inl hcuts⟩
    | none =>
      rw [writeTo_cons_of_none herror]
      refine (ih _).trans (and_congr_right fun hstrict => ?_)
      exact (or_iff_right (Store.not_cuts_of_no_error herror hstrict)).symm

/-- Without a failure every line is offered. -/
theorem calls_of_no_error {p : Program} {s : Store} (h : (p.writeTo Store.write s).1.error = none) :
    (p.writeTo Store.write s).2.calls = s.calls + p.length := by
  induction p generalizing s with
  | nil => rfl
  | cons i rest ih =>
    cases herror : (Store.write s i.text).1.error with
    | some e =>
      rw [writeTo_cons_of_error herror, herror] at h
      cases h
    | none =>
      rw [writeTo_cons_of_none herror] at h ⊢
      have hnext : (Store.write s i.text).2.calls = s.calls + 1 := rfl
      rw [ih h, hnext, List.length_cons]
      omega

/-- With a failure, the writes are those of the shortest beginning of the
program that does not fit. -/
theorem calls_of_error {p : Program} {s : Store} {e : Store.Failure}
    (h : (p.writeTo Store.write s).1.error = some e) :
    ∃ n, (p.writeTo Store.write s).2.calls = s.calls + n ∧
      IsLeast {k | s.Cuts (text (p.take k))} n := by
  induction p generalizing s with
  | nil => cases h
  | cons i rest ih =>
    cases herror : (Store.write s i.text).1.error with
    | some e =>
      refine ⟨1, by rw [writeTo_cons_of_error herror]; rfl, ?_, fun k hk => ?_⟩
      · have hone : text ((i :: rest).take 1) = i.text := by simp [text]
        change s.Cuts _
        rw [hone]
        exact (Store.cuts_of_error herror).2
      · rcases k with _ | k
        · exact absurd hk s.not_cuts_nil
        · omega
    | none =>
      rw [writeTo_cons_of_none herror] at h ⊢
      -- The first line fits, so a longer beginning is cut exactly if its rest is.
      have hsplit : ∀ k, s.Cuts (text ((i :: rest).take (k + 1))) ↔
          (Store.write s i.text).2.Cuts (text (rest.take k)) := by
        intro k
        have hstrict := ((error_writeTo_store rest _).mp (by rw [h]; rfl)).1
        rw [List.take_succ_cons, text_cons, s.cuts_append]
        exact or_iff_right (Store.not_cuts_of_no_error herror hstrict)
      obtain ⟨n, hcalls, hmem, hleast⟩ := ih h
      refine ⟨n + 1, ?_, (hsplit n).mpr hmem, fun k hk => ?_⟩
      · have hnext : (Store.write s i.text).2.calls = s.calls + 1 := rfl
        rw [hcalls, hnext]
        omega
      · rcases k with _ | k
        · exact absurd hk s.not_cuts_nil
        · have hle := hleast ((hsplit k).mp hk)
          omega

/-! ## Main statement -/

/-- Whatever the writer, the lines offered are those up to the first that fails, all if none does;
the count is the sum of the answers to them, taken as a word, so that it is the sum itself wherever
that is a word, and the failure is the first one. A store that is not limited gets the whole text.
One with room for so many bytes gets the first bytes of the text, and they are counted. If it is
strict, writing fails exactly when the text is longer, and then as many writes were tried as the
shortest beginning of the program that is too long has lines, otherwise one for each line. If it is
lenient, writing never fails and every line is offered. -/
theorem writing_accounts_for_bytes (p : Program) :
    (∀ {σ ε : Type} (write : Writer σ ε) (s : σ),
      let texts := p.map Instr.text
      let answers := write.answers s texts
      ∃ (record : List (Text × WriteReply ε)) (sum : Int),
        p.writeTo write.recorded (s, []) = ((p.writeTo write s).1, (p.writeTo write s).2, record) ∧
        record.map Prod.fst = texts.take (writesMade answers) ∧
        record.map Prod.snd = answers.take (writesMade answers) ∧
        sum = (record.map fun x => x.2.taken.toInt).sum ∧
        (p.writeTo write s).1.taken = .ofInt sum ∧
        (Int64.minValue.toInt ≤ sum → sum ≤ Int64.maxValue.toInt →
          (p.writeTo write s).1.taken.toInt = sum) ∧
        (p.writeTo write s).1.error = answers.findSome? (·.error)) ∧
    (p.writeTo Store.write {}).2.written = p.text ∧
    ∀ limit lenient,
      let run := p.writeTo Store.write { limit := some limit, lenient }
      run.2.written = p.text.take limit ∧ run.1.taken = .ofNat (min limit p.text.length) ∧
      ((min limit p.text.length : Nat) ≤ Int64.maxValue.toInt →
        run.1.taken.toInt = (min limit p.text.length : Nat)) ∧
      (lenient = false → (run.1.error.isSome = true ↔ limit < p.text.length) ∧
        (limit < p.text.length → IsLeast {k | limit < (text (p.take k)).length} run.2.calls) ∧
        (p.text.length ≤ limit → run.2.calls = p.length)) ∧
      (lenient = true → run.1.error = none ∧ run.2.calls = p.length) := by
  refine ⟨?_, (writeTo_store p {}).2, fun limit lenient => ?_⟩
  · intro σ ε write s texts answers
    have hlength : answers.length = texts.length := write.length_answers s texts
    have hsnd : ((texts.zip answers).take (writesMade answers)).map Prod.snd =
        answers.take (writesMade answers) := by
      rw [List.map_take, List.map_snd_zip hlength.le]
    have hsum : (p.writeTo write s).1.taken =
        .ofInt (((texts.zip answers).take (writesMade answers)).map fun x =>
          x.2.taken.toInt).sum := by
      calc (p.writeTo write s).1.taken
          = .ofInt ((answers.take (writesMade answers)).map (·.taken.toInt)).sum := by
            rw [writeTo_reply]
        _ = _ := by
            rw [← hsnd, List.map_map]
            rfl
    refine ⟨(texts.zip answers).take (writesMade answers), _, ?_, ?_, hsnd, rfl, hsum, ?_, ?_⟩
    · exact writeTo_recorded write p s []
    · rw [List.map_take, List.map_fst_zip hlength.ge]
    · intro hmin hmax
      rw [Int64.toInt_minValue] at hmin
      rw [Int64.toInt_maxValue] at hmax
      rw [hsum, Int64.toInt_ofInt_of_le hmin (by omega)]
    · rw [writeTo_reply]
  · intro run
    obtain ⟨htaken, hwritten⟩ := writeTo_store p { limit := some limit, lenient }
    have herror := error_writeTo_store p { limit := some limit, lenient }
    rw [Store.cuts_iff] at herror
    have hcount : run.1.taken = .ofNat (min limit p.text.length) :=
      htaken.trans (congrArg Int64.ofNat List.length_take)
    have hclean : ¬ (lenient = false ∧ limit < p.text.length) → run.1.error = none := by
      intro hnot
      rwa [← Option.not_isSome_iff_eq_none, herror]
    refine ⟨hwritten, hcount, fun hfits => ?_, fun hstrict => ?_, fun hlenient => ?_⟩
    · rw [Int64.toInt_maxValue] at hfits
      rw [hcount, Int64.toInt_ofNat_of_lt (by omega)]
    · have hfails : run.1.error.isSome = true ↔ limit < p.text.length :=
        herror.trans (and_iff_right hstrict)
      refine ⟨hfails, fun hlong => ?_, fun hshort => ?_⟩
      · obtain ⟨e, he⟩ := Option.isSome_iff_exists.mp (hfails.mpr hlong)
        obtain ⟨n, hcalls, hleast⟩ := calls_of_error he
        simp only [Store.cuts_iff] at hleast
        rw [hcalls]
        exact (Nat.zero_add n).symm ▸ hleast
      · have hnone := hclean fun h => Nat.not_lt.mpr hshort h.2
        exact (calls_of_no_error hnone).trans (Nat.zero_add _)
    · have hnone := hclean fun h => Bool.false_ne_true (h.1.symm.trans hlenient)
      exact ⟨hnone, (calls_of_no_error hnone).trans (Nat.zero_add _)⟩

/-- A jump, a marker and a jump: lines of 7, 3 and 7 bytes. -/
def threeLines : Program := [.jump "a", .label "b", .jump "c"]

/-- A writer that counts the largest word for every line, and fails at one with a colon. -/
def boastful : Writer Unit Text := fun _ t =>
  (⟨Int64.maxValue, if 58 ∈ t then some "colon" else none⟩, ())

/-- With room for just the first line, a strict store fails at the second one, and a lenient store
is offered all three; seven bytes are counted. A writer that fails there too and counts the largest
word twice is counted as -2. -/
theorem threeLines_end_at_second :
    let run lenient := threeLines.writeTo Store.write { limit := some 7, lenient }
    (run false).1.error.isSome = true ∧ (run false).2.calls = 2 ∧
      (run false).2.written = "goto a\n" ∧ (run false).1.taken.toInt = 7 ∧
      (run true).1.error = none ∧ (run true).2.calls = 3 ∧
      (threeLines.writeTo boastful ()).1.error = some "colon" ∧
      (threeLines.writeTo boastful ()).1.taken = -2 := by
  intro run
  obtain ⟨hwriter, -, hstore⟩ := writing_accounts_for_bytes threeLines
  obtain ⟨hwritten, -, hcount, hstrict, -⟩ := hstore 7 false
  obtain ⟨-, -, -, -, hlenient⟩ := hstore 7 true
  obtain ⟨record, sum, -, -, hanswers, rfl, hsum, -, hcolon⟩ := hwriter boastful ()
  have hcounts : record.map (fun x => x.2.taken.toInt) =
      [Int64.maxValue.toInt, Int64.maxValue.toInt] := by
    calc record.map (fun x => x.2.taken.toInt)
        = (record.map Prod.snd).map (·.taken.toInt) := by rw [List.map_map]; rfl
      _ = [Int64.maxValue.toInt, Int64.maxValue.toInt] := by
        rw [hanswers]
        decide +kernel
  rw [hcounts] at hsum
  have hlong : 7 < threeLines.text.length := by decide +kernel
  have hleast : IsLeast {k | 7 < (text (threeLines.take k)).length} 2 := by
    refine ⟨by decide +kernel, fun k hk => ?_⟩
    by_contra hlt
    have hsmall : k = 0 ∨ k = 1 := by omega
    rcases hsmall with rfl | rfl
    · exact absurd hk (by decide +kernel)
    · exact absurd hk (by decide +kernel)
  obtain ⟨hfails, hcalls, -⟩ := hstrict rfl
  have hfirst : threeLines.text.take 7 = "goto a\n" := by decide +kernel
  have hseven : min 7 threeLines.text.length = 7 := by omega
  rw [hseven] at hcount
  obtain ⟨hnone, hthree⟩ := hlenient rfl
  exact ⟨hfails.mpr hlong, (hcalls hlong).unique hleast, hwritten.trans hfirst, hcount (by decide),
    hnone, hthree, hcolon.trans (by decide +kernel), hsum.trans (by decide +kernel)⟩

end Program

end ThreeAddress
