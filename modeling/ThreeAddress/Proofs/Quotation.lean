import Mathlib.Algebra.GroupWithZero.Nat
import ThreeAddress.Proofs.Names
import ThreeAddress.Text.Quoted

/-!
# Quoted texts can be read back

A quoted text has no length before it and may show anything between its quotes. Every scalar value
has one encoding, in which no quote and no backslash occurs unless it is the whole of it, so bytes
that are shown as they are can be read one by one; and each escape tells by its letter how many
digits belong to it. Main statement: reading a quoted text gives back its bytes and stops behind its
last quote, whatever follows.
-/

namespace ThreeAddress.Text

/-! ## Encodings -/

/-- The last `n` groups of six bits of a number, each in a continuation byte. -/
def trail : (n code : Nat) → Text
  | 0, _ => []
  | n + 1, code => UInt8.ofNat (code / 64 ^ n % 64 + 0x80) :: trail n code

/-- Reading continuation bytes: they hold the last bits of the number, and what
was read before the rest. -/
theorem Piece.continue?_eq_some {n code code' : Nat} {t : Text}
    (h : continue? n code t = some code') :
    t.take n = trail n code' ∧ code' / 64 ^ n = code := by
  induction n generalizing code t with
  | zero =>
    cases h
    exact ⟨rfl, by rw [Nat.pow_zero, Nat.div_one]⟩
  | succ n ih =>
    cases t with
    | nil => cases h
    | cons b rest =>
      rw [continue?] at h
      split at h
      · rename_i hb
        rw [UInt8.le_iff_toNat_le, UInt8.lt_iff_toNat_lt] at hb
        have hrange : 0x80 ≤ b.toNat ∧ b.toNat < 0xC0 := hb
        obtain ⟨htrail, hcode⟩ := ih h
        have hgroup : code' / 64 ^ n % 64 + 0x80 = b.toNat := by omega
        refine ⟨?_, ?_⟩
        · rw [List.take_succ_cons, trail, htrail, hgroup, UInt8.ofNat_toNat]
        · rw [Nat.pow_succ, ← Nat.div_div_eq_div_mul, hcode]
          omega
      · cases h

theorem val_ofNat_of_isValidChar {code : Nat} (h : code.isValidChar) :
    (Char.ofNat code).val.toNat = code := by
  rw [Char.ofNat, dif_pos h]
  rfl

/-- The bytes that encode a scalar value: a lead byte with the first bits and
the trail with the others. -/
theorem ofScalar_of_isValidChar {code : Nat} (h : code.isValidChar) :
    ofScalar code =
      if code < 0x80 then [UInt8.ofNat code]
      else if code < 0x800 then UInt8.ofNat (0xC0 + code / 64 ^ 1) :: trail 1 code
      else if code < 0x10000 then UInt8.ofNat (0xE0 + code / 64 ^ 2) :: trail 2 code
      else UInt8.ofNat (0xF0 + code / 64 ^ 3) :: trail 3 code := by
  have hlt : code < 0x110000 := by rcases h with h | h <;> omega
  rw [ofScalar, if_pos h, String.utf8EncodeChar]
  simp only [val_ofNat_of_isValidChar h, trail, Nat.reducePow, Nat.div_one]
  by_cases h1 : code < 0x80
  · rw [if_pos (by omega), if_pos h1]
  rw [if_neg (by omega), if_neg h1]
  by_cases h2 : code < 0x800
  · have hlead : code / 64 % 32 + 192 = 192 + code / 64 := by omega
    rw [if_pos (by omega), if_pos h2, hlead]
  rw [if_neg (by omega), if_neg h2]
  by_cases h3 : code < 0x10000
  · have hlead : code / 4096 % 16 + 224 = 224 + code / 4096 := by omega
    rw [if_pos (by omega), if_pos h3, hlead]
  · have hlead : code / 262144 % 8 + 240 = 240 + code / 262144 := by omega
    rw [if_neg (by omega), if_neg h3, hlead]

/-- The lead bytes: an ASCII byte stands alone, and the others tell how many bytes follow. -/
theorem Piece.lead?_eq_some {b : UInt8} {lead : Lead} (h : lead? b = some lead) :
    (b.toNat < 0x80 ∧ lead = ⟨0, b.toNat, 0⟩) ∨
    (∃ bits < 32, b = UInt8.ofNat (0xC0 + bits) ∧ lead = ⟨1, bits, 0x80⟩) ∨
    (∃ bits < 16, b = UInt8.ofNat (0xE0 + bits) ∧ lead = ⟨2, bits, 0x800⟩) ∨
    ∃ bits < 8, b = UInt8.ofNat (0xF0 + bits) ∧ lead = ⟨3, bits, 0x10000⟩ := by
  have hbits : ∀ first ≤ b.toNat, b = UInt8.ofNat (first + (b.toNat - first)) := by
    intro first hfirst
    rw [Nat.add_sub_cancel' hfirst, UInt8.ofNat_toNat]
  simp only [lead?, UInt8.lt_iff_toNat_lt, UInt8.reduceToNat] at h
  split at h
  · rename_i hb
    cases h
    exact .inl ⟨hb, rfl⟩
  split at h
  · cases h
  split at h
  · cases h
    exact .inr (.inl ⟨_, by omega, hbits _ (by omega), rfl⟩)
  split at h
  · cases h
    exact .inr (.inr (.inl ⟨_, by omega, hbits _ (by omega), rfl⟩))
  split at h
  · cases h
    exact .inr (.inr (.inr ⟨_, by omega, hbits _ (by omega), rfl⟩))
  · cases h

/-- A scalar value at the front of a text stands there in its one encoding. -/
theorem Piece.front_scalar {b : UInt8} {rest encoding : Text} {code : Nat}
    (h : front b rest = scalar code encoding) : code.isValidChar ∧ encoding = ofScalar code := by
  rw [front] at h
  split at h
  · cases h
  rename_i lead hlead
  split at h
  · cases h
  rename_i read hread
  split at h
  · rename_i hvalid
    cases h
    obtain ⟨hleast, hscalar⟩ := hvalid
    obtain ⟨htrail, hbits⟩ := continue?_eq_some hread
    refine ⟨hscalar, ?_⟩
    rw [htrail, ofScalar_of_isValidChar hscalar]
    rcases lead?_eq_some hlead with ⟨hb, rfl⟩ | ⟨bits, hlt, rfl, rfl⟩ | ⟨bits, hlt, rfl, rfl⟩ |
      ⟨bits, hlt, rfl, rfl⟩ <;> dsimp only at hbits hleast ⊢
    · have hcode : code = b.toNat := by rw [← hbits, Nat.pow_zero, Nat.div_one]
      rw [hcode, if_pos hb, trail, UInt8.ofNat_toNat]
    · rw [if_neg (by omega), if_pos (by omega), hbits]
    · rw [if_neg (by omega), if_neg (by omega), if_pos (by omega), hbits]
    · rw [if_neg (by omega), if_neg (by omega), if_neg (by omega), hbits]
  · cases h

theorem le_of_mem_trail {n code : Nat} {b : UInt8} (h : b ∈ trail n code) : 0x80 ≤ b.toNat := by
  induction n with
  | zero => cases h
  | succ n ih =>
    rcases List.mem_cons.mp h with rfl | hmem
    · rw [UInt8.toNat_ofNat']
      omega
    · exact ih hmem

/-- An ASCII byte occurs in an encoding only as the whole of it. -/
theorem eq_of_mem_ofScalar {code : Nat} (hcode : code.isValidChar) {b : UInt8}
    (h : b ∈ ofScalar code) (hb : b.toNat < 0x80) : code = b.toNat := by
  have hlt : code < 0x110000 := by rcases hcode with h | h <;> omega
  have hlead : ∀ {lead n : Nat}, 0x80 ≤ lead → lead < 0x100 →
      b ∉ UInt8.ofNat lead :: trail n code := by
    intro lead n hle hlt hmem
    rcases List.mem_cons.mp hmem with rfl | hmem
    · rw [UInt8.toNat_ofNat', Nat.mod_eq_of_lt hlt] at hb
      omega
    · exact absurd (le_of_mem_trail hmem) (by omega)
  rw [ofScalar_of_isValidChar hcode] at h
  split at h
  · rw [List.mem_singleton.mp h, UInt8.toNat_ofNat', Nat.mod_eq_of_lt (by omega)]
  split at h
  · exact absurd h (hlead (by omega) (by omega))
  split at h
  · exact absurd h (hlead (by omega) (by omega))
  · exact absurd h (hlead (by omega) (by omega))

/-! ## Hexadecimal numbers -/

/-- The value of a hexadecimal digit. -/
def hexDigit (b : UInt8) : Nat := if isDigit b then b.toNat - 48 else b.toNat - 87

/-- The number that hexadecimal digits show. -/
def hexValue (t : Text) : Nat := t.foldl (fun n b => n * 16 + hexDigit b) 0

theorem hexValue_append_singleton (t : Text) (b : UInt8) :
    hexValue (t ++ [b]) = hexValue t * 16 + hexDigit b :=
  List.foldl_append

theorem hexDigit_digitChar {d : Nat} (h : d < 16) : hexDigit d.digitChar.toUInt8 = d := by
  have hall : ∀ d < 16, hexDigit d.digitChar.toUInt8 = d := by decide
  exact hall d h

theorem hexValue_toDigits (n : Nat) : hexValue ((Nat.toDigits 16 n).map Char.toUInt8) = n := by
  induction n using Nat.strongRecOn with
  | ind n ih =>
    rw [Nat.toDigits_eq_if (by decide)]
    split
    · rename_i hlt
      exact (Nat.zero_add _).trans (hexDigit_digitChar hlt)
    · rename_i hge
      have hdiv : n / 16 < n := by omega
      have hmod : n % 16 < 16 := by omega
      rw [List.map_append, List.map_singleton, hexValue_append_singleton, ih (n / 16) hdiv,
        hexDigit_digitChar hmod]
      omega

/-- Zeros in front do not matter. -/
theorem hexValue_replicate_append (n : Nat) (t : Text) :
    hexValue (List.replicate n 0x30 ++ t) = hexValue t := by
  induction n with
  | zero => rfl
  | succ n ih =>
    rw [List.replicate_succ, List.cons_append]
    exact ih

theorem hexValue_ofHex (width n : Nat) : hexValue (ofHex width n) = n :=
  (hexValue_replicate_append _ _).trans (hexValue_toDigits n)

theorem length_ofHex {width n : Nat} (hwidth : 0 < width) (hn : n < 16 ^ width) :
    (ofHex width n).length = width := by
  have hle : (Nat.toDigits 16 n).length ≤ width :=
    (Nat.length_toDigits_le_iff (by decide) hwidth).mpr hn
  rw [ofHex, List.length_append, List.length_replicate, List.length_map]
  omega

/-! ## Reading a quoted text back -/

/-- The byte around a quoted text. -/
def quoteMark : UInt8 := 0x22

/-- The byte before an escape. -/
def backslash : UInt8 := 0x5c

/-- What a letter behind a backslash makes of the digits behind it, and how many of them there
are. -/
def hexEscape? (letter : UInt8) : Option (Nat × (Nat → Text)) :=
  if letter = 0x78 then some (2, fun n => [UInt8.ofNat n])
  else if letter = 0x75 then some (4, ofScalar)
  else if letter = 0x55 then some (8, ofScalar)
  else none

/-- The byte that a letter behind a backslash stands for; every other byte stands for itself. -/
def unescapeLetter (letter : UInt8) : UInt8 :=
  match letter with
  | 0x61 => 0x07
  | 0x62 => 0x08
  | 0x74 => 0x09
  | 0x6e => 0x0a
  | 0x76 => 0x0b
  | 0x66 => 0x0c
  | 0x72 => 0x0d
  | b => b

/-- What the text behind a backslash starts with, and how many of its bytes stand for it. -/
def unescape : Text → Text × Nat
  | [] => ([], 0)
  | letter :: rest =>
    match hexEscape? letter with
    | some (width, decode) => (decode (hexValue (rest.take width)), width + 1)
    | none => ([unescapeLetter letter], 1)

/-- Puts bytes before a text that was read. -/
def putBefore (bytes : Text) (read : Text × Text) : Text × Text := (bytes ++ read.1, read.2)

/-- Reads a quoted text behind its first quote: gives the text and what
stands behind the last quote. -/
def unquote? : Text → Option (Text × Text)
  | [] => none
  | b :: rest =>
    if b = quoteMark then some ([], rest)
    else if b = backslash then
      (unquote? (rest.drop (unescape rest).2)).map (putBefore (unescape rest).1)
    else (unquote? rest).map (putBefore [b])
  termination_by t => t.length
  decreasing_by
    all_goals simp only [List.length_drop, List.length_cons]
    all_goals omega

theorem unquote?_quoteMark (rest : Text) : unquote? (quoteMark :: rest) = some ([], rest) := by
  rw [unquote?, if_pos rfl]

theorem unquote?_backslash (rest : Text) :
    unquote? (backslash :: rest) =
      (unquote? (rest.drop (unescape rest).2)).map (putBefore (unescape rest).1) := by
  rw [unquote?, if_neg (by decide), if_pos rfl]

/-- Bytes other than quotes and backslashes are read as they are. -/
theorem unquote?_plain {t : Text} (hquote : quoteMark ∉ t) (hbackslash : backslash ∉ t)
    (rest : Text) :
    unquote? (t ++ rest) = (unquote? rest).map (putBefore t) := by
  induction t with
  | nil =>
    have hnothing : putBefore [] = id := rfl
    rw [hnothing, Option.map_id, id, List.nil_append]
  | cons b t ih =>
    rw [List.mem_cons, not_or] at hquote hbackslash
    rw [List.cons_append, unquote?, if_neg (Ne.symm hquote.1), if_neg (Ne.symm hbackslash.1),
      ih hquote.2 hbackslash.2, Option.map_map]
    rfl

theorem unquote?_letter {letter : UInt8} (h : hexEscape? letter = none) (rest : Text) :
    unquote? (backslash :: letter :: rest) =
      (unquote? rest).map (putBefore [unescapeLetter letter]) := by
  have hread : unescape (letter :: rest) = ([unescapeLetter letter], 1) := by rw [unescape, h]
  rw [unquote?_backslash, hread, List.drop_one, List.tail_cons]

/-- An escape with digits takes as many of them as its letter tells, whatever follows. -/
theorem unquote?_hex (letter : UInt8) {width : Nat} {decode : Nat → Text}
    (h : hexEscape? letter = some (width, decode)) (hwidth : 0 < width) {n : Nat}
    (hn : n < 16 ^ width) (rest : Text) :
    unquote? (backslash :: letter :: (ofHex width n ++ rest)) =
      (unquote? rest).map (putBefore (decode n)) := by
  have hlength := length_ofHex hwidth hn
  have hread : unescape (letter :: (ofHex width n ++ rest)) = (decode n, width + 1) := by
    rw [unescape, h]
    dsimp only
    rw [List.take_left' hlength, hexValue_ofHex]
  rw [unquote?_backslash, hread, List.drop_succ_cons, List.drop_left' hlength]

/-- A piece as it stands in a text: a scalar value has its one encoding. -/
def Piece.Proper : Piece → Prop
  | scalar code encoding => code.isValidChar ∧ encoding = ofScalar code
  | stray _ => True

theorem proper_of_mem_piecesAfter {skip : Nat} {t : Text} {p : Piece} (h : p ∈ piecesAfter skip t) :
    p.Proper := by
  induction t generalizing skip with
  | nil => cases h
  | cons b rest ih =>
    cases skip with
    | succ skip => exact ih h
    | zero =>
      rcases List.mem_cons.mp h with rfl | hmem
      · cases hp : Piece.front b rest with
        | scalar code encoding => exact Piece.front_scalar hp
        | stray b => trivial
      · exact ih hmem

/-- The escape of a scalar value is read as the encoding of that value. -/
theorem unquote?_escape {code : Nat} (hcode : code.isValidChar) (rest : Text) :
    unquote? (escape code ++ rest) = (unquote? rest).map (putBefore (ofScalar code)) := by
  have hlt : code < 0x110000 := by rcases hcode with h | h <;> omega
  rw [escape]
  split
  · rename_i letter hletter
    unfold escapeLetter? at hletter
    split at hletter <;> cases hletter
    all_goals exact unquote?_letter rfl rest
  · split
    · rename_i hcontrol
      have hascii : ofScalar code = [UInt8.ofNat code] := by
        rw [ofScalar_of_isValidChar hcode, if_pos (by omega)]
      rw [hascii, List.append_assoc]
      exact unquote?_hex 0x78 rfl (by decide) (by omega) rest
    split
    · rw [List.append_assoc]
      exact unquote?_hex 0x75 rfl (by decide) (by omega) rest
    · rw [List.append_assoc]
      exact unquote?_hex 0x55 rfl (by decide) (by omega) rest

/-- A piece as it is shown is read as its bytes. -/
theorem unquote?_piece {p : Piece} (hp : p.Proper) (rest : Text) :
    unquote? (p.quoted quoteMark ++ rest) = (unquote? rest).map (putBefore p.bytes) := by
  cases p with
  | stray b =>
    have hb : b.toNat < 16 ^ 2 := b.toNat_lt
    have hbyte : [UInt8.ofNat b.toNat] = [b] := by rw [UInt8.ofNat_toNat]
    rw [Piece.quoted, Piece.bytes, List.append_assoc, ← hbyte]
    exact unquote?_hex 0x78 rfl (by decide) hb rest
  | scalar code encoding =>
    obtain ⟨hcode, rfl⟩ := hp
    rw [Piece.quoted, Piece.bytes]
    split
    · rename_i hmark
      rcases hmark with rfl | rfl
      · exact unquote?_letter rfl rest
      · exact unquote?_letter rfl rest
    rename_i hmark
    rw [not_or] at hmark
    split
    · -- A quote or a backslash among the bytes shown would be the scalar value itself.
      refine unquote?_plain (fun hmem => ?_) (fun hmem => ?_) rest
      · exact hmark.1 (eq_of_mem_ofScalar hcode hmem (by decide))
      · exact hmark.2 (eq_of_mem_ofScalar hcode hmem (by decide))
    · exact unquote?_escape hcode rest

theorem unquote?_pieces {ps : List Piece} (hps : ∀ p ∈ ps, p.Proper) (rest : Text) :
    unquote? (ps.flatMap (Piece.quoted quoteMark) ++ quoteMark :: rest) =
      some (ps.flatMap Piece.bytes, rest) := by
  induction ps with
  | nil => exact unquote?_quoteMark rest
  | cons p ps ih =>
    obtain ⟨hp, hps⟩ := List.forall_mem_cons.mp hps
    rw [List.flatMap_cons, List.flatMap_cons, List.append_assoc, unquote?_piece hp, ih hps]
    rfl

/-- Reading a quoted text behind its first quote gives the text and what follows. -/
theorem unquote?_quoted (t rest : Text) : unquote? ((t.quoted ++ rest).tail) = some (t, rest) := by
  have hbody : (t.quoted ++ rest).tail = t.pieces.flatMap (Piece.quoted quoteMark) ++
      quoteMark :: rest := by
    simp only [quoted, List.append_assoc]
    rfl
  have hproper : ∀ p ∈ t.pieces, p.Proper := fun p hp => proper_of_mem_piecesAfter hp
  rw [hbody, unquote?_pieces hproper, flatMap_bytes_pieces]

/-- A text tells the quoted text that it starts with, and what follows. -/
theorem quoted_append_inj {a b s t : Text} (h : a.quoted ++ s = b.quoted ++ t) : a = b ∧ s = t := by
  have hread := unquote?_quoted a s
  rw [h, unquote?_quoted b t] at hread
  cases hread
  exact ⟨rfl, rfl⟩

/-- A byte that starts no encoding, and the four characters that its escape shows, are told
apart. -/
example : quoted [0xff] = "\"\\xff\"" ∧ quoted "\\xff" = "\"\\\\xff\"" := by
  decide +kernel

end ThreeAddress.Text
