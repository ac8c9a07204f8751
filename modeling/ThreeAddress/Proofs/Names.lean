import Mathlib.Data.List.Nodup
import ThreeAddress.Request

/-!
# Numbered names

A decimal text determines its number and ends where no digit follows, so two names of one category
are equal only when their numbers are. A counter below the largest word advances by exactly one; at
the largest word it gives no name and stays where it is. Requests for instructions follow: the ones
that store a result need a temporary, the others cannot fail.
-/

namespace ThreeAddress

namespace Text

/-- Whether a byte is a decimal digit. -/
def isDigit (b : UInt8) : Bool := 48 ≤ b ∧ b ≤ 57

/-- The byte of a digit is its code. -/
theorem toNat_toUInt8_of_isDigit {c : Char} (h : c.isDigit = true) :
    c.toUInt8.toNat = c.toNat ∧ 48 ≤ c.toNat ∧ c.toNat ≤ 57 := by
  simp only [Char.isDigit, Bool.and_eq_true, decide_eq_true_eq, ge_iff_le,
    UInt32.le_iff_toNat_le] at h
  have hcode : 48 ≤ c.toNat ∧ c.toNat ≤ 57 := h
  have hmod : c.toUInt8.toNat = c.toNat % 2 ^ 8 := UInt32.toNat_toUInt8 c.val
  exact ⟨by rw [hmod, Nat.mod_eq_of_lt (by omega)], hcode⟩

/-- The digits of a natural number are recovered from its decimal text. -/
theorem map_ofNat_eq_toDigits (n : Nat) :
    (ofNat n).map (fun b => Char.ofNat b.toNat) = Nat.toDigits 10 n := by
  rw [ofNat, List.map_map]
  calc (Nat.toDigits 10 n).map ((fun b => Char.ofNat b.toNat) ∘ Char.toUInt8)
      = (Nat.toDigits 10 n).map id := by
        apply List.map_congr_left
        intro c hc
        have hdigit := Nat.isDigit_of_mem_toDigits (by decide) (by decide) hc
        rw [Function.comp_apply, (toNat_toUInt8_of_isDigit hdigit).1, Char.ofNat_toNat, id]
    _ = Nat.toDigits 10 n := List.map_id _

/-- Decimal texts of natural numbers are different for different numbers. -/
theorem ofNat_injective {m n : Nat} (h : ofNat m = ofNat n) : m = n := by
  have hd : Nat.toDigits 10 m = Nat.toDigits 10 n := by
    rw [← map_ofNat_eq_toDigits, ← map_ofNat_eq_toDigits, h]
  rw [← Nat.ofDigitChars_ten_toDigits (n := m), hd, Nat.ofDigitChars_ten_toDigits]

theorem isDigit_of_mem_ofNat {n : Nat} {b : UInt8} (h : b ∈ ofNat n) : isDigit b = true := by
  obtain ⟨c, hc, rfl⟩ := List.mem_map.mp h
  have hdigit := Nat.isDigit_of_mem_toDigits (by decide) (by decide) hc
  obtain ⟨hbyte, hcode⟩ := toNat_toUInt8_of_isDigit hdigit
  rw [isDigit, decide_eq_true_eq, UInt8.le_iff_toNat_le, UInt8.le_iff_toNat_le, hbyte]
  exact hcode

/-- A text before which a number ends: it does not go on with a digit. -/
def Stops (t : Text) : Prop := t.takeWhile isDigit = []

theorem takeWhile_ofNat_append (n : Nat) {t : Text} (ht : t.Stops) :
    (ofNat n ++ t).takeWhile isDigit = ofNat n := by
  rw [List.takeWhile_append_of_pos fun b hb => isDigit_of_mem_ofNat hb, ht, List.append_nil]

/-- A text tells the natural number that it starts with, and what follows. -/
theorem ofNat_append_inj {m n : Nat} {s t : Text} (hs : s.Stops) (ht : t.Stops)
    (h : ofNat m ++ s = ofNat n ++ t) : m = n ∧ s = t := by
  have hdigits : ofNat m = ofNat n := by
    rw [← takeWhile_ofNat_append m hs, h, takeWhile_ofNat_append n ht]
  rw [hdigits] at h
  exact ⟨ofNat_injective hdigits, List.append_cancel_left h⟩

/-- A decimal text of a natural number does not start with a minus sign. -/
theorem ofNat_append_ne_minus (n : Nat) (s t : Text) : ofNat n ++ s ≠ 45 :: t := by
  have hne : ofNat n ≠ [] := by
    rw [ofNat, Ne, List.map_eq_nil_iff]
    exact Nat.toDigits_ne_nil
  obtain ⟨b, rest, hcons⟩ := List.exists_cons_of_ne_nil hne
  have hdigit : isDigit b = true :=
    isDigit_of_mem_ofNat (n := n) (by rw [hcons]; exact List.mem_cons_self)
  intro h
  rw [hcons, List.cons_append, List.cons.injEq] at h
  rw [h.1] at hdigit
  exact absurd hdigit (by decide)

/-- The text of a negative number is a minus sign and the digits. -/
theorem ofInt_negSucc (n : Nat) : ofInt (.negSucc n) = 45 :: ofNat (n + 1) := rfl

/-- A text tells the integer that it starts with, and what follows. -/
theorem ofInt_append_inj {m n : Int} {s t : Text} (hs : s.Stops) (ht : t.Stops)
    (h : ofInt m ++ s = ofInt n ++ t) : m = n ∧ s = t := by
  cases m with
  | ofNat m =>
    cases n with
    | ofNat n =>
      obtain ⟨hmn, hst⟩ := ofNat_append_inj hs ht h
      exact ⟨congrArg Int.ofNat hmn, hst⟩
    | negSucc n => exact absurd h (ofNat_append_ne_minus m s _)
  | negSucc m =>
    cases n with
    | ofNat n => exact absurd h.symm (ofNat_append_ne_minus n t _)
    | negSucc n =>
      rw [ofInt_negSucc, ofInt_negSucc, List.cons_append, List.cons_append, List.cons.injEq] at h
      obtain ⟨hmn, hst⟩ := ofNat_append_inj hs ht h.2
      exact ⟨by rw [Nat.succ.inj hmn], hst⟩

/-- Decimal texts of integers are different for different integers. -/
theorem ofInt_injective {m n : Int} (h : ofInt m = ofInt n) : m = n :=
  (ofInt_append_inj (s := []) (t := []) rfl rfl (by rw [h])).1

/-- A text tells the word that it starts with, and what follows. -/
theorem ofWord_append_inj {v w : Int64} {s t : Text} (hs : s.Stops) (ht : t.Stops)
    (h : ofWord v ++ s = ofWord w ++ t) : v = w ∧ s = t := by
  obtain ⟨hvw, hst⟩ := ofInt_append_inj hs ht h
  exact ⟨Int64.toInt_inj.mp hvw, hst⟩

/-- The text of a word has nothing but digits and a minus sign in it. -/
theorem mem_ofWord {w : Int64} {b : UInt8} (h : b ∈ ofWord w) : b = 45 ∨ isDigit b = true := by
  rw [ofWord] at h
  cases hn : w.toInt with
  | ofNat n =>
    rw [hn] at h
    exact .inr (isDigit_of_mem_ofNat h)
  | negSucc n =>
    rw [hn, ofInt_negSucc, List.mem_cons] at h
    exact h.imp_right isDigit_of_mem_ofNat

end Text

namespace Category

/-- The name of a category that has an integer as its number; numbers have no limit here. -/
def named (c : Category) (n : Int) : Text := c.letter ++ .ofInt n

/-- Names of one category with different numbers are different. -/
theorem named_injective {c : Category} {m n : Int} (h : c.named m = c.named n) : m = n :=
  Text.ofInt_injective (List.append_cancel_left h)

theorem length_letter (c : Category) : c.letter.length = 1 := by
  cases c <;> decide

theorem letter_injective {c d : Category} (h : c.letter = d.letter) : c = d := by
  cases c <;> cases d
  · rfl
  · exact absurd h (by decide)
  · exact absurd h (by decide)
  · rfl

/-- A name tells its category and its number. -/
theorem named_inj {c d : Category} {m n : Int} (h : c.named m = d.named n) : c = d ∧ m = n := by
  have hletters : c.letter = d.letter :=
    List.append_inj_left h (by rw [length_letter, length_letter])
  obtain rfl := letter_injective hletters
  exact ⟨rfl, named_injective h⟩

/-- The names of a category from one number up to, but not including, another. -/
def names (c : Category) (first last : Int) : List Text :=
  (List.range (last - first).toNat).map fun k : Nat => c.named (first + k)

theorem names_self (c : Category) (n : Int) : c.names n n = [] := by
  simp only [names, Int.sub_self, Int.toNat_zero, List.range_zero, List.map_nil]

theorem names_succ (c : Category) (n : Int) : c.names n (n + 1) = [c.named n] := by
  have h : (n + 1 - n).toNat = 1 := by omega
  simp only [names, h, List.range_one, List.map_cons, List.map_nil, Int.cast_ofNat_Int,
    Int.add_zero]

/-- Two stretches of names that meet are one stretch. -/
theorem names_append {first middle last : Int} (c : Category) (h₁ : first ≤ middle)
    (h₂ : middle ≤ last) : c.names first middle ++ c.names middle last = c.names first last := by
  have hlength : (last - first).toNat = (middle - first).toNat + (last - middle).toNat := by omega
  rw [names, names, names, hlength, List.range_add, List.map_append, List.map_map]
  congr 1
  apply List.map_congr_left
  intro k _
  have hk : middle + (k : Int) = first + (((middle - first).toNat + k : Nat) : Int) := by omega
  rw [Function.comp_apply, hk]

/-- A stretch of names starts with its first number. -/
theorem names_cons {first last : Int} (c : Category) (h : first < last) :
    c.names first last = c.named first :: c.names (first + 1) last := by
  have happend := c.names_append (show first ≤ first + 1 by omega) (show first + 1 ≤ last by omega)
  rw [← happend, names_succ, List.singleton_append]

theorem mem_names {c : Category} {first last : Int} {t : Text} :
    t ∈ c.names first last ↔ ∃ k, first ≤ k ∧ k < last ∧ t = c.named k := by
  simp only [names, List.mem_map, List.mem_range]
  constructor
  · rintro ⟨k, hk, rfl⟩
    exact ⟨first + k, by omega, by omega, rfl⟩
  · rintro ⟨k, hfirst, hlast, rfl⟩
    refine ⟨(k - first).toNat, by omega, ?_⟩
    have hk : first + ((k - first).toNat : Int) = k := by omega
    rw [hk]

/-- No name occurs twice in a stretch. -/
theorem nodup_names (c : Category) (first last : Int) : (c.names first last).Nodup := by
  refine List.Nodup.map ?_ List.nodup_range
  intro i j hij
  have h := named_injective hij
  omega

end Category

namespace NameSupply

/-- The largest number that a counter can reach. -/
def top : Int := Int64.maxValue.toInt

theorem toInt_le_top (n : Int64) : n.toInt ≤ top := n.toInt_le

theorem toInt_eq_top_iff (n : Int64) : n.toInt = top ↔ n = Int64.maxValue := Int64.toInt_inj

/-- A counter below the largest word advances by exactly one, without wrapping. -/
theorem toInt_add_one {n : Int64} (h : n ≠ Int64.maxValue) : (n + 1).toInt = n.toInt + 1 := by
  have hne : n.toInt ≠ top := fun he => h ((toInt_eq_top_iff n).mp he)
  have hle := toInt_le_top n
  have hge := n.le_toInt
  have htop : top = 2 ^ 63 - 1 := Int64.toInt_maxValue
  have hone : (1 : Int64).toInt = 1 := by decide
  rw [Int64.toInt_add, hone, Int.bmod_eq_of_le]
  · omega
  · omega

/-- Both counters as integers, by category. -/
def number (s : NameSupply) (c : Category) : Int := (s.counter c).toInt

/-- A counter at the largest word gives no name, and the supply stays as it is. -/
theorem fresh_of_eq_top {c : Category} {s : NameSupply} (h : s.number c = top) :
    s.fresh c = (.error ⟨c⟩, s) := by
  rw [fresh, if_pos ((toInt_eq_top_iff _).mp h)]

/-- A counter below the largest word gives the name with its number. -/
theorem fresh_of_ne_top {c : Category} {s : NameSupply} (h : s.number c ≠ top) :
    s.fresh c = (.ok (c.named (s.number c)), s.advance c) := by
  rw [fresh, if_neg (fun he => h ((toInt_eq_top_iff _).mpr he))]
  rfl

/-- Taking a name moves the counter of its category by one and leaves the other alone. -/
theorem number_advance {c : Category} {s : NameSupply} (h : s.number c ≠ top) (d : Category) :
    (s.advance c).number d = if d = c then s.number c + 1 else s.number d := by
  have hadd := toInt_add_one (fun he => h ((toInt_eq_top_iff _).mpr he))
  cases c <;> cases d
  · exact hadd
  · rfl
  · rfl
  · exact hadd

theorem number_advance_self {c : Category} {s : NameSupply} (h : s.number c ≠ top) :
    (s.advance c).number c = s.number c + 1 := by
  rw [number_advance h, if_pos rfl]

end NameSupply

namespace Request

variable {τ : Type}

/-- Whether a request is for an instruction that stores a result. -/
def stores : Request τ → Bool
  | binary .. | index .. => true
  | branch .. | jump .. | mark .. => false

/-- The instruction requested, given the name that receives a result. -/
def instr (dst : Text) : Request Text → Instr
  | binary left op right => .assign dst left op right
  | index array i => .load dst array i
  | branch test target => .condJump test.left test.relop test.right target
  | jump target => .jump target
  | mark name => .label name

theorem dst?_instr (dst : Text) (r : Request Text) :
    (r.instr dst).dst? = if r.stores then some dst else none := by
  cases r <;> rfl

/-- A request without a result leaves the supply alone and cannot fail. -/
theorem build_of_not_stores {r : Request Text} (h : r.stores = false) (dst : Text)
    (s : NameSupply) :
    r.build s = (.ok (r.instr dst), s) := by
  cases r with
  | binary left op right => cases h
  | index array i => cases h
  | branch test target => rfl
  | jump target => rfl
  | mark name => rfl

/-- A request with a result fails when no temporary is left. -/
theorem build_of_eq_top {r : Request Text} (h : r.stores = true) {s : NameSupply}
    (ht : s.number .temp = NameSupply.top) : r.build s = (.error ⟨.temp⟩, s) := by
  cases r with
  | binary left op right => simp only [build, NameSupply.fresh_of_eq_top ht, Except.map]
  | index array i => simp only [build, NameSupply.fresh_of_eq_top ht, Except.map]
  | branch test target => cases h
  | jump target => cases h
  | mark name => cases h

/-- A request with a result stores it in the next temporary. -/
theorem build_of_ne_top {r : Request Text} (h : r.stores = true) {s : NameSupply}
    (ht : s.number .temp ≠ NameSupply.top) :
    r.build s = (.ok (r.instr (Category.temp.named (s.number .temp))), s.advance .temp) := by
  cases r with
  | binary left op right => simp only [build, NameSupply.fresh_of_ne_top ht, Except.map, instr]
  | index array i => simp only [build, NameSupply.fresh_of_ne_top ht, Except.map, instr]
  | branch test target => cases h
  | jump target => cases h
  | mark name => cases h

end Request

end ThreeAddress
