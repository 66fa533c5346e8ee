import SudoshBecome.Python.Str

/-!
# The `bytes` operations of the response checks

* `toBytes` : `to_bytes(s)`, UTF-8; `contains` : `sub in b`;
* `Bytes.splitlines` : `b.splitlines()`, lines ended by `\n`, `\r` or `\r\n`;
* `Bytes.strip` : `b.strip()`, ASCII whitespace; `Bytes.lower` : `b.lower()`, ASCII letters.

What the checks need of them: an infix without line breaks is found in a line exactly when it is
found in the whole output (`exists_line_infix_iff`); stripping keeps every infix that has no
whitespace (`infix_strip_iff`); lowering commutes with stripping and with appending.
-/

namespace SudoshBecome.Python

/-- A `bytes` value. -/
abbrev Bytes := List UInt8

/-- `to_bytes(s)`: the UTF-8 encoding; for ASCII text it is the `b'...'` literal. -/
def toBytes (s : String) : Bytes := s.data.flatMap String.utf8EncodeChar

/-- `sub in b`. -/
def contains (sub b : Bytes) : Bool := decide (sub <:+: b)

namespace Bytes

/-- The bytes `splitlines` breaks lines at: `\n` and `\r`. -/
def isLineBreak (x : UInt8) : Bool := x = 10 || x = 13

/-- `b.splitlines()` from some byte on: `line` is the line read so far, and `afterCr` holds right
after a `\r` that ended a line, where a `\n` belongs to that line break. No line follows a final
line break. -/
def splitlinesFrom (afterCr : Bool) (line : Bytes) : Bytes → List Bytes
  | [] => if line = [] then [] else [line]
  | x :: b =>
    if x = 10 ∧ afterCr then splitlinesFrom false [] b
    else if isLineBreak x then line :: splitlinesFrom (x = 13) [] b
    else splitlinesFrom false (line ++ [x]) b

/-- `b.splitlines()`. -/
def splitlines (b : Bytes) : List Bytes := splitlinesFrom false [] b

/-- `bytes.isspace()` on one byte: space, `\t`, `\n`, `\v`, `\f`, `\r`. -/
def isSpace (x : UInt8) : Bool := x = 32 || (9 ≤ x && x ≤ 13)

/-- `b.strip()`. -/
def strip (b : Bytes) : Bytes := ((b.dropWhile isSpace).reverse.dropWhile isSpace).reverse

/-- `bytes.lower()` on one byte. -/
def lowerByte (x : UInt8) : UInt8 := if 65 ≤ x ∧ x ≤ 90 then x + 32 else x

/-- `b.lower()`. -/
def lower (b : Bytes) : Bytes := b.map lowerByte

/-! ## Lines -/

theorem exists_splitlinesFrom_infix_iff {m : Bytes} (hm : m ≠ [])
    (hmb : ∀ y ∈ m, isLineBreak y = false) (b : Bytes) :
    ∀ (afterCr : Bool) (line : Bytes), (∀ y ∈ line, isLineBreak y = false) →
      (afterCr = true → line = []) →
      ((∃ l ∈ splitlinesFrom afterCr line b, m <:+: l) ↔ m <:+: line ++ b) := by
  have hx : ∀ {y}, isLineBreak y = true → y ∉ m := fun hy hym => by simp [hmb _ hym] at hy
  have hnil : ¬ m <:+: [] := fun h => hm (List.eq_nil_of_infix_nil h)
  induction b with
  | nil =>
    intro afterCr line _ _
    by_cases h : line = [] <;> simp [splitlinesFrom, h, hnil]
  | cons y b ih =>
    intro afterCr line hline hcr
    by_cases h10 : y = 10 ∧ afterCr
    · obtain ⟨rfl, rfl⟩ := h10
      simp only [splitlinesFrom, and_self, ite_true, hcr rfl, List.nil_append]
      rw [ih false [] (by simp) (by simp), ← List.nil_append (10 :: b),
        infix_append_cons_iff (hx (y := 10) rfl)]
      simp [hnil]
    · by_cases hy : isLineBreak y
      · simp only [splitlinesFrom, h10, hy, ite_false, ite_true, List.mem_cons, exists_eq_or_imp]
        rw [ih _ [] (by simp) (by simp), List.nil_append, infix_append_cons_iff (hx hy)]
      · simp only [splitlinesFrom, h10, hy, Bool.false_eq_true, ite_false]
        have hline' : ∀ z ∈ line ++ [y], isLineBreak z = false := by
          simpa [or_imp, forall_and, hy] using hline
        rw [ih false _ hline' (by simp), List.append_assoc,
          List.singleton_append]

/-- An infix without line breaks is in some line exactly when it is in the whole output. -/
theorem exists_line_infix_iff {m : Bytes} (hm : m ≠ []) (hmb : ∀ y ∈ m, isLineBreak y = false)
    (b : Bytes) : (∃ l ∈ splitlines b, m <:+: l) ↔ m <:+: b :=
  exists_splitlinesFrom_infix_iff hm hmb b false [] (by simp) (by simp)

/-! ## Lowering and stripping -/

/-- A byte compares with a constant below 256 as its value does. -/
theorem eq_ofNat_iff_toNat (x : UInt8) {k : Nat} (hk : k < 256) :
    x = OfNat.ofNat k ↔ x.toNat = k := by
  have hval : (OfNat.ofNat k : UInt8).toNat = k := Nat.mod_eq_of_lt hk
  exact ⟨fun h => h ▸ hval,
    fun h => UInt8.eq_of_toBitVec_eq (BitVec.eq_of_toNat_eq (h.trans hval.symm))⟩

theorem ofNat_le_iff_toNat (x : UInt8) {k : Nat} (hk : k < 256) :
    OfNat.ofNat k ≤ x ↔ k ≤ x.toNat := by
  show (BitVec.ofNat 8 k).toNat ≤ _ ↔ _
  rw [BitVec.toNat_ofNat, Nat.mod_eq_of_lt hk]; rfl

theorem le_ofNat_iff_toNat (x : UInt8) {k : Nat} (hk : k < 256) :
    x ≤ OfNat.ofNat k ↔ x.toNat ≤ k := by
  show _ ≤ (BitVec.ofNat 8 k).toNat ↔ _
  rw [BitVec.toNat_ofNat, Nat.mod_eq_of_lt hk]; rfl

/-- An upper-case letter moves by 32 to one more letter: never a line break nor whitespace. -/
theorem lowerByte_facts (x : UInt8) : (lowerByte x = 10 ↔ x = 10) ∧ (lowerByte x = 13 ↔ x = 13) ∧
    isSpace (lowerByte x) = isSpace x := by
  unfold lowerByte
  split_ifs with h
  · rw [ofNat_le_iff_toNat _ (by decide : 65 < 256), le_ofNat_iff_toNat _ (by decide : 90 < 256)] at h
    have hsum : (x + 32).toNat = x.toNat + 32 := by
      show (x.toBitVec + 32#8).toNat = x.toBitVec.toNat + 32
      rw [BitVec.toNat_add, BitVec.toNat_ofNat, Nat.mod_eq_of_lt]
      exact Nat.add_lt_of_lt_sub (by simp only [UInt8.toNat] at h; omega)
    unfold isSpace
    rw [Bool.eq_iff_iff, Bool.or_eq_true, Bool.or_eq_true, Bool.and_eq_true, Bool.and_eq_true,
      decide_eq_true_iff, decide_eq_true_iff, decide_eq_true_iff, decide_eq_true_iff,
      decide_eq_true_iff, decide_eq_true_iff,
      eq_ofNat_iff_toNat _ (by decide : 10 < 256), eq_ofNat_iff_toNat _ (by decide : 10 < 256),
      eq_ofNat_iff_toNat _ (by decide : 13 < 256), eq_ofNat_iff_toNat _ (by decide : 13 < 256),
      eq_ofNat_iff_toNat _ (by decide : 32 < 256), eq_ofNat_iff_toNat _ (by decide : 32 < 256),
      ofNat_le_iff_toNat _ (by decide : 9 < 256), ofNat_le_iff_toNat _ (by decide : 9 < 256),
      le_ofNat_iff_toNat _ (by decide : 13 < 256), le_ofNat_iff_toNat _ (by decide : 13 < 256), hsum]
    omega
  · exact ⟨Iff.rfl, Iff.rfl, rfl⟩

@[simp] theorem lowerByte_eq_ten (x : UInt8) : lowerByte x = 10 ↔ x = 10 := (lowerByte_facts x).1

@[simp] theorem lowerByte_eq_thirteen (x : UInt8) : lowerByte x = 13 ↔ x = 13 :=
  (lowerByte_facts x).2.1

@[simp] theorem isSpace_lowerByte (x : UInt8) : isSpace (lowerByte x) = isSpace x :=
  (lowerByte_facts x).2.2

@[simp] theorem isLineBreak_lowerByte (x : UInt8) : isLineBreak (lowerByte x) = isLineBreak x := by
  simp [isLineBreak]

@[simp] theorem lower_nil : lower [] = [] := rfl

@[simp] theorem lower_cons (x : UInt8) (b : Bytes) : lower (x :: b) = lowerByte x :: lower b := rfl

@[simp] theorem lower_append (b c : Bytes) : lower (b ++ c) = lower b ++ lower c := List.map_append ..

@[simp] theorem lower_eq_nil (b : Bytes) : lower b = [] ↔ b = [] := List.map_eq_nil_iff

theorem splitlinesFrom_lower (b : Bytes) : ∀ (afterCr : Bool) (line : Bytes),
    splitlinesFrom afterCr (lower line) (lower b) = (splitlinesFrom afterCr line b).map lower := by
  induction b with
  | nil => intro afterCr line; by_cases h : line = [] <;> simp [splitlinesFrom, h]
  | cons y b ih =>
    intro afterCr line
    have ih' := ih false (line ++ [y])
    simp only [lower_append, lower_cons, lower_nil] at ih'
    rw [lower_cons]
    simp only [splitlinesFrom, lowerByte_eq_ten, isLineBreak_lowerByte, lowerByte_eq_thirteen]
    split_ifs
    · exact ih false []
    · exact congrArg (lower line :: ·) (ih _ [])
    · exact ih'

theorem splitlines_lower (b : Bytes) : splitlines (lower b) = (splitlines b).map lower :=
  splitlinesFrom_lower b false []

theorem strip_lower (b : Bytes) : strip (lower b) = lower (strip b) := by
  have h : isSpace ∘ lowerByte = isSpace := funext isSpace_lowerByte
  simp only [strip, lower, ← List.map_reverse, List.dropWhile_map, h]

theorem strip_infix_self (b : Bytes) : strip b <:+: b := by
  have h := List.reverse_infix.2
    (List.dropWhile_suffix isSpace (l := (b.dropWhile isSpace).reverse)).isInfix
  rw [List.reverse_reverse] at h
  exact h.trans (List.dropWhile_suffix _).isInfix

/-- Stripping keeps every infix without whitespace. -/
theorem infix_strip_iff {m : Bytes} (hm : m ≠ []) (hms : ∀ y ∈ m, isSpace y = false) (b : Bytes) :
    m <:+: strip b ↔ m <:+: b := by
  refine ⟨fun h => h.trans (strip_infix_self b), fun h => ?_⟩
  have drop : ∀ {m c : Bytes}, m ≠ [] → (∀ y ∈ m, isSpace y = false) → m <:+: c →
      m <:+: c.dropWhile isSpace := fun hm hms h =>
    infix_of_infix_append_left hm hms (fun _ => List.mem_takeWhile_imp)
      (by rwa [List.takeWhile_append_dropWhile])
  rw [strip, ← List.reverse_infix, List.reverse_reverse]
  exact drop (by simpa using hm) (by simpa using hms) (List.reverse_infix.2 (drop hm hms h))

/-- A marker without line breaks or whitespace, looked for in each stripped and lowered line, is
looked for in the lowered output. -/
theorem exists_line_lower_strip_iff {m : Bytes} (hm : m ≠ [])
    (hmb : ∀ y ∈ m, isLineBreak y = false) (hms : ∀ y ∈ m, isSpace y = false) (b : Bytes) :
    (∃ l ∈ splitlines b, m <:+: lower (strip l)) ↔ m <:+: lower b := by
  rw [← exists_line_infix_iff hm hmb, splitlines_lower]
  simp [← strip_lower, infix_strip_iff hm hms]

end Bytes

end SudoshBecome.Python
