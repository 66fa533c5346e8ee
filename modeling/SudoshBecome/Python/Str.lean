import Mathlib.Data.List.Infix

/-!
# The `str` methods `build_become_command` uses

Python strings are Lean strings, read as their lists of code points.

* `orElse` : `x or y` on strings;
* `Str.join` : `sep.join(xs)`; `Str.startsWith` : `s.startswith(p)`;
* `Str.strip` : `s.strip()`, with Python's table of whitespace (`Str.isSpace`);
* `Str.replace` : `s.replace(old, new)`, each occurrence of `old` left to right, none overlapping
  the one before; `replaceFrom_skip` reads the skipped characters of a match back as a `drop`.

On words joined by a character `old` lacks, each word `old` itself or free of it, `replace` acts
word by word (`replace_join`); `strip` cuts whitespace at both ends and nothing else
(`strip_spec`); neither brings a character of its own (`mem_replace`, `mem_strip`). Both rest on where an infix can sit around a separator it lacks
(`infix_append_cons_iff`, `prefix_of_prefix_append_cons`), which the line scans over `bytes` use as
well.
-/

namespace SudoshBecome.Python

/-- `x or y` on strings: the empty string is falsy, and so is `None`, which this model writes as
`""`. -/
def orElse (x y : String) : String := if x = "" then y else x

/-! ## Infixes around a separator -/

section Infix
variable {α : Type} {m a b : List α} {x : α}

theorem prefix_of_prefix_append_cons (h : m <+: a ++ x :: b) (hx : x ∉ m) : m <+: a := by
  induction a generalizing m with
  | nil =>
    cases m with
    | nil => exact List.nil_prefix
    | cons y m => exact absurd (List.cons_prefix_cons.1 h).1 (by rintro rfl; simp at hx)
  | cons y a ih =>
    cases m with
    | nil => exact List.nil_prefix
    | cons z m =>
      obtain ⟨rfl, h'⟩ := List.cons_prefix_cons.1 h
      exact List.cons_prefix_cons.2 ⟨rfl, ih h' (fun hm => hx (List.mem_cons_of_mem z hm))⟩

/-- An infix that avoids a separator lies on one side of it. -/
theorem infix_append_cons_iff (hx : x ∉ m) : m <:+: a ++ x :: b ↔ m <:+: a ∨ m <:+: b := by
  refine ⟨fun h => ?_, fun h => h.elim (fun h => h.trans ⟨[], x :: b, by simp⟩)
    (fun h => h.trans ⟨a ++ [x], [], by simp⟩)⟩
  induction a with
  | nil =>
    rcases List.infix_cons_iff.1 h with h | h
    · exact .inl (by simpa using prefix_of_prefix_append_cons (a := []) h hx)
    · exact .inr h
  | cons y a ih =>
    rcases List.infix_cons_iff.1 h with h | h
    · exact .inl (prefix_of_prefix_append_cons h hx).isInfix
    · exact (ih h).imp_left (fun h => h.trans (List.suffix_cons y a).isInfix)

/-- A nonempty infix none of whose elements satisfies `p` skips a prefix of elements that all do. -/
theorem infix_of_infix_append_left {p : α → Bool} (hm : m ≠ []) (hmp : ∀ y ∈ m, p y = false)
    (ha : ∀ y ∈ a, p y = true) (h : m <:+: a ++ b) : m <:+: b := by
  induction a with
  | nil => exact h
  | cons y a ih =>
    rcases List.infix_cons_iff.1 h with h | h
    · obtain ⟨z, m, rfl⟩ := List.exists_cons_of_ne_nil hm
      obtain ⟨rfl, -⟩ := List.cons_prefix_cons.1 h
      simp [hmp z (List.mem_cons_self z m)] at ha
    · exact ih (fun y hy => ha y (List.mem_cons_of_mem _ hy)) h

end Infix

namespace Str

/-- `sep.join(xs)`. -/
def join (sep : String) (xs : List String) : String := ⟨sep.data.intercalate (xs.map String.data)⟩

@[simp] theorem join_data (sep : String) (xs : List String) :
    (join sep xs).data = sep.data.intercalate (xs.map String.data) := rfl

@[simp] theorem intercalate_singleton {α : Type} (s x : List α) : s.intercalate [x] = x := by
  simp [List.intercalate]

theorem intercalate_cons_cons {α : Type} (s x y : List α) (zs : List (List α)) :
    s.intercalate (x :: y :: zs) = x ++ s ++ s.intercalate (y :: zs) := by
  simp [List.intercalate, List.intersperse_cons_cons]

theorem intercalate_append {α : Type} (s : List α) :
    ∀ {xs ys : List (List α)}, xs ≠ [] → ys ≠ [] →
      s.intercalate (xs ++ ys) = s.intercalate xs ++ s ++ s.intercalate ys
  | [x], y :: ys, _, _ => by rw [List.singleton_append, intercalate_cons_cons]; simp [List.intercalate]
  | x :: x' :: xs, ys, _, hy => by
    rw [List.cons_append, List.cons_append, intercalate_cons_cons, ← List.cons_append,
      intercalate_append s (List.cons_ne_nil x' xs) hy, intercalate_cons_cons]
    simp

/-- Joining a joined part in place is joining its pieces. -/
theorem intercalate_append_intercalate {α : Type} (s : List α) (xs ys : List (List α))
    (hx : xs ≠ []) (hy : ys ≠ []) (zs : List (List α)) :
    s.intercalate (xs ++ s.intercalate ys :: zs) = s.intercalate (xs ++ ys ++ zs) := by
  cases zs with
  | nil =>
    rw [← List.singleton_append, List.append_nil, List.append_nil,
      intercalate_append s hx (List.cons_ne_nil _ _), intercalate_append s hx hy]
    simp [List.intercalate]
  | cons z zs =>
    rw [← List.singleton_append, ← List.append_assoc, intercalate_append s (by simp [hx]) (by simp),
      intercalate_append s hx (by simp), List.append_assoc xs ys,
      ← List.append_assoc, intercalate_append s (by simp [hx]) (by simp),
      intercalate_append s hx hy]
    simp [List.intercalate]

/-- A part that is itself joined can be joined in place. -/
theorem join_append_join (sep : String) (xs : List String) {ys : List String} (hx : xs ≠ [])
    (hy : ys ≠ []) (zs : List String) : join sep (xs ++ join sep ys :: zs) = join sep (xs ++ ys ++ zs) := by
  apply String.ext
  simpa using intercalate_append_intercalate sep.data (xs.map String.data) (ys.map String.data)
    (by simpa using hx) (by simpa using hy) (zs.map String.data)

theorem join_cons_ne_empty (sep : String) {x : String} (xs : List String) (hx : x ≠ "") :
    join sep (x :: xs) ≠ "" := by
  intro h
  have hp : x.data <+: (join sep (x :: xs)).data := by
    cases xs <;> simp [intercalate_cons_cons, List.prefix_append]
  rw [h] at hp
  exact hx (String.ext (List.eq_nil_of_prefix_nil hp))

/-- A part that is a join, left out when it is empty, can be joined in place. -/
theorem join_append_opt (sep : String) {xs : List String} (hx : xs ≠ []) (ys zs : List String) :
    join sep (xs ++ (if join sep ys = "" then [] else [join sep ys]) ++ zs) =
      join sep (xs ++ (if join sep ys = "" then [] else ys) ++ zs) := by
  split_ifs with h
  · rfl
  · have hy : ys ≠ [] := by rintro rfl; exact h rfl
    simpa using join_append_join sep xs hx hy zs

/-- `s.startswith(p)`. -/
def startsWith (s p : String) : Bool := p.data.isPrefixOf s.data

/-- `str.isspace()` on one character: the code points Python counts as whitespace. -/
def isSpace (c : Char) : Bool :=
  let v := c.toNat
  (9 ≤ v && v ≤ 13) || (28 ≤ v && v ≤ 32) || v = 0x85 || v = 0xA0 || v = 0x1680 ||
    (0x2000 ≤ v && v ≤ 0x200A) || v = 0x2028 || v = 0x2029 || v = 0x202F || v = 0x205F ||
    v = 0x3000

/-- `s.strip()`. -/
def strip (s : String) : String :=
  ⟨((s.data.dropWhile isSpace).reverse.dropWhile isSpace).reverse⟩

/-- `replace` for a nonempty `old` from some position on, the next `skip` characters being the rest
of an occurrence just replaced. -/
def replaceFrom (old new : List Char) : Nat → List Char → List Char
  | _, [] => []
  | skip + 1, _ :: cs => replaceFrom old new skip cs
  | 0, c :: cs =>
    if old.isPrefixOf (c :: cs) then new ++ replaceFrom old new (old.length - 1) cs
    else c :: replaceFrom old new 0 cs

/-- `s.replace(old, new)`; an empty `old` matches before every character and at the end. -/
def replace (s old new : String) : String :=
  if old = "" then ⟨new.data ++ s.data.flatMap (· :: new.data)⟩
  else ⟨replaceFrom old.data new.data 0 s.data⟩

theorem replaceFrom_skip (old new : List Char) (skip : Nat) (cs : List Char) :
    replaceFrom old new skip cs = replaceFrom old new 0 (cs.drop skip) := by
  induction cs generalizing skip with
  | nil => cases skip <;> rfl
  | cons c cs ih =>
    cases skip with
    | zero => rfl
    | succ skip => simp [replaceFrom, ih]

theorem forall_mem_intercalate {α : Type} {p : α → Prop} {s : List α} (hs : ∀ c ∈ s, p c) :
    ∀ {ws : List (List α)}, (∀ w ∈ ws, ∀ c ∈ w, p c) → ∀ c ∈ s.intercalate ws, p c
  | [], _ => by simp [List.intercalate]
  | [w], h => by simpa using h w (by simp)
  | w :: v :: vs, h => by
    rw [intercalate_cons_cons]
    simp only [List.mem_append]
    rintro c ((hc | hc) | hc)
    · exact h w (by simp) c hc
    · exact hs c hc
    · exact forall_mem_intercalate hs (fun u hu => h u (List.mem_cons_of_mem w hu)) c hc

/-! ## `replace` on whole words -/

theorem replaceFrom_old_append {old : List Char} (hold : old ≠ []) (new rest : List Char) :
    replaceFrom old new 0 (old ++ rest) = new ++ replaceFrom old new 0 rest := by
  obtain ⟨o, os, rfl⟩ := List.exists_cons_of_ne_nil hold
  simp [replaceFrom, replaceFrom_skip, List.isPrefixOf_iff_prefix]

theorem replaceFrom_cons_of_not_prefix {old new cs : List Char} {c : Char}
    (h : ¬ old <+: c :: cs) : replaceFrom old new 0 (c :: cs) = c :: replaceFrom old new 0 cs := by
  rw [replaceFrom, if_neg (by rwa [List.isPrefixOf_iff_prefix])]

/-- Characters none of which begins an occurrence of `old` are copied. -/
theorem replaceFrom_append_of_not_prefix {old new rest : List Char} :
    ∀ {w : List Char}, (∀ i < w.length, ¬ old <+: (w ++ rest).drop i) →
      replaceFrom old new 0 (w ++ rest) = w ++ replaceFrom old new 0 rest
  | [], _ => rfl
  | c :: w, h => by
    have h0 : ¬ old <+: c :: (w ++ rest) := h 0 (Nat.succ_pos _)
    rw [List.cons_append, replaceFrom_cons_of_not_prefix h0,
      replaceFrom_append_of_not_prefix fun i hi => by simpa using h (i + 1) (by simpa using hi)]
    rfl

/-- A word that is `old`, or holds no occurrence of it, followed by nothing or by a character
`old` lacks, is replaced whole or copied. -/
theorem replaceFrom_word {old new w rest : List Char} {x : Char} (hold : old ≠ []) (hx : x ∉ old)
    (hw : w = old ∨ ¬ old <:+: w) (hrest : ∀ y ∈ rest.head?, y = x) :
    replaceFrom old new 0 (w ++ rest) =
      (if w = old then new else w) ++ replaceFrom old new 0 rest := by
  rcases hw with rfl | hw
  · rw [if_pos rfl, replaceFrom_old_append hold]
  · rw [if_neg (by rintro rfl; exact hw (List.infix_refl _)), replaceFrom_append_of_not_prefix]
    intro i hi hp
    rw [List.drop_append_of_le_length hi.le] at hp
    have hdrop : old <+: w.drop i := by
      cases rest with
      | nil => simpa using hp
      | cons y r => exact prefix_of_prefix_append_cons hp (hrest y rfl ▸ hx)
    exact hw (hdrop.isInfix.trans (List.drop_suffix i w).isInfix)

theorem replaceFrom_intercalate {old new : List Char} (hold : old ≠ []) {x : Char} (hx : x ∉ old) :
    ∀ {ws : List (List Char)}, (∀ w ∈ ws, w = old ∨ ¬ old <:+: w) →
      replaceFrom old new 0 ([x].intercalate ws) =
        [x].intercalate (ws.map fun w => if w = old then new else w)
  | [], _ => rfl
  | [w], h => by
    simpa [replaceFrom] using replaceFrom_word hold hx (h w (by simp)) (by simp : ∀ y ∈ ([] : List Char).head?, y = x)
  | w :: v :: vs, h => by
    have hsep : ¬ old <+: x :: [x].intercalate (v :: vs) := fun hp => by
      obtain ⟨o, os, rfl⟩ := List.exists_cons_of_ne_nil hold
      exact hx ((List.cons_prefix_cons.1 hp).1 ▸ List.mem_cons_self o os)
    rw [List.map_cons, List.map_cons, intercalate_cons_cons, intercalate_cons_cons, List.append_assoc,
      List.singleton_append, replaceFrom_word hold hx (h w (by simp)) (by simp),
      replaceFrom_cons_of_not_prefix hsep,
      replaceFrom_intercalate hold hx fun u hu => h u (List.mem_cons_of_mem w hu)]
    simp

/-- On words joined by a one-character separator that `old` lacks, each word `old` itself or free
of it, `replace` replaces the words equal to `old` and copies the others. -/
theorem replace_join {old sep : String} {x : Char} (hold : old ≠ "") (hsep : sep.data = [x])
    (hx : x ∉ old.data) (new : String) {ws : List String} (hws : ∀ w ∈ ws, w = old ∨ ¬ old.data <:+: w.data) :
    replace (join sep ws) old new = join sep (ws.map fun w => if w = old then new else w) := by
  have hold' : old.data ≠ [] := fun h => hold (String.ext h)
  apply String.ext
  simp only [replace, if_neg hold, join_data, hsep, List.map_map]
  rw [replaceFrom_intercalate hold' hx (by simpa [String.ext_iff] using hws)]
  simp [Function.comp_def, apply_ite String.data, String.ext_iff]

/-- `strip` cuts whitespace from both ends and nothing else. -/
theorem strip_spec (s : String) : ∃ pre suf, s.data = pre ++ (strip s).data ++ suf ∧
    (∀ c ∈ pre, isSpace c) ∧ ∀ c ∈ suf, isSpace c := by
  refine ⟨s.data.takeWhile isSpace, ((s.data.dropWhile isSpace).reverse.takeWhile isSpace).reverse,
    ?_, fun c hc => List.mem_takeWhile_imp hc, fun c hc => List.mem_takeWhile_imp (List.mem_reverse.1 hc)⟩
  conv_lhs => rw [← List.takeWhile_append_dropWhile isSpace s.data,
    ← List.reverse_reverse (s.data.dropWhile isSpace),
    ← List.takeWhile_append_dropWhile isSpace (s.data.dropWhile isSpace).reverse]
  simp only [strip, List.reverse_append, List.append_assoc]

/-! ## Characters kept -/

theorem mem_strip {s : String} {c : Char} (h : c ∈ (strip s).data) : c ∈ s.data := by
  obtain ⟨pre, suf, hs, -, -⟩ := strip_spec s
  rw [hs]
  exact List.mem_append_left _ (List.mem_append_right _ h)

theorem mem_replaceFrom {old new : List Char} {c : Char} :
    ∀ {skip : Nat} {cs : List Char}, c ∈ replaceFrom old new skip cs → c ∈ cs ∨ c ∈ new
  | _, [], h => by simp [replaceFrom] at h
  | skip + 1, _ :: cs, h => by
    rw [replaceFrom] at h
    exact (mem_replaceFrom h).imp_left (List.mem_cons_of_mem _)
  | 0, d :: cs, h => by
    rw [replaceFrom] at h
    split_ifs at h
    · rcases List.mem_append.1 h with h | h
      · exact .inr h
      · exact (mem_replaceFrom h).imp_left (List.mem_cons_of_mem _)
    · rcases List.mem_cons.1 h with rfl | h
      · exact .inl (List.mem_cons_self _ _)
      · exact (mem_replaceFrom h).imp_left (List.mem_cons_of_mem _)

/-- Every character of `s.replace(old, new)` is one of `s` or one of `new`. -/
theorem mem_replace {s old new : String} {c : Char} (h : c ∈ (replace s old new).data) :
    c ∈ s.data ∨ c ∈ new.data := by
  unfold replace at h
  split_ifs at h
  · simp only [List.mem_append, List.mem_flatMap, List.mem_cons] at h
    rcases h with h | ⟨a, ha, rfl | h⟩
    exacts [.inr h, .inl ha, .inr h]
  · exact mem_replaceFrom h

end Str

end SudoshBecome.Python
