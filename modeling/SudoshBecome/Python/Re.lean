import Mathlib.Data.List.Basic

/-!
# `re.sub(r'^(-\w*)n(\w*.*)', r'\1\2', s)`

The plugin's one regular expression, as Python's backtracking matcher runs it on a `str`. `^`
holds only at the start (no `MULTILINE`), `\w*` is greedy, and `\w*.*` after the `n` always
matches, so the substitution cuts out the `n` that ends the longest run of word characters after a
leading `-`, and leaves every other string as it is.

* `isWordChar` : `\w`; exact on ASCII, the Unicode database's alphanumerics beyond it a parameter;
* `matchWordsN` : the greedy match of `\w*n`; `matchWordsN_eq_some_iff` says which match it finds;
* `subDashN` : the substitution; `subDashN_cases` : it changes nothing or cuts out one `n`;
* `cutLastN` : the same rewrite described without backtracking, the last `n` of the run of word
  characters after a leading `-` cut out; `subDashN_eq_cutLastN` : the two agree on every string.
-/

namespace SudoshBecome.Python

/-- `\w` on a `str` pattern: ASCII letters, digits and `_`, and beyond ASCII the characters the
Unicode database counts as alphanumeric (`unicodeAlnum`). -/
def isWordChar (unicodeAlnum : Char → Bool) (c : Char) : Bool :=
  if c.toNat < 128 then c.isAlphanum || c = '_' else unicodeAlnum c

@[simp] theorem isWordChar_n (unicodeAlnum : Char → Bool) : isWordChar unicodeAlnum 'n' = true := rfl

@[simp] theorem isWordChar_dash (unicodeAlnum : Char → Bool) : isWordChar unicodeAlnum '-' = false :=
  rfl

/-- The greedy match of `\w*n` at the start of `u`: the run `p` of word characters before the `n`,
and what follows the `n`. Backtracking tries the longest run first. -/
def matchWordsN (word : Char → Bool) : List Char → Option (List Char × List Char)
  | [] => none
  | c :: cs =>
    ((if word c then matchWordsN word cs else none).map fun r => (c :: r.1, r.2)) <|>
      (if c = 'n' then some ([], cs) else none)

/-- `re.sub(r'^(-\w*)n(\w*.*)', r'\1\2', s)`: `\1\2` is the match without its `n`, and the text
after the match (from a newline on) stays. -/
def subDashN (word : Char → Bool) (s : String) : String :=
  match s.data with
  | '-' :: u =>
    match matchWordsN word u with
    | some (p, rest) => ⟨'-' :: (p ++ rest)⟩
    | none => s
  | _ => s

section Match
variable {word : Char → Bool}

theorem matchWordsN_eq_none_iff (hn : word 'n') (u : List Char) :
    matchWordsN word u = none ↔ 'n' ∉ u.takeWhile word := by
  induction u with
  | nil => simp [matchWordsN]
  | cons c cs ih =>
    by_cases hc : word c
    · by_cases hcn : c = 'n' <;> simp [matchWordsN, hc, hcn, ih, List.takeWhile_cons, Ne.symm, hn]
    · have hcn : c ≠ 'n' := by rintro rfl; exact hc hn
      simp [matchWordsN, hc, hcn, List.takeWhile_cons, Ne.symm hcn]

theorem matchWordsN_cons_of_some {c : Char} {cs : List Char} {r : List Char × List Char}
    (hc : word c) (h : matchWordsN word cs = some r) :
    matchWordsN word (c :: cs) = some (c :: r.1, r.2) := by
  simp [matchWordsN, hc, h]

theorem matchWordsN_cons_of_none {c : Char} {cs : List Char}
    (h : word c = false ∨ matchWordsN word cs = none) :
    matchWordsN word (c :: cs) = if c = 'n' then some ([], cs) else none := by
  rcases h with h | h <;> simp [matchWordsN, h]

theorem matchWordsN_sound (hn : word 'n') {u p rest : List Char}
    (h : matchWordsN word u = some (p, rest)) :
    u = p ++ 'n' :: rest ∧ (∀ c ∈ p, word c) ∧ 'n' ∉ rest.takeWhile word := by
  induction u generalizing p with
  | nil => simp [matchWordsN] at h
  | cons c cs ih =>
    by_cases hA : word c ∧ ∃ r, matchWordsN word cs = some r
    · obtain ⟨hc, ⟨p', r'⟩, hm⟩ := hA
      rw [matchWordsN_cons_of_some hc hm, Option.some.injEq, Prod.mk.injEq] at h
      obtain ⟨rfl, rfl⟩ := h
      obtain ⟨rfl, hp, hr⟩ := ih hm
      exact ⟨rfl, by simpa [hc] using hp, hr⟩
    · have hB : word c = false ∨ matchWordsN word cs = none := by
        cases hc : word c
        · exact .inl rfl
        · cases hm : matchWordsN word cs with
          | none => exact .inr rfl
          | some r => exact absurd ⟨hc, r, hm⟩ hA
      rw [matchWordsN_cons_of_none hB] at h
      split_ifs at h with hcn
      cases h
      refine ⟨by rw [hcn]; rfl, by simp, ?_⟩
      subst hcn
      exact (matchWordsN_eq_none_iff hn _).1 (hB.resolve_left (by simp [hn]))

theorem matchWordsN_complete (hn : word 'n') {p : List Char} (hp : ∀ c ∈ p, word c)
    (rest : List Char) (hrest : 'n' ∉ rest.takeWhile word) :
    matchWordsN word (p ++ 'n' :: rest) = some (p, rest) := by
  induction p with
  | nil =>
    rw [List.nil_append, matchWordsN_cons_of_none (.inr ((matchWordsN_eq_none_iff hn _).2 hrest))]
    simp
  | cons c p ih =>
    simp only [List.mem_cons, forall_eq_or_imp] at hp
    exact matchWordsN_cons_of_some hp.1 (ih hp.2)

/-- The match found: the run before the `n` is all word characters, and no `n` ends a longer one. -/
theorem matchWordsN_eq_some_iff (hn : word 'n') (u p rest : List Char) :
    matchWordsN word u = some (p, rest) ↔
      u = p ++ 'n' :: rest ∧ (∀ c ∈ p, word c) ∧ 'n' ∉ rest.takeWhile word :=
  ⟨matchWordsN_sound hn, fun ⟨hu, hp, hr⟩ => hu ▸ matchWordsN_complete hn hp rest hr⟩

/-- The substitution leaves `s` as it is, or cuts out one `n`: the one ending the longest run of
word characters right after a leading `-`. -/
theorem subDashN_cases (hn : word 'n') (s : String) :
    (subDashN word s = s ∧ ∀ u, s.data = '-' :: u → 'n' ∉ u.takeWhile word) ∨
      ∃ p rest, s.data = '-' :: (p ++ 'n' :: rest) ∧ (∀ c ∈ p, word c) ∧
        'n' ∉ rest.takeWhile word ∧ subDashN word s = ⟨'-' :: (p ++ rest)⟩ := by
  obtain ⟨_ | ⟨c, u⟩⟩ := s
  · exact .inl ⟨rfl, by simp⟩
  · by_cases hc : c = '-'
    · subst hc
      cases hm : matchWordsN word u with
      | none =>
        refine .inl ⟨by simp [subDashN, hm], ?_⟩
        rintro u' ⟨⟩
        exact (matchWordsN_eq_none_iff hn u).1 hm
      | some r =>
        obtain ⟨rfl, hp, hr⟩ := matchWordsN_sound hn hm
        exact .inr ⟨r.1, r.2, rfl, hp, hr, by simp [subDashN, hm]⟩
    · exact .inl ⟨by simp [subDashN, hc], by simp [hc]⟩

/-- The rewrite described without backtracking: cut the last `n` of the run of word characters
after a leading `-`, when that run holds one. -/
def cutLastN (word : Char → Bool) (s : String) : String :=
  match s.data with
  | '-' :: u =>
    if 'n' ∈ u.takeWhile word then
      ⟨'-' :: (((u.takeWhile word).reverse.erase 'n').reverse ++ u.dropWhile word)⟩
    else s
  | _ => s

/-- The `n` the backtracking match cuts is the last `n` of the run after the leading `-`. -/
theorem subDashN_eq_cutLastN (hn : word 'n') (s : String) : subDashN word s = cutLastN word s := by
  rcases subDashN_cases hn s with ⟨hs, hnone⟩ | ⟨p, rest, hs, hp, hrest, hsub⟩
  · rw [hs]
    unfold cutLastN
    split
    · rw [if_neg (hnone _ ‹_›)]
    · rfl
  · have htw : (p ++ 'n' :: rest).takeWhile word = p ++ 'n' :: rest.takeWhile word := by
      simp [List.takeWhile_append_of_pos hp, List.takeWhile_cons, hn]
    have hdw : (p ++ 'n' :: rest).dropWhile word = rest.dropWhile word := by
      simp [List.dropWhile_append_of_pos hp, List.dropWhile_cons, hn]
    rw [hsub]
    unfold cutLastN
    rw [hs]
    simp [htw, hdw, List.erase_append_right _ (mt List.mem_reverse.1 hrest)]

end Match

end SudoshBecome.Python
