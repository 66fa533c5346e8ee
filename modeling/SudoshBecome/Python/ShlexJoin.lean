import SudoshBecome.Python.Shlex

/-!
# What `shlex.split` reads back from words joined by spaces

`' '.join(words)` quotes nothing, so what `shlex.split` reads back depends on the words.

* `split_append_space` : a text that lexes on its own, then a space, is read as that text's tokens
  and the rest apart; so words that each lex on their own give, joined, each word's tokens in
  order (`split_join_of_mapM`);
* `step_cost`, `run_cost` : each character read adds at most one character to a token, and a token
  ended by a space costs that space; the tokens of a string cost at most one more than its length
  (`tokCost_le_of_split`);
* `run_cost_eq` : a run that loses no character reads only plain characters and the spaces that
  end words, so it completes only plain words (`plain_of_tokCost_eq`);
* `split_join_eq_iff` : words joined by single spaces come back as themselves exactly when every
  one is plain.
-/

namespace SudoshBecome.Python.Shlex

theorem split_eq_ok_iff {s : String} {toks : List String} :
    split s = .ok toks ↔ ∃ last, finish (run .space s.data).1 = .ok last ∧
      toks = ((run .space s.data).2 ++ last).map String.mk := by
  unfold split
  cases finish (run .space s.data).1 <;> simp [Functor.map, Except.map, eq_comm]

/-- Where the input may end, a space ends the token as the end of the input would. -/
theorem run_space_of_finish {q : State} {last : List (List Char)} (h : finish q = .ok last) :
    run q [' '] = (.space, last) := by
  cases q <;> simp only [finish, reduceCtorEq, Except.ok.injEq] at h <;> subst h <;>
    simp [run, step]

theorem run_snoc_space {cs : List Char} {last : List (List Char)}
    (h : finish (run .space cs).1 = .ok last) :
    run .space (cs ++ [' ']) = (.space, (run .space cs).2 ++ last) := by
  rw [run_append, run_space_of_finish h]

/-! ## Lexing part by part -/

/-- A text that lexes on its own, then a space: the text's tokens, then the rest read from
between tokens. -/
theorem split_append_space {cs : List Char} {toks : List String} (h : split ⟨cs⟩ = .ok toks)
    (rest : List Char) : split ⟨cs ++ ' ' :: rest⟩ = (toks ++ ·) <$> split ⟨rest⟩ := by
  obtain ⟨last, hfin, rfl⟩ := split_eq_ok_iff.1 h
  have hrun : run .space (cs ++ ' ' :: rest) =
      ((run .space rest).1, (run .space cs).2 ++ last ++ (run .space rest).2) := by
    rw [← List.singleton_append, ← List.append_assoc, run_append, run_snoc_space hfin]
  simp only [split, hrun]
  cases finish (run .space rest).1 <;> simp [Functor.map, Except.map]

/-- Words that each lex on their own, joined by single spaces: each word's tokens in order. -/
theorem split_join_of_mapM : ∀ {ws : List String} {tss : List (List String)},
    ws.mapM split = .ok tss → split (Str.join " " ws) = .ok tss.flatten
  | [], tss, h => by
    obtain rfl : tss = [] := (Except.ok.inj h).symm
    rfl
  | [w], tss, h => by
    cases hw : split w <;> simp only [List.mapM_cons, List.mapM_nil, hw, bind, Except.bind, pure,
      Except.pure, reduceCtorEq, Except.ok.injEq] at h
    subst h
    simpa [Str.join] using hw
  | w :: v :: vs, tss, h => by
    cases hw : split w <;> cases hvs : (v :: vs).mapM split <;>
      simp only [List.mapM_cons, hw, hvs, bind, Except.bind, pure, Except.pure, reduceCtorEq,
        Except.ok.injEq] at h
    subst h
    have hjoin : (Str.join " " (w :: v :: vs)).data = w.data ++ ' ' :: (Str.join " " (v :: vs)).data := by
      simp [Str.intercalate_cons_cons]
    show split ⟨(Str.join " " (w :: v :: vs)).data⟩ = _
    rw [hjoin, split_append_space hw]
    change (_ ++ ·) <$> split (Str.join " " (v :: vs)) = _
    rw [split_join_of_mapM hvs]
    rfl

theorem mapM_append_eq_ok {l₁ l₂ : List String} {r : List (List String)}
    (h : (l₁ ++ l₂).mapM split = .ok r) :
    ∃ r₁ r₂, l₁.mapM split = .ok r₁ ∧ l₂.mapM split = .ok r₂ ∧ r = r₁ ++ r₂ := by
  rw [List.mapM_append] at h
  cases h₁ : l₁.mapM split <;> cases h₂ : l₂.mapM split <;>
    simp only [h₁, h₂, bind, Except.bind, pure, Except.pure, reduceCtorEq, Except.ok.injEq] at h
  exact ⟨_, _, rfl, rfl, h.symm⟩

/-! ## What a run can lose -/

/-- The characters a state holds for the token being read; after `\` inside double quotes, the
backslash too, which the token keeps unless `\` or `"` follows. -/
def weight : State → Nat
  | .space => 0
  | .word tok => tok.length
  | .quote _ tok => tok.length
  | .escape false tok => tok.length
  | .escape true tok => tok.length + 1

/-- Tokens, each with the space that ends it. -/
def tokCost : List (List Char) → Nat
  | [] => 0
  | t :: ts => t.length + 1 + tokCost ts

@[simp] theorem tokCost_nil : tokCost [] = 0 := rfl

@[simp] theorem tokCost_cons (t : List Char) (ts : List (List Char)) :
    tokCost (t :: ts) = t.length + 1 + tokCost ts := rfl

@[simp] theorem tokCost_append (a b : List (List Char)) :
    tokCost (a ++ b) = tokCost a + tokCost b := by
  induction a with
  | nil => simp
  | cons t a ih => simp [ih]; omega

theorem step_cost (q : State) (c : Char) :
    weight (step q c).1 + tokCost (step q c).2.toList ≤ weight q + 1 := by
  cases q with
  | escape b tok => cases b <;> simp only [step] <;> (try split_ifs) <;> simp [weight]
  | _ => simp only [step]; split_ifs <;> simp [weight]

theorem run_cost (q : State) (cs : List Char) :
    weight (run q cs).1 + tokCost (run q cs).2 ≤ weight q + cs.length := by
  induction cs generalizing q with
  | nil => simp [run]
  | cons c cs ih =>
    have h1 := step_cost q c
    have h2 := ih (step q c).1
    simp only [run, tokCost_append, List.length_cons]
    omega

/-- Where the lexer stands having lost nothing: between tokens, or in a plain word. -/
def Clean : State → Prop
  | .space => True
  | .word tok => PlainWord tok
  | .quote _ _ => False
  | .escape _ _ => False

theorem step_cost_eq {q : State} (hq : Clean q) {c : Char}
    (h : weight (step q c).1 + tokCost (step q c).2.toList = weight q + 1) :
    Clean (step q c).1 ∧ ∀ t ∈ (step q c).2.toList, PlainWord t := by
  cases q with
  | space =>
    simp only [step] at h ⊢
    split_ifs at h ⊢ with h1 h2 h3 <;> simp [weight] at h
    exact ⟨⟨List.cons_ne_nil c [], by simp [isPlain, h1, h2, h3]⟩, by simp⟩
  | word tok =>
    simp only [step] at h ⊢
    split_ifs at h ⊢ with h1 h2 h3 <;> simp [weight] at h
    · exact ⟨trivial, by simpa using hq⟩
    · refine ⟨⟨by simp, ?_⟩, by simp⟩
      simp only [List.mem_append, List.mem_singleton]
      rintro x (hx | rfl)
      · exact hq.2 x hx
      · simp [isPlain, h1, h2, h3]
  | quote _ _ => exact hq.elim
  | escape _ _ => exact hq.elim

/-- A run from a clean state that loses no character ends clean, having completed only plain
words. -/
theorem run_cost_eq {q : State} (hq : Clean q) {cs : List Char}
    (h : weight (run q cs).1 + tokCost (run q cs).2 = weight q + cs.length) :
    Clean (run q cs).1 ∧ ∀ t ∈ (run q cs).2, PlainWord t := by
  induction cs generalizing q with
  | nil => simpa [run] using hq
  | cons c cs ih =>
    have h1 := step_cost q c
    have h2 := run_cost (step q c).1 cs
    simp only [run, tokCost_append, List.length_cons] at h ⊢
    obtain ⟨hq', hstep⟩ := step_cost_eq (c := c) hq (by omega)
    obtain ⟨hend, hrest⟩ := ih hq' (by omega)
    exact ⟨hend, fun t ht => (List.mem_append.1 ht).elim (hstep t) (hrest t)⟩

/-! ## Tokens against length -/

/-- The tokens of a string cost at most one more than its length. -/
theorem tokCost_le_of_split {s : String} {toks : List String} (h : split s = .ok toks) :
    tokCost (toks.map String.data) ≤ s.data.length + 1 := by
  obtain ⟨last, hfin, rfl⟩ := split_eq_ok_iff.1 h
  have := run_cost .space (s.data ++ [' '])
  simpa [run_snoc_space hfin, weight, Function.comp_def] using this

/-- Tokens that cost exactly one more than the string lose nothing of it: they are plain words. -/
theorem plain_of_tokCost_eq {s : String} {toks : List String} (h : split s = .ok toks)
    (heq : tokCost (toks.map String.data) = s.data.length + 1) : ∀ t ∈ toks, PlainWord t.data := by
  obtain ⟨last, hfin, rfl⟩ := split_eq_ok_iff.1 h
  have hrun := run_snoc_space hfin
  have heq' : weight (run .space (s.data ++ [' '])).1 + tokCost (run .space (s.data ++ [' '])).2 =
      weight .space + (s.data ++ [' ']).length := by
    rw [hrun]; simpa [weight, Function.comp_def] using heq
  have hplain := (run_cost_eq (q := .space) trivial heq').2
  rw [hrun] at hplain
  intro t ht
  obtain ⟨u, hu, rfl⟩ := List.mem_map.1 ht
  exact hplain u hu

/-- Words joined by single spaces cost one more than the joined string. -/
theorem length_join_add_one : ∀ {ws : List String}, ws ≠ [] →
    (Str.join " " ws).data.length + 1 = tokCost (ws.map String.data)
  | [w], _ => by simp
  | w :: v :: vs, _ => by
    have ih := length_join_add_one (List.cons_ne_nil v vs)
    simp only [Str.join_data, List.map_cons, tokCost_cons] at ih ⊢
    rw [Str.intercalate_cons_cons, List.length_append, List.length_append,
      show (" " : String).data.length = 1 from rfl]
    omega

/-- Words joined by single spaces come back from `shlex.split` as themselves exactly when every
one is plain. -/
theorem split_join_eq_iff (ws : List String) :
    split (Str.join " " ws) = .ok ws ↔ ∀ w ∈ ws, PlainWord w.data := by
  refine ⟨fun h => ?_, fun h => ?_⟩
  · cases ws with
    | nil => simp
    | cons w ws => exact plain_of_tokCost_eq h (length_join_add_one (List.cons_ne_nil w ws)).symm
  · simpa [Function.comp_def] using split_join_plain (ws.map String.data) (by simpa using h)

end SudoshBecome.Python.Shlex
