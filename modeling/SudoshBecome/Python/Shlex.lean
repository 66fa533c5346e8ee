import SudoshBecome.Python.Str

/-!
# `shlex.split`: POSIX shell word splitting

`shlex.split(s)` as `build_become_command` calls it: POSIX mode, `whitespace_split = True`, no
comment characters. `shlex.read_token` is then a machine over the characters of `s` in which a
character is whitespace (` \t\r\n`), a quote (`'`, `"`), the escape `\`, or part of a word; with
these settings the lexer's word characters make no difference.

* `step` : one character of `read_token`; `run` : an input, `run_append`;
* `split` : the tokens, or one of the two `ValueError`s raised at the end of the input;
* `run_bare` : on a text with no quote and no backslash the lexer never enters quotes or an
  escape, so `shlex.split` cannot raise there (`split_ok_of_unquoted`); on a text of plain words and
  spaces whitespace around it changes none of its tokens (`split_trim`), and words joined by
  single spaces, some of them empty, split into the nonempty ones (`split_intercalate`), also
  after `str.strip` (`split_strip_intercalate`);
* `split_join_plain` : words that need no quoting, joined by single spaces, split back into
  themselves.
-/

namespace SudoshBecome.Python.Shlex

/-- Results compare by their tags and contents, so that a run on a fixed input can be checked. -/
instance instDecidableEqExcept {ε α : Type} [DecidableEq ε] [DecidableEq α] :
    DecidableEq (Except ε α)
  | .ok a, .ok b => decidable_of_iff (a = b) (by simp)
  | .error a, .error b => decidable_of_iff (a = b) (by simp)
  | .ok _, .error _ => isFalse (by simp)
  | .error _, .ok _ => isFalse (by simp)

/-- The `ValueError`s `read_token` raises at the end of the input. -/
inductive Error where
  /-- `No closing quotation`: the input ends inside quotes. -/
  | noClosingQuotation
  /-- `No escaped character`: the input ends right after `\`. -/
  | noEscapedCharacter
  deriving DecidableEq, Repr

/-- `self.whitespace` of a POSIX lexer. -/
def isWhitespace (c : Char) : Bool := c = ' ' || c = '\t' || c = '\r' || c = '\n'

@[simp] theorem isWhitespace_space : isWhitespace ' ' = true := rfl

/-- `self.quotes`. -/
def isQuote (c : Char) : Bool := c = '\'' || c = '"'

/-- `read_token`'s `self.state` with the token read so far: `' '` between tokens, `'a'` inside a
word, a quote character inside quotes, `'\\'` after an escape (`inQuote` when `escapedstate` is
`'"'`). Between tokens the token is always empty. -/
inductive State where
  | space
  | word (tok : List Char)
  | quote (q : Char) (tok : List Char)
  | escape (inQuote : Bool) (tok : List Char)
  deriving DecidableEq, Repr

/-- One character of `read_token`: the next state, and the token it completes. -/
def step : State → Char → State × Option (List Char)
  | .space, c =>
    if isWhitespace c then (.space, none)
    else if c = '\\' then (.escape false [], none)
    else if isQuote c then (.quote c [], none)
    else (.word [c], none)
  | .word tok, c =>
    if isWhitespace c then (.space, some tok)
    else if isQuote c then (.quote c tok, none)
    else if c = '\\' then (.escape false tok, none)
    else (.word (tok ++ [c]), none)
  | .quote q tok, c =>
    if c = q then (.word tok, none)
    else if c = '\\' ∧ q = '"' then (.escape true tok, none)
    else (.quote q (tok ++ [c]), none)
  | .escape false tok, c => (.word (tok ++ [c]), none)
  | .escape true tok, c =>
    (.quote '"' (if c = '\\' ∨ c = '"' then tok ++ [c] else tok ++ ['\\', c]), none)

/-- `read_token` over an input from state `q`: the state it ends in and the tokens it completes. -/
def run : State → List Char → State × List (List Char)
  | q, [] => (q, [])
  | q, c :: cs => ((run (step q c).1 cs).1, (step q c).2.toList ++ (run (step q c).1 cs).2)

/-- The end of the input: the last token, or the error `read_token` raises. -/
def finish : State → Except Error (List (List Char))
  | .space => .ok []
  | .word tok => .ok [tok]
  | .quote _ _ => .error .noClosingQuotation
  | .escape _ _ => .error .noEscapedCharacter

/-- `shlex.split(s)`. -/
def split (s : String) : Except Error (List String) :=
  (fun last => ((run .space s.data).2 ++ last).map String.mk) <$> finish (run .space s.data).1

theorem run_append (q : State) (l s : List Char) :
    run q (l ++ s) = ((run (run q l).1 s).1, (run q l).2 ++ (run (run q l).1 s).2) := by
  induction l generalizing q with
  | nil => rfl
  | cons c l ih => simp [run, ih]

/-! ## Words that need no quoting -/

/-- A character that stands for itself outside quotes. -/
def isPlain (c : Char) : Bool := !isWhitespace c && !isQuote c && c != '\\'

/-- A word `shlex` reads back as itself: not empty, and every character plain. -/
def PlainWord (w : List Char) : Prop := w ≠ [] ∧ ∀ c ∈ w, isPlain c

theorem step_word_plain {c : Char} (h : isPlain c) (tok : List Char) :
    step (.word tok) c = (.word (tok ++ [c]), none) := by
  simp only [isPlain, Bool.and_eq_true, Bool.not_eq_true', bne_iff_ne, ne_eq] at h
  simp [step, h.1.1, h.1.2, h.2]

theorem run_word_plain (tok w : List Char) (hw : ∀ c ∈ w, isPlain c) :
    run (.word tok) w = (.word (tok ++ w), []) := by
  induction w generalizing tok with
  | nil => simp [run]
  | cons c w ih =>
    simp only [List.mem_cons, forall_eq_or_imp] at hw
    simp [run, step_word_plain hw.1, ih _ hw.2]

theorem run_plain {w : List Char} (hw : PlainWord w) : run .space w = (.word w, []) := by
  obtain ⟨c, w, rfl⟩ := List.exists_cons_of_ne_nil hw.1
  have hc := hw.2 c (List.mem_cons_self c w)
  simp only [isPlain, Bool.and_eq_true, Bool.not_eq_true', bne_iff_ne, ne_eq] at hc
  simp [run, step, hc.1.1, hc.1.2, hc.2,
    run_word_plain [c] w (fun x hx => hw.2 x (List.mem_cons_of_mem c hx))]

/-! ## Text of plain words and spaces -/

theorem run_whitespace {cs : List Char} (h : ∀ c ∈ cs, isWhitespace c) :
    run .space cs = (.space, []) := by
  induction cs with
  | nil => rfl
  | cons c cs ih =>
    simp only [List.mem_cons, forall_eq_or_imp] at h
    simp [run, step, h.1, ih h.2]

/-- Where the lexer stands on a text of plain words and spaces: between tokens, or in a word. -/
def Bare : State → Prop
  | .space => True
  | .word _ => True
  | .quote _ _ => False
  | .escape _ _ => False

/-- Between tokens or in a word, a character that opens no quote and no escape keeps the lexer
there. -/
theorem step_bare {q : State} (hq : Bare q) {c : Char} (hc : isQuote c = false ∧ c ≠ '\\') :
    Bare (step q c).1 := by
  cases q <;> simp only [Bare] at hq <;> simp only [step, hc.1, hc.2, if_false] <;> split <;> trivial

theorem run_bare {q : State} (hq : Bare q) {cs : List Char}
    (h : ∀ c ∈ cs, isQuote c = false ∧ c ≠ '\\') : Bare (run q cs).1 := by
  induction cs generalizing q with
  | nil => exact hq
  | cons c cs ih =>
    simp only [List.mem_cons, forall_eq_or_imp] at h
    exact ih (step_bare hq h.1) h.2

theorem finish_of_bare {q : State} (hq : Bare q) : ∃ last, finish q = .ok last := by
  cases q with
  | space => exact ⟨_, rfl⟩
  | word tok => exact ⟨_, rfl⟩
  | quote _ _ => exact hq.elim
  | escape _ _ => exact hq.elim

/-- `shlex.split` raises only at a quote or a backslash: on text with neither it never leaves the
space between tokens or a word. -/
theorem split_ok_of_unquoted {s : String} (h : ∀ c ∈ s.data, isQuote c = false ∧ c ≠ '\\') :
    ∃ toks, split s = .ok toks := by
  obtain ⟨last, hlast⟩ := finish_of_bare (run_bare (q := .space) trivial h)
  exact ⟨_, by rw [split, hlast]; rfl⟩

theorem unquoted_of_space_or_plain {c : Char} (h : c = ' ' ∨ isPlain c) :
    isQuote c = false ∧ c ≠ '\\' := by
  rcases h with rfl | h
  · decide
  · simp only [isPlain, Bool.and_eq_true, Bool.not_eq_true', bne_iff_ne] at h
    exact ⟨h.1.2, h.2⟩

/-- Between tokens or in a word, a run of whitespace acts as one space. -/
theorem run_bare_whitespace {q : State} (hq : Bare q) {cs : List Char}
    (h : ∀ c ∈ cs, isWhitespace c) (hne : cs ≠ []) : run q cs = run q [' '] := by
  obtain ⟨c, cs, rfl⟩ := List.exists_cons_of_ne_nil hne
  simp only [List.mem_cons, forall_eq_or_imp] at h
  cases q <;> simp [Bare, run, step, h.1, run_whitespace h.2] at hq ⊢

theorem finish_of_run_space {q : State} (h : (run q [' ']).1 = .space) :
    finish q = .ok (run q [' ']).2 := by
  cases q with
  | space => rfl
  | word tok => rfl
  | quote q tok => simp only [run, step] at h; split_ifs at h
  | escape b tok => cases b <;> simp [run, step] at h

/-- A text whose run, one space added, ends between tokens splits into the tokens that run
completes. -/
theorem split_of_run_snoc_space {cs : List Char} {toks : List (List Char)}
    (h : run .space (cs ++ [' ']) = (.space, toks)) : split ⟨cs⟩ = .ok (toks.map String.mk) := by
  rw [run_append, Prod.mk.injEq] at h
  simp [split, finish_of_run_space h.1, ← h.2, Functor.map, Except.map]

theorem run_bare_snoc_space {cs : List Char} (h : ∀ c ∈ cs, c = ' ' ∨ isPlain c) :
    run .space (cs ++ [' ']) = (.space, (run .space (cs ++ [' '])).2) := by
  have hb := run_bare (q := .space) trivial fun c hc => unquoted_of_space_or_plain (h c hc)
  rw [run_append]
  revert hb
  cases (run .space cs).1 <;> simp [Bare, run, step, isWhitespace]

/-- Whitespace around a text of plain words and spaces changes none of its tokens. -/
theorem split_trim (pre suf : List Char) {cs : List Char} (hpre : ∀ c ∈ pre, isWhitespace c)
    (hsuf : ∀ c ∈ suf, isWhitespace c) (hcs : ∀ c ∈ cs, c = ' ' ∨ isPlain c) :
    split ⟨pre ++ cs ++ suf⟩ = split ⟨cs⟩ := by
  have hend : run (run .space cs).1 (suf ++ [' ']) = run (run .space cs).1 [' '] :=
    run_bare_whitespace (run_bare (q := .space) trivial fun c hc => unquoted_of_space_or_plain (hcs c hc))
      (by simpa [or_imp, forall_and] using hsuf)
      (by simp)
  have hrun : run .space (pre ++ cs ++ suf ++ [' ']) = run .space (cs ++ [' ']) := by
    rw [List.append_assoc, List.append_assoc, run_append .space pre, run_whitespace hpre,
      run_append .space cs, hend, run_append .space cs]
    rfl
  rw [split_of_run_snoc_space (hrun.trans (run_bare_snoc_space hcs)),
    split_of_run_snoc_space (run_bare_snoc_space hcs)]

/-- A word, empty or plain, then a space: the lexer completes the word if it is not empty. -/
theorem run_word_space {w : List Char} (hw : w = [] ∨ PlainWord w) (rest : List Char) :
    run .space (w ++ ' ' :: rest) =
      ((run .space rest).1, [w].filter (· ≠ []) ++ (run .space rest).2) := by
  rcases hw with rfl | hw
  · simp [run, step, isWhitespace]
  · rw [run_append, run_plain hw]
    simp [run, step, isWhitespace, hw.1]

theorem run_intercalate_words : ∀ {ws : List (List Char)}, (∀ w ∈ ws, w = [] ∨ PlainWord w) →
    run .space ([' '].intercalate ws ++ [' ']) = (.space, ws.filter (· ≠ []))
  | [], _ => by simp [run, step, isWhitespace, List.intercalate]
  | [w], h => by simpa [run] using run_word_space (h w (by simp)) []
  | w :: v :: vs, h => by
    rw [Str.intercalate_cons_cons, List.append_assoc, List.append_assoc, List.singleton_append,
      run_word_space (h w (by simp)), run_intercalate_words fun u hu => h u (List.mem_cons_of_mem w hu)]
    simp only [← List.filter_append, List.singleton_append]

/-- Words joined by single spaces, each empty or plain, split into the nonempty ones. -/
theorem split_intercalate {ws : List (List Char)} (h : ∀ w ∈ ws, w = [] ∨ PlainWord w) :
    split ⟨[' '].intercalate ws⟩ = .ok ((ws.filter (· ≠ [])).map String.mk) :=
  split_of_run_snoc_space (run_intercalate_words h)

/-- `shlex.split(s.strip())` on words joined by single spaces, each empty or plain with no Python
whitespace: the nonempty words. -/
theorem split_strip_intercalate {ws : List (List Char)}
    (h : ∀ w ∈ ws, w = [] ∨ (PlainWord w ∧ ∀ c ∈ w, Str.isSpace c = false)) :
    split (Str.strip ⟨[' '].intercalate ws⟩) = .ok ((ws.filter (· ≠ [])).map String.mk) := by
  have hchars : ∀ c ∈ [' '].intercalate ws, c = ' ' ∨ (isPlain c ∧ Str.isSpace c = false) :=
    Str.forall_mem_intercalate (by simp) fun w hw c hc => .inr <| by
      rcases h w hw with rfl | ⟨hp, hs⟩
      · simp at hc
      · exact ⟨hp.2 c hc, hs c hc⟩
  obtain ⟨pre, suf, hs, hpre, hsuf⟩ := Str.strip_spec ⟨[' '].intercalate ws⟩
  dsimp only at hs
  have hspace : ∀ c ∈ [' '].intercalate ws, Str.isSpace c → isWhitespace c := fun c hc hsp => by
    rcases hchars c hc with rfl | ⟨-, hns⟩
    · rfl
    · simp [hns] at hsp
  rw [← split_intercalate fun w hw => (h w hw).imp_right And.left, ← split_trim pre suf
    (fun c hc => hspace c (by rw [hs]; simp [hc]) (hpre c hc))
    (fun c hc => hspace c (by rw [hs]; simp [hc]) (hsuf c hc))
    (fun c hc => (hchars c (by rw [hs]; simp [hc])).imp_right And.left), ← hs]

theorem split_join_plain (ws : List (List Char)) (h : ∀ w ∈ ws, PlainWord w) :
    split ⟨[' '].intercalate ws⟩ = .ok (ws.map String.mk) := by
  rw [split_intercalate fun w hw => .inr (h w hw),
    List.filter_eq_self.2 fun w hw => by simpa using (h w hw).1]

end SudoshBecome.Python.Shlex
