import SudoshBecome.Become.Build
import SudoshBecome.Python.ShlexJoin

/-!
# The flags `build_become_command` emits

`allFlags_eq` : once `flags` splits, the emitted flags are its tokens through the password-mode
loop, then the toggle flags, which the loop never touches (`passwordMode_sudoshFlags`); the cut
and `strip` add no character, so a flag string with no quote and no backslash always splits
(`flagTokens_ok_of_unquoted`).

* Password mode (`reflag`): a flag is dropped, kept, or loses one `n` (`reflagOne_cases`). The
  emitted flags hold `-n` exactly when the tokens held `-nn`, and `--non-interactive` exactly when
  they held `-n-non-interactive` (`mem_reflag_dash_n_iff`, `mem_reflag_non_interactive_iff`). In
  all, the loop is a filter and a map: the tokens other than `-n` and `--non-interactive`, each
  with the last `n` of its leading run of word characters cut (`password_mode_emits_cut_flags`).
* Toggles: `--ansible-force` and `--ansible-verbose` are appended after the loop's output whatever
  the tokens hold, so each is emitted once more than the tokens hold it (`detection_flags_counted`).
* Verbose detection off: the flag is cut out of the string before `shlex` sees it, so a flag that
  only contains the text, or text that rebuilds it, is rewritten (`verbose_off_rebuilds_flag`). On
  a flag string of plain words joined by single spaces, each the flag itself or free of its text
  (`WholeVerboseWords`), the cut is the token filter `verboseOffTokens`
  (`verbose_off_cut_agrees_on_whole_words`).
-/

namespace SudoshBecome
open Python

variable (uni : Char → Bool)

/-! ## The pipeline -/

theorem reflag_append (a b : List String) : reflag uni (a ++ b) = reflag uni a ++ reflag uni b :=
  List.filterMap_append ..

theorem passwordMode_append (o : Options) (a b : List String) :
    passwordMode uni o (a ++ b) = passwordMode uni o a ++ passwordMode uni o b := by
  unfold passwordMode; split_ifs <;> simp [reflag_append]

/-- The toggle flags all start with `--` and none is `--non-interactive`. -/
theorem passwordMode_sudoshFlags (o : Options) : passwordMode uni o (sudoshFlags o) = sudoshFlags o := by
  unfold passwordMode
  split_ifs
  · rfl
  · unfold sudoshFlags; split_ifs <;> rfl

theorem allFlags_eq {o : Options} {toks : List String} (h : flagTokens o = .ok toks) :
    allFlags uni o = .ok (passwordMode uni o toks ++ sudoshFlags o) := by
  simp [allFlags, h, passwordMode_append, passwordMode_sudoshFlags, Functor.map, Except.map]

/-- Every character `shlex` gets comes from the flag string or its default: the cut and `strip`
only remove characters. -/
theorem mem_flags {o : Options} {c : Char} (hc : c ∈ (flags o).data) :
    c ∈ o.becomeFlags.data ∨ c ∈ defaultFlags.data := by
  have hor : c ∈ (orElse o.becomeFlags defaultFlags).data → c ∈ o.becomeFlags.data ∨
      c ∈ defaultFlags.data := fun h => by
    unfold orElse at h
    split_ifs at h
    exacts [.inr h, .inl h]
  unfold flags at hc
  split_ifs at hc
  · exact hor hc
  · rcases Str.mem_replace (Str.mem_strip hc) with h | h
    · exact hor h
    · simp at h

/-- A flag string with no quote and no backslash always splits. -/
theorem flagTokens_ok_of_unquoted {o : Options}
    (h : ∀ c ∈ o.becomeFlags.data, Shlex.isQuote c = false ∧ c ≠ '\\') :
    ∃ toks, flagTokens o = .ok toks := by
  have hdefault : ∀ c ∈ defaultFlags.data, Shlex.isQuote c = false ∧ c ≠ '\\' := by decide
  unfold flagTokens
  split_ifs
  · exact ⟨_, rfl⟩
  · exact Shlex.split_ok_of_unquoted fun c hc => (mem_flags hc).elim (h c) (hdefault c)

/-! ## Password mode -/

/-- One pass of the loop skips `-n` and `--non-interactive`; any other flag comes out as it is, or
with one `n` cut out of the word run after a leading `-`. -/
theorem reflagOne_eq_some {f g : String} (h : reflagOne uni f = some g) :
    f ≠ "-n" ∧ f ≠ "--non-interactive" ∧ (g = f ∨ ∃ p rest, f.data = '-' :: (p ++ 'n' :: rest) ∧
      (∀ c ∈ p, isWordChar uni c) ∧ g.data = '-' :: (p ++ rest)) := by
  unfold reflagOne at h
  split_ifs at h with h1 h2 <;> simp only [not_or, Option.some.injEq] at h h1
  · exact ⟨h1.1, h1.2, .inl h.symm⟩
  · subst h
    rcases subDashN_cases (isWordChar_n uni) f with ⟨he, -⟩ | ⟨p, rest, hf, hp, -, he⟩
    · exact ⟨h1.1, h1.2, .inl he⟩
    · exact ⟨h1.1, h1.2, .inr ⟨p, rest, hf, hp, by rw [he]⟩⟩

theorem reflagOne_eq_dash_n_iff (f : String) : reflagOne uni f = some "-n" ↔ f = "-nn" := by
  refine ⟨fun h => ?_, fun h => h ▸ rfl⟩
  obtain ⟨h1, -, h | ⟨p, rest, hf, -, hg⟩⟩ := reflagOne_eq_some uni h
  · exact absurd h.symm h1
  · injection hg with _ hg
    apply String.ext
    rcases List.append_eq_cons_iff.1 hg.symm with ⟨rfl, rfl⟩ | ⟨a, rfl, ha⟩
    · exact hf
    · obtain ⟨rfl, rfl⟩ := List.append_eq_nil.1 ha.symm
      exact hf

theorem reflagOne_eq_non_interactive_iff (f : String) :
    reflagOne uni f = some "--non-interactive" ↔ f = "-n-non-interactive" := by
  refine ⟨fun h => ?_, fun h => h ▸ rfl⟩
  obtain ⟨-, h2, h | ⟨p, rest, hf, hp, hg⟩⟩ := reflagOne_eq_some uni h
  · exact absurd h.symm h2
  · injection hg with _ hg
    apply String.ext
    rcases List.append_eq_cons_iff.1 hg.symm with ⟨rfl, rfl⟩ | ⟨a, rfl, -⟩
    · exact hf
    · simpa using hp '-' (List.mem_cons_self _ _)

/-- The loop emits `-n` exactly when it is given `-nn`. -/
theorem mem_reflag_dash_n_iff (fs : List String) : "-n" ∈ reflag uni fs ↔ "-nn" ∈ fs := by
  simp [reflag, List.mem_filterMap, reflagOne_eq_dash_n_iff]

/-- The loop emits `--non-interactive` exactly when it is given `-n-non-interactive`. -/
theorem mem_reflag_non_interactive_iff (fs : List String) :
    "--non-interactive" ∈ reflag uni fs ↔ "-n-non-interactive" ∈ fs := by
  simp [reflag, List.mem_filterMap, reflagOne_eq_non_interactive_iff]

/-- With a password set, the emitted flags hold `-n` or `--non-interactive` exactly when the flag
string held `-nn` or `-n-non-interactive`. -/
theorem allFlags_non_interactive_iff {o : Options} {toks : List String}
    (h : flagTokens o = .ok toks) (hpass : o.becomePass ≠ "") :
    ∃ fs, allFlags uni o = .ok fs ∧ ("-n" ∈ fs ↔ "-nn" ∈ toks) ∧
      ("--non-interactive" ∈ fs ↔ "-n-non-interactive" ∈ toks) := by
  refine ⟨_, allFlags_eq uni h, ?_, ?_⟩ <;>
    simp [passwordMode, hpass, mem_reflag_dash_n_iff, mem_reflag_non_interactive_iff, sudoshFlags]

theorem allFlags_non_interactive_iff_nn :
    ∃ fs, allFlags (fun _ => false) { becomeFlags := "-nn -x", becomePass := "secret" } = .ok fs ∧
      ("-n" ∈ fs ↔ "-nn" ∈ ["-nn", "-x"]) ∧
      ("--non-interactive" ∈ fs ↔ "-n-non-interactive" ∈ ["-nn", "-x"]) :=
  allFlags_non_interactive_iff (fun _ => false) (by decide) (by decide)

/-- The loop without its regular expression: the flags other than `-n` and `--non-interactive`,
each kept if it starts with `--` and otherwise with the last `n` of the word run after its `-` cut. -/
theorem reflag_eq_map_filter (fs : List String) :
    reflag uni fs = (fs.filter fun f => f ≠ "-n" ∧ f ≠ "--non-interactive").map
      fun f => if Str.startsWith f "--" then f else cutLastN (isWordChar uni) f := by
  induction fs with
  | nil => rfl
  | cons f fs ih =>
    rw [reflag, List.filterMap_cons, ← reflag, ih, reflagOne,
      subDashN_eq_cutLastN (isWordChar_n uni)]
    by_cases hf : f = "-n" ∨ f = "--non-interactive"
    · rcases hf with rfl | rfl <;> simp [List.filter_cons]
    · have hf' : f ≠ "-n" ∧ f ≠ "--non-interactive" := not_or.1 hf
      by_cases hd : Str.startsWith f "--" <;> simp [hf, hd, List.filter_cons, hf']

/-- With a password set, the emitted flags are the flag string's tokens other than `-n` and
`--non-interactive`, in order, each kept if it starts with `--` and otherwise with the last `n` of
the run of word characters after its leading `-` cut out; then the toggle flags. -/
theorem password_mode_emits_cut_flags {o : Options} {toks : List String}
    (h : flagTokens o = .ok toks) (hpass : o.becomePass ≠ "") :
    allFlags uni o = .ok ((toks.filter fun f => f ≠ "-n" ∧ f ≠ "--non-interactive").map
      (fun f => if Str.startsWith f "--" then f else cutLastN (isWordChar uni) f) ++
        sudoshFlags o) := by
  rw [allFlags_eq uni h, passwordMode, if_neg hpass, reflag_eq_map_filter]

theorem password_mode_emits_cut_flags_sample :
    allFlags (fun _ => false) { becomeFlags := "-nn -n -bnan --n", becomePass := "secret" } =
      .ok ((["-nn", "-n", "-bnan", "--n"].filter fun f => f ≠ "-n" ∧ f ≠ "--non-interactive").map
        (fun f => if Str.startsWith f "--" then f else cutLastN (isWordChar fun _ => false) f) ++
          sudoshFlags { becomeFlags := "-nn -n -bnan --n", becomePass := "secret" }) :=
  password_mode_emits_cut_flags (fun _ => false) (by decide) (by decide)

/-- A password and the flag string `-nn`: the loop cuts one `n` and leaves the switch `-n`. -/
theorem password_mode_leaves_dash_n :
    allFlags uni { becomeFlags := "-nn", becomePass := "secret" } = .ok ["-n", "--ansible-verbose"] :=
  rfl

/-! ## The toggle flags -/

theorem count_sudoshFlags_force {o : Options} (h : o.sudoshDetectionForce = true) :
    (sudoshFlags o).count "--ansible-force" = 1 := by
  simp only [sudoshFlags, h, ite_true]; split_ifs <;> decide

theorem count_sudoshFlags_verbose {o : Options} (h : o.sudoshDetectionVerbose = true) :
    (sudoshFlags o).count "--ansible-verbose" = 1 := by
  simp only [sudoshFlags, h, ite_true]; split_ifs <;> decide

/-- The emitted flags are the flag string's tokens through the password-mode loop, then the toggle
flags; so each toggle adds its flag once after whatever the flag string brought, and the emitted
flags hold it once more than those tokens do. -/
theorem detection_flags_counted (o : Options) (toks : List String) (h : flagTokens o = .ok toks) :
    ∃ fs, allFlags uni o = .ok fs ∧ fs = passwordMode uni o toks ++ sudoshFlags o ∧
      (o.sudoshDetectionForce = true →
        fs.count "--ansible-force" = (passwordMode uni o toks).count "--ansible-force" + 1) ∧
      (o.sudoshDetectionVerbose = true →
        fs.count "--ansible-verbose" = (passwordMode uni o toks).count "--ansible-verbose" + 1) :=
  ⟨_, allFlags_eq uni h, rfl, fun hf => by rw [List.count_append, count_sudoshFlags_force hf],
    fun hv => by rw [List.count_append, count_sudoshFlags_verbose hv]⟩

theorem detection_flags_counted_forced :
    ∃ fs, allFlags (fun _ => false) { becomeFlags := "--ansible-force", sudoshDetectionForce := true }
        = .ok fs ∧
      fs = passwordMode (fun _ => false) { becomeFlags := "--ansible-force", sudoshDetectionForce := true }
        ["--ansible-force"] ++ sudoshFlags { becomeFlags := "--ansible-force", sudoshDetectionForce := true } ∧
      (true = true → fs.count "--ansible-force" = (passwordMode (fun _ => false)
        { becomeFlags := "--ansible-force", sudoshDetectionForce := true } ["--ansible-force"]).count
          "--ansible-force" + 1) ∧
      (true = true → fs.count "--ansible-verbose" = (passwordMode (fun _ => false)
        { becomeFlags := "--ansible-force", sudoshDetectionForce := true } ["--ansible-force"]).count
          "--ansible-verbose" + 1) :=
  detection_flags_counted (fun _ => false) { becomeFlags := "--ansible-force", sudoshDetectionForce := true }
    ["--ansible-force"] (by decide)

/-- The declared defaults: the default flag string already holds `--ansible-verbose`, and verbose
detection adds it again. -/
theorem default_options_repeat_verbose :
    allFlags (fun _ => false) {} = .ok ["--ansible-detect", "--ansible-verbose", "--ansible-verbose"] ∧
    ["--ansible-detect", "--ansible-verbose", "--ansible-verbose"].count "--ansible-verbose" = 2 := by
  decide

/-! ## Verbose detection off -/

/-- With verbose detection off, `--ansible-verb--ansible-verboseose` is one token to `shlex`, which
the cut turns into the flag it was meant to remove; and cutting the flag out of
`\--ansible-verbose"` hides the quoting error `shlex` would raise on the string itself. -/
theorem verbose_off_rebuilds_flag :
    Shlex.split "--ansible-verb--ansible-verboseose" = .ok ["--ansible-verb--ansible-verboseose"] ∧
    allFlags uni { becomeFlags := "--ansible-verb--ansible-verboseose", sudoshDetectionVerbose := false }
      = .ok ["--ansible-verbose"] ∧
    Shlex.split "\\--ansible-verbose\"" = .error .noClosingQuotation ∧
    allFlags uni { becomeFlags := "\\--ansible-verbose\"", sudoshDetectionVerbose := false } = .ok ["\""] :=
  ⟨by decide, rfl, by decide, rfl⟩

/-- Verbose detection off as the comment above the cut describes it: split the flag string, then
drop every `--ansible-verbose` token. -/
def verboseOffTokens (F : String) : Except Shlex.Error (List String) :=
  (fun toks => toks.filter (· ≠ "--ansible-verbose")) <$> Shlex.split F

/-- Flag strings on which the cut is the token filter: plain words with no Python whitespace,
each the verbose flag itself or free of its text. -/
def WholeVerboseWords (ws : List String) : Prop :=
  ∀ w ∈ ws, Shlex.PlainWord w.data ∧ (∀ c ∈ w.data, Str.isSpace c = false) ∧
    (w = "--ansible-verbose" ∨ ¬ "--ansible-verbose".data <:+: w.data)

theorem flagTokens_eq_split (o : Options) : flagTokens o = Shlex.split (flags o) := by
  unfold flagTokens
  split_ifs with h
  · rw [h]; rfl
  · rfl

/-- Cutting the words equal to `v` out of words none of which is empty, then keeping the nonempty
ones, drops the words equal to `v`. -/
theorem filter_cut_words (v : String) :
    ∀ {ws : List String}, (∀ w ∈ ws, w ≠ "") →
      ((((ws.map fun w => if w = v then "" else w).map String.data).filter (· ≠ [])).map
        String.mk) = ws.filter (· ≠ v)
  | [], _ => rfl
  | w :: ws, h => by
    have hw : w.data ≠ [] := fun hw => h w (List.mem_cons_self w ws) (String.ext hw)
    have ih := filter_cut_words v fun u hu => h u (List.mem_cons_of_mem w hu)
    by_cases hv : w = v
    · simpa [hv] using ih
    · simpa [hv, hw, List.filter_cons] using ih

theorem flagTokens_eq_verboseOffTokens {o : Options} (hv : o.sudoshDetectionVerbose = false)
    {ws : List String} (hF : orElse o.becomeFlags defaultFlags = Str.join " " ws)
    (hws : WholeVerboseWords ws) :
    flagTokens o = verboseOffTokens (orElse o.becomeFlags defaultFlags) := by
  let cut := ws.map fun w => if w = "--ansible-verbose" then "" else w
  have hcut : Str.replace (Str.join " " ws) "--ansible-verbose" "" =
      ⟨[' '].intercalate (cut.map String.data)⟩ :=
    Str.replace_join (by decide) rfl (by decide) "" fun w hw => (hws w hw).2.2
  have hwords : ∀ w ∈ cut.map String.data,
      w = [] ∨ (Shlex.PlainWord w ∧ ∀ c ∈ w, Str.isSpace c = false) := by
    simp only [cut, List.map_map, List.mem_map, Function.comp_apply]
    rintro _ ⟨u, hu, rfl⟩
    split_ifs
    · exact .inl rfl
    · exact .inr ⟨(hws u hu).1, (hws u hu).2.1⟩
  rw [flagTokens_eq_split, flags, if_neg (by simp [hv]), hF, hcut,
    Shlex.split_strip_intercalate hwords, filter_cut_words _ fun w hw h => (hws w hw).1.1 (by rw [h]),
    verboseOffTokens, (Shlex.split_join_eq_iff ws).2 fun w hw => (hws w hw).1]
  rfl

/-- With verbose detection off and no password, on a flag string of whole words the builder emits
the string's tokens without `--ansible-verbose`, then the toggle flags: cutting the flag out of the
string agrees there with dropping its tokens. -/
theorem verbose_off_cut_agrees_on_whole_words {o : Options} (hv : o.sudoshDetectionVerbose = false)
    (hpass : o.becomePass = "") {ws : List String}
    (hF : orElse o.becomeFlags defaultFlags = Str.join " " ws) (hws : WholeVerboseWords ws) :
    allFlags uni o =
      (· ++ sudoshFlags o) <$> verboseOffTokens (orElse o.becomeFlags defaultFlags) := by
  rw [allFlags, flagTokens_eq_verboseOffTokens hv hF hws]
  simp [passwordMode, hpass]

theorem verbose_off_cut_agrees_on_default_flags :
    WholeVerboseWords ["--ansible-detect", "--ansible-verbose"] ∧
    allFlags (fun _ => false) { sudoshDetectionVerbose := false } =
      (· ++ sudoshFlags { sudoshDetectionVerbose := false }) <$> verboseOffTokens defaultFlags := by
  have hws : WholeVerboseWords ["--ansible-detect", "--ansible-verbose"] := by
    unfold WholeVerboseWords Shlex.PlainWord; decide
  exact ⟨hws, verbose_off_cut_agrees_on_whole_words (fun _ => false) rfl rfl
    (show orElse "--ansible-detect --ansible-verbose" defaultFlags =
      Str.join " " ["--ansible-detect", "--ansible-verbose"] by decide) hws⟩

end SudoshBecome
