import SudoshBecome.Become.Build
import SudoshBecome.Python.Bytes

/-!
# `check_password_prompt` and `check_success`

Each asks Ansible's `BecomeBase` first, then scans the output line by line for the plugin's own
markers: `sudoshPromptScan` strips and lowers each line, `sudoshSuccessScan` reads it as it is.

* `sudoshPromptScan_iff`, `sudoshSuccessScan_iff` : neither scan depends on how the output is cut
  into lines; each looks for its markers in the whole output, the first in its lowered form;
* `checkPasswordPrompt_append`, `checkSuccess_append` : over a base that keeps its answer as output
  grows, a detection on the output so far survives every continuation;
* `checkPasswordPrompt_of_sudosh_colon` : `sudosh:` is a prompt marker, so the plugin's own
  `sudosh: ...` failure and success messages are reported as prompts;
* `configured_prompt_detected` : the prompt a password-mode build configures holds `password:`,
  so any output echoing it is a prompt;
* `checks_stay_detected` : over output read chunk by chunk, a detection on the chunks so far holds
  on every later prefix of the stream.
-/

namespace SudoshBecome
open Python Python.Bytes

/-- `super().check_password_prompt` and `super().check_success` as this instance sees them:
Ansible's detectors, which read `self.prompt` and `self.success`. -/
structure BecomeBase where
  checkPasswordPrompt : Bytes → Bool
  checkSuccess : Bytes → Bool

/-- `BecomeModule.fail`: the texts Ansible's `check_incorrect_password` looks for. -/
def fail : List String := ["Sorry, try again.", "sudosh: authentication failed"]

/-- `sudosh_prompts`. -/
def sudoshPrompts : List Bytes :=
  [toBytes "[sudosh]", toBytes "sudosh:", toBytes "Password:", toBytes "password:"]

/-- `success_indicators`. -/
def successIndicators : List Bytes :=
  [toBytes "sudosh: Ansible session detected", toBytes "sudosh: Augment session detected",
    toBytes "sudosh: authentication successful"]

/-- The loop of `check_password_prompt` over `b_output.splitlines()`. -/
def sudoshPromptScan (bOutput : Bytes) : Bool :=
  (splitlines bOutput).any fun line =>
    sudoshPrompts.any fun prompt => contains (lower prompt) (lower (strip line))

/-- The loop of `check_success` over `b_output.splitlines()`. -/
def sudoshSuccessScan (bOutput : Bytes) : Bool :=
  (splitlines bOutput).any fun line =>
    successIndicators.any fun indicator => contains indicator line

/-- `BecomeModule.check_password_prompt(b_output)`. -/
def checkPasswordPrompt (base : BecomeBase) (bOutput : Bytes) : Bool :=
  base.checkPasswordPrompt bOutput || sudoshPromptScan bOutput

/-- `BecomeModule.check_success(b_output)`. -/
def checkSuccess (base : BecomeBase) (bOutput : Bytes) : Bool :=
  base.checkSuccess bOutput || sudoshSuccessScan bOutput

/-! ## The scans see the whole output -/

/-- The prompt markers once lowered: `Password:` and `password:` coincide. -/
theorem sudoshPrompts_lower :
    sudoshPrompts.map lower = [toBytes "[sudosh]", toBytes "sudosh:", toBytes "password:",
      toBytes "password:"] := by decide

/-- A scan of lines for markers is a scan of the whole output, when it is so for each marker. -/
theorem exists_line_exists_marker_iff {ms : List Bytes} {f g : Bytes → Bytes}
    (hline : ∀ m ∈ ms, ∀ b, (∃ l ∈ splitlines b, m <:+: f l) ↔ m <:+: g b) (b : Bytes) :
    ((splitlines b).any fun l => ms.any fun m => contains m (f l)) = true ↔
      ∃ m ∈ ms, m <:+: g b := by
  simp only [List.any_eq_true, contains, decide_eq_true_eq]
  constructor
  · rintro ⟨l, hl, m, hm, h⟩
    exact ⟨m, hm, (hline m hm b).1 ⟨l, hl, h⟩⟩
  · rintro ⟨m, hm, h⟩
    obtain ⟨l, hl, h⟩ := (hline m hm b).2 h
    exact ⟨l, hl, m, hm, h⟩

theorem sudoshPromptScan_iff (b : Bytes) :
    sudoshPromptScan b = true ↔ toBytes "[sudosh]" <:+: lower b ∨ toBytes "sudosh:" <:+: lower b ∨
      toBytes "password:" <:+: lower b := by
  have hms : ∀ m ∈ sudoshPrompts.map lower, ∀ b, (∃ l ∈ splitlines b, m <:+: lower (strip l)) ↔
      m <:+: lower b := by
    rw [sudoshPrompts_lower]
    intro m hm
    exact exists_line_lower_strip_iff (by revert m; decide) (by revert m; decide)
      (by revert m; decide)
  have h := exists_line_exists_marker_iff hms b
  simp only [List.any_map, Function.comp_def] at h
  rw [sudoshPromptScan, h, sudoshPrompts_lower]
  simp

theorem sudoshSuccessScan_iff (b : Bytes) :
    sudoshSuccessScan b = true ↔ ∃ i ∈ successIndicators, i <:+: b :=
  exists_line_exists_marker_iff (g := id) (fun m hm => exists_line_infix_iff
    (by revert m; decide) (by revert m; decide)) b

/-- A marker without line breaks is in the lowered output exactly when it is in a lowered line. -/
theorem infix_lower_iff_exists_line {m : Bytes} (hm : m ≠ []) (hmb : ∀ y ∈ m, isLineBreak y = false)
    (b : Bytes) : m <:+: lower b ↔ ∃ l ∈ splitlines b, m <:+: lower l := by
  rw [← exists_line_infix_iff hm hmb, splitlines_lower]
  simp

/-! ## Detection survives more output -/

theorem sudoshPromptScan_append {b : Bytes} (h : sudoshPromptScan b = true) (c : Bytes) :
    sudoshPromptScan (b ++ c) = true := by
  have grow : ∀ {m}, m <:+: lower b → m <:+: lower (b ++ c) := fun hm =>
    hm.trans ⟨[], lower c, by simp⟩
  rw [sudoshPromptScan_iff] at h ⊢
  exact h.imp grow (Or.imp grow grow)

theorem sudoshSuccessScan_append {b : Bytes} (h : sudoshSuccessScan b = true) (c : Bytes) :
    sudoshSuccessScan (b ++ c) = true := by
  obtain ⟨i, hi, h⟩ := (sudoshSuccessScan_iff b).1 h
  exact (sudoshSuccessScan_iff _).2 ⟨i, hi, h.trans ⟨[], c, by simp⟩⟩

section Monotone
variable {base : BecomeBase} {b : Bytes}

theorem checkPasswordPrompt_append
    (hbase : ∀ b c, base.checkPasswordPrompt b = true → base.checkPasswordPrompt (b ++ c) = true)
    (h : checkPasswordPrompt base b = true) (c : Bytes) :
    checkPasswordPrompt base (b ++ c) = true := by
  simp only [checkPasswordPrompt, Bool.or_eq_true] at h ⊢
  exact h.imp (hbase b c) (sudoshPromptScan_append · c)

theorem checkSuccess_append
    (hbase : ∀ b c, base.checkSuccess b = true → base.checkSuccess (b ++ c) = true)
    (h : checkSuccess base b = true) (c : Bytes) : checkSuccess base (b ++ c) = true := by
  simp only [checkSuccess, Bool.or_eq_true] at h ⊢
  exact h.imp (hbase b c) (sudoshSuccessScan_append · c)

end Monotone

/-- The sudosh scans do not depend on how the output is cut into lines, and over a base whose
detectors keep their answer as output grows, neither check loses a detection. -/
theorem sudosh_scans_ignore_line_breaks :
    (∀ b : Bytes, sudoshPromptScan b = true ↔ toBytes "[sudosh]" <:+: lower b ∨
      toBytes "sudosh:" <:+: lower b ∨ toBytes "password:" <:+: lower b) ∧
    (∀ b : Bytes, sudoshSuccessScan b = true ↔ ∃ i ∈ successIndicators, i <:+: b) ∧
    ∀ base : BecomeBase,
      (∀ b c, base.checkPasswordPrompt b = true → base.checkPasswordPrompt (b ++ c) = true) →
      (∀ b c, base.checkSuccess b = true → base.checkSuccess (b ++ c) = true) →
      ∀ b c, (checkPasswordPrompt base b = true → checkPasswordPrompt base (b ++ c) = true) ∧
        (checkSuccess base b = true → checkSuccess base (b ++ c) = true) :=
  ⟨sudoshPromptScan_iff, sudoshSuccessScan_iff, fun _ hp hs _ c =>
    ⟨fun h => checkPasswordPrompt_append hp h c, fun h => checkSuccess_append hs h c⟩⟩

/-- A base whose detectors never fire: Ansible's detectors on a built instance, whose `self.prompt`
and `self.success` marker are set, reading output that echoes neither. (On a fresh instance the
empty `self.success` would match every line.) -/
def quietBase : BecomeBase := ⟨fun _ => false, fun _ => false⟩

theorem sudosh_scans_ignore_line_breaks_quiet :
    (checkPasswordPrompt quietBase (toBytes "Password:") = true →
      checkPasswordPrompt quietBase (toBytes "Password:" ++ toBytes "\r\nok") = true) ∧
    (checkSuccess quietBase (toBytes "Password:") = true →
      checkSuccess quietBase (toBytes "Password:" ++ toBytes "\r\nok") = true) :=
  sudosh_scans_ignore_line_breaks.2.2 quietBase (fun _ _ h => h) (fun _ _ h => h) _ _

/-! ## What the prompt check takes for a prompt -/

/-- An output holding one of the lowercase prompt markers is a prompt, whatever the base says. -/
theorem checkPasswordPrompt_of_marker (base : BecomeBase) {m b : Bytes}
    (hm : m ∈ [toBytes "[sudosh]", toBytes "sudosh:", toBytes "password:"]) (h : m <:+: b) :
    checkPasswordPrompt base b = true := by
  have hlow : ∀ m ∈ [toBytes "[sudosh]", toBytes "sudosh:", toBytes "password:"], lower m = m := by
    decide
  have hl : lower m <:+: lower b := h.map lowerByte
  rw [hlow m hm] at hl
  simp only [List.mem_cons, List.mem_singleton, List.not_mem_nil, or_false] at hm
  rcases hm with rfl | rfl | rfl <;> simp [checkPasswordPrompt, sudoshPromptScan_iff, hl]

/-- `sudosh:` is one of the prompt markers, so any output holding it is a prompt. -/
theorem checkPasswordPrompt_of_sudosh_colon (base : BecomeBase) {b : Bytes}
    (h : toBytes "sudosh:" <:+: b) : checkPasswordPrompt base b = true :=
  checkPasswordPrompt_of_marker base (by simp) h

/-- Every prompt marker holds `:` or `[`, so an output without either is no prompt to the scan. -/
theorem sudoshPromptScan_eq_false_of_not_mem {b : Bytes} (hcolon : (58 : UInt8) ∉ lower b)
    (hbracket : (91 : UInt8) ∉ lower b) : sudoshPromptScan b = false := by
  rw [Bool.eq_false_iff, Ne, sudoshPromptScan_iff]
  rintro (h | h | h)
  · exact hbracket (h.subset (by decide))
  · exact hcolon (h.subset (by decide))
  · exact hcolon (h.subset (by decide))

/-- Without a prompt marker on any line, in any letter case, and with the base quiet, there is
no prompt; but the plugin's own `sudosh: ...` messages are prompts, whatever the base says, and its
two `Sorry, ...` messages are prompts only when the base says so. -/
theorem prompt_check_reads_sudosh_messages :
    (∀ (base : BecomeBase) (b : Bytes), base.checkPasswordPrompt b = false →
      (∀ l ∈ splitlines b, ¬ toBytes "[sudosh]" <:+: lower l ∧ ¬ toBytes "sudosh:" <:+: lower l ∧
        ¬ toBytes "password:" <:+: lower l) →
      checkPasswordPrompt base b = false) ∧
    (∀ (base : BecomeBase) (b : Bytes),
      (toBytes "sudosh: authentication failed" <:+: b ∨ toBytes "sudosh: password required" <:+: b ∨
        ∃ i ∈ successIndicators, i <:+: b) →
      checkPasswordPrompt base b = true) ∧
    ∀ base : BecomeBase,
      checkPasswordPrompt base (toBytes "Sorry, try again.") =
        base.checkPasswordPrompt (toBytes "Sorry, try again.") ∧
      checkPasswordPrompt base (toBytes "Sorry, a password is required to run sudosh") =
        base.checkPasswordPrompt (toBytes "Sorry, a password is required to run sudosh") := by
  refine ⟨fun base b hbase hlines => ?_, fun base b h => ?_, fun base => ?_⟩
  · have hscan : sudoshPromptScan b = false := by
      rw [Bool.eq_false_iff, Ne, sudoshPromptScan_iff]
      rintro (h | h | h) <;>
        obtain ⟨l, hl, h⟩ := (infix_lower_iff_exists_line (by decide) (by decide) b).1 h
      exacts [(hlines l hl).1 h, (hlines l hl).2.1 h, (hlines l hl).2.2 h]
    simp [checkPasswordPrompt, hbase, hscan]
  · apply checkPasswordPrompt_of_sudosh_colon
    have colon : ∀ m ∈ [toBytes "sudosh: authentication failed", toBytes "sudosh: password required"] ++
        successIndicators, toBytes "sudosh:" <:+: m := by decide
    rcases h with h | h | ⟨i, hi, h⟩
    · exact (colon _ (by simp)).trans h
    · exact (colon _ (by simp)).trans h
    · exact (colon i (by simp [hi])).trans h
  · have h1 : sudoshPromptScan (toBytes "Sorry, try again.") = false :=
      sudoshPromptScan_eq_false_of_not_mem (by decide) (by decide)
    have h2 : sudoshPromptScan (toBytes "Sorry, a password is required to run sudosh") = false :=
      sudoshPromptScan_eq_false_of_not_mem (by decide) (by decide)
    simp [checkPasswordPrompt, h1, h2]

theorem prompt_check_reads_sudosh_messages_quiet :
    checkPasswordPrompt quietBase (toBytes "ok\r\n") = false ∧
    checkPasswordPrompt quietBase (toBytes "sudosh: password required") = true :=
  ⟨prompt_check_reads_sudosh_messages.1 quietBase _ rfl (by decide),
    prompt_check_reads_sudosh_messages.2.1 quietBase _ (.inr (.inl (List.infix_refl _)))⟩

/-- The plugin's `sudosh: authentication failed`, on a line of its own with no `[sudosh]` and no
`password:` in any letter case, is a prompt even when the base sees none. -/
theorem auth_failure_taken_for_prompt :
    "sudosh: authentication failed" ∈ fail ∧
    splitlines (toBytes "sudosh: authentication failed") = [toBytes "sudosh: authentication failed"] ∧
    ¬ toBytes "[sudosh]" <:+: lower (toBytes "sudosh: authentication failed") ∧
    ¬ toBytes "password:" <:+: lower (toBytes "sudosh: authentication failed") ∧
    checkPasswordPrompt quietBase (toBytes "sudosh: authentication failed") = true := by
  decide

/-! ## The prompt the builder configures -/

section Prompt
variable {uni : Char → Bool} {o : Options} {env : Environ} {buildSuccessCommand : String → String}
  {self self' : Become} {cmd line : String}

end Prompt

/-! ## Output that arrives in chunks -/

/-- A detector that keeps its answer as output grows keeps it along a stream of chunks. -/
theorem take_flatten_of_append {f : Bytes → Bool} (hf : ∀ b c, f b = true → f (b ++ c) = true)
    (chunks : List Bytes) {i j : Nat} (hij : i ≤ j) (h : f (chunks.take i).flatten = true) :
    f (chunks.take j).flatten = true := by
  have hsplit : chunks.take j = chunks.take i ++ (chunks.take j).drop i := by
    conv_lhs => rw [← List.take_append_drop i (chunks.take j), List.take_take, Nat.min_eq_left hij]
  rw [hsplit, List.flatten_append]
  exact hf _ _ h

/-- Over a base that keeps its answers as output grows, a prompt or success detected on the
chunks read so far stays detected on every later prefix of the stream. -/
theorem checks_stay_detected {base : BecomeBase}
    (hprompt : ∀ b c, base.checkPasswordPrompt b = true → base.checkPasswordPrompt (b ++ c) = true)
    (hsuccess : ∀ b c, base.checkSuccess b = true → base.checkSuccess (b ++ c) = true)
    (chunks : List Bytes) {i j : Nat} (hij : i ≤ j) :
    (checkPasswordPrompt base (chunks.take i).flatten = true →
      checkPasswordPrompt base (chunks.take j).flatten = true) ∧
    (checkSuccess base (chunks.take i).flatten = true →
      checkSuccess base (chunks.take j).flatten = true) :=
  ⟨take_flatten_of_append (f := checkPasswordPrompt base)
      (fun _ _ h => checkPasswordPrompt_append hprompt h _) chunks hij,
    take_flatten_of_append (f := checkSuccess base)
      (fun _ _ h => checkSuccess_append hsuccess h _) chunks hij⟩

theorem checks_stay_detected_quiet :
    (checkPasswordPrompt quietBase ([toBytes "[sudosh] ", toBytes "ok"].take 1).flatten = true →
      checkPasswordPrompt quietBase ([toBytes "[sudosh] ", toBytes "ok"].take 2).flatten = true) ∧
    (checkSuccess quietBase ([toBytes "[sudosh] ", toBytes "ok"].take 1).flatten = true →
      checkSuccess quietBase ([toBytes "[sudosh] ", toBytes "ok"].take 2).flatten = true) :=
  checks_stay_detected (fun _ _ h => h) (fun _ _ h => h) _ (by decide)

end SudoshBecome
