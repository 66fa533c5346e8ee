import SudoshBecome.Become.Flags

/-!
# The command line, split back into words

`build_become_command` joins its parts with single spaces and quotes nothing, so POSIX word
splitting as `shlex.split` does it gets back the words the plugin meant (`intendedArgv`) only when
none of them needs quoting. A shell does more to the line (`#`, `$`, `;`, globs); the results here
are about word splitting alone.

* `buildBecomeCommand_eq` : the command line is the joined prefix, a space, and the wrapped
  command;
* `join_cmdParts_eq` : the prefix is the intended words joined by single spaces;
* `buildBecomeCommand_ok_of_unquoted_flags` : the builder only raises on a flag string holding a
  quote or a backslash;
* `command_prefix_reads_back_iff_plain` : `shlex.split` of the prefix gives the intended words back
  exactly when every one of them is plain;
* `command_prefix_reads_each_word` : otherwise it reads each intended word's own tokens, in order;
* `quoted_flag_splits_apart` : a flag value with a quoted space comes back as two words.
-/

namespace SudoshBecome
open Python

variable (uni : Char → Bool)

/-- The words the command line is meant to carry before the wrapped command, one word per part:
`env`, each annotation, the executable, each flag, then `-u` and the user when one is set. -/
def intendedArgv (envVars : List String) (becomecmd : String) (allFlags : List String)
    (user : String) : List String :=
  "env" :: envVars ++ becomecmd :: allFlags ++ (if user = "" then [] else ["-u", user])

theorem join_append_single {xs : List String} (hx : xs ≠ []) (w : String) :
    Str.join " " (xs ++ [w]) = Str.join " " xs ++ " " ++ w := by
  apply String.ext
  simp only [Str.join_data, List.map_append, List.map_cons, List.map_nil, String.data_append]
  rw [Str.intercalate_append _ (by simpa using hx) (List.cons_ne_nil _ []),
    Str.intercalate_singleton]

theorem ansibleEnvVars_join_ne_empty (o : Options) (env : Environ) :
    Str.join " " (ansibleEnvVars o env) ≠ "" :=
  Str.join_cons_ne_empty " " _ (by decide)

/-- The prefix of the command line is the intended words joined by single spaces, the flags left
out when they join to nothing. -/
theorem join_cmdParts_eq {envVars : List String} {becomecmd : String} (fs : List String)
    {user : String} (henv : Str.join " " envVars ≠ "") :
    Str.join " " (cmdParts envVars becomecmd fs (if user = "" then "" else "-u " ++ user)) =
      Str.join " " (intendedArgv envVars becomecmd (if Str.join " " fs = "" then [] else fs) user) := by
  have hflags : (if fs = [] then "" else Str.join " " fs) = Str.join " " fs := by
    split_ifs with h
    · rw [h]; rfl
    · rfl
  have huser : (if user = "" then "" else "-u " ++ user) =
      Str.join " " (if user = "" then [] else ["-u", user]) := by
    split_ifs
    · rfl
    · exact String.ext (by simp [Str.intercalate_cons_cons])
  have hU : (if Str.join " " (if user = "" then [] else ["-u", user]) = "" then []
      else if user = "" then [] else ["-u", user]) = if user = "" then [] else ["-u", user] := by
    by_cases hu : user = ""
    · simp [hu]
    · simp [hu, Str.join_cons_ne_empty " " [user] (by decide : ("-u" : String) ≠ "")]
  simp only [cmdParts, henv, ite_false, hflags, huser]
  rw [Str.join_append_opt " " (by simp) fs]
  simpa [intendedArgv, hU] using Str.join_append_opt " "
    (by simp : "env" :: envVars ++ [becomecmd] ++ (if Str.join " " fs = "" then [] else fs) ≠ [])
    (if user = "" then [] else ["-u", user]) []

theorem buildBecomeCommand_eq {o : Options} {fs : List String} (h : allFlags uni o = .ok fs)
    (env : Environ) (buildSuccessCommand : String → String) (self : Become) {cmd : String}
    (hcmd : cmd ≠ "") :
    buildBecomeCommand uni o env buildSuccessCommand self cmd =
      .ok (Str.join " " (cmdParts (ansibleEnvVars o env) (becomeCmd o) fs (userFlag o)) ++ " " ++
        buildSuccessCommand cmd,
        if o.becomePass = "" then self else { self with prompt := passwordPrompt self.id }) := by
  rw [← join_append_single (by simp [cmdParts])]
  simp [buildBecomeCommand, hcmd, h, Functor.map, Except.map]

/-- The builder raises only on a flag string holding a quote or a backslash: the cut and `strip`
add no character, and without one `shlex` never ends inside quotes or after an escape. -/
theorem buildBecomeCommand_ok_of_unquoted_flags (o : Options) (env : Environ)
    (buildSuccessCommand : String → String) (self : Become) (cmd : String)
    (h : ∀ c ∈ o.becomeFlags.data, Shlex.isQuote c = false ∧ c ≠ '\\') :
    ∃ r, buildBecomeCommand uni o env buildSuccessCommand self cmd = .ok r := by
  obtain ⟨toks, htoks⟩ := flagTokens_ok_of_unquoted h
  by_cases hcmd : cmd = ""
  · exact ⟨_, by rw [buildBecomeCommand, if_pos hcmd]⟩
  · exact ⟨_, buildBecomeCommand_eq uni (allFlags_eq uni htoks) env buildSuccessCommand self hcmd⟩

theorem buildBecomeCommand_ok_of_unquoted_flags_log :
    ∃ r, buildBecomeCommand (fun _ => false)
      { becomeFlags := "-E --log-session=/tmp/my-log", becomePass := "secret" } [] id ⟨"1", ""⟩
        "whoami" = .ok r :=
  buildBecomeCommand_ok_of_unquoted_flags (fun _ => false) _ [] id ⟨"1", ""⟩ "whoami" (by decide)

/-! ## What `shlex.split` reads back -/

theorem intendedArgv_eq_append (envVars : List String) (becomecmd : String) (fs : List String)
    (user : String) : intendedArgv envVars becomecmd fs user =
      ("env" :: envVars ++ [becomecmd]) ++ fs ++ (if user = "" then [] else ["-u", user]) := by
  simp [intendedArgv]

/-- Before the wrapped command, `shlex.split` reads back exactly the intended words if and only if
every one of them is plain: nonempty, with no whitespace, quote or backslash. -/
theorem command_prefix_reads_back_iff_plain {o : Options} {fs : List String}
    (h : allFlags uni o = .ok fs) (env : Environ) (buildSuccessCommand : String → String)
    (self : Become) {cmd : String} (hcmd : cmd ≠ "") :
    ∃ P self', buildBecomeCommand uni o env buildSuccessCommand self cmd =
        .ok (P ++ " " ++ buildSuccessCommand cmd, self') ∧
      (Shlex.split P = .ok (intendedArgv (ansibleEnvVars o env) (becomeCmd o) fs o.becomeUser) ↔
        ∀ w ∈ intendedArgv (ansibleEnvVars o env) (becomeCmd o) fs o.becomeUser,
          Shlex.PlainWord w.data) := by
  refine ⟨_, _, buildBecomeCommand_eq uni h env buildSuccessCommand self hcmd, ?_⟩
  rw [userFlag, join_cmdParts_eq fs (ansibleEnvVars_join_ne_empty o env)]
  split_ifs with hfs
  · cases fs with
    | nil => exact Shlex.split_join_eq_iff _
    | cons f fs =>
      -- flags that join to nothing leave the line shorter than the words they stand for
      refine iff_of_false (fun hsplit => ?_) (fun hplain => ?_)
      · have hle := Shlex.tokCost_le_of_split hsplit
        have hlen := Shlex.length_join_add_one
          (show intendedArgv (ansibleEnvVars o env) (becomeCmd o) [] o.becomeUser ≠ [] by
            simp [intendedArgv])
        simp only [intendedArgv_eq_append, List.map_append, Shlex.tokCost_append, List.map_cons,
          Shlex.tokCost_cons, List.map_nil, Shlex.tokCost_nil] at hle hlen
        omega
      · have hf : f = "" := by
          by_contra hf
          exact Str.join_cons_ne_empty " " fs hf hfs
        exact (hplain f (by simp [intendedArgv])).1 (by simp [hf])
  · exact Shlex.split_join_eq_iff _

theorem command_prefix_reads_back_iff_plain_defaults :
    ∃ P self', buildBecomeCommand (fun _ => false) {} [] id ⟨"", ""⟩ "whoami" =
        .ok (P ++ " " ++ id "whoami", self') ∧
      (Shlex.split P = .ok (intendedArgv (ansibleEnvVars {} []) (becomeCmd {})
          ["--ansible-detect", "--ansible-verbose", "--ansible-verbose"] "root") ↔
        ∀ w ∈ intendedArgv (ansibleEnvVars {} []) (becomeCmd {})
          ["--ansible-detect", "--ansible-verbose", "--ansible-verbose"] "root",
          Shlex.PlainWord w.data) :=
  command_prefix_reads_back_iff_plain (fun _ => false) (by decide) [] id ⟨"", ""⟩ (by decide)

/-- When every intended word lexes on its own, `shlex.split` reads before the wrapped command each
intended word's own tokens, in order: a word loses its quotes, a word holding a space becomes
two. -/
theorem command_prefix_reads_each_word {o : Options} {fs : List String}
    (h : allFlags uni o = .ok fs) (env : Environ) (buildSuccessCommand : String → String)
    (self : Become) {cmd : String} (hcmd : cmd ≠ "") {tss : List (List String)}
    (hlex : (intendedArgv (ansibleEnvVars o env) (becomeCmd o) fs o.becomeUser).mapM Shlex.split =
      .ok tss) :
    ∃ P self', buildBecomeCommand uni o env buildSuccessCommand self cmd =
        .ok (P ++ " " ++ buildSuccessCommand cmd, self') ∧ Shlex.split P = .ok tss.flatten := by
  refine ⟨_, _, buildBecomeCommand_eq uni h env buildSuccessCommand self hcmd, ?_⟩
  rw [userFlag, join_cmdParts_eq fs (ansibleEnvVars_join_ne_empty o env)]
  split_ifs with hfs
  · -- flags that join to nothing lex to no tokens
    rw [intendedArgv_eq_append] at hlex ⊢
    obtain ⟨r, rU, hr, hU, rfl⟩ := Shlex.mapM_append_eq_ok hlex
    obtain ⟨rA, rF, hA, hF, rfl⟩ := Shlex.mapM_append_eq_ok hr
    have hnone : rF.flatten = [] := by
      have := Shlex.split_join_of_mapM hF
      rw [hfs] at this
      exact (Except.ok.inj this).symm
    have hlex' : (("env" :: ansibleEnvVars o env ++ [becomeCmd o]) ++ [] ++
        (if o.becomeUser = "" then [] else ["-u", o.becomeUser])).mapM Shlex.split =
        .ok (rA ++ [] ++ rU) := by
      rw [List.mapM_append, List.mapM_append, hA, hU]; rfl
    rw [Shlex.split_join_of_mapM hlex']
    simp [hnone]
  · exact Shlex.split_join_of_mapM hlex

theorem command_prefix_reads_each_word_quoted :
    ∃ P self', buildBecomeCommand (fun _ => false) { becomeFlags := "--log-session '/tmp/my log'" }
        [] id ⟨"", ""⟩ "whoami" = .ok (P ++ " " ++ id "whoami", self') ∧
      Shlex.split P = .ok [["env"], ["ANSIBLE_BECOME_METHOD=sudosh"], ["ANSIBLE_BECOME_USER=root"],
        ["ANSIBLE_MODULE_NAME=unknown"], ["ANSIBLE_TASK_UUID=unknown"], ["sudosh"],
        ["--log-session"], ["/tmp/my", "log"], ["--ansible-verbose"], ["-u"], ["root"]].flatten :=
  command_prefix_reads_each_word (fun _ => false)
    (by decide : allFlags (fun _ => false) { becomeFlags := "--log-session '/tmp/my log'" } =
      .ok ["--log-session", "/tmp/my log", "--ansible-verbose"]) [] id ⟨"", ""⟩ (by decide) (by decide)

set_option maxRecDepth 20000 in
/-- A flag value holding a quoted space is one token of `become_flags`, and two words of the
command line. -/
theorem quoted_flag_splits_apart :
    flagTokens { becomeFlags := "--log-session '/tmp/my log'" } =
      .ok ["--log-session", "/tmp/my log"] ∧
    (buildBecomeCommand uni { becomeFlags := "--log-session '/tmp/my log'" } [] id ⟨"", ""⟩
        "whoami").map (fun r => Shlex.split r.1) =
      .ok (.ok ["env", "ANSIBLE_BECOME_METHOD=sudosh", "ANSIBLE_BECOME_USER=root",
        "ANSIBLE_MODULE_NAME=unknown", "ANSIBLE_TASK_UUID=unknown", "sudosh", "--log-session",
        "/tmp/my", "log", "--ansible-verbose", "-u", "root", "whoami"]) :=
  ⟨by decide, rfl⟩

end SudoshBecome
