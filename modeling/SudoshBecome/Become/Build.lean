import SudoshBecome.Become.Options
import SudoshBecome.Python.Shlex
import SudoshBecome.Python.Re

/-!
# `BecomeModule.build_become_command`

The builder, block by block as the source has them:

* `becomeCmd` : the executable; `ansibleEnvVars` : the `env` annotations, three of them only when
  the controller sets the variable (`contextVar`);
* `sudoshFlags` : the flags the detection and logging toggles add;
* `flags` : the flag string, the verbose flag cut out of it when verbose detection is off;
* `flagTokens` : `shlex.split(flags)` when `flags` is not empty;
* `reflag` : the password-mode loop, which drops `-n` and `--non-interactive` and runs `subDashN`
  on every other flag not starting with `--`; `passwordMode` : the loop when a password is set;
* `allFlags` : the flags emitted; `cmdParts` : the words before the wrapped command;
* `buildBecomeCommand` : the command line and the instance after the call. A flag string `shlex`
  rejects makes the call raise, leaving `self.prompt` as it was.

`_build_success_command(cmd, shell)` is Ansible's and is a parameter here, as is the Unicode
database behind `\w` (`uni`).
-/

namespace SudoshBecome
open Python

/-- `self.name`. -/
def name : String := "sudosh"

/-- The flag string `build_become_command` falls back to. -/
def defaultFlags : String := "--ansible-detect --ansible-verbose"

/-- `becomecmd`. -/
def becomeCmd (o : Options) : String := orElse o.becomeExe name

/-- One optional annotation: `KEY=value` when the controller sets `KEY` to a nonempty value. -/
def contextVar (env : Environ) (key : String) : List String :=
  match env.get key with
  | some v => if v = "" then [] else [key ++ "=" ++ v]
  | none => []

/-- `ansible_env_vars`. -/
def ansibleEnvVars (o : Options) (env : Environ) : List String :=
  ["ANSIBLE_BECOME_METHOD=sudosh",
    "ANSIBLE_BECOME_USER=" ++ orElse o.becomeUser "root",
    "ANSIBLE_MODULE_NAME=" ++ (env.get "ANSIBLE_MODULE_NAME").getD "unknown",
    "ANSIBLE_TASK_UUID=" ++ (env.get "ANSIBLE_TASK_UUID").getD "unknown"] ++
  contextVar env "ANSIBLE_PLAYBOOK_DIR" ++ contextVar env "ANSIBLE_INVENTORY" ++
  contextVar env "ANSIBLE_CONFIG"

/-- `sudosh_flags`. -/
def sudoshFlags (o : Options) : List String :=
  (if o.sudoshDetectionForce then ["--ansible-force"] else []) ++
  (if o.sudoshDetectionVerbose then ["--ansible-verbose"] else []) ++
  (if o.sudoshSessionLog then [] else ["--no-session-log"])

/-- `flags` when `all_flags` is built. -/
def flags (o : Options) : String :=
  if o.sudoshDetectionVerbose then orElse o.becomeFlags defaultFlags
  else Str.strip (Str.replace (orElse o.becomeFlags defaultFlags) "--ansible-verbose" "")

/-- The tokens `all_flags` takes from `flags`. -/
def flagTokens (o : Options) : Except Shlex.Error (List String) :=
  if flags o = "" then .ok [] else Shlex.split (flags o)

/-- One pass of the password-mode loop: `none` for a flag it skips. -/
def reflagOne (uni : Char → Bool) (flag : String) : Option String :=
  if flag = "-n" ∨ flag = "--non-interactive" then none
  else if Str.startsWith flag "--" then some flag
  else some (subDashN (isWordChar uni) flag)

/-- `reflag`, the password-mode loop over `all_flags`. -/
def reflag (uni : Char → Bool) (allFlags : List String) : List String :=
  allFlags.filterMap (reflagOne uni)

/-- The block under `if self.get_option('become_pass')` acting on `all_flags`. -/
def passwordMode (uni : Char → Bool) (o : Options) (allFlags : List String) : List String :=
  if o.becomePass = "" then allFlags else reflag uni allFlags

/-- `all_flags` as the command line gets it. -/
def allFlags (uni : Char → Bool) (o : Options) : Except Shlex.Error (List String) :=
  (fun toks => passwordMode uni o (toks ++ sudoshFlags o)) <$> flagTokens o

/-- `self.prompt` in password mode. -/
def passwordPrompt (id : String) : String := "[sudosh via ansible, key=" ++ id ++ "] password:"

/-- `user_flag`. -/
def userFlag (o : Options) : String := if o.becomeUser = "" then "" else "-u " ++ o.becomeUser

/-- `cmd_parts` before the wrapped command. -/
def cmdParts (envVars : List String) (becomecmd : String) (allFlags : List String)
    (userFlag : String) : List String :=
  let envPrefix := Str.join " " envVars
  let flagsStr := if allFlags = [] then "" else Str.join " " allFlags
  (if envPrefix = "" then [] else "env" :: envVars) ++ [becomecmd] ++
    (if flagsStr = "" then [] else [flagsStr]) ++ (if userFlag = "" then [] else [userFlag])

/-- `build_become_command(cmd, shell)`, `buildSuccessCommand cmd` standing for
`self._build_success_command(cmd, shell)`: the command line, and the instance after the call. -/
def buildBecomeCommand (uni : Char → Bool) (o : Options) (env : Environ)
    (buildSuccessCommand : String → String) (self : Become) (cmd : String) :
    Except Shlex.Error (String × Become) :=
  if cmd = "" then .ok (cmd, self)
  else
    (fun fs => (Str.join " " (cmdParts (ansibleEnvVars o env) (becomeCmd o) fs (userFlag o) ++
        [buildSuccessCommand cmd]),
      if o.becomePass = "" then self else { self with prompt := passwordPrompt self.id })) <$>
      allFlags uni o

end SudoshBecome
