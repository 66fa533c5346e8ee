import SudoshBecome.Python.Str

/-!
# The plugin's inputs: options, environment, instance state

`build_become_command` reads resolved options through `get_option`, the controller's environment
through `os.environ`, and the instance fields `self._id` and `self.prompt`. Option resolution (ini
file, environment variable, play variable, keyword) is Ansible's; this model starts from the
values it resolves.

* `Options` : the seven options of `DOCUMENTATION`, their declared defaults as field defaults;
* `Environ` : `os.environ`; `Environ.get` : `os.environ.get(key)`;
* `Become` : the instance fields `build_become_command` reads and writes.
-/

namespace SudoshBecome

/-- The option values `get_option` returns. An unset string option is `""`: the plugin only tests
their truth, and `None` is falsy as `""` is. Field defaults are those `DOCUMENTATION` declares. -/
structure Options where
  becomeUser : String := "root"
  becomeExe : String := "sudosh"
  becomeFlags : String := "--ansible-detect --ansible-verbose"
  becomePass : String := ""
  sudoshSessionLog : Bool := true
  sudoshDetectionForce : Bool := false
  sudoshDetectionVerbose : Bool := true
  deriving DecidableEq, Repr

/-- `os.environ` on the controller: each variable once, with its value. -/
abbrev Environ := List (String × String)

/-- `os.environ.get(key)`. -/
def Environ.get (env : Environ) (key : String) : Option String := List.lookup key env

/-- The instance fields of `BecomeModule` the builder touches: `self._id`, which
`BecomeBase.build_become_command` has just drawn when `super()` returns, and `self.prompt`. -/
structure Become where
  id : String
  prompt : String
  deriving DecidableEq, Repr

end SudoshBecome
