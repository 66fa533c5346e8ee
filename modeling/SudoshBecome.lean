import SudoshBecome.Python.Shlex
import SudoshBecome.Python.ShlexJoin
import SudoshBecome.Python.Str
import SudoshBecome.Python.Bytes
import SudoshBecome.Python.Re
import SudoshBecome.Become.Options
import SudoshBecome.Become.Build
import SudoshBecome.Become.Flags
import SudoshBecome.Become.Invocation
import SudoshBecome.Become.Check
