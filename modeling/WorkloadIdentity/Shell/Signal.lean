import WorkloadIdentity.Shell.Word

/-! Signals, by number and by name, and what they do to a process. -/

set_option autoImplicit false

namespace WorkloadIdentity.Shell

/-- What a signal does to a process. -/
inductive Signal
  | ignored
  | suspending
  | fatal (number : Nat)
  deriving DecidableEq, Repr

namespace Signal

def names : List String :=
  ["HUP", "INT", "QUIT", "ILL", "TRAP", "ABRT", "BUS", "FPE", "KILL", "USR1", "SEGV", "USR2",
    "PIPE", "ALRM", "TERM", "STKFLT", "CHLD", "CONT", "STOP", "TSTP", "TTIN", "TTOU", "URG",
    "XCPU", "XFSZ", "VTALRM", "PROF", "WINCH", "POLL", "PWR", "SYS"]

/-- Some signals are passed over, and some suspend a process for good. -/
def ofNumber (n : Nat) : Signal :=
  if [0, 17, 18, 23, 28].contains n then .ignored
  else if [19, 20, 21, 22].contains n then .suspending
  else .fatal n

def number? (text : List Char) : Option Nat :=
  if isDigits text then if number text ≤ 64 then some (number text) else none
  else
    let name := (String.ofList text).toUpper
    let name := if name.startsWith "SIG" then (name.drop 3).toString else name
    (names.idxOf? name).map (· + 1)

end Signal

end WorkloadIdentity.Shell
