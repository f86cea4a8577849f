/-
# The ends of programs

A program ends with a number, of which zero says that it succeeded, or at a signal.
-/

namespace Registrar

/-- How a program ended. -/
inductive ExitStatus where
  | code (n : Nat)
  | signal (n : Nat)
  deriving DecidableEq, Repr

namespace ExitStatus

/-- The names of the signals, in the order of their numbers from 1 on. -/
def signalNames : List String :=
  ["HUP", "INT", "QUIT", "ILL", "TRAP", "ABRT", "BUS", "FPE", "KILL", "USR1", "SEGV", "USR2",
    "PIPE", "ALRM", "TERM", "STKFLT", "CHLD", "CONT", "STOP", "TSTP", "TTIN", "TTOU", "URG", "XCPU",
    "XFSZ", "VTALRM", "PROF", "WINCH", "IO", "PWR", "SYS"]

/-- The name of a signal, if it has one. -/
def signalName? (n : Nat) : Option String :=
  if n = 0 then none else signalNames[n - 1]?

/-- The greatest number of a signal. -/
def maxSignal : Nat := 64

/-- Whether a signal leaves a program running that makes no provision for it. -/
def isHarmless (n : Nat) : Bool :=
  [0, 17, 18, 19, 20, 21, 22, 23, 28].contains n

/-- Whether a program succeeded. -/
def isSuccess (s : ExitStatus) : Bool :=
  s = code 0

/-- The number by which a script knows the end of a program. -/
def number : ExitStatus → Nat
  | code n => n
  | signal n => 128 + n

/-- How a message shows the end of a program. -/
def display : ExitStatus → String
  | code n => "exit status: " ++ toString n
  | signal n =>
    match signalName? n with
    | some name => "signal: " ++ toString n ++ " (SIG" ++ name ++ ")"
    | none => "signal: " ++ toString n

end ExitStatus

end Registrar
