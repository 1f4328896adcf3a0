set_option autoImplicit false

/-!
# Signals

Processes are signalled by name; the numbers are those of the host.
-/

namespace DebugConsole.Signal

/-- The signals of the host. -/
def numbers : List (String × Nat) := [
  ("SIGHUP", 1), ("SIGINT", 2), ("SIGQUIT", 3), ("SIGILL", 4), ("SIGTRAP", 5), ("SIGABRT", 6),
  ("SIGIOT", 6), ("SIGBUS", 7), ("SIGFPE", 8), ("SIGKILL", 9), ("SIGUSR1", 10), ("SIGSEGV", 11),
  ("SIGUSR2", 12), ("SIGPIPE", 13), ("SIGALRM", 14), ("SIGTERM", 15), ("SIGSTKFLT", 16),
  ("SIGCHLD", 17), ("SIGCLD", 17), ("SIGCONT", 18), ("SIGSTOP", 19), ("SIGTSTP", 20),
  ("SIGTTIN", 21), ("SIGTTOU", 22), ("SIGURG", 23), ("SIGXCPU", 24), ("SIGXFSZ", 25),
  ("SIGVTALRM", 26), ("SIGPROF", 27), ("SIGWINCH", 28), ("SIGIO", 29), ("SIGPOLL", 29),
  ("SIGPWR", 30), ("SIGSYS", 31), ("SIGRTMIN", 34), ("SIGRTMAX", 64)]

/-- What the host names beside its signals: how many there are, what can be done with one, and the
clocks that send some.  Nothing keeps these numbers from being sent. -/
def constants : List (String × Nat) := [
  ("NSIG", 65), ("SIG_DFL", 0), ("SIG_IGN", 1), ("SIG_BLOCK", 0), ("SIG_UNBLOCK", 1),
  ("SIG_SETMASK", 2), ("ITIMER_REAL", 0), ("ITIMER_VIRTUAL", 1), ("ITIMER_PROF", 2)]

/-- The number that a name stands for, if the host has it. -/
def number? (name : String) : Option Nat := (numbers ++ constants).lookup name

end DebugConsole.Signal
