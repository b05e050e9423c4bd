import FirmwareHost.Efi.Failure

/-! Failures of operating system calls, by number or, where no number is known, by kind. -/

namespace FirmwareHost

inductive OsErrorKind where
  | timedOut
  | outOfMemory
  | invalidInput
  | invalidData
  | wouldBlock
  | unclassified
  deriving DecidableEq, Repr

inductive OsError where
  | number (errno : Int)
  | kind (k : OsErrorKind)
  deriving DecidableEq, Repr

namespace Failure

/-- Error numbers of Linux in the order in which they are looked up. -/
def errnoTable : List (Int × Failure) :=
  [(22, .invalidParameter),
    (110, .timeout),
    (16, .alreadyStarted),
    (95, .invalidParameter),
    (1, .invalidParameter),
    (74, .invalidParameter),
    (6, .invalidParameter),
    (11, .aborted),
    (35, .aborted),
    (12, .outOfResources)]

def ofErrno (errno : Int) : Failure :=
  (errnoTable.lookup errno).getD .unsupported

def ofOsError : OsError → Failure
  | .number errno => ofErrno errno
  | .kind .timedOut => .timeout
  | .kind .outOfMemory => .outOfResources
  | .kind .invalidInput => .invalidParameter
  | .kind .invalidData => .invalidParameter
  | .kind .wouldBlock => .alreadyStarted
  | .kind .unclassified => .unsupported

end Failure

end FirmwareHost
