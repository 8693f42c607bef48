import Conformance.Text.Basic

/-!
# Faults of the system

The reasons for which the operating system refuses a request, with their wording.
-/

namespace Conformance

/-- A fault that the system reports: one of its numbered errors, or one described in words. -/
inductive SystemFault
  | code (number : Int)
  | described (message : Text)
  deriving DecidableEq, Repr

namespace SystemFault

def noSuchFile : SystemFault := code 2
def noExecFormat : SystemFault := code 8
def noPermission : SystemFault := code 13
def fileExists : SystemFault := code 17
def notDirectory : SystemFault := code 20
def isDirectory : SystemFault := code 21
def nameTooLong : SystemFault := code 36
def tooManyLinks : SystemFault := code 40

/-- A program or an argument that cannot be handed over because it holds the character zero. -/
def nulCharacter : SystemFault := described "nul byte found in provided data".toList

/-- The descriptions of the numbered errors, from number one on; a number without an error has an
empty one. -/
def descriptions : List String :=
  ["Operation not permitted", "No such file or directory", "No such process",
    "Interrupted system call", "Input/output error", "No such device or address",
    "Argument list too long", "Exec format error", "Bad file descriptor", "No child processes",
    "Resource temporarily unavailable", "Cannot allocate memory", "Permission denied",
    "Bad address", "Block device required", "Device or resource busy", "File exists",
    "Invalid cross-device link", "No such device", "Not a directory", "Is a directory",
    "Invalid argument", "Too many open files in system", "Too many open files",
    "Inappropriate ioctl for device", "Text file busy", "File too large", "No space left on device",
    "Illegal seek", "Read-only file system", "Too many links", "Broken pipe",
    "Numerical argument out of domain", "Numerical result out of range",
    "Resource deadlock avoided", "File name too long", "No locks available",
    "Function not implemented", "Directory not empty", "Too many levels of symbolic links", "",
    "No message of desired type", "Identifier removed", "Channel number out of range",
    "Level 2 not synchronized", "Level 3 halted", "Level 3 reset", "Link number out of range",
    "Protocol driver not attached", "No CSI structure available", "Level 2 halted",
    "Invalid exchange", "Invalid request descriptor", "Exchange full", "No anode",
    "Invalid request code", "Invalid slot", "", "Bad font file format", "Device not a stream",
    "No data available", "Timer expired", "Out of streams resources",
    "Machine is not on the network", "Package not installed", "Object is remote",
    "Link has been severed", "Advertise error", "Srmount error", "Communication error on send",
    "Protocol error", "Multihop attempted", "RFS specific error", "Bad message",
    "Value too large for defined data type", "Name not unique on network",
    "File descriptor in bad state", "Remote address changed",
    "Can not access a needed shared library", "Accessing a corrupted shared library",
    ".lib section in a.out corrupted", "Attempting to link in too many shared libraries",
    "Cannot exec a shared library directly", "Invalid or incomplete multibyte or wide character",
    "Interrupted system call should be restarted", "Streams pipe error", "Too many users",
    "Socket operation on non-socket", "Destination address required", "Message too long",
    "Protocol wrong type for socket", "Protocol not available", "Protocol not supported",
    "Socket type not supported", "Operation not supported", "Protocol family not supported",
    "Address family not supported by protocol", "Address already in use",
    "Cannot assign requested address", "Network is down", "Network is unreachable",
    "Network dropped connection on reset", "Software caused connection abort",
    "Connection reset by peer", "No buffer space available",
    "Transport endpoint is already connected", "Transport endpoint is not connected",
    "Cannot send after transport endpoint shutdown", "Too many references: cannot splice",
    "Connection timed out", "Connection refused", "Host is down", "No route to host",
    "Operation already in progress", "Operation now in progress", "Stale file handle",
    "Structure needs cleaning", "Not a XENIX named type file", "No XENIX semaphores available",
    "Is a named type file", "Remote I/O error", "Disk quota exceeded", "No medium found",
    "Wrong medium type", "Operation canceled", "Required key not available", "Key has expired",
    "Key has been revoked", "Key was rejected by service", "Owner died", "State not recoverable",
    "Operation not possible due to RF-kill", "Memory page has hardware error"]

/-- The description of a numbered error. -/
def describe (number : Int) : Text :=
  let unknown := "Unknown error ".toList ++ Text.ofInt number
  match number with
  | .ofNat 0 => "Success".toList
  | .ofNat (n + 1) =>
    match descriptions[n]? with
    | none | some "" => unknown
    | some d => d.toList
  | .negSucc _ => unknown

/-- The description of a fault without its number. -/
def reason : SystemFault → Text
  | code n => describe n
  | described m => m

/-- The wording of a fault. -/
def message : SystemFault → Text
  | f@(code n) => f.reason ++ " (os error ".toList ++ Text.ofInt n ++ [')']
  | described m => m

end SystemFault

end Conformance
