import MetricWire.Text.FormatSpec

/-!
Errors, kept as causes. The wording of each cause is written in one place, and so is the category that it
falls into. Failures of a transport keep the transport's own error, which is also their source.
-/

namespace MetricWire

/-! ## Messages of the operating system's codes -/

namespace SystemCode

/-- The messages in the order of their codes; a code that was never given out has the empty message. -/
def messages : List String :=
  ["Success", "Operation not permitted", "No such file or directory", "No such process",
   "Interrupted system call", "Input/output error", "No such device or address", "Argument list too long",
   "Exec format error", "Bad file descriptor", "No child processes", "Resource temporarily unavailable",
   "Cannot allocate memory", "Permission denied", "Bad address", "Block device required",
   "Device or resource busy", "File exists", "Invalid cross-device link", "No such device",
   "Not a directory", "Is a directory", "Invalid argument", "Too many open files in system",
   "Too many open files", "Inappropriate ioctl for device", "Text file busy", "File too large",
   "No space left on device", "Illegal seek", "Read-only file system", "Too many links", "Broken pipe",
   "Numerical argument out of domain", "Numerical result out of range", "Resource deadlock avoided",
   "File name too long", "No locks available", "Function not implemented", "Directory not empty",
   "Too many levels of symbolic links", "", "No message of desired type", "Identifier removed",
   "Channel number out of range", "Level 2 not synchronized", "Level 3 halted", "Level 3 reset",
   "Link number out of range", "Protocol driver not attached", "No CSI structure available",
   "Level 2 halted", "Invalid exchange", "Invalid request descriptor", "Exchange full", "No anode",
   "Invalid request code", "Invalid slot", "", "Bad font file format", "Device not a stream",
   "No data available", "Timer expired", "Out of streams resources", "Machine is not on the network",
   "Package not installed", "Object is remote", "Link has been severed", "Advertise error", "Srmount error",
   "Communication error on send", "Protocol error", "Multihop attempted", "RFS specific error",
   "Bad message", "Value too large for defined data type", "Name not unique on network",
   "File descriptor in bad state", "Remote address changed", "Can not access a needed shared library",
   "Accessing a corrupted shared library", ".lib section in a.out corrupted",
   "Attempting to link in too many shared libraries", "Cannot exec a shared library directly",
   "Invalid or incomplete multibyte or wide character", "Interrupted system call should be restarted",
   "Streams pipe error", "Too many users", "Socket operation on non-socket", "Destination address required",
   "Message too long", "Protocol wrong type for socket", "Protocol not available", "Protocol not supported",
   "Socket type not supported", "Operation not supported", "Protocol family not supported",
   "Address family not supported by protocol", "Address already in use", "Cannot assign requested address",
   "Network is down", "Network is unreachable", "Network dropped connection on reset",
   "Software caused connection abort", "Connection reset by peer", "No buffer space available",
   "Transport endpoint is already connected", "Transport endpoint is not connected",
   "Cannot send after transport endpoint shutdown", "Too many references: cannot splice",
   "Connection timed out", "Connection refused", "Host is down", "No route to host",
   "Operation already in progress", "Operation now in progress", "Stale file handle",
   "Structure needs cleaning", "Not a XENIX named type file", "No XENIX semaphores available",
   "Is a named type file", "Remote I/O error", "Disk quota exceeded", "No medium found", "Wrong medium type",
   "Operation canceled", "Required key not available", "Key has expired", "Key has been revoked",
   "Key was rejected by service", "Owner died", "State not recoverable",
   "Operation not possible due to RF-kill", "Memory page has hardware error"]

/-- The message of a code. Codes without a message of their own are named by their number. -/
def message (code : Int) : String :=
  match code with
  | .ofNat n =>
    match messages[n]?.getD "" with
    | "" => "Unknown error " ++ toString code
    | text => text
  | .negSucc _ => "Unknown error " ++ toString code

end SystemCode

/-! ## Causes -/

inductive IoKind
  | addrInUse | addrNotAvailable | alreadyExists | argumentListTooLong | brokenPipe | connectionAborted
  | connectionRefused | connectionReset | crossesDevices | deadlock | directoryNotEmpty | executableFileBusy
  | fileTooLarge | filesystemLoop | hostUnreachable | inProgress | interrupted | invalidData
  | invalidFilename | invalidInput | isADirectory | networkDown | networkUnreachable | notADirectory
  | notConnected | notFound | notSeekable | other | outOfMemory | permissionDenied | quotaExceeded
  | readOnlyFilesystem | resourceBusy | staleNetworkFileHandle | storageFull | timedOut | tooManyLinks
  | uncategorized | unexpectedEof | unsupported | wouldBlock | writeZero
deriving DecidableEq, Repr

def IoKind.description : IoKind → String
  | .addrInUse => "address in use"
  | .addrNotAvailable => "address not available"
  | .alreadyExists => "entity already exists"
  | .argumentListTooLong => "argument list too long"
  | .brokenPipe => "broken pipe"
  | .connectionAborted => "connection aborted"
  | .connectionRefused => "connection refused"
  | .connectionReset => "connection reset"
  | .crossesDevices => "cross-device link or rename"
  | .deadlock => "deadlock"
  | .directoryNotEmpty => "directory not empty"
  | .executableFileBusy => "executable file busy"
  | .fileTooLarge => "file too large"
  | .filesystemLoop => "filesystem loop or indirection limit (e.g. symlink loop)"
  | .hostUnreachable => "host unreachable"
  | .inProgress => "in progress"
  | .interrupted => "operation interrupted"
  | .invalidData => "invalid data"
  | .invalidFilename => "invalid filename"
  | .invalidInput => "invalid input parameter"
  | .isADirectory => "is a directory"
  | .networkDown => "network down"
  | .networkUnreachable => "network unreachable"
  | .notADirectory => "not a directory"
  | .notConnected => "not connected"
  | .notFound => "entity not found"
  | .notSeekable => "seek on unseekable file"
  | .other => "other error"
  | .outOfMemory => "out of memory"
  | .permissionDenied => "permission denied"
  | .quotaExceeded => "quota exceeded"
  | .readOnlyFilesystem => "read-only filesystem or storage medium"
  | .resourceBusy => "resource busy"
  | .staleNetworkFileHandle => "stale network file handle"
  | .storageFull => "no storage space"
  | .timedOut => "timed out"
  | .tooManyLinks => "too many links"
  | .uncategorized => "uncategorized error"
  | .unexpectedEof => "unexpected end of file"
  | .unsupported => "unsupported"
  | .wouldBlock => "operation would block"
  | .writeZero => "write zero"

inductive IoError
  /-- A code of the operating system. -/
  | system (code : Int)
  /-- A bare category. -/
  | bare (kind : IoKind)
  /-- A message of its own. -/
  | stated (kind : IoKind) (message : String)
deriving DecidableEq, Repr

namespace IoError

def text : IoError → String
  | system code => SystemCode.message code ++ " (os error " ++ toString code ++ ")"
  | bare kind => kind.description
  | stated _ message => message

/-- The text laid out by a format, which only a message of its own obeys. -/
def format (fmt : Format) : IoError → String
  | stated _ message => fmt.layText message
  | e => e.text

def channelDisconnected : IoError := .stated .other "channel disconnected"

def channelFull : IoError := .stated .other "channel full"

def notASocketAddress : IoError := .stated .invalidInput "invalid socket address"

def notAPort : IoError := .stated .invalidInput "invalid port value"

def nulInHost : IoError := .stated .invalidInput "file name contained an unexpected NUL byte"

def unknownHost : IoError :=
  .stated .uncategorized "failed to lookup address information: Temporary failure in name resolution"

def invalidArgument : IoError := .system 22

def messageTooLong : IoError := .system 90

def networkUnreachable : IoError := .system 101

end IoError

inductive ErrorKind
  /-- A client could not be set up. -/
  | invalidConfig
  /-- A value does not fit the kind of metric. -/
  | invalidValue
  /-- The transport failed. -/
  | ioError
deriving DecidableEq, Repr

def ErrorKind.text : ErrorKind → String
  | .invalidConfig => "invalid configuration"
  | .invalidValue => "invalid metric value"
  | .ioError => "I/O error"

def ErrorKind.format (fmt : Format) (k : ErrorKind) : String := fmt.layText k.text

/-- Why a value cannot be written for a kind of metric. -/
inductive ValueFault
  | rawNeedsText | textOutsideSet | fractionalCounter | notFinite | decrementOverflow
deriving DecidableEq, Repr

def ValueFault.text : ValueFault → String
  | .rawNeedsText => "Raw stats require a string value"
  | .textOutsideSet => "String values are only valid for sets"
  | .fractionalCounter => "Counter values must be integers"
  | .notFinite => "Float values must be finite"
  | .decrementOverflow => "Counter decrement overflows"

inductive MetricError
  | rejected (fault : ValueFault)
  | unknownTagFormat
  | noAddress
  | unresolvable (cause : IoError)
  | transport (cause : IoError)
  /-- A client could not be prepared: a description of what went wrong, and the failure behind it. -/
  | unprepared (description : String) (cause : IoError)
  /-- A category with a description given by the caller. -/
  | described (kind : ErrorKind) (description : String)
deriving DecidableEq, Repr

namespace MetricError

def kind : MetricError → ErrorKind
  | rejected _ => .invalidValue
  | unknownTagFormat | noAddress | unresolvable _ | unprepared .. => .invalidConfig
  | transport _ => .ioError
  | described kind _ => kind

def text : MetricError → String
  | rejected fault => fault.text
  | unknownTagFormat => "Unknown tag format"
  | noAddress => "No socket addresses yielded"
  | unresolvable cause => "Unable to resolve statsd address: " ++ cause.text
  | transport cause => cause.text
  | unprepared description cause => description ++ ": " ++ cause.text
  | described _ description => description

def source? : MetricError → Option IoError
  | unresolvable cause | transport cause | unprepared _ cause => some cause
  | _ => none

/-- The text laid out by a format. A text that is put together from a cause ignores the format. -/
def format (fmt : Format) : MetricError → String
  | unresolvable cause => (unresolvable cause).text
  | unprepared description cause => (unprepared description cause).text
  | transport cause => cause.format fmt
  | e => fmt.layText e.text

end MetricError

end MetricWire
