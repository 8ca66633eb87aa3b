/-!
# Input and output faults

The ways in which a file operation, a stream or a connection fails, each with the wording that
users see. Faults that the operating system reports carry its error number in their wording.
-/

namespace CommandLog

/-- Why an input or output operation failed. -/
inductive Fault where
  /-- A name, or a directory on the way to it, is not there. -/
  | notFound
  /-- A file was wanted and a directory found. -/
  | isADirectory
  /-- A directory was wanted and a file found. -/
  | notADirectory
  /-- A name, or a path as a whole, has more bytes than it may have. -/
  | nameTooLong
  /-- A path has a NUL character in it. -/
  | nulInName
  /-- The name is taken already. -/
  | alreadyExists
  /-- A directory that still has entries cannot give way. -/
  | directoryNotEmpty
  /-- A directory cannot move below itself. -/
  | invalidArgument
  /-- A directory is in use where it would be renamed. -/
  | busy
  /-- Another listener holds the address. -/
  | addressInUse
  /-- There is no route to the address. -/
  | networkUnreachable
  /-- Nobody listens on the address. -/
  | connectionRefused
  /-- A text names no host and port. -/
  | invalidTarget
  /-- The port in a text is none. -/
  | invalidPort
  /-- A wait of no length was asked for. -/
  | emptyTimeout
  /-- The input ended before the wanted number of bytes. -/
  | unexpectedEnd
  /-- The output has no room for all bytes. -/
  | outputFull
  /-- A payload does not fit the length field of a journal record. -/
  | recordTooLong
  /-- A text file holds bytes that are no UTF-8. -/
  | invalidText
deriving DecidableEq, Repr, Inhabited

/-- The wording of a fault. -/
def Fault.message : Fault → String
  | .notFound => "No such file or directory (os error 2)"
  | .isADirectory => "Is a directory (os error 21)"
  | .notADirectory => "Not a directory (os error 20)"
  | .nameTooLong => "File name too long (os error 36)"
  | .nulInName => "file name contained an unexpected NUL byte"
  | .alreadyExists => "File exists (os error 17)"
  | .directoryNotEmpty => "Directory not empty (os error 39)"
  | .invalidArgument => "Invalid argument (os error 22)"
  | .busy => "Device or resource busy (os error 16)"
  | .addressInUse => "Address already in use (os error 98)"
  | .networkUnreachable => "Network is unreachable (os error 101)"
  | .connectionRefused => "Connection refused (os error 111)"
  | .invalidTarget => "invalid socket address"
  | .invalidPort => "invalid port value"
  | .emptyTimeout => "cannot set a 0 duration timeout"
  | .unexpectedEnd => "failed to fill whole buffer"
  | .outputFull => "failed to write whole buffer"
  | .recordTooLong => "journal record exceeds u32 length"
  | .invalidText => "stream did not contain valid UTF-8"

end CommandLog
