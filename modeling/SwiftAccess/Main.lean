import SwiftAccess.Cli.Run
import Std.Time.DateTime.Timestamp

/-!
# The `kitty` program

The executable runs `Cli.run` with the real standard input and file system, prints what the run
printed on each stream, and exits with its status. Text read from a file or from standard input
must be UTF-8. A failed read or write is reported as the C library describes the error, followed by
its number: `No such file or directory (os error 2)`. Log records are stamped with the system
clock.
-/

namespace SwiftAccess.Cli

/-- The C library's description of common error numbers. -/
def errorDescription? : Nat → Option String
  | 1 => some "Operation not permitted"
  | 2 => some "No such file or directory"
  | 5 => some "Input/output error"
  | 6 => some "No such device or address"
  | 9 => some "Bad file descriptor"
  | 11 => some "Resource temporarily unavailable"
  | 12 => some "Cannot allocate memory"
  | 13 => some "Permission denied"
  | 16 => some "Device or resource busy"
  | 17 => some "File exists"
  | 19 => some "No such device"
  | 20 => some "Not a directory"
  | 21 => some "Is a directory"
  | 22 => some "Invalid argument"
  | 23 => some "Too many open files in system"
  | 24 => some "Too many open files"
  | 26 => some "Text file busy"
  | 27 => some "File too large"
  | 28 => some "No space left on device"
  | 30 => some "Read-only file system"
  | 36 => some "File name too long"
  | 40 => some "Too many levels of symbolic links"
  | 122 => some "Disk quota exceeded"
  | _ => none

/-- The error number and description an IO error carries, if it comes from the system. -/
def systemError? : IO.Error → Option (UInt32 × String)
  | .alreadyExists _ c d | .otherError c d | .resourceBusy c d | .resourceVanished c d
  | .unsupportedOperation c d | .hardwareFault c d | .unsatisfiedConstraints c d
  | .illegalOperation c d | .protocolError c d | .timeExpired c d | .interrupted _ c d
  | .noFileOrDirectory _ c d | .invalidArgument _ c d | .permissionDenied _ c d
  | .resourceExhausted _ c d | .inappropriateType _ c d | .noSuchThing _ c d => some (c, d)
  | _ => none

/-- An IO error as the command reports it. Some errors carry their number negated; the number
reported is positive. -/
def IoError.ofIO (e : IO.Error) : IoError :=
  match systemError? e with
  | some (c, d) =>
    let n := if c.toNat < 2147483648 then c.toNat else 4294967296 - c.toNat
    ⟨(errorDescription? n).getD d ++ " (os error " ++ toString n ++ ")"⟩
  | none => ⟨toString e⟩

/-- Bytes as UTF-8 text. -/
def decodeText (bytes : ByteArray) : Except IoError String :=
  match String.fromUTF8? bytes with
  | some s => .ok s
  | none => .error IoError.invalidUtf8

/-- The effects of a run on the real system. -/
def systemEnv : Env IO where
  input := do
    try
      let bytes ← (← IO.getStdin).readBinToEnd
      pure (decodeText bytes)
    catch e => pure (.error (IoError.ofIO e))
  contents path := do
    try
      let bytes ← IO.FS.readBinFile path
      pure (decodeText bytes)
    catch e => pure (.error (IoError.ofIO e))
  save path text := do
    try
      IO.FS.writeFile path text
      pure (.ok ())
    catch e => pure (.error (IoError.ofIO e))
  clock := do
    let now ← Std.Time.Timestamp.now
    pure (timestamp now.toNanosecondsSinceUnixEpoch.val)

end SwiftAccess.Cli

open SwiftAccess.Cli in
/-- Run the command on the process's arguments. -/
def main (args : List String) : IO UInt32 := do
  let exit ← run systemEnv args
  let stdout ← IO.getStdout
  stdout.putStr exit.stdout
  stdout.flush
  let stderr ← IO.getStderr
  stderr.putStr exit.stderr
  stderr.flush
  pure exit.status.toUInt32
