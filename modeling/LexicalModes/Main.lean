import LexicalModes.Command

/-!
The command line program.

This module connects `Command.run` to the real file system and streams.
-/

namespace LexicalModes

/-- The read error that an error of the system stands for. -/
def readError : IO.Error → ReadError
  | .noFileOrDirectory .. => .notFound
  | .inappropriateType _ code _ => if code == 21 then .isDirectory else .notDirectory
  | .invalidArgument _ code _ => if code == 36 then .invalidName else .invalidPath
  | e => .other (toString e)

/-- The result of an action, or the read error it ends with. -/
def attemptRead {α : Type} (action : IO α) : IO (Except ReadError α) := do
  try
    return .ok (← action)
  catch e =>
    return .error (readError e)

/-- Access to the file system. -/
def systemFiles : FileAccess IO where
  readText path := do
    match ← attemptRead (IO.FS.readBinFile path) with
    | .error e => return .error e
    | .ok bytes =>
      match String.fromUTF8? bytes with
      | some text => return .ok text
      | none => return .error .invalidText
  isDirectory path := do
    match ← attemptRead (IO.FS.realPath path) with
    | .ok place => place.isDir
    | .error _ => return false
  list path := attemptRead do
    let entries ← (← IO.FS.realPath path).readDir
    return (entries.map (·.fileName)).toList

/-- All bytes of a stream, after those already read. -/
partial def readAll (stream : IO.FS.Stream) (bytes : ByteArray) : IO ByteArray := do
  let chunk ← stream.read 65536
  if chunk.isEmpty then return bytes else readAll stream (bytes ++ chunk)

/-- The system as the command sees it. -/
def systemHost : Command.Host IO where
  toFileAccess := systemFiles
  standardInput := do return String.fromUTF8? (← readAll (← IO.getStdin) .empty)
  onTerminal := do (← IO.getStdout).isTty

end LexicalModes

/-- Run the command. -/
def main (arguments : List String) : IO UInt32 := do
  let outcome ← LexicalModes.Command.run LexicalModes.systemHost arguments
  (← IO.getStdout).putStr outcome.output
  (← IO.getStderr).putStr outcome.errors
  return UInt32.ofNat outcome.code
