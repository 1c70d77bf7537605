import FactCube.Cli.Run

/-!
# The program

Runs the session of the command line against the files and streams of the process.
-/

namespace FactCube.Cli

/-- The fault behind an error of the file system. -/
def FileFault.ofError (e : IO.Error) : FileFault :=
  match e with
  | .noFileOrDirectory .. | .noSuchThing .. => .notFound
  | .permissionDenied .. => .denied
  | .inappropriateType _ code _ => if code == 20 then .notDirectory else .isDirectory
  | .invalidArgument _ code _ => if code == 36 then .nameTooLong else .other (toString e)
  | e => .other (toString e)

/-- The result of an action on a file. -/
def answered {α : Type} (action : IO α) : IO (Except FileFault α) := do
  match ← action.toBaseIO with
  | .ok a => pure (.ok a)
  | .error e => pure (.error (.ofError e))

/-- All bytes of a file. -/
def bytesOfFile (path : String) : IO ByteArray := do
  let file ← IO.FS.Handle.mk path .read
  file.readBinToEnd

/-- All bytes of a stream, after those already read. -/
partial def readToEnd (stream : IO.FS.Stream) (read : ByteArray) : IO ByteArray := do
  let chunk ← stream.read 65536
  if chunk.isEmpty then pure read else readToEnd stream (read ++ chunk)

/-- Answers the requests of a session from the process it runs in. -/
def perform : Session Outcome → IO Outcome
  | .done outcome => pure outcome
  | .fetch path next => do
    let answer ← answered (bytesOfFile path)
    perform (next (answer.map ByteArray.toList))
  | .listen next => do
    let bytes ← readToEnd (← IO.getStdin) ByteArray.empty
    perform (next bytes.toList)
  | .replace path text next => do
    let answer ← answered (IO.FS.writeFile path text)
    perform (next answer)

end FactCube.Cli

/-- Runs the program and prints what it leaves behind. -/
def main (arguments : List String) : IO UInt32 := do
  let outcome ← FactCube.Cli.perform (FactCube.Cli.session arguments)
  IO.print outcome.output
  IO.eprint outcome.messages
  pure (UInt32.ofNat outcome.code)
