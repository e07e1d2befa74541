import Rollup.Command.Run

/-!
# The command

Reads files and standard input, writes the result to standard output and an error to standard error.
-/

namespace Rollup

/-- The text of a stream up to its end. -/
def readStream (stream : IO.FS.Stream) : IO (Except String String) := do
  let mut bytes := ByteArray.empty
  repeat
    let chunk ← stream.read 65536
    if chunk.isEmpty then break
    bytes := bytes ++ chunk
  match String.fromUTF8? bytes with
  | some content => return .ok content
  | none => return .error "stream did not contain valid UTF-8"

/-- The text of a source. -/
def readSource : Source → IO (Except String String)
  | .standardInput => do readStream (← IO.getStdin)
  | .file name => do
    try
      let bytes ← IO.FS.readBinFile name
      match String.fromUTF8? bytes with
      | some content => return .ok content
      | none => return .error "stream did not contain valid UTF-8"
    catch error => return .error (toString error)

end Rollup

/-- Runs the command. -/
def main (arguments : List String) : IO UInt32 := do
  match ← Rollup.runCommand Rollup.readSource arguments with
  | .ok output =>
    IO.print output
    return 0
  | .error error =>
    IO.eprintln error.display
    return 1
