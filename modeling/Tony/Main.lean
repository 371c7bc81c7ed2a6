import Tony.Command.Run

/-! The command as a program: it reads real files and standard input, and prints. -/

namespace Tony.Command

def ofSystemCode (code : UInt32) : ReadFailure :=
  .system code.toInt32.toInt.natAbs

def readFailureOf : IO.Error → ReadFailure
  | .alreadyExists _ code _ | .interrupted _ code _ | .noFileOrDirectory _ code _
  | .invalidArgument _ code _ | .permissionDenied _ code _ | .resourceExhausted _ code _
  | .inappropriateType _ code _ | .noSuchThing _ code _ | .otherError code _
  | .resourceBusy code _ | .resourceVanished code _ | .unsupportedOperation code _
  | .hardwareFault code _ | .unsatisfiedConstraints code _ | .illegalOperation code _
  | .protocolError code _ | .timeExpired code _ => ofSystemCode code
  | .unexpectedEof | .userError _ => .system 5

partial def readStream (stream : IO.FS.Stream) (seen : ByteArray) : IO ByteArray := do
  let chunk ← stream.read 65536
  if chunk.isEmpty then return seen
  readStream stream (seen ++ chunk)

def bytesOf : Input → IO ByteArray
  | .standard => do readStream (← IO.getStdin) .empty
  | .file path => IO.FS.readBinFile (String.ofList path)

def readInput (input : Input) : IO (Except ReadFailure (List Char)) := do
  try
    return ReadFailure.decode (← bytesOf input)
  catch e =>
    return .error (readFailureOf e)

/-- Prints a text. A reader that has gone away just ends the output. -/
def emit (output : IO.FS.Stream) (text : String) : IO Unit := do
  try
    output.putStr text
    output.flush
  catch _ => return

def execute (arguments : List String) : IO UInt32 := do
  match read (arguments.map String.toList) with
  | .error e =>
    emit (← IO.getStderr) ("error: " ++ e.message ++ "\n")
    return 2
  | .ok invocation =>
    let response ← invocation.respond readInput
    emit (← IO.getStderr) response.stderr
    emit (← IO.getStdout) response.stdout
    return response.code.toUInt32

end Tony.Command

def main (arguments : List String) : IO UInt32 :=
  Tony.Command.execute arguments
