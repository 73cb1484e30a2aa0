import TransportStream.CommandLine.Run

/-! # The program -/
namespace TransportStream.CommandLine

partial def readAll (stream : IO.FS.Stream) (taken : ByteArray) : IO ByteArray := do
  let more ← stream.read 65536
  if more.isEmpty then return taken else readAll stream (taken ++ more)

/-- The number that the system gives to an error; it may arrive negated. -/
def systemCode (code : UInt32) : UInt32 := if code < 0x80000000 then code else 0 - code

def openFault (error : IO.Error) : Except Fault Source :=
  match error with
  | .inappropriateType _ code _ =>
    if systemCode code = 21 then .ok .directory else .error .belowFile
  | .noFileOrDirectory _ _ _ => .error .missing
  | .permissionDenied _ _ _ => .error ⟨.permissionDenied, "Permission denied (os error 13)"⟩
  | .invalidArgument _ code details =>
    if systemCode code = 36 then .error .longName else .error ⟨.other, details⟩
  | error => .error ⟨.other, toString error⟩

/-- Opens a file; a directory opens too, and fails when it is read. -/
def openFile (path : String) : IO (Except Fault Source) := do
  try
    let data ← IO.FS.readBinFile path
    return .ok (.ofBytes data.toList)
  catch error =>
    return openFault error

def openInput : Input → IO (Except Fault Source)
  | .standardInput => do
    let data ← readAll (← IO.getStdin) .empty
    return .ok (.passing data.toList)
  | .file path => openFile path

end TransportStream.CommandLine

def main (arguments : List String) : IO UInt32 := do
  let output ←
    match TransportStream.CommandLine.parse arguments with
    | .error stop => pure stop.output
    | .ok command => pure (command.run (← TransportStream.CommandLine.openInput command.input))
  IO.print output.report
  for message in output.messages do
    IO.eprintln message
  return output.exitCode.toUInt32
