import TransportStream.CommandLine.Arguments
import TransportStream.CommandLine.Folder
import TransportStream.Reader.Opening
import TransportStream.Report.Rendering

/-!
# Running a command

A command writes its whole report, or one line that says what could not be done and
why. Warnings come before that line.
-/
namespace TransportStream.CommandLine

structure Output where
  exitCode : Nat
  report : String := ""
  messages : List String := []
  deriving DecidableEq, Repr

namespace Output

def success (report : String) (warnings : List String) : Output := ⟨0, report, warnings⟩

def failure (undone cause : String) (warnings : List String) : Output :=
  ⟨1, "", warnings ++ ["error: " ++ undone ++ ": " ++ cause]⟩

/-- Arguments that make no command. -/
def misuse : Output := ⟨2, "", []⟩

/-- The end of a program that cannot allocate what it was asked to. -/
def breakdown : Output := ⟨101, "", []⟩

end Output

/-- The lines that the notes of a run give rise to on the error stream. -/
def warnings (notes : List Note) : List String :=
  (notes.filter (·.level = .warning)).map fun note =>
    "[WARN  tsbuf_buffer::decode_queue] " ++ note.message

def versionText : String := "tsbuf 0.1.0\n"

def usageText : String :=
  "Usage: tsbuf [OPTIONS] <COMMAND>\n\n" ++
  "Commands:\n" ++
  "  probe    Detect the packet size from the head of a stream\n" ++
  "  inspect  Decode every packet and print per-PID totals\n" ++
  "  help     Print this message or the help of the given subcommand(s)\n"

def reportProbe (name : String) (s : Source) : Output :=
  match (detect s).result with
  | .error e => .failure ("cannot detect packet size of " ++ name) e.account []
  | .ok d => .success (d.render name) []

def writeReport (json : Bool) (report : Report) : String :=
  if json then report.toJson.render ++ "\n" else report.render

def reportInspection (name : String) (settings : Settings) (json : Bool) (s : Source) : Output :=
  let opening := Reader.ofSource .own settings Packet.decoder s
  match opening.result with
  | .error (.error e) =>
    .failure ("cannot open packet buffer on " ++ name) e.account (warnings opening.notes)
  | .error (.unallocatable _) => .breakdown
  | .ok reader =>
    let inspection := reader.inspect name
    let notes := opening.notes ++ inspection.notes
    match inspection.result with
    | .error e => .failure "reading stream failed" e.account (warnings notes)
    | .ok report => .success (writeReport json report) (warnings notes)

/-- Runs a command on its input, given how opening that input went. -/
def Command.run (command : Command) (opened : Except Fault Source) : Output :=
  match opened with
  | .error fault => .failure ("cannot open " ++ command.input.name) fault.text []
  | .ok s =>
    match command with
    | .probe input => reportProbe input.name s
    | .inspect input settings json => reportInspection input.name settings json s

/-- What is written when the arguments make no command. -/
def Stop.output : Stop → Output
  | .misused => .misuse
  | .help => .success usageText []
  | .version => .success versionText []

/-- Opens an input that lies in a folder held in memory. -/
def Input.openIn (folder : Folder) (standardInput : Bytes) : Input → Except Fault Source
  | .standardInput => .ok (.passing standardInput)
  | .file path => folder.openPath path

def runIn (folder : Folder) (standardInput : Bytes) (arguments : List String) : Output :=
  match parse arguments with
  | .error stop => stop.output
  | .ok command => command.run (command.input.openIn folder standardInput)

end TransportStream.CommandLine
