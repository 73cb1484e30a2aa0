import TransportStream.Settings

/-!
# Arguments of the command line

    tsbuf probe INPUT
    tsbuf inspect INPUT [--packet-size N] [--chunk-packets N] [--workers N] [--json]
    tsbuf help [COMMAND]

Arguments are taken from left to right, and the first one that asks for help or the
version, or is out of place, decides. After `--` everything is an input, of which
there is exactly one.
-/
namespace TransportStream.CommandLine

/-- The shape of a single argument. -/
inductive Token where
  | separator
  | long (name : String) (attached : Option String)
  | short (letters : List Char)
  | plain (text : String)
  deriving DecidableEq, Repr

namespace Token

def ofText (text : String) : Token :=
  match text.toList with
  | ['-', '-'] => .separator
  | '-' :: '-' :: body =>
    .long (String.ofList (body.takeWhile (· != '=')))
      (match body.dropWhile (· != '=') with
        | [] => none
        | _ :: value => some (String.ofList value))
  | '-' :: letter :: letters => .short (letter :: letters)
  | _ => .plain text

def isPlain : Token → Bool
  | .plain _ => true
  | _ => false

end Token

def digit? (c : Char) : Option Nat :=
  if '0' ≤ c ∧ c ≤ '9' then some (c.toNat - '0'.toNat) else none

def digits? (cs : List Char) : Option Nat :=
  cs.foldlM (fun n c => (digit? c).map (n * 10 + ·)) 0

def number? (text : String) : Option Nat :=
  let digits :=
    match text.toList with
    | '+' :: rest => rest
    | rest => rest
  if digits = [] then none
  else (digits? digits).filter (· < Settings.wordLimit)

inductive Input where
  | standardInput
  | file (path : String)
  deriving DecidableEq, Repr

namespace Input

def ofText (text : String) : Input := if text = "-" then .standardInput else .file text

/-- The name that reports and messages use. -/
def name : Input → String
  | .standardInput => "<stdin>"
  | .file path => path

end Input

inductive Command where
  | probe (input : Input)
  | inspect (input : Input) (settings : Settings) (json : Bool)
  deriving DecidableEq, Repr

def Command.input : Command → Input
  | .probe input => input
  | .inspect input _ _ => input

/-- Why arguments do not lead to a command. -/
inductive Stop where
  | misused
  | help
  | version
  deriving DecidableEq, Repr

inductive CommandName where
  | probe
  | inspect
  deriving DecidableEq, Repr

def CommandName.ofText? : String → Option CommandName
  | "probe" => some .probe
  | "inspect" => some .inspect
  | _ => none

inductive NumberOption where
  | packetSize
  | chunkPackets
  | workers
  deriving DecidableEq, Repr

inductive LongOption where
  | verbose
  | help
  | json
  | number (option : NumberOption)
  deriving DecidableEq, Repr

/-- The long options that a command takes. -/
def CommandName.longOption? (command : CommandName) (name : String) : Option LongOption :=
  match name, command with
  | "verbose", _ => some .verbose
  | "help", _ => some .help
  | "json", .inspect => some .json
  | "packet-size", .inspect => some (.number .packetSize)
  | "chunk-packets", .inspect => some (.number .chunkPackets)
  | "workers", .inspect => some (.number .workers)
  | _, _ => none

/-- What the arguments of a command have said so far. -/
structure Draft where
  input : Option Input := none
  packetSize : Option Nat := none
  chunkPackets : Option Nat := none
  workers : Option Nat := none
  json : Bool := false
  deriving DecidableEq, Repr

namespace Draft

def setInput (draft : Draft) (text : String) : Except Stop Draft :=
  if draft.input.isSome || text.isEmpty then .error .misused
  else .ok { draft with input := some (.ofText text) }

def setJson (draft : Draft) : Except Stop Draft :=
  if draft.json then .error .misused else .ok { draft with json := true }

def number (draft : Draft) : NumberOption → Option Nat
  | .packetSize => draft.packetSize
  | .chunkPackets => draft.chunkPackets
  | .workers => draft.workers

def setNumber (draft : Draft) (option : NumberOption) (text : String) : Except Stop Draft :=
  match draft.number option, number? text with
  | none, some n =>
    match option with
    | .packetSize => .ok { draft with packetSize := some n }
    | .chunkPackets => .ok { draft with chunkPackets := some n }
    | .workers => .ok { draft with workers := some n }
  | _, _ => .error .misused

/-- The settings asked for; what is not mentioned keeps its default. -/
def settings (draft : Draft) : Settings :=
  let usual : Settings := {}
  { packetSize := draft.packetSize.getD usual.packetSize
    chunkPackets := draft.chunkPackets.getD usual.chunkPackets
    workers := draft.workers.getD usual.workers }

def command (draft : Draft) (name : CommandName) : Except Stop Command :=
  match draft.input, name with
  | none, _ => .error .misused
  | some input, .probe => .ok (.probe input)
  | some input, .inspect => .ok (.inspect input draft.settings draft.json)

end Draft

/-- Letters behind a single dash: `v` may be repeated, `h` asks for help, and
`V` for the version where a version is known. -/
def shortOptions (version : Bool) : List Char → Except Stop Unit
  | [] => .ok ()
  | 'v' :: letters => shortOptions version letters
  | 'h' :: _ => .error .help
  | 'V' :: _ => .error (if version then .version else .misused)
  | _ :: _ => .error .misused

def arguments (name : CommandName) (draft : Draft) : List String → Except Stop Draft
  | [] => .ok draft
  | argument :: later =>
    match Token.ofText argument with
    | .separator => later.foldlM Draft.setInput draft
    | .plain text => do arguments name (← draft.setInput text) later
    | .short letters => do
      shortOptions false letters
      arguments name draft later
    | .long option attached =>
      match name.longOption? option, attached with
      | some .verbose, none => arguments name draft later
      | some .help, none => .error .help
      | some .json, none => do arguments name (← draft.setJson) later
      | some (.number option), some value => do
        arguments name (← draft.setNumber option value) later
      | some (.number option), none =>
        match later with
        | [] => .error .misused
        | value :: later =>
          if (Token.ofText value).isPlain then do
            arguments name (← draft.setNumber option value) later
          else .error .misused
      | _, _ => .error .misused

/-- Help may be asked for on a command or on help itself. -/
def helpOn : List String → Stop
  | [] => .help
  | [topic] =>
    if topic = "help" ∨ (CommandName.ofText? topic).isSome then .help else .misused
  | _ => .misused

def parse : List String → Except Stop Command
  | [] => .error .misused
  | argument :: later =>
    match Token.ofText argument with
    | .separator => .error .misused
    | .short letters => do
      shortOptions true letters
      parse later
    | .long "verbose" none => parse later
    | .long "help" none => .error .help
    | .long "version" none => .error .version
    | .long _ _ => .error .misused
    | .plain text =>
      match CommandName.ofText? text with
      | some name => do (← arguments name {} later).command name
      | none => if text = "help" then .error (helpOn later) else .error .misused

end TransportStream.CommandLine
