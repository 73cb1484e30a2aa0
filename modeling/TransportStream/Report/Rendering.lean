import TransportStream.Report.Basic

/-!
# Reports as text

A report is written as a table or as JSON, and a detection in four lines.
-/
namespace TransportStream
open Text

def Resync.account : Resync → String
  | .rewound => "rewound to offset 0"
  | .skipped count => "skipped " ++ Nat.repr count ++ " bytes"

namespace Detection

def line (label value : String) : String := Columns.left 14 label ++ value ++ "\n"

def render (source : String) (d : Detection) : String :=
  line "Source:" source ++
  line "Packet size:" (Nat.repr d.packetSize ++ " bytes") ++
  line "Probe:" (Nat.repr d.window ++ " bytes") ++
  line "Resync:" d.resync.account

end Detection

namespace Report
open Columns

def total (label value : String) : String := left 16 label ++ value ++ "\n"

def tableLine (pid packets unitStarts gaps : String) : String :=
  left 8 pid ++ right 9 packets ++ right 7 unitStarts ++ right 10 gaps ++ "\n"

def rule : String := String.ofList (List.replicate 34 '─') ++ "\n"

def pidLine (row : PidRow) : String :=
  tableLine (Hexadecimal.marked .small 4 row.pid.val) (Nat.repr row.packets)
    (Nat.repr row.unitStarts) (Nat.repr row.gaps)

def errorLine (entry : ListedError) : String :=
  match entry.packet with
  | some index => "  packet " ++ Nat.repr index ++ ": " ++ entry.message ++ "\n"
  | none => "  " ++ entry.message ++ "\n"

def totals (r : Report) : String :=
  total "Source:" r.source ++
  total "Packet size:"
    (Nat.repr r.packetSize ++ if r.detected then " (detected)" else " (given)") ++
  total "Packets:" (Nat.repr r.packets) ++
  total "Bytes read:" (Nat.repr r.bytesRead) ++
  total "Decode errors:" (Nat.repr r.decodeErrors)

def pidTable (rows : List PidRow) : String :=
  if rows = [] then ""
  else
    "\n" ++ tableLine "PID" "Packets" "PUSI" "CC gaps" ++ rule ++ String.join (rows.map pidLine)

/-- The errors that are counted and not listed. -/
def unlisted (r : Report) : Nat := r.decodeErrors - r.errors.length

def errorList (r : Report) : String :=
  if r.errors = [] then ""
  else
    "\nErrors:\n" ++ String.join (r.errors.map errorLine) ++
      if 0 < r.unlisted then "  ... and " ++ Nat.repr r.unlisted ++ " more\n" else ""

def render (r : Report) : String := r.totals ++ pidTable r.pids ++ r.errorList

def entryJson (entry : ListedError) : Json :=
  .object
    [("packet", (entry.packet.map Json.number).getD .null),
     ("message", .text entry.message)]

def rowJson (row : PidRow) : Json :=
  .object
    [("pid", .number row.pid.val),
     ("packets", .number row.packets),
     ("payload_unit_starts", .number row.unitStarts),
     ("continuity_gaps", .number row.gaps)]

def toJson (r : Report) : Json :=
  .object
    [("source", .text r.source),
     ("packet_size", .number r.packetSize),
     ("detected", .bool r.detected),
     ("packets", .number r.packets),
     ("bytes_read", .number r.bytesRead),
     ("decode_errors", .number r.decodeErrors),
     ("errors", .array (r.errors.map entryJson)),
     ("pids", .array (r.pids.map rowJson))]

end Report

end TransportStream
