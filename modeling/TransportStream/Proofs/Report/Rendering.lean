import TransportStream.Proofs.Wording
import TransportStream.Report.Rendering

/-!
# What is printed

The texts of a detection and of a report, word for word.
-/
namespace TransportStream
open Text
open Text.Hexadecimal (written)

namespace Detection

/-- The beginning of what is printed, with the source and the size of a packet. -/
def opening (source : String) (size : Nat) : String :=
  "Source:       " ++ source ++ "\n" ++
  "Packet size:  " ++ Nat.repr size ++ " bytes" ++ "\n"

/-- The rest of what is printed. -/
def remainder (d : Detection) : String :=
  "Probe:        " ++ Nat.repr d.window ++ " bytes" ++ "\n" ++
  "Resync:       " ++
    (match d.resync with
      | .rewound => "rewound to offset 0"
      | .skipped count => "skipped " ++ Nat.repr count ++ " bytes") ++ "\n"

theorem render_eq (source : String) (d : Detection) :
    d.render source = opening source d.packetSize ++ d.remainder := by
  have hsource : Columns.left 14 "Source:" = "Source:       " := rfl
  have hsize : Columns.left 14 "Packet size:" = "Packet size:  " := rfl
  have hprobe : Columns.left 14 "Probe:" = "Probe:        " := rfl
  have hresync : Columns.left 14 "Resync:" = "Resync:       " := rfl
  unfold render opening remainder line
  rw [hsource, hsize, hprobe, hresync]
  cases d.resync <;> simp only [Resync.account, String.append_assoc]

end Detection

namespace Report

/-- The beginning of a report, with its source and the size of a packet. -/
def opening (json : Bool) (source : String) (size : Nat) (detected : Bool) : String :=
  match json with
  | false =>
    "Source:         " ++ source ++ "\n" ++
    "Packet size:    " ++ Nat.repr size ++ (if detected then " (detected)" else " (given)") ++ "\n"
  | true =>
    "\x7b\n  \"source\": " ++ Json.quoted source ++
    ",\n  \"packet_size\": " ++ Nat.repr size ++
    ",\n  \"detected\": " ++ if detected then "true" else "false"

/-- The row of a PID in a table. -/
def tabulated (row : PidRow) : String :=
  "0x" ++ written .small 4 row.pid.val ++ "  " ++ Columns.right 9 (Nat.repr row.packets) ++
    Columns.right 7 (Nat.repr row.unitStarts) ++ Columns.right 10 (Nat.repr row.gaps) ++ "\n"

/-- The counts and the rows of a table. -/
def counted (r : Report) : String :=
  "Packets:        " ++ Nat.repr r.packets ++ "\n" ++
  "Bytes read:     " ++ Nat.repr r.bytesRead ++ "\n" ++
  "Decode errors:  " ++ Nat.repr r.decodeErrors ++ "\n" ++
    if r.pids = [] then ""
    else
      "\nPID       Packets   PUSI   CC gaps\n──────────────────────────────────\n" ++
        String.join (r.pids.map tabulated)

/-- The line of an error in a table. -/
def listed (entry : ListedError) : String :=
  match entry.packet with
  | some index => "  packet " ++ Nat.repr index ++ ": " ++ entry.message ++ "\n"
  | none => "  " ++ entry.message ++ "\n"

/-- An array with each of its objects on lines of its own. -/
def bracketed (objects : List String) : String :=
  if objects = [] then "[]" else "[\n    " ++ ",\n    ".intercalate objects ++ "\n  ]"

def entryObject (entry : ListedError) : String :=
  "\x7b\n      \"packet\": " ++ (entry.packet.map Nat.repr).getD "null" ++
    ",\n      \"message\": " ++ Json.quoted entry.message ++ "\n    \x7d"

def rowObject (row : PidRow) : String :=
  "\x7b\n      \"pid\": " ++ Nat.repr row.pid.val ++
    ",\n      \"packets\": " ++ Nat.repr row.packets ++
    ",\n      \"payload_unit_starts\": " ++ Nat.repr row.unitStarts ++
    ",\n      \"continuity_gaps\": " ++ Nat.repr row.gaps ++ "\n    \x7d"

/-- The rest of a report. -/
def remainder (json : Bool) (r : Report) : String :=
  match json with
  | false =>
    r.counted ++
      if r.errors = [] then ""
      else
        "\nErrors:\n" ++ String.join (r.errors.map listed) ++
          if r.errors.length < r.decodeErrors then
            "  ... and " ++ Nat.repr (r.decodeErrors - r.errors.length) ++ " more\n"
          else ""
  | true =>
    ",\n  \"packets\": " ++ Nat.repr r.packets ++
    ",\n  \"bytes_read\": " ++ Nat.repr r.bytesRead ++
    ",\n  \"decode_errors\": " ++ Nat.repr r.decodeErrors ++
    ",\n  \"errors\": " ++ bracketed (r.errors.map entryObject) ++
    ",\n  \"pids\": " ++ bracketed (r.pids.map rowObject) ++ "\n\x7d\n"

theorem totals_eq (r : Report) :
    r.totals = opening false r.source r.packetSize r.detected ++
      "Packets:        " ++ Nat.repr r.packets ++ "\n" ++
      "Bytes read:     " ++ Nat.repr r.bytesRead ++ "\n" ++
      "Decode errors:  " ++ Nat.repr r.decodeErrors ++ "\n" := by
  have hsource : Columns.left 16 "Source:" = "Source:         " := rfl
  have hsize : Columns.left 16 "Packet size:" = "Packet size:    " := rfl
  have hpackets : Columns.left 16 "Packets:" = "Packets:        " := rfl
  have hbytes : Columns.left 16 "Bytes read:" = "Bytes read:     " := rfl
  have herrors : Columns.left 16 "Decode errors:" = "Decode errors:  " := rfl
  unfold totals opening total
  rw [hsource, hsize, hpackets, hbytes, herrors]
  simp only [String.append_assoc]

theorem pidLine_eq (row : PidRow) : pidLine row = tabulated row := by
  have hpid : Hexadecimal.marked .small 4 row.pid.val = "0x" ++ written .small 4 row.pid.val :=
    Hexadecimal.marked_eq_written _ (by decide) row.pid.isLt
  have hblanks : Columns.blanks (8 - ("0x" ++ written .small 4 row.pid.val).length) = "  " := by
    rw [String.length_append, Hexadecimal.length_written]
    rfl
  rw [pidLine, tableLine, hpid, Columns.left, hblanks, tabulated]

theorem pidTable_eq (rows : List PidRow) :
    pidTable rows =
      if rows = [] then ""
      else
        "\nPID       Packets   PUSI   CC gaps\n──────────────────────────────────\n" ++
          String.join (rows.map tabulated) := by
  have hheading : "\n" ++ tableLine "PID" "Packets" "PUSI" "CC gaps" ++ rule =
      "\nPID       Packets   PUSI   CC gaps\n──────────────────────────────────\n" := by
    decide +kernel
  unfold pidTable
  rw [hheading, funext pidLine_eq]

theorem errorLine_eq (entry : ListedError) : errorLine entry = listed entry := by
  unfold errorLine listed
  cases entry.packet <;> rfl

theorem errorList_eq (r : Report) :
    r.errorList =
      if r.errors = [] then ""
      else
        "\nErrors:\n" ++ String.join (r.errors.map listed) ++
          if r.errors.length < r.decodeErrors then
            "  ... and " ++ Nat.repr (r.decodeErrors - r.errors.length) ++ " more\n"
          else "" := by
  unfold errorList unlisted
  rw [funext errorLine_eq]
  simp only [Nat.sub_pos_iff_lt]

theorem render_eq (r : Report) :
    r.render = opening false r.source r.packetSize r.detected ++ remainder false r := by
  unfold render remainder counted
  rw [totals_eq, pidTable_eq, errorList_eq]
  simp only [String.append_assoc]

end Report

namespace Text.Json

theorem intercalate_items (item : Json) (items : List Json) :
    ",\n    ".intercalate ((item :: items).map (write 2)) = write 2 item ++ writeItems 2 items := by
  induction items generalizing item with
  | nil => exact String.intercalate_singleton.trans String.append_empty.symm
  | cons later items ih =>
    have hmargin : "," ++ margin 2 = ",\n    " := rfl
    rw [List.map_cons, List.map_cons, String.intercalate_cons_cons, ← List.map_cons, ih, writeItems,
      hmargin]
    simp only [String.append_assoc]

theorem write_array (items : List Json) :
    write 1 (.array items) = Report.bracketed (items.map (write 2)) := by
  cases items with
  | nil => rfl
  | cons item items =>
    have hopen : "[" ++ margin 2 = "[\n    " := rfl
    have hclose : "\n  ]" = margin 1 ++ "]" := rfl
    have hne : (item :: items).map (write 2) ≠ [] := List.cons_ne_nil _ _
    rw [Report.bracketed, if_neg hne, intercalate_items, write, hopen, hclose]
    simp only [String.append_assoc]

end Text.Json

namespace Report
open Json

theorem write_entryJson (entry : ListedError) : write 2 (entryJson entry) = entryObject entry := by
  have hpacket : "\x7b" ++ margin 3 ++ quoted "packet" ++ ": " = "\x7b\n      \"packet\": " := by
    decide
  have hmessage : "," ++ margin 3 ++ quoted "message" ++ ": " = ",\n      \"message\": " := by
    decide
  have hclose : "\n    \x7d" = margin 2 ++ "\x7d" := rfl
  have hindex : write 3 ((entry.packet.map Json.number).getD .null) =
      (entry.packet.map Nat.repr).getD "null" := by
    cases entry.packet <;> rfl
  unfold entryJson entryObject
  simp only [write, writeFields]
  rw [hpacket, hindex, hmessage, hclose]
  simp only [String.append_assoc, String.append_empty]

theorem write_rowJson (row : PidRow) : write 2 (rowJson row) = rowObject row := by
  have hpid : "\x7b" ++ margin 3 ++ quoted "pid" ++ ": " = "\x7b\n      \"pid\": " := by decide
  have hpackets : "," ++ margin 3 ++ quoted "packets" ++ ": " = ",\n      \"packets\": " := by
    decide
  have hstarts : "," ++ margin 3 ++ quoted "payload_unit_starts" ++ ": " =
      ",\n      \"payload_unit_starts\": " := by decide
  have hgaps : "," ++ margin 3 ++ quoted "continuity_gaps" ++ ": " =
      ",\n      \"continuity_gaps\": " := by decide
  have hclose : "\n    \x7d" = margin 2 ++ "\x7d" := rfl
  unfold rowJson rowObject
  simp only [write, writeFields]
  rw [hpid, hpackets, hstarts, hgaps, hclose]
  simp only [String.append_assoc, String.append_empty]

theorem render_toJson (r : Report) :
    r.toJson.render ++ "\n" =
      opening true r.source r.packetSize r.detected ++ remainder true r := by
  have hsource : "\x7b" ++ margin 1 ++ quoted "source" ++ ": " = "\x7b\n  \"source\": " := by
    decide
  have hsize : "," ++ margin 1 ++ quoted "packet_size" ++ ": " = ",\n  \"packet_size\": " := by
    decide
  have hdetected : "," ++ margin 1 ++ quoted "detected" ++ ": " = ",\n  \"detected\": " := by
    decide
  have hpackets : "," ++ margin 1 ++ quoted "packets" ++ ": " = ",\n  \"packets\": " := by
    decide
  have hbytes : "," ++ margin 1 ++ quoted "bytes_read" ++ ": " = ",\n  \"bytes_read\": " := by
    decide
  have hcount : "," ++ margin 1 ++ quoted "decode_errors" ++ ": " = ",\n  \"decode_errors\": " := by
    decide
  have herrors : "," ++ margin 1 ++ quoted "errors" ++ ": " = ",\n  \"errors\": " := by
    decide
  have hpids : "," ++ margin 1 ++ quoted "pids" ++ ": " = ",\n  \"pids\": " := by
    decide
  have hclose : "\n\x7d\n" = margin 0 ++ "\x7d" ++ "\n" := rfl
  unfold toJson Json.render opening remainder
  rw [write, writeFields, writeFields, writeFields, writeFields, writeFields, writeFields,
    writeFields, writeFields, write_array, write_array, hclose]
  simp only [write]
  rw [hsource, hsize, hdetected, hpackets, hbytes, hcount, herrors, hpids]
  simp only [List.map_map, Function.comp_def, write_entryJson, write_rowJson, String.append_assoc,
    String.append_empty]

end Report

end TransportStream
