import TransportStream.Proofs.Report.Inspection
import TransportStream.Proofs.Report.PidTable
import Mathlib.Logic.Relation

/-!
# What other packets do to a row

A packet put in between two others, or taken out, is seen by no row but its own, nor
by the gaps of its own if it carries no payload.
-/
namespace TransportStream

/-- One string is the other with a packet of `size` bytes put in between two packets. -/
inductive Bytes.Inserted (size : Nat) (extra : Bytes → Prop) : Bytes → Bytes → Prop
  | packet {before added after : Bytes} : size ∣ before.length → added.length = size →
      extra added → Inserted size extra (before ++ after) (before ++ added ++ after)

namespace Packet

/-- Does not decode to a packet of the PID. -/
def Alien (pid : WidePid) (bytes : Bytes) : Prop :=
  ∀ packet, decode bytes = .ok packet → packet.header.pid.wide ≠ pid

/-- Does not decode to a packet of the PID that carries a payload. -/
def Mute (pid : WidePid) (bytes : Bytes) : Prop :=
  ∀ packet, decode bytes = .ok packet → packet.header.pid.wide = pid →
    packet.header.control.hasPayload = false

theorem Alien.mute {pid : WidePid} {bytes : Bytes} (h : Alien pid bytes) : Mute pid bytes :=
  fun packet hdecode hpid => absurd hpid (h packet hdecode)

/-- The headers of the packets that some bytes decode to. -/
def headers (size : Nat) (bytes : Bytes) : List Header :=
  (Outcome.decoded (Outcome.ofSlices decoder size 0 (bytes.slices size))).map (·.header)

theorem headers_append (size : Nat) {before : Bytes} (h : size ∣ before.length) (after : Bytes) :
    headers size (before ++ after) = headers size before ++ headers size after := by
  unfold headers
  rw [Bytes.slices_split h, List.take_left, List.drop_left, Outcome.ofSlices_append,
    Outcome.decoded_append, List.map_append, Nat.add_comm, Outcome.ofSlices_shift,
    Outcome.decoded_map_shift]

theorem headers_of_length {size : Nat} (hsize : 0 < size) {slice : Bytes}
    (h : slice.length = size) :
    headers size slice = ((decode slice).toOption.map (·.header)).toList := by
  have hne : slice ≠ [] := by
    rintro rfl
    exact absurd h (Nat.ne_of_lt hsize)
  have hslices : slice.slices size = [slice] := by
    rw [Bytes.slices_of_ne_nil hsize hne, List.take_of_length_le (Nat.le_of_eq h),
      List.drop_eq_nil_of_le (Nat.le_of_eq h), Bytes.slices_nil]
  unfold headers
  rw [hslices, Outcome.ofSlices, Outcome.ofSlice, if_neg (by omega), decoder]
  cases decode slice <;> rfl

theorem headers_inserted {size : Nat} (hsize : 0 < size) {extra : Bytes → Prop}
    {data data' : Bytes} (h : Bytes.Inserted size extra data data') :
    ∃ earlier later added, extra added ∧ headers size data = earlier ++ later ∧
      headers size data' =
        earlier ++ ((decode added).toOption.map (·.header)).toList ++ later := by
  cases h with
  | @packet before added after hbefore hadded hextra =>
    refine ⟨headers size before, headers size after, added, hextra, headers_append size hbefore _,
      ?_⟩
    rw [List.append_assoc, headers_append size hbefore,
      headers_append size (hadded ▸ Nat.dvd_refl _), headers_of_length hsize hadded,
      List.append_assoc]

theorem own_inserted {size : Nat} (hsize : 0 < size) {pid : WidePid} {data data' : Bytes}
    (h : Bytes.Inserted size (Alien pid) data data') :
    pid.own (headers size data') = pid.own (headers size data) := by
  obtain ⟨earlier, later, added, halien, hdata, hdata'⟩ := headers_inserted hsize h
  rw [hdata, hdata']
  unfold WidePid.own
  cases hdecode : decode added with
  | error reason => simp [Except.toOption]
  | ok packet => simp [Except.toOption, halien packet hdecode]

theorem payloadCounters_inserted {size : Nat} (hsize : 0 < size) {pid : WidePid}
    {data data' : Bytes} (h : Bytes.Inserted size (Mute pid) data data') :
    Header.payloadCounters (pid.own (headers size data')) =
      Header.payloadCounters (pid.own (headers size data)) := by
  obtain ⟨earlier, later, added, hmute, hdata, hdata'⟩ := headers_inserted hsize h
  rw [hdata, hdata']
  unfold Header.payloadCounters WidePid.own
  cases hdecode : decode added with
  | error reason => simp [Except.toOption]
  | ok packet =>
    by_cases hpid : packet.header.pid.wide = pid
    · simp [Except.toOption, hpid, hmute packet hdecode hpid]
    · simp [Except.toOption, hpid]

end Packet

namespace Report

/-- The row of a PID, where there is one. -/
def row? (report : Report) (pid : WidePid) : Option PidRow := report.pids.find? (·.pid = pid)

/-- The gaps of a PID; one without a row has none. -/
def gaps (report : Report) (pid : WidePid) : Nat := ((report.row? pid).map (·.gaps)).getD 0

section
variable {report : Report} {headers : List Header}
variable (h : report.pids = (PidTrack.ofHeaders headers).map (·.row))
include h

theorem row?_eq (pid : WidePid) :
    report.row? pid =
      if pid.own headers = [] then none else some (.ofOwn pid (pid.own headers)) := by
  have htrack := PidTrack.track?_ofHeaders headers pid
  have hrow : report.row? pid = (PidTrack.track? (PidTrack.ofHeaders headers) pid).map (·.row) := by
    rw [row?, h, List.find?_map]
    rfl
  rw [hrow, htrack]
  split <;> rfl

theorem gaps_eq (pid : WidePid) :
    report.gaps pid =
      if pid = Pid.null.wide then 0
      else Counter.breaks (Header.payloadCounters (pid.own headers)) := by
  rw [gaps, row?_eq h]
  split
  · rename_i hnone
    rw [hnone]
    exact (ite_self _).symm
  · rfl

theorem row_of_mem {row : PidRow} (hrow : row ∈ report.pids) :
    row = .ofOwn row.pid (row.pid.own headers) := by
  rw [h] at hrow
  obtain ⟨track, hmem, rfl⟩ := List.mem_map.mp hrow
  have htrack := PidTrack.track?_of_mem (PidTrack.ascending_ofHeaders headers) hmem
  rw [PidTrack.track?_ofHeaders] at htrack
  split at htrack
  · cases htrack
  · exact congrArg PidTrack.row (Option.some.inj htrack).symm

theorem exists_row_iff (pid : WidePid) :
    (∃ row ∈ report.pids, row.pid = pid) ↔ ∃ header ∈ headers, header.pid.wide = pid := by
  have hsome : (∃ row ∈ report.pids, row.pid = pid) ↔ (report.row? pid).isSome = true := by
    rw [row?, List.find?_isSome]
    simp only [decide_eq_true_iff]
  have hown : pid.own headers = [] ↔ ¬∃ header ∈ headers, header.pid.wide = pid := by
    simp [WidePid.own]
  rw [hsome, row?_eq h]
  by_cases hnone : pid.own headers = []
  · simp only [hnone, if_true, Option.isSome_none, Bool.false_eq_true, false_iff]
    exact hown.mp hnone
  · simp only [hnone, if_false, Option.isSome_some, true_iff]
    exact Decidable.not_not.mp (mt hown.mpr hnone)

end

end Report

/-- Opposite changes undo one another, so what each of them preserves is
preserved by any number of both. -/
theorem Bytes.eq_of_inserted {α : Type} {size : Nat} {extra : Bytes → Prop} {f : Bytes → α}
    (hf : ∀ data data', Inserted size extra data data' → f data' = f data) {data data' : Bytes}
    (h : Relation.EqvGen (Inserted size extra) data data') : f data' = f data := by
  induction h with
  | rel _ _ h => exact hf _ _ h
  | refl => rfl
  | symm _ _ _ ih => exact ih.symm
  | trans _ _ _ _ _ ih ih' => exact ih'.trans ih

namespace Reader
variable {r : Reader Packet PacketDefect} {name : String} {report : Report}

theorem pids_of_inspect (h : (r.inspect name).result = .ok report) :
    report.pids =
        (PidTrack.ofHeaders ((Outcome.decoded (items r.drain)).map (·.header))).map (·.row) ∧
      report.packets = (Outcome.decoded (items r.drain)).length := by
  obtain ⟨-, rfl⟩ := survey_of_inspect h
  rw [Survey.ofItems_eq]
  exact ⟨rfl, rfl⟩

theorem headers_of_inspect {workers : Workers} {settings : Settings} {s : Source}
    (hsize : settings.packetSize ≠ 0) (hs : s.Candid)
    (hopened : (ofSource workers settings Packet.decoder s).result = .ok r)
    (h : (r.inspect name).result = .ok report) :
    (Outcome.decoded (items r.drain)).map (·.header) =
      Packet.headers settings.packetSize s.rest := by
  obtain ⟨hfailure, -⟩ := survey_of_inspect h
  have hpos := Nat.pos_of_ne_zero hsize
  obtain ⟨hchunk, rfl⟩ := start_of_given hpos hopened
  have hroom : 0 < settings.packetSize * settings.chunkPackets := Nat.mul_pos hpos hchunk
  have hitems := items_drain_of_candid
    (r := start settings Packet.decoder ⟨settings.packetSize, hpos, none⟩ s) hs hroom
    ⟨settings.chunkPackets, rfl⟩ hfailure
  rw [hitems, future_start]
  rfl

/-- The table of every report. Its rows are in ascending order, there is one for
each PID that a decoded packet carries, together they count all of these, and
each is told by the packets of its own PID. Of two reports on streams with the
same given packet size, which differ by packets that a PID does not see, the
rows of that PID are the same, and so are its gaps if only packets of its own
without a payload have come or gone as well. -/
theorem pid_table_of_inspect {name : String} {r : Reader Packet PacketDefect} {report : Report}
    {headers : List Header} (hreport : (r.inspect name).result = .ok report)
    (hheaders : headers = (Outcome.decoded (items r.drain)).map (·.header)) :
    report.pids.Pairwise (·.pid < ·.pid) ∧
    (∀ pid, (∃ row ∈ report.pids, row.pid = pid) ↔ ∃ header ∈ headers, header.pid.wide = pid) ∧
    (report.pids.map (·.packets)).sum = report.packets ∧
    (∀ row ∈ report.pids,
      row.packets = (row.pid.own headers).length ∧
      row.unitStarts = (row.pid.own headers).countP (·.unitStart) ∧
      row.gaps =
        if row.pid = Pid.null.wide then 0
        else Counter.breaks (Header.payloadCounters (row.pid.own headers))) ∧
    ∀ workers settings s workers' settings' s' name' r' report',
      settings.packetSize ≠ 0 → settings'.packetSize = settings.packetSize →
      s.Candid → s'.Candid →
      (ofSource workers settings Packet.decoder s).result = .ok r →
      (ofSource workers' settings' Packet.decoder s').result = .ok r' →
      (r'.inspect name').result = .ok report' →
      ∀ pid,
        (Relation.EqvGen (Bytes.Inserted settings.packetSize (Packet.Alien pid)) s.rest s'.rest →
          report'.row? pid = report.row? pid) ∧
        (Relation.EqvGen (Bytes.Inserted settings.packetSize (Packet.Mute pid)) s.rest s'.rest →
          report'.gaps pid = report.gaps pid) := by
  obtain ⟨hpids, hpackets⟩ := pids_of_inspect hreport
  rw [← hheaders] at hpids
  refine ⟨?_, Report.exists_row_iff hpids, ?_, ?_, ?_⟩
  · rw [hpids, List.pairwise_map]
    exact PidTrack.ascending_ofHeaders headers
  · rw [hpids, List.map_map, hpackets, ← List.length_map (·.header), ← hheaders]
    exact PidTrack.packets_ofHeaders headers
  · intro row hrow
    have heq := Report.row_of_mem hpids hrow
    exact ⟨congrArg PidRow.packets heq, congrArg PidRow.unitStarts heq, congrArg PidRow.gaps heq⟩
  · intro workers settings s workers' settings' s' name' r' report' hsize hsize' hs hs' hopened
      hopened' hreport' pid
    obtain ⟨hpids', -⟩ := pids_of_inspect hreport'
    rw [headers_of_inspect (hsize' ▸ hsize) hs' hopened' hreport', hsize'] at hpids'
    rw [hheaders, headers_of_inspect hsize hs hopened hreport] at hpids
    have hpos := Nat.pos_of_ne_zero hsize
    constructor
    · intro halien
      have hown := Bytes.eq_of_inserted (fun _ _ => Packet.own_inserted hpos) halien
      rw [Report.row?_eq hpids, Report.row?_eq hpids', hown]
    · intro hmute
      have hcounters := Bytes.eq_of_inserted (fun _ _ => Packet.payloadCounters_inserted hpos) hmute
      rw [Report.gaps_eq hpids, Report.gaps_eq hpids', hcounters]

/-- Two packets with a counter left out between them. -/
def sparse : Bytes := Sample.packet 188 0 ++ Sample.packet 188 2

/-- The same with zeros in between, which are no packet. -/
def padded : Bytes := Sample.packet 188 0 ++ List.replicate 188 0 ++ Sample.packet 188 2

theorem length_sample (index : Nat) : (Sample.packet 188 index).length = 188 :=
  Sample.length_packet (by decide) index

theorem dvd_length_sample : 188 ∣ (Sample.packet 188 0).length :=
  (length_sample 0).symm ▸ Nat.dvd_refl 188

theorem inserted_padded {extra : Bytes → Prop} (h : extra (List.replicate 188 0)) :
    Bytes.Inserted 188 extra sparse padded :=
  .packet dvd_length_sample List.length_replicate h

theorem headers_sparse : Packet.headers 188 sparse = [Sample.header 0, Sample.header 2] := by
  rw [sparse, Packet.headers_append 188 dvd_length_sample,
    Packet.headers_of_length (by decide) (length_sample 0),
    Packet.headers_of_length (by decide) (length_sample 2)]
  decide +kernel

theorem pid_table_of_inspect_padded :
    ∃ r r' report report',
      (ofSource .own { packetSize := 188 } Packet.decoder (.ofBytes sparse)).result = .ok r ∧
      (ofSource .borrowed { packetSize := 188, chunkPackets := 1 } Packet.decoder
        (.passing padded)).result = .ok r' ∧
      (r.inspect "sparse").result = .ok report ∧
      (r'.inspect "padded").result = .ok report' ∧
      report'.row? Sample.pid.wide = report.row? Sample.pid.wide ∧
      report'.gaps Sample.pid.wide = report.gaps Sample.pid.wide ∧
      report.row? Sample.pid.wide = some ⟨Sample.pid.wide, 2, 0, 1⟩ := by
  have hopened : (ofSource .own { packetSize := 188 } Packet.decoder (.ofBytes sparse)).result =
      .ok _ := ofSource_of_given Packet.decoder rfl (by decide) (by decide)
  have hopened' : (ofSource .borrowed { packetSize := 188, chunkPackets := 1 } Packet.decoder
      (.passing padded)).result = .ok _ :=
    ofSource_of_given Packet.decoder rfl (by decide) (by decide)
  have hreport := (settled_of_steady ⟨by decide, by decide⟩ rfl hopened).inspect "sparse"
  have hreport' := (settled_of_steady ⟨by decide, by decide⟩ rfl hopened').inspect "padded"
  have halien : Packet.Alien Sample.pid.wide (List.replicate 188 0) := by
    intro packet hdecode
    have hrefused : Packet.decode (List.replicate 188 0) = .error (.missingSync 0) := by
      decide +kernel
    rw [hrefused] at hdecode
    cases hdecode
  obtain ⟨-, -, -, -, hsame⟩ := pid_table_of_inspect hreport rfl
  obtain ⟨hrow, hgaps⟩ := hsame .own { packetSize := 188 } (.ofBytes sparse) .borrowed
    { packetSize := 188, chunkPackets := 1 } (.passing padded) _ _ _ (by decide) rfl
    (by decide) (by decide) hopened hopened' hreport' Sample.pid.wide
  refine ⟨_, _, _, _, hopened, hopened', hreport, hreport',
    hrow (.rel _ _ (inserted_padded halien)), hgaps (.rel _ _ (inserted_padded halien.mute)), ?_⟩
  have hpids := (pids_of_inspect hreport).1
  rw [headers_of_inspect (by decide) (by decide) hopened hreport] at hpids
  rw [Report.row?_eq hpids]
  change (if Sample.pid.wide.own (Packet.headers 188 sparse) = [] then none
    else some (PidRow.ofOwn Sample.pid.wide (Sample.pid.wide.own (Packet.headers 188 sparse)))) = _
  rw [headers_sparse]
  decide +kernel

end Reader

end TransportStream
