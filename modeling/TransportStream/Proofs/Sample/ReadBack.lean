import TransportStream.Proofs.Report.Inspection
import TransportStream.Proofs.Report.PidTable
import TransportStream.Proofs.Sample.Contents

/-!
# Sample streams read back

A reader gives back the indices that a sample stream was written with, whether its
packet size is given or measured. The report has a single row without a gap
(`breaks_counting`).
-/
namespace TransportStream

namespace Reader
variable {P E : Type}

/-- The items of every run, whatever the workers do between its calls: the given
ones in their order, as far as the run goes, and nothing behind them. -/
def Yields (r : Reader P E) (outcomes : List (Outcome P E)) : Prop :=
  ∀ schedule : List (List Nat),
    items (r.scheduled schedule) = outcomes.take schedule.length

theorem Settled.yields {settings : Settings} {decoder : Decoder P E} {s : Source}
    {r : Reader P E} (h : Settled settings decoder s r) :
    r.Yields (Outcome.ofSlices decoder r.packetSize 0
      (Bytes.slices r.packetSize (s.data.drop (s.origin settings r.packetSize)))) := by
  intro schedule
  rw [← h.future]
  exact (scheduled_of_steady h.steady schedule).1

end Reader

/-- A reader is opened, and its items are the given ones. -/
def Opening.Yields {P E : Type} (o : Opening P E) (outcomes : List (Outcome P E)) : Prop :=
  ∃ r, o.result = .ok r ∧ r.Yields outcomes

namespace Sample
open Reader

theorem breaks_counting (count : Nat) :
    Counter.breaks ((List.range count).map fun index => (header index).counter) = 0 := by
  induction count with
  | zero => rfl
  | succ count ih =>
    rw [List.range_succ, List.map_append, List.map_singleton, Counter.breaks_concat, ih,
      Nat.zero_add]
    cases count with
    | zero => rfl
    | succ last =>
      have hlast : ((List.range (last + 1)).map fun index => (header index).counter).getLast? =
          some (header last).counter := by
        rw [List.range_succ, List.map_append, List.map_singleton, List.getLast?_concat]
      have hnext : (header (last + 1)).counter.val = ((header last).counter.val + 1) % 16 :=
        (Nat.mod_add_mod last 16 1).symm
      rw [hlast, Counter.isGap_some, decide_eq_false fun h => h.2 hnext]
      rfl

theorem pids_headers {count : Nat} (hcount : 0 < count) :
    (PidTrack.ofHeaders ((List.range count).map header)).map (·.row) =
      [⟨pid.wide, count, 0, 0⟩] := by
  have hne : (List.range count).map header ≠ [] := by
    rw [← List.length_pos_iff, List.length_map, List.length_range]
    exact hcount
  have hpid : ∀ h ∈ (List.range count).map header, h.pid.wide = pid.wide := by
    intro h hmem
    obtain ⟨index, -, rfl⟩ := List.mem_map.mp hmem
    rfl
  have hstarts : ((List.range count).map header).countP (·.unitStart) = 0 := by
    rw [List.countP_map]
    exact List.countP_eq_zero.mpr fun index _ => Bool.false_ne_true
  have hpayload : ((List.range count).map header).filter (·.control.hasPayload) =
      (List.range count).map header := by
    apply List.filter_eq_self.mpr
    intro h hmem
    obtain ⟨index, -, rfl⟩ := List.mem_map.mp hmem
    rfl
  have hcounters : Header.payloadCounters ((List.range count).map header) =
      (List.range count).map fun index => (header index).counter := by
    rw [Header.payloadCounters, hpayload, List.map_map]
    rfl
  rw [PidTrack.ofHeaders_of_single hne hpid]
  simp only [List.map_cons, List.map_nil, PidTrack.ofOwn, PidRow.ofOwn, hstarts, hcounters,
    breaks_counting, List.length_map, List.length_range, ite_self]

theorem report_stream (name : String) {size count : Nat} (hsize : 188 ≤ size)
    (hcount : 0 < count) :
    Report.ofBytes name size true (stream size count) =
      { source := name, packetSize := size, detected := true, packets := count,
        bytesRead := size * count, decodeErrors := 0, errors := [],
        pids := [⟨pid.wide, count, 0, 0⟩] } := by
  have hhead : headLength ≤ size := Nat.le_trans (by decide) hsize
  have hitems : Outcome.ofSlices Packet.decoder size 0 (Bytes.slices size (stream size count)) =
      ((List.range count).map (content size)).map .ok := by
    rw [slices_stream hhead]
    exact ofSlices_packets hhead (fun index _ => decoder_packet hsize index) 0
  have hpackets : ((List.range count).map (content size)).length = count := by
    rw [List.length_map, List.length_range]
  have hheaders : ((List.range count).map (content size)).map (·.header) =
      (List.range count).map header := List.map_map
  unfold Report.ofBytes
  simp only [hitems, Outcome.decoded_map_ok, Outcome.failures_map_ok, hpackets, hheaders,
    pids_headers hcount, length_stream hhead, List.length_nil, List.take_nil, List.map_nil]

/-- A reader for packets of `size` bytes is opened, and all that it is going to
give is settled. -/
def Opens {P E : Type} (workers : Workers) (settings : Settings) (decoder : Decoder P E)
    (s : Source) (size : Nat) : Prop :=
  ∃ r, (ofSource workers settings decoder s).result = .ok r ∧
    Settled settings decoder s r ∧ r.packetSize = size

/-- Both decoders give back the given indices: one as its packets, the other as
the tags of its packets. -/
structure ReadBack (workers : Workers) (settings : Settings) (s : Source)
    (indices : List Nat) : Prop where
  tags : (ofSource workers settings (tagDecoder none) s).Yields (indices.map .ok)
  packets : ∃ packets : List Packet, packets.map tag? = indices.map some ∧
    (ofSource workers settings Packet.decoder s).Yields (packets.map .ok)

section
variable {size count : Nat} {workers : Workers} {settings : Settings} {s : Source}

theorem readBack_of_opened (hsize : 188 ≤ size) (hcount : count < UInt32.size) (first : Nat)
    (hdata : s.data = stream size count) (horigin : s.origin settings size = first * size)
    (hopens : ∀ {P E : Type} (decoder : Decoder P E), Opens workers settings decoder s size) :
    ReadBack workers settings s ((List.range count).drop first) := by
  have hhead : headLength ≤ size := Nat.le_trans (by decide) hsize
  have hpos : 0 < size := Nat.lt_of_lt_of_le (by decide) hsize
  have hindex : ∀ index ∈ (List.range count).drop first, index < UInt32.size :=
    fun index hmem => Nat.lt_trans (List.mem_range.mp (List.mem_of_mem_drop hmem)) hcount
  have hyields {P E : Type} {decoder : Decoder P E} (value : Nat → P)
      (hdecoder : ∀ index ∈ (List.range count).drop first,
        decoder (packet size index) = .decoded (value index)) :
      (ofSource workers settings decoder s).Yields
        ((((List.range count).drop first).map value).map .ok) := by
    obtain ⟨r, hr, hsettled, hpacketSize⟩ := hopens decoder
    have hitems := hsettled.yields
    rw [hpacketSize, horigin, hdata, Bytes.slices_drop hpos, slices_stream hhead,
      ← List.map_drop, ofSlices_packets hhead hdecoder] at hitems
    exact ⟨r, hr, hitems⟩
  constructor
  · have htags := hyields id fun index hmem =>
      tagDecoder_packet hhead (hindex index hmem)
    rwa [List.map_id] at htags
  · refine ⟨((List.range count).drop first).map (content size), ?_, ?_⟩
    · rw [List.map_map]
      apply List.map_congr_left
      intro index hmem
      rw [Function.comp_apply]
      exact tag?_content size (hindex index hmem)
    · exact hyields (content size) fun index _ => decoder_packet hsize index

theorem given_read_back (hsize : 188 ≤ size) (hcount : count < UInt32.size)
    (hcheck : workers.check settings = .ok ()) (hgiven : settings.packetSize = size)
    (hroom : size * settings.chunkPackets ≤ ChunkBuffer.capacityLimit) (hs : s.Steady)
    (hstart : s.position = 0) (hdata : s.data = stream size count) :
    ReadBack workers settings s (List.range count) := by
  have hpos : 0 < size := Nat.lt_of_lt_of_le (by decide) hsize
  subst hgiven
  have horigin : s.origin settings settings.packetSize = 0 * settings.packetSize :=
    (if_neg fun h => Nat.ne_of_gt hpos h.1).trans (Nat.zero_mul _).symm
  apply readBack_of_opened hsize hcount 0 hdata horigin
  intro P E decoder
  have hopened := ofSource_of_given (s := s) decoder hcheck hpos hroom
  exact ⟨_, hopened, settled_of_steady hs hstart hopened, rfl⟩

section
variable (hlow : 188 ≤ size) (hhigh : size ≤ 204) (htwo : 2 ≤ count) (hcount : count < UInt32.size)
  (hcheck : workers.check settings = .ok ()) (hzero : settings.packetSize = 0)
  (hroom : size * settings.chunkPackets ≤ ChunkBuffer.capacityLimit) (hs : s.Steady)
  (hstart : s.position = 0) (hdata : s.data = stream size count)
include hlow hhigh htwo hcount hcheck hzero hroom hs hstart hdata

theorem rewindable_read_back (hr : s.rewinding = .supported) :
    (∃ d, (detect s).result = .ok d ∧ d.packetSize = size) ∧
      ReadBack workers settings s (List.range count) ∧
      ∀ name, ∃ r, (ofSource workers settings Packet.decoder s).result = .ok r ∧
        (r.inspect name).result = .ok
          { source := name, packetSize := size, detected := true, packets := count,
            bytesRead := size * count, decodeErrors := 0, errors := [],
            pids := [⟨pid.wide, count, 0, 0⟩] } := by
  have hsurvey := survey_stream hlow hhigh htwo
  rw [← hdata, ← Source.rest_of_start hstart] at hsurvey
  have horigin : s.origin settings size = 0 := if_neg fun h => by simp [hr] at h
  have hopens {P E : Type} (decoder : Decoder P E) : Opens workers settings decoder s size := by
    obtain ⟨framing, left, hsize, -, -, -, hopened⟩ :=
      ofSource_of_rewindable decoder hcheck hzero hs hsurvey hr hroom
    exact ⟨_, hopened, settled_of_steady hs hstart hopened, hsize⟩
  refine ⟨⟨_, (detect_of_rewindable hs hsurvey hr).1, rfl⟩, ?_, ?_⟩
  · exact readBack_of_opened hlow hcount 0 hdata (horigin.trans (Nat.zero_mul size).symm) hopens
  · intro name
    obtain ⟨r, hopened, hsettled, hpacketSize⟩ := hopens Packet.decoder
    have hreport := hsettled.inspect name
    rw [hpacketSize, horigin, List.drop_zero, hzero, hdata] at hreport
    exact ⟨r, hopened, hreport.trans (congrArg Except.ok
      (report_stream name hlow (Nat.lt_of_lt_of_le (by decide) htwo)))⟩

theorem passing_read_back (hr : s.rewinding = .unsupported) :
    (∃ d, (detect s).result = .ok d ∧ d.packetSize = size) ∧
      ReadBack workers settings s ((List.range count).drop 2) := by
  have hsurvey := survey_stream hlow hhigh htwo
  rw [← hdata, ← Source.rest_of_start hstart] at hsurvey
  have horigin : s.origin settings size = 2 * size := if_pos ⟨hzero, hr⟩
  have hlong : 2 * size ≤ s.rest.length := by
    rw [Source.rest_of_start hstart, hdata, length_stream (Nat.le_trans (by decide) hlow),
      Nat.mul_comm]
    exact Nat.mul_le_mul_left size htwo
  refine ⟨⟨_, (detect_of_passing hs hsurvey hr hlong).1, rfl⟩, ?_⟩
  apply readBack_of_opened hlow hcount 2 hdata horigin
  intro P E decoder
  obtain ⟨framing, left, hsize, -, -, -, hopened⟩ :=
    ofSource_of_passing decoder hcheck hzero hs hsurvey hr hlong hroom
  exact ⟨_, hopened, settled_of_steady hs hstart hopened, hsize⟩

end

end

/-- A stream is written and read back. With its packet size given, a reader on a
steady source over it yields every index. With the size to be measured, two
packets or more, and none longer than 204 bytes, the measured size is that of the
packets; a rewindable source yields every index and one that passes by all but
the first two, and the report on the first has one row and no error. Longer
packets are not recognized. -/
theorem stream_read_back (size count : Nat) (hsize : 188 ≤ size) (hcount : count < UInt32.size)
    (hlength : size * count ≤ ChunkBuffer.capacityLimit) (workers : Workers) (settings : Settings)
    (hworkers : workers = .own → 0 < settings.workers) (hchunk : 0 < settings.chunkPackets)
    (hroom : size * settings.chunkPackets ≤ ChunkBuffer.capacityLimit) :
    ∃ data, stream? size count = some data ∧ data.length = size * count ∧
      ∀ s : Source, s.Steady → s.position = 0 → s.data = data →
        (settings.packetSize = size → ReadBack workers settings s (List.range count)) ∧
        (settings.packetSize = 0 → 2 ≤ count →
          (size ≤ 204 → s.rewinding = .supported →
            (∃ d, (detect s).result = .ok d ∧ d.packetSize = size) ∧
            ReadBack workers settings s (List.range count) ∧
            ∀ name, ∃ r, (ofSource workers settings Packet.decoder s).result = .ok r ∧
              (r.inspect name).result = .ok
                { source := name, packetSize := size, detected := true, packets := count,
                  bytesRead := size * count, decodeErrors := 0, errors := [],
                  pids := [⟨pid.wide, count, 0, 0⟩] }) ∧
          (size ≤ 204 → s.rewinding = .unsupported →
            (∃ d, (detect s).result = .ok d ∧ d.packetSize = size) ∧
            ReadBack workers settings s ((List.range count).drop 2)) ∧
          (204 < size → ∀ {P E : Type} (decoder : Decoder P E),
            (ofSource workers settings decoder s).result =
              .error (.error (.rejected (.noSecondSync 205))))) := by
  have hcheck := Workers.check_of_pos hchunk hworkers
  have hwritten : stream? size count = some (stream size count) := by
    apply if_neg
    rintro (hshort | hlong)
    · exact Nat.not_lt.mpr hsize hshort
    · exact Nat.not_lt.mpr hlength hlong
  refine ⟨_, hwritten, length_stream (Nat.le_trans (by decide) hsize) count, ?_⟩
  intro s hs hstart hdata
  constructor
  · intro hgiven
    exact given_read_back hsize hcount hcheck hgiven hroom hs hstart hdata
  intro hzero htwo
  refine ⟨?_, ?_, ?_⟩
  · intro hhigh hr
    exact rewindable_read_back hsize hhigh htwo hcount hcheck hzero hroom hs hstart hdata hr
  · intro hhigh hr
    exact passing_read_back hsize hhigh htwo hcount hcheck hzero hroom hs hstart hdata hr
  · intro hbeyond P E decoder
    have hsurvey := survey_stream_of_gt hbeyond htwo
    rw [← hdata, ← Source.rest_of_start hstart] at hsurvey
    exact ofSource_of_undetected decoder hcheck hzero (detect_of_rejected hs hsurvey)

/-- A hundred packets of the largest size that is measured, passing by. The tag of
packet 71 is a sync byte. -/
theorem stream_read_back_passing :
    ReadBack .own {} (Source.passing (stream 204 100)) ((List.range 100).drop 2) := by
  obtain ⟨data, hdata, -, hread⟩ := stream_read_back 204 100 (by decide) (by decide)
    (by decide) .own {} (by decide) (by decide) (by decide)
  obtain rfl : stream 204 100 = data := Option.some.inj hdata
  obtain ⟨-, hmeasured⟩ := hread _ (Source.steady_passing _) rfl rfl
  exact ((hmeasured rfl (by decide)).2.1 (by decide) rfl).2

end Sample

end TransportStream
