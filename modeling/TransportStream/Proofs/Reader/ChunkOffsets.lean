import TransportStream.Proofs.Detection.Courses
import TransportStream.Proofs.Reader.Located
import TransportStream.Proofs.Sample.Contents
import TransportStream.Proofs.Source.Offsets

/-!
# Where chunks begin

On a plain source the chunks to come begin at the present position and every chunk
length behind it (`Reader.ahead`), and a run reads at these places and nowhere else
(`offsets_of_drained`).
-/
namespace TransportStream

namespace Detection
open Request (offsets)
variable {s : Source} {m : Measure}

theorem offsets_measure (hs : s.Plain) (h : survey s.rest = .ok m) :
    offsets (measure s).requests =
      if m.packetSize < 193 then [s.position] else [s.position, s.position + 193] := by
  obtain ⟨hlong, hsecond, -, -⟩ := of_survey_ok h
  have hinside := hsecond.lt_length
  have hne (count : Nat) (hc : count < s.rest.length) : s.rest.drop count ≠ [] := by
    rw [← List.length_pos_iff, List.length_drop]
    omega
  have hprobe : offsets (s.gather 193).requests = [s.position] :=
    hs.offsets_gather (by decide) (hne 0 (by omega))
  have hfull : ¬(s.rest.take 193).length < 193 := by
    rw [List.length_take]
    omega
  have haligned : ¬(s.rest.take 193).headD 0 ≠ 0x47 := by
    rw [List.headD_eq_head?_getD, List.head?_take, if_neg (by decide), List.head?_eq_getElem?,
      aligned_of_survey h]
    decide
  rw [measure_eq, Source.readUpTo_andThen_of_steady hs.steady]
  change offsets ((s.gather 193).requests ++
    (judgeHead (s.rest.take 193) (s.gather 193).source).requests) = _
  cases hfirst : nextSync (s.rest.take 193) with
  | some size =>
    obtain ⟨hearly, hlt⟩ := nextSync_take.mp hfirst
    rw [judgeHead_of_second hfull haligned hfirst, hsecond.unique hearly, if_pos hlt]
    exact (congrArg offsets (List.append_nil _)).trans hprobe
  | none =>
    have hlate : ¬m.packetSize < 193 := fun hlt => by
      rw [nextSync_take.mpr ⟨hsecond, hlt⟩] at hfirst
      cases hfirst
    have hmoved := Source.advanced_gather hs.steady 193
    have hmore : offsets ((s.gather 193).source.gather 12).requests = [s.position + 193] := by
      rw [(hs.gather 193).offsets_gather (by decide) (by rw [hmoved.rest]; exact hne _ (by omega)),
        hmoved.position, Nat.min_eq_left hlong]
    rw [judgeHead_of_single hfull haligned hfirst,
      Source.readUpTo_andThen_of_steady hmoved.steady, if_neg hlate]
    change offsets (_ ++ (_ ++ (judgeMore _ _ _).requests)) = _
    rw [requests_judgeMore, List.append_nil, Request.offsets_append, hprobe, hmore]
    rfl

theorem requests_realign_of_supported (m : Measure) (h : s.rewinding = .supported) :
    (realign m s).requests = [.rewind (.ok true)] := by
  simp only [realign, Source.rewind, h]
  rfl

theorem requests_realign_of_unsupported (m : Measure) (h : s.rewinding = .unsupported) :
    (realign m s).requests = .rewind (.ok false) :: (s.gather m.skip).requests := by
  rw [realign_of_unsupported m h, Exchange.andThen_done]
  rfl

/-- Where the probes began. -/
def probeOffsets (packetSize : Nat) : List Nat := if packetSize < 193 then [0] else [0, 193]

section
variable {d : Detection}

theorem offsets_detect_of_supported (hs : s.Plain) (hstart : s.position = 0)
    (hr : s.rewinding = .supported) (h : (detect s).result = .ok d) :
    offsets (detect s).requests = probeOffsets d.packetSize ∧
      (detect s).source.position = 0 ∧ (detect s).source.data = s.data := by
  obtain ⟨m, hsurvey, hsize⟩ := survey_of_detect hs.steady h
  obtain ⟨hmeasure, hadvanced⟩ := measure_of_survey hs.steady hsurvey
  obtain ⟨-, -, hdata, hposition⟩ := detect_of_rewindable hs.steady hsurvey hr
  refine ⟨?_, hposition, hdata⟩
  rw [requests_detect hmeasure,
    requests_realign_of_supported m (hadvanced.rewinding.trans hr), Request.offsets_append,
    offsets_measure hs hsurvey, hstart, hsize]
  exact List.append_nil _

theorem offsets_detect_of_unsupported (hs : s.Plain) (hstart : s.position = 0)
    (hr : s.rewinding = .unsupported) (h : (detect s).result = .ok d) :
    offsets (detect s).requests = probeOffsets d.packetSize ++ [d.window] ∧
      (detect s).source.position = 2 * d.packetSize ∧ (detect s).source.data = s.data := by
  obtain ⟨m, hsurvey, hsize⟩ := survey_of_detect hs.steady h
  obtain ⟨hmeasure, hadvanced⟩ := measure_of_survey hs.steady hsurvey
  have hlong : 2 * m.packetSize ≤ s.rest.length := by
    apply Nat.le_of_not_lt
    intro hshort
    rw [detect_of_passing_short hs.steady hsurvey hr hshort] at h
    cases h
  obtain ⟨hresult, hmoved⟩ := detect_of_passing hs.steady hsurvey hr hlong
  obtain rfl := Except.ok.inj (hresult.symm.trans h)
  obtain ⟨hskip, hwindow⟩ := skip_of_survey hsurvey
  have hplain : (measure s).source.Plain := hs.of_answered (answered_measure s)
  have hbehind : (measure s).source.position = m.window := by
    rw [hadvanced.position, hstart, Nat.zero_add]
  have hleft : (measure s).source.rest ≠ [] := by
    rw [← List.length_pos_iff, hadvanced.rest, List.length_drop]
    omega
  refine ⟨?_, by rw [hmoved.position, hstart, Nat.zero_add], hmoved.data⟩
  rw [requests_detect hmeasure,
    requests_realign_of_unsupported m (hadvanced.rewinding.trans hr), Request.offsets_append,
    offsets_measure hs hsurvey, hstart]
  refine congrArg (probeOffsets m.packetSize ++ ·) ?_
  exact (hplain.offsets_gather (by omega) hleft).trans (by rw [hbehind])

end

end Detection

namespace Reader
open Request (offsets)
open Detection
variable {P E : Type}

/-- Where the chunks to come begin. -/
def ahead (r : Reader P E) : List Nat :=
  List.range' r.source.position (r.source.rest.slices r.chunkLength).length r.chunkLength

section
variable {r : Reader P E}

theorem ahead_of_rest_nil (h : r.source.rest = []) : r.ahead = [] := by
  rw [ahead, h, Bytes.slices_nil]
  rfl

/-- A chunk is read at the first of these places. -/
theorem offsets_intake (hs : r.source.Plain) (hroom : 0 < r.chunkLength)
    (hrest : r.source.rest ≠ []) :
    offsets r.intake.requests ++ r.received.ahead = r.ahead := by
  have hsupplied : r.Supplied := Source.gather_of_steady hs.steady r.chunkLength
  have hleft := hsupplied.rest_received
  have hmoved : r.received.source.position =
      r.source.position + (r.source.rest.take r.chunkLength).length := by
    have hbytes : r.intake.result.bytes = r.source.rest.take r.chunkLength :=
      congrArg Intake.bytes hsupplied
    rw [← hbytes]
    exact r.source.position_gather r.chunkLength
  have hoffset : offsets r.intake.requests = [r.source.position] :=
    hs.offsets_gather (Nat.ne_of_gt hroom) hrest
  have hahead : r.ahead = r.source.position ::
      List.range' (r.source.position + r.chunkLength)
        (Bytes.slices r.chunkLength (r.source.rest.drop r.chunkLength)).length r.chunkLength := by
    rw [ahead, Bytes.slices_of_ne_nil hroom hrest, List.length_cons, List.range'_succ]
  rw [hahead, hoffset, List.singleton_append, ahead, hleft]
  change _ :: List.range' _ _ r.chunkLength = _
  rcases Nat.le_total r.chunkLength r.source.rest.length with hfull | hshort
  · rw [hmoved, List.length_take, Nat.min_eq_left hfull]
    rfl
  · rw [List.drop_eq_nil_of_le hshort]
    change _ :: List.range' _ (Bytes.slices r.chunkLength []).length r.chunkLength = _
    rw [Bytes.slices_nil]
    rfl

theorem offsets_next (hs : r.source.Plain) (hroom : 0 < r.chunkLength) :
    offsets r.next.requests ++ r.next.reader.ahead = r.ahead ∧
      r.next.reader.source.Plain := by
  have hsupplied : r.Supplied := Source.gather_of_steady hs.steady r.chunkLength
  have hcall := r.call_next
  generalize r.next = step at hcall
  cases hcall with
  | deliver hslots => exact ⟨rfl, hs⟩
  | fault hslots hf =>
    rw [hsupplied] at hf
    cases hf
  | finish hslots hf hb =>
    have hrest : r.source.rest = [] := by
      rw [hsupplied] at hb
      exact (List.take_eq_nil_iff.mp hb).resolve_left (Nat.ne_of_gt hroom)
    have hleft : r.received.source.rest = [] := by
      rw [hsupplied.rest_received, hrest, List.drop_nil]
    refine ⟨?_, hs.gather _⟩
    rw [ahead_of_rest_nil hrest, ahead_of_rest_nil hleft]
    exact (List.append_nil _).trans (hs.offsets_gather_of_done (.inr hrest))
  | refill hslots hf hb =>
    refine ⟨offsets_intake hs hroom fun hrest => hb ?_, hs.gather _⟩
    rw [hsupplied, hrest, List.take_nil]

end

theorem offsets_of_drained {r : Reader P E} (hs : r.source.Plain) (hr : r.Steady) {count : Nat}
    (h : (r.afterCalls count).next.item = none) :
    offsets ((r.steps (count + 1)).flatMap (·.requests)) = r.ahead := by
  induction count generalizing r with
  | zero =>
    obtain ⟨hoffsets, -⟩ := offsets_next hs hr.room
    obtain ⟨hitem, hfuture, -, -⟩ := next_of_steady hr
    have hnone : r.next.reader.future = [] := by
      rw [hfuture, List.head?_eq_none_iff.mp (hitem.symm.trans h), List.tail_nil]
    rw [ahead_of_rest_nil (future_eq_nil.mp hnone).2, List.append_nil] at hoffsets
    rw [← hoffsets]
    exact congrArg offsets (List.append_nil _)
  | succ count ih =>
    obtain ⟨hoffsets, hplain⟩ := offsets_next hs hr.room
    obtain ⟨-, -, -, hnext⟩ := next_of_steady hr
    rw [← hoffsets, ← ih hplain hnext h, ← Request.offsets_append]
    rfl

theorem lt_length_ahead {r : Reader P E} (hroom : 0 < r.chunkLength) (i : Nat) :
    i < (r.source.rest.slices r.chunkLength).length ↔
      r.source.position + i * r.chunkLength < r.source.data.length := by
  rw [Bytes.length_slices hroom, ← mul_lt_iff_lt_pieces hroom, Source.rest, List.length_drop]
  omega

/-- Up to the end of the stream the source is read at the places `probes`, then at
`first` and at every chunk length behind it, as long as there are data. -/
def ReadsInChunks (opening : List Request) (r : Reader P E) (data : Bytes) (probes : List Nat)
    (first : Nat) : Prop :=
  ∀ count, (r.afterCalls count).next.item = none →
    ∃ chunks, (∀ i, i < chunks ↔ first + i * r.chunkLength < data.length) ∧
      offsets (opening ++ (r.steps (count + 1)).flatMap (·.requests)) =
        probes ++ List.range' first chunks r.chunkLength

theorem readsInChunks_of_plain {r : Reader P E} (hs : r.source.Plain) (hr : r.Steady)
    (opening : List Request) :
    ReadsInChunks opening r r.source.data (offsets opening) r.source.position := by
  refine fun count h => ⟨_, lt_length_ahead hr.room, ?_⟩
  rw [Request.offsets_append, offsets_of_drained hs hr h]
  rfl

theorem readsInChunks_start {settings : Settings} {framing : Framing} {left : Source}
    {data : Bytes} {probes : List Nat} {first : Nat} {opening : List Request}
    (decoder : Decoder P E) (hchunk : 0 < settings.chunkPackets) (hs : left.Plain)
    (hdata : left.data = data) (hposition : left.position = first)
    (hprobes : offsets opening = probes) :
    ReadsInChunks opening (start settings decoder framing left) data probes first := by
  subst hdata hposition hprobes
  exact readsInChunks_of_plain hs (steady_start decoder hchunk hs.steady) opening

/-- A reader reads its source up to the end in whole chunks, one read for each of
them, on top of what its opening has read. With a given packet size opening reads
nothing. A detection probes once or twice, and the chunks begin at the start
again; a source that cannot go back is read once more for the skip, and the chunks
begin with the third packet. -/
theorem reads_in_chunks {workers : Workers} {settings : Settings} {decoder : Decoder P E}
    {data : Bytes} {rewinding : Rewinding} {r : Reader P E}
    (h : (ofSource workers settings decoder (.scripted data rewinding)).result = .ok r) :
    let opening := (ofSource workers settings decoder (.scripted data rewinding)).requests
    r.chunkLength = r.packetSize * settings.chunkPackets ∧
      (∃ count, (r.afterCalls count).next.item = none) ∧
      (settings.packetSize ≠ 0 → ReadsInChunks opening r data [] 0) ∧
      (settings.packetSize = 0 → rewinding = .supported →
        ReadsInChunks opening r data (if r.packetSize < 193 then [0] else [0, 193]) 0) ∧
      (settings.packetSize = 0 → rewinding = .unsupported →
        ∃ d, r.framing.detection = some d ∧ ReadsInChunks opening r data
          ((if r.packetSize < 193 then [0] else [0, 193]) ++ [d.window]) (2 * r.packetSize)) := by
  intro opening
  have hplain := Source.plain_scripted data rewinding
  have hsteady := (settled_of_steady hplain.steady rfl h).steady
  have hend : (r.afterCalls r.future.length).next.item = none := by
    rw [item_of_steady hsteady, List.getElem?_eq_none (Nat.le_refl _)]
  obtain ⟨hcheck, framing, hlocate, -, rfl⟩ := start_of_ofSource h
  have hchunk := Workers.chunkPackets_pos_of_check hcheck
  refine ⟨rfl, ⟨_, hend⟩, fun hgiven => ?_, fun hzero hr => ?_, fun hzero hr => ?_⟩
  · have hsize := Nat.pos_of_ne_zero hgiven
    have hnone : opening = [] := requests_of_given decoder hcheck hsize
    rw [Framing.locate_of_given hsize, hnone]
    exact readsInChunks_start decoder hchunk hplain rfl rfl rfl
  · obtain ⟨d, hd, hleft, hsize, -⟩ := Framing.detect_of_locate hzero hlocate
    obtain ⟨hoffsets, hposition, hdata⟩ := offsets_detect_of_supported hplain rfl hr hd
    rw [← requests_of_measured decoder hcheck hzero, ← hsize] at hoffsets
    rw [hleft]
    exact readsInChunks_start decoder hchunk (hplain.of_answered (answered_detect _)) hdata
      hposition hoffsets
  · obtain ⟨d, hd, hleft, hsize, hdetection⟩ := Framing.detect_of_locate hzero hlocate
    obtain ⟨hoffsets, hposition, hdata⟩ := offsets_detect_of_unsupported hplain rfl hr hd
    rw [← requests_of_measured decoder hcheck hzero, ← hsize] at hoffsets
    rw [← hsize] at hposition
    rw [hleft]
    exact ⟨d, hdetection, readsInChunks_start decoder hchunk
      (hplain.of_answered (answered_detect _)) hdata hposition hoffsets⟩

/-- Four packets of 204 bytes pass by: two probes, the skip of what is left of the
second packet, and two chunks of one packet each. -/
theorem reads_in_chunks_passing :
    ∃ r, (ofSource .borrowed { chunkPackets := 1 } (Sample.tagDecoder none)
        (.scripted (Sample.stream 204 4) .unsupported)).result = .ok r ∧
      ∃ count, (r.afterCalls count).next.item = none ∧
        offsets ((ofSource .borrowed { chunkPackets := 1 } (Sample.tagDecoder none)
          (.scripted (Sample.stream 204 4) .unsupported)).requests ++
            (r.steps (count + 1)).flatMap (·.requests)) = [0, 193, 205, 408, 612] := by
  have hs := (Source.plain_scripted (Sample.stream 204 4) .unsupported).steady
  have hsurvey : survey (Sample.stream 204 4) = .ok ⟨204, reach (Sample.stream 204 4)⟩ :=
    Sample.survey_stream (by decide) (by decide) (by decide)
  have hsecond : SecondSync (Sample.stream 204 4) 204 :=
    Sample.secondSync_stream (by decide) (by decide)
  have hlength : (Sample.stream 204 4).length = 816 := Sample.length_stream (by decide) 4
  have hreach : reach (Sample.stream 204 4) = 205 := by
    rw [reach_of_late hsecond (by decide), hlength]
    rfl
  have hlong : 2 * 204 ≤ (Sample.stream 204 4).length := by
    rw [hlength]
    decide
  have hdetect := (detect_of_passing hs hsurvey rfl hlong).1
  have hcheck : Workers.borrowed.check { chunkPackets := 1 } = .ok () := rfl
  have hopen := ofSource_of_detected (Sample.tagDecoder none) hcheck rfl hdetect (by decide)
  obtain ⟨-, ⟨count, hend⟩, -, -, hpassing⟩ := reads_in_chunks hopen
  obtain ⟨d, hd, hreads⟩ := hpassing rfl rfl
  obtain rfl := Option.some.inj hd
  obtain ⟨chunks, hchunks, hoffsets⟩ := hreads count hend
  have hplaces (i : Nat) : i < chunks ↔ 408 + i * 204 < 816 := by
    rw [← hlength]
    exact hchunks i
  obtain rfl : chunks = 2 := by
    have hinside := (hplaces 1).mpr (by decide)
    have hbeyond := mt (hplaces 2).mp (by decide)
    omega
  refine ⟨_, hopen, count, hend, hoffsets.trans ?_⟩
  change [0, 193] ++ [reach (Sample.stream 204 4)] ++ [408, 612] = _
  rw [hreach]
  rfl

end Reader

end TransportStream
