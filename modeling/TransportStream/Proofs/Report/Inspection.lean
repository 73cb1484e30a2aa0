import TransportStream.Proofs.Reader.Draining
import TransportStream.Proofs.Reader.Located
import TransportStream.Proofs.Reader.Passing
import TransportStream.Proofs.Report.Rendering
import TransportStream.Proofs.Report.Survey
import TransportStream.Sample

/-!
# What a report is a function of

The report on a stream can be written down from its bytes (`Report.ofBytes`). On a
steady source a reader comes to the same report, however it was opened, however many
packets a chunk holds and whatever the workers do.
-/
namespace TransportStream

namespace Report

/-- The report on some bytes, cut into packets of `size` bytes from the first one on. -/
def ofBytes (source : String) (size : Nat) (detected : Bool) (bytes : Bytes) : Report :=
  let items := Outcome.ofSlices Packet.decoder size 0 (bytes.slices size)
  { source
    packetSize := size
    detected
    packets := (Outcome.decoded items).length
    bytesRead := bytes.length
    decodeErrors := (Outcome.failures items).length
    errors := ((Outcome.failures items).take Survey.listedErrors).map .ofError
    pids := (PidTrack.ofHeaders ((Outcome.decoded items).map (·.header))).map (·.row) }

theorem pieces_ofBytes (source : String) {size : Nat} (hsize : 0 < size) (detected : Bool)
    (bytes : Bytes) :
    (ofBytes source size detected bytes).packets +
        (ofBytes source size detected bytes).decodeErrors =
      (bytes.length + size - 1) / size := by
  rw [← Bytes.length_slices hsize, ← Outcome.length_ofSlices Packet.decoder size 0]
  exact Outcome.length_decoded_add_failures _

theorem render_of_listed {report : Report}
    (h : report.errors.length = min Survey.listedErrors report.decodeErrors) :
    report.render =
      opening false report.source report.packetSize report.detected ++ report.counted ++
        if report.decodeErrors = 0 then ""
        else
          "\nErrors:\n" ++ String.join (report.errors.map listed) ++
            if 20 < report.decodeErrors then
              "  ... and " ++ Nat.repr (report.decodeErrors - 20) ++ " more\n"
            else "" := by
  unfold Survey.listedErrors at h
  have hempty : report.errors = [] ↔ report.decodeErrors = 0 := by
    rw [← List.length_eq_zero_iff]
    omega
  have hmore : report.errors.length < report.decodeErrors ↔ 20 < report.decodeErrors := by
    omega
  have hunlisted : report.decodeErrors - report.errors.length = report.decodeErrors - 20 := by
    omega
  rewrite [render_eq]
  unfold remainder
  rewrite [hunlisted, ← String.append_assoc]
  simp only [hempty, hmore]

/-- The errors in the report on some bytes, with their chains. -/
theorem getElem?_errors_ofBytes {source : String} {size : Nat} {detected : Bool} {bytes : Bytes}
    {k : Nat} {e : ReadError PacketDefect} (hlisted : k < Survey.listedErrors)
    (h : (Outcome.failures (Outcome.ofSlices Packet.decoder size 0 (bytes.slices size)))[k]? =
      some e) :
    ∃ chain, e.Chain chain ∧ (ofBytes source size detected bytes).errors[k]? =
      some ⟨e.packetIndex?, ": ".intercalate chain⟩ := by
  obtain ⟨index, slice, hslice⟩ := Outcome.exists_ofSlice_of_mem
    (Outcome.error_mem_of_mem_failures _ (List.mem_of_getElem? h))
  obtain ⟨chain, hchain⟩ := Outcome.exists_chain_of_ofSlice hslice
  refine ⟨chain, hchain, ?_⟩
  rw [← hchain.account_eq, ofBytes, List.getElem?_map, List.getElem?_take_of_lt hlisted, h]
  rfl

end Report

namespace Reader
variable {r : Reader Packet PacketDefect}

theorem inspect_of_failed {e : ReadError PacketDefect} (name : String)
    (h : Report.failure? r.drain = some e) : (r.inspect name).result = .error e := by
  simp only [Reader.inspect, h]

theorem inspect_of_drained (name : String) (h : Report.failure? r.drain = none) :
    (r.inspect name).result =
      .ok (Report.ofSurvey name (r.afterSteps r.drain) (Survey.ofItems (items r.drain))) := by
  simp only [Reader.inspect, h]

theorem Settled.report {settings : Settings} {s : Source}
    (h : Settled settings Packet.decoder s r) (name : String) {schedule : List (List Nat)}
    (hlong : r.future.length ≤ schedule.length) :
    Report.ofSurvey name (r.afterSteps (r.scheduled schedule))
        (Survey.ofItems (items (r.scheduled schedule))) =
      .ofBytes name r.packetSize (settings.packetSize == 0)
        (s.data.drop (s.origin settings r.packetSize)) := by
  obtain ⟨hitems, htally⟩ := scheduled_whole h.steady hlong
  have hframing := r.framing_afterSteps schedule
  rw [Survey.ofItems_eq, hitems, h.future]
  unfold Report.ofSurvey Report.ofBytes
  rw [htally, h.bytesRead, packetSize, hframing, h.detected, List.length_drop]
  rfl

theorem Settled.inspect {settings : Settings} {s : Source}
    (h : Settled settings Packet.decoder s r) (name : String) :
    (r.inspect name).result =
      .ok (.ofBytes name r.packetSize (settings.packetSize == 0)
        (s.data.drop (s.origin settings r.packetSize))) := by
  have hcalm : ∀ outcome ∈ r.future, Outcome.isFatal outcome = false := by
    rw [h.future]
    exact fun outcome hmem => Outcome.isFatal_of_mem_ofSlices hmem
  obtain ⟨count, hcount, hdrain⟩ := drain_of_steady h.steady hcalm
  have hlong : r.future.length ≤ (List.replicate (count + 1) ([] : List Nat)).length := by
    rw [List.length_replicate]
    exact Nat.le_succ_of_le hcount
  have hfailure : Report.failure? r.drain = none := by
    apply failure?_of_items
    rw [hdrain, (scheduled_whole h.steady hlong).1]
    exact hcalm
  rw [inspect_of_drained name hfailure, hdrain, h.report name hlong]

/-- An inspection fails exactly when one of its requests does. -/
theorem Calm.inspect_failed (h : r.Calm) (name : String) {e : ReadError PacketDefect} :
    (r.inspect name).result = .error e ↔
      ∃ fault, FailedWith (r.inspect name).requests fault ∧
        e = .io (.filling r.chunkLength) fault := by
  have hrequests : (r.inspect name).requests = r.drain.flatMap (·.requests) := rfl
  rw [hrequests, ← h.failure?_drain]
  cases hfailure : Report.failure? r.drain with
  | none =>
    rw [inspect_of_drained name hfailure]
    exact ⟨nofun, nofun⟩
  | some e' =>
    rw [inspect_of_failed name hfailure, Except.error.injEq, Option.some.injEq]

/-- A report is made of a run that has not failed. -/
theorem survey_of_inspect {name : String} {report : Report}
    (h : (r.inspect name).result = .ok report) :
    Report.failure? r.drain = none ∧
      report = Report.ofSurvey name (r.afterSteps r.drain) (Survey.ofItems (items r.drain)) := by
  cases hfailure : Report.failure? r.drain with
  | none =>
    rw [inspect_of_drained name hfailure] at h
    exact ⟨rfl, (Except.ok.inj h).symm⟩
  | some e =>
    rw [inspect_of_failed name hfailure] at h
    cases h

theorem listed_of_inspect {name : String} {report : Report}
    (h : (r.inspect name).result = .ok report) :
    report.errors.length = min Survey.listedErrors report.decodeErrors := by
  obtain ⟨-, rfl⟩ := survey_of_inspect h
  exact Survey.length_errors_ofItems _

/-- Two readers on the same data, asked for the same packet size and, where it
is to be measured, on sources that can both go back or both cannot, agree on
the size of a packet and the place of the first one. -/
theorem Settled.agree {settings settings' : Settings} {s s' : Source}
    {r' : Reader Packet PacketDefect} (h : Settled settings Packet.decoder s r)
    (h' : Settled settings' Packet.decoder s' r')
    (hsize : settings'.packetSize = settings.packetSize) (hdata : s'.data = s.data)
    (hrewinding : settings.packetSize = 0 → s'.rewinding = s.rewinding) :
    r'.packetSize = r.packetSize ∧
      s'.origin settings' r'.packetSize = s.origin settings r.packetSize := by
  have hsame : r'.packetSize = r.packetSize := by
    by_cases hzero : settings.packetSize = 0
    · have hsecond := h'.measured (hsize.trans hzero)
      rw [hdata] at hsecond
      exact hsecond.unique (h.measured hzero)
    · rw [h.given hzero, h'.given (by rw [hsize]; exact hzero), hsize]
  refine ⟨hsame, ?_⟩
  unfold Source.origin
  rw [hsize, hsame]
  by_cases hzero : settings.packetSize = 0
  · rw [hrewinding hzero]
  · rw [if_neg fun h => hzero h.1, if_neg fun h => hzero h.1]

/-- An opened reader is inspected. On a steady source, from its first byte, it
comes to the report on the bytes from the first packet on: every run that is
long enough does, and so does every other reader on the same data. On any
source the errors are listed up to the limit, the number of the others is
written exactly where there are others, and the failure of a request, if there
is one, is the result. -/
theorem inspect_eq_ofBytes (workers : Workers) (settings : Settings) (name : String)
    {s : Source} {r : Reader Packet PacketDefect}
    (hopened : (ofSource workers settings Packet.decoder s).result = .ok r) :
    (∀ data offset items report, s.Steady → s.position = 0 → s.data = data →
      offset = (if settings.packetSize = 0 ∧ s.rewinding = .unsupported then 2 * r.packetSize
        else 0) →
      items = Outcome.ofSlices Packet.decoder r.packetSize 0
        (Bytes.slices r.packetSize (data.drop offset)) →
      report = Report.ofBytes name r.packetSize (settings.packetSize == 0) (data.drop offset) →
      (settings.packetSize ≠ 0 → r.packetSize = settings.packetSize) ∧
      (settings.packetSize = 0 → Detection.SecondSync data r.packetSize) ∧
      offset ≤ data.length ∧
      (r.inspect name).result = .ok report ∧
      report.packets = (Outcome.decoded items).length ∧
      report.decodeErrors = (Outcome.failures items).length ∧
      report.packets + report.decodeErrors =
        (data.length - offset + r.packetSize - 1) / r.packetSize ∧
      report.bytesRead = data.length - offset ∧
      (report.detected = true ↔ settings.packetSize = 0) ∧
      report.errors =
        ((Outcome.failures items).take (min 20 report.decodeErrors)).map
          (fun e => ⟨e.packetIndex?, e.account⟩) ∧
      (∀ (i : Nat) e, items[i]? = some (.error e) → e.packetIndex? = some i) ∧
      (∀ (k : Nat) e, k < 20 → (Outcome.failures items)[k]? = some e →
        ∃ chain, e.Chain chain ∧
          report.errors[k]? = some ⟨e.packetIndex?, ": ".intercalate chain⟩) ∧
      (∀ schedule : List (List Nat), report.packets + report.decodeErrors ≤ schedule.length →
        Report.ofSurvey name (r.afterSteps (r.scheduled schedule))
          (Survey.ofItems (Reader.items (r.scheduled schedule))) = report) ∧
      ∀ workers' settings' s' r', settings'.packetSize = settings.packetSize →
        s'.Steady → s'.position = 0 → s'.data = data →
        (settings.packetSize = 0 → s'.rewinding = s.rewinding) →
        (ofSource workers' settings' Packet.decoder s').result = .ok r' →
        (r'.inspect name).result = .ok report) ∧
    (∀ report, (r.inspect name).result = .ok report →
      report.errors.length = min 20 report.decodeErrors ∧
      report.errors.length ≤ report.decodeErrors ∧
      report.render =
        Report.opening false report.source report.packetSize report.detected ++ report.counted ++
          if report.decodeErrors = 0 then ""
          else
            "\nErrors:\n" ++ String.join (report.errors.map Report.listed) ++
              if 20 < report.decodeErrors then
                "  ... and " ++ Nat.repr (report.decodeErrors - 20) ++ " more\n"
              else "") ∧
    ∀ e, (r.inspect name).result = .error e ↔
      ∃ fault, FailedWith (r.inspect name).requests fault ∧
        e = .io (.filling r.chunkLength) fault := by
  refine ⟨?_, ?_, ?_⟩
  · rintro data offset items report hs hstart rfl hoffset rfl rfl
    obtain rfl : offset = s.origin settings r.packetSize := hoffset
    have hsettled := settled_of_steady hs hstart hopened
    have hpieces := Report.pieces_ofBytes name r.packetSize_pos (settings.packetSize == 0)
      (s.data.drop (s.origin settings r.packetSize))
    refine ⟨hsettled.given, hsettled.measured, hsettled.within, hsettled.inspect name, rfl, rfl,
      ?_, List.length_drop, beq_iff_eq, ?_, ?_, ?_, ?_, ?_⟩
    · rw [hpieces, List.length_drop]
    · exact congrArg (List.map ListedError.ofError) List.take_eq_take_min
    · intro i e he
      obtain ⟨slice, -, hslice⟩ := Option.map_eq_some_iff.mp
        ((Outcome.getElem?_ofSlices ..).symm.trans he)
      rw [Nat.zero_add] at hslice
      exact Outcome.packetIndex_of_ofSlice hslice
    · exact fun k e hlisted he => Report.getElem?_errors_ofBytes hlisted he
    · intro schedule hlong
      apply hsettled.report name
      rw [hsettled.future, Outcome.length_ofSlices, Bytes.length_slices r.packetSize_pos]
      exact hpieces ▸ hlong
    · intro workers' settings' s' r' hsize hs' hstart' hdata hrewinding hopened'
      have hsettled' := settled_of_steady hs' hstart' hopened'
      obtain ⟨hsame, horigin⟩ := hsettled.agree hsettled' hsize hdata hrewinding
      rw [hsettled'.inspect name, horigin, hsame, hsize, hdata]
  · intro report hreport
    have hlisted := listed_of_inspect hreport
    exact ⟨hlisted, hlisted ▸ Nat.min_le_right .., Report.render_of_listed hlisted⟩
  · intro e
    obtain ⟨-, framing, -, -, rfl⟩ := start_of_ofSource hopened
    exact (calm_start Packet.decoder).inspect_failed name

/-- Three packets, bytes that are none, and the head of a packet, passing by in pieces. -/
def passingBy : Source where
  data := Sample.stream 188 3 ++ List.replicate 188 0xB8 ++ [0x47, 1, 0, 0x13, 0]
  answers := [.serve 100, .fail ⟨.interrupted, "again"⟩, .serve 300]
  rewinding := .unsupported

theorem survey_passingBy : Detection.survey passingBy.rest = .ok ⟨188, 193⟩ := by
  have hsecond : Detection.SecondSync passingBy.data 188 := by
    refine ⟨by decide, by decide +kernel, fun i hi hlt => ?_⟩
    omega
  rw [Source.rest_of_start rfl, ← Detection.reach_of_early hsecond (by decide)]
  exact Detection.survey_of_second (by decide +kernel) (by decide +kernel) hsecond (by decide)

theorem slices_passingBy :
    Bytes.slices 188 (passingBy.data.drop 376) =
      [Sample.packet 188 2, List.replicate 188 0xB8, [0x47, 1, 0, 0x13, 0]] := by
  have hrest : (((passingBy.data.drop 376).drop 188).drop 188).drop 188 = [] := by decide +kernel
  rw [Bytes.slices_of_ne_nil (by decide) (by decide +kernel),
    Bytes.slices_of_ne_nil (by decide) (by decide +kernel),
    Bytes.slices_of_ne_nil (by decide) (by decide +kernel), hrest, Bytes.slices_nil]
  decide +kernel

theorem inspect_eq_ofBytes_passingBy :
    passingBy.Steady ∧
      ∃ r, (ofSource .own {} Packet.decoder passingBy).result = .ok r ∧
        (r.inspect "-").result = .ok
          { source := "-", packetSize := 188, detected := true, packets := 1, bytesRead := 381,
            decodeErrors := 2,
            errors := [
              ⟨some 1,
                "building packet 1 failed: packet does not start with sync byte: found 0xB8"⟩,
              ⟨some 2, "packet 2 truncated: 5 of 188 bytes before end of stream"⟩],
            pids := [⟨0x100, 1, 0, 0⟩] } := by
  have hs : passingBy.Steady := ⟨by decide, by decide⟩
  have hcheck : Workers.own.check {} = .ok () := rfl
  obtain ⟨framing, left, hsize, -, -, -, hopened⟩ :=
    ofSource_of_passing Packet.decoder hcheck rfl hs survey_passingBy rfl (by decide +kernel)
      (by decide)
  obtain ⟨hreport, -, -⟩ := inspect_eq_ofBytes .own {} "-" hopened
  obtain ⟨-, -, -, hresult, -⟩ := hreport _ _ _ _ hs rfl rfl rfl rfl rfl
  refine ⟨hs, _, hopened, hresult.trans ?_⟩
  have hpacketSize : (start {} Packet.decoder framing left).packetSize = 188 := hsize
  rw [hpacketSize, if_pos ⟨rfl, rfl⟩, Report.ofBytes, slices_passingBy]
  decide +kernel

end Reader

end TransportStream
