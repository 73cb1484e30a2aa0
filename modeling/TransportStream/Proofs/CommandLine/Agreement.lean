import TransportStream.Proofs.CommandLine.Inspecting
import TransportStream.Proofs.Reader.Measured
import TransportStream.Proofs.Sample.Contents

/-!
# Two commands and two kinds of input

An inspection fails on bytes only where its measurement does, so a probe fails there
too (`probe_agrees_inspect`). A file and the standard input differ in the two packets
that the latter loses to a measurement (`detect_passing_iff`).
-/
namespace TransportStream

/-- The measurement of bytes that pass by: that of the same bytes in a file,
where there are two packets. -/
theorem detect_passing_iff {data : Bytes} {size : Nat} :
    (∃ d, (detect (.passing data)).result = .ok d ∧ d.packetSize = size) ↔
      (∃ d, (detect (.ofBytes data)).result = .ok d ∧ d.packetSize = size) ∧
        2 * size ≤ data.length := by
  have hfile : (Source.ofBytes data).Steady := Source.steady_ofBytes data
  have hpassing : (Source.passing data).Steady := Source.steady_passing data
  cases hsurvey : Detection.survey data with
  | error reason =>
    have hnot {s : Source} (hs : s.Steady) (hrest : s.rest = data) :
        ¬∃ d, (detect s).result = .ok d ∧ d.packetSize = size := by
      rintro ⟨d, hd, -⟩
      rw [detect_of_rejected hs (hrest ▸ hsurvey)] at hd
      cases hd
    exact iff_of_false (hnot hpassing rfl) fun h => hnot hfile rfl h.1
  | ok m =>
    have hrewound := (detect_of_rewindable hfile hsurvey rfl).1
    rcases Nat.lt_or_ge data.length (2 * m.packetSize) with hshort | hlong
    · have hfails := detect_of_passing_short hpassing hsurvey rfl hshort
      constructor
      · rintro ⟨d, hd, -⟩
        cases hfails.symm.trans hd
      · rintro ⟨⟨d, hd, rfl⟩, hlong⟩
        cases hrewound.symm.trans hd
        exact absurd hlong (Nat.not_le.mpr hshort)
    · have hskipped := (detect_of_passing hpassing hsurvey rfl hlong).1
      constructor
      · rintro ⟨d, hd, rfl⟩
        cases hskipped.symm.trans hd
        exact ⟨⟨_, hrewound, rfl⟩, hlong⟩
      · rintro ⟨⟨d, hd, rfl⟩, -⟩
        cases hrewound.symm.trans hd
        exact ⟨_, hskipped, rfl⟩

namespace Report

/-- The report on bytes without their first two packets counts two packets less. -/
theorem ofBytes_drop_two (name name' : String) {size : Nat} (hsize : 0 < size)
    (detected : Bool) {data : Bytes} (h : 2 * size ≤ data.length) :
    (ofBytes name' size detected (data.drop (2 * size))).packets +
          (ofBytes name' size detected (data.drop (2 * size))).decodeErrors + 2 =
        (ofBytes name size detected data).packets +
          (ofBytes name size detected data).decodeErrors ∧
      (ofBytes name' size detected (data.drop (2 * size))).bytesRead + 2 * size =
        (ofBytes name size detected data).bytesRead := by
  constructor
  · rw [pieces_ofBytes name' hsize, pieces_ofBytes name hsize, List.length_drop,
      ← Nat.add_mul_div_right _ 2 hsize]
    congr 1
    omega
  · exact (congrArg (· + 2 * size) List.length_drop).trans (Nat.sub_add_cancel h)

end Report

namespace CommandLine

theorem Folder.openPath_of_listed {folder : Folder} {name : String} {data : Bytes}
    (hsingle : names name = [name]) (hrelative : name.startsWith "/" = false)
    (hplain : name ∉ ["", ".", ".."]) (hshort : name.utf8ByteSize ≤ nameLimit)
    (hlisted : folder.files.lookup name = some data) :
    folder.openPath name = .ok (.ofBytes data) := by
  have hempty : ¬name.isEmpty = true := by
    intro h
    exact hplain (by simp [String.isEmpty_iff.mp h])
  have hpath : ¬pathLimit < name.utf8ByteSize := by
    unfold pathLimit
    unfold nameLimit at hshort
    omega
  have hlookUp : folder.lookUp .here name = .ok (.file data) := by
    unfold lookUp
    split
    any_goals simp at hplain
    · rename_i h
      cases h
    · rw [if_neg (Nat.not_lt.mpr hshort), hlisted]
  rw [openPath, walk, if_neg hempty, if_neg hpath, hsingle, hrelative]
  change (folder.lookUp .here name >>= pure).map _ = _
  rw [hlookUp]
  rfl

theorem runIn_of_parse {folder : Folder} {standardInput : Bytes} {arguments : List String}
    {command : Command} {s : Source} (hparse : parse arguments = .ok command)
    (hopen : command.input.openIn folder standardInput = .ok s) :
    runIn folder standardInput arguments = command.run (.ok s) := by
  unfold runIn
  rw [hparse, ← hopen]

/-- The command line probes its input, and its output is the detection. -/
inductive Probed (folder : Folder) (standardInput : Bytes) (arguments : List String)
    (d : Detection) : Prop
  | intro {input : Input} {s : Source} : parse arguments = .ok (.probe input) →
      input.openIn folder standardInput = .ok s → (detect s).result = .ok d →
      runIn folder standardInput arguments =
        ⟨0, Detection.opening input.name d.packetSize ++ d.remainder, []⟩ →
      Probed folder standardInput arguments d

/-- The command line inspects its input, and its output is the report. -/
inductive Inspected (folder : Folder) (standardInput : Bytes) (arguments : List String)
    (report : Report) : Prop
  | intro {input : Input} {settings : Settings} {json : Bool} {s : Source}
      {r : Reader Packet PacketDefect} :
      parse arguments = .ok (.inspect input settings json) →
      input.openIn folder standardInput = .ok s →
      (Reader.ofSource .own settings Packet.decoder s).result = .ok r →
      (r.inspect input.name).result = .ok report →
      (runIn folder standardInput arguments).Reports json report →
      Inspected folder standardInput arguments report

section
variable {folder : Folder} {standardInput : Bytes} {arguments : List String}
variable {input : Input} {settings : Settings} {json : Bool} {s : Source}

theorem exitCode_of_probed {d : Detection} (h : Probed folder standardInput arguments d) :
    (runIn folder standardInput arguments).exitCode = 0 := by
  obtain ⟨-, -, -, houtput⟩ := h
  rw [houtput]

theorem exitCode_of_inspected {report : Report}
    (h : Inspected folder standardInput arguments report) :
    (runIn folder standardInput arguments).exitCode = 0 := by
  obtain ⟨-, -, -, -, hreports⟩ := h
  exact hreports.exitCode

theorem startsWith_of_probed {d : Detection} {source : String} {size : Nat}
    (hparse : parse arguments = .ok (.probe input))
    (h : Probed folder standardInput arguments d) (hsource : input.name = source)
    (hsize : d.packetSize = size) :
    (runIn folder standardInput arguments).StartsWith (Detection.opening source size) := by
  obtain ⟨hparse', -, -, houtput⟩ := h
  cases hparse.symm.trans hparse'
  rw [houtput, hsource, hsize]
  exact ⟨_, rfl⟩

theorem report_of_inspected {report : Report} {source : String} {size : Nat} {detected : Bool}
    (hparse : parse arguments = .ok (.inspect input settings json))
    (h : Inspected folder standardInput arguments report) (hsource : report.source = source)
    (hsize : report.packetSize = size) (hdetected : report.detected = detected) :
    (runIn folder standardInput arguments).report =
      Report.opening json source size detected ++ report.remainder json := by
  obtain ⟨hparse', -, -, -, hreports⟩ := h
  cases hparse.symm.trans hparse'
  rw [hreports.report, hsource, hsize, hdetected]

section
variable (hparse : parse arguments = .ok (.probe input))
  (hopen : input.openIn folder standardInput = .ok s)
include hparse hopen

theorem probed_of_detected {d : Detection} (h : (detect s).result = .ok d) :
    Probed folder standardInput arguments d := by
  refine .intro hparse hopen h ?_
  rw [runIn_of_parse hparse hopen]
  simp only [Command.run, reportProbe, h, Output.success, Detection.render_eq]

theorem exitCode_of_undetected {e : DetectionError} (h : (detect s).result = .error e) :
    (runIn folder standardInput arguments).exitCode = 1 := by
  rw [runIn_of_parse hparse hopen]
  simp only [Command.run, reportProbe, h]
  rfl

theorem probed_iff {d : Detection} :
    Probed folder standardInput arguments d ↔ (detect s).result = .ok d := by
  constructor
  · rintro ⟨hparse', hopen', hdetect, -⟩
    cases hparse.symm.trans hparse'
    cases hopen.symm.trans hopen'
    exact hdetect
  · exact probed_of_detected hparse hopen

theorem exitCode_probe_eq_zero_iff :
    (runIn folder standardInput arguments).exitCode = 0 ↔
      ∃ d, Probed folder standardInput arguments d := by
  cases hdetect : (detect s).result with
  | ok d =>
    have hprobed := probed_of_detected hparse hopen hdetect
    exact iff_of_true (exitCode_of_probed hprobed) ⟨d, hprobed⟩
  | error e =>
    constructor
    · rw [exitCode_of_undetected hparse hopen hdetect]
      nofun
    · exact fun ⟨d, hprobed⟩ => exitCode_of_probed hprobed

end

section
variable (hparse : parse arguments = .ok (.inspect input settings json))
  (hopen : input.openIn folder standardInput = .ok s)
include hparse hopen

theorem inspected_of_opened {r : Reader Packet PacketDefect} (hs : s.Steady)
    (hstart : s.position = 0)
    (hopened : (Reader.ofSource .own settings Packet.decoder s).result = .ok r) :
    Inspected folder standardInput arguments
      (.ofBytes input.name r.packetSize (settings.packetSize == 0)
        (s.data.drop (s.origin settings r.packetSize))) := by
  have hreport := (Reader.settled_of_steady hs hstart hopened).inspect input.name
  refine .intro hparse hopen hopened hreport ?_
  rw [runIn_of_parse hparse hopen]
  exact (reportInspection_of_opened input.name json hopened).1 _ hreport

theorem inspected_of_given (hs : s.Steady) (hstart : s.position = 0)
    (hcheck : Workers.own.check settings = .ok ()) (hsize : 0 < settings.packetSize)
    (hroom : settings.packetSize * settings.chunkPackets ≤ ChunkBuffer.capacityLimit) :
    Inspected folder standardInput arguments
      (.ofBytes input.name settings.packetSize (settings.packetSize == 0) s.data) := by
  have hopened := Reader.ofSource_of_given (s := s) Packet.decoder hcheck hsize hroom
  have hreport := inspected_of_opened hparse hopen hs hstart hopened
  have horigin : s.origin settings settings.packetSize = 0 :=
    if_neg fun h => Nat.ne_of_gt hsize h.1
  change Inspected folder standardInput arguments (.ofBytes input.name settings.packetSize _
    (s.data.drop (s.origin settings settings.packetSize))) at hreport
  rwa [horigin, List.drop_zero] at hreport

theorem exitCode_of_refused {e : ReadError PacketDefect}
    (h : (Reader.ofSource .own settings Packet.decoder s).result = .error (.error e)) :
    (runIn folder standardInput arguments).exitCode = 1 := by
  obtain ⟨message, causes, hchain⟩ := Reader.exists_chain_of_ofSource h
  rw [runIn_of_parse hparse hopen]
  exact (reportInspection_of_refused input.name h hchain).exitCode

theorem eq_of_inspected {report : Report} (hs : s.Steady) (hstart : s.position = 0)
    (h : Inspected folder standardInput arguments report) :
    ∃ r, Reader.Settled settings Packet.decoder s r ∧
      report = .ofBytes input.name r.packetSize (settings.packetSize == 0)
        (s.data.drop (s.origin settings r.packetSize)) := by
  obtain ⟨hparse', hopen', hopened, hresult, -⟩ := h
  cases hparse.symm.trans hparse'
  cases hopen.symm.trans hopen'
  have hsettled := Reader.settled_of_steady hs hstart hopened
  exact ⟨_, hsettled, Except.ok.inj (hresult.symm.trans (hsettled.inspect input.name))⟩

end

/-- Probing and inspecting bytes come to the same size, or both fail. -/
theorem probe_agrees_inspect {probing inspecting : List String}
    (hprobe : parse probing = .ok (.probe input))
    (hinspect : parse inspecting = .ok (.inspect input settings json))
    (hopen : input.openIn folder standardInput = .ok s) (hs : s.Steady)
    (hstart : s.position = 0) (hzero : settings.packetSize = 0)
    (hcheck : Workers.own.check settings = .ok ())
    (hroom : ∀ d, (detect s).result = .ok d →
      d.packetSize * settings.chunkPackets ≤ ChunkBuffer.capacityLimit) :
    (runIn folder standardInput inspecting).exitCode =
        (runIn folder standardInput probing).exitCode ∧
      ((runIn folder standardInput probing).exitCode = 0 →
        ∃ d report, Probed folder standardInput probing d ∧
          Inspected folder standardInput inspecting report ∧
          report.packetSize = d.packetSize ∧
          (runIn folder standardInput probing).StartsWith
            (Detection.opening input.name d.packetSize) ∧
          (runIn folder standardInput inspecting).StartsWith
            (Report.opening json input.name d.packetSize true)) := by
  cases hdetect : (detect s).result with
  | ok d =>
    have hopened :=
      Reader.ofSource_of_detected Packet.decoder hcheck hzero hdetect (hroom d hdetect)
    have hprobed := probed_of_detected hprobe hopen hdetect
    have hinspected := inspected_of_opened hinspect hopen hs hstart hopened
    have hprinted := report_of_inspected hinspect hinspected rfl rfl (beq_iff_eq.mpr hzero)
    rw [exitCode_of_probed hprobed, exitCode_of_inspected hinspected]
    exact ⟨rfl, fun _ => ⟨d, _, hprobed, hinspected, rfl,
      startsWith_of_probed hprobe hprobed rfl rfl, _, hprinted⟩⟩
  | error e =>
    have hrefused := Reader.ofSource_of_undetected Packet.decoder hcheck hzero hdetect
    rw [exitCode_of_undetected hprobe hopen hdetect, exitCode_of_refused hinspect hopen hrefused]
    exact ⟨rfl, nofun⟩

end

section
variable {folder : Folder} {path : String} {data : Bytes} {settings : Settings} {json : Bool}
variable {onFile onPassing : List String}
variable (hfile : folder.openPath path = .ok (.ofBytes data))
include hfile

/-- Probing the standard input, in terms of probing a file with the same bytes. -/
theorem probed_passing_iff (hparse : parse onFile = .ok (.probe (.file path)))
    (hparse' : parse onPassing = .ok (.probe .standardInput)) {size : Nat} :
    (∃ d, Probed folder data onPassing d ∧ d.packetSize = size) ↔
      (∃ d, Probed folder data onFile d ∧ d.packetSize = size) ∧ 2 * size ≤ data.length := by
  have hopen : (Input.file path).openIn folder data = .ok (.ofBytes data) := hfile
  have hopen' : Input.standardInput.openIn folder data = .ok (.passing data) := rfl
  simp only [probed_iff hparse hopen, probed_iff hparse' hopen']
  exact detect_passing_iff

section
variable (hparse : parse onFile = .ok (.inspect (.file path) settings json))
  (hparse' : parse onPassing = .ok (.inspect .standardInput settings json))
include hparse hparse'

/-- With the size measured, the standard input has lost two packets. -/
theorem reports_of_measured (hzero : settings.packetSize = 0) {report report' : Report}
    (hreport : Inspected folder data onFile report)
    (hreport' : Inspected folder data onPassing report') :
    report'.packetSize = report.packetSize ∧
      (runIn folder data onFile).StartsWith (Report.opening json path report.packetSize true) ∧
      (runIn folder data onPassing).StartsWith
        (Report.opening json "<stdin>" report.packetSize true) ∧
      report'.packets + report'.decodeErrors + 2 = report.packets + report.decodeErrors ∧
      report'.bytesRead + 2 * report.packetSize = report.bytesRead := by
  obtain ⟨r, hr, rfl⟩ :=
    eq_of_inspected hparse hfile (Source.steady_ofBytes data) rfl hreport
  obtain ⟨r', hr', rfl⟩ :=
    eq_of_inspected hparse' rfl (Source.steady_passing data) rfl hreport'
  have hsame : r'.packetSize = r.packetSize := (hr'.measured hzero).unique (hr.measured hzero)
  have hprinted := report_of_inspected hparse hreport rfl rfl (beq_iff_eq.mpr hzero)
  have hprinted' := report_of_inspected hparse' hreport' rfl hsame (beq_iff_eq.mpr hzero)
  have horigin : (Source.ofBytes data).origin settings r.packetSize = 0 :=
    if_neg fun h => Rewinding.noConfusion h.2
  have horigin' : (Source.passing data).origin settings r'.packetSize = 2 * r'.packetSize :=
    if_pos ⟨hzero, rfl⟩
  have hlong := hr'.within
  rw [horigin', hsame] at hlong
  rw [horigin, horigin', hsame]
  exact ⟨rfl, ⟨_, hprinted⟩, ⟨_, hprinted'⟩,
    Report.ofBytes_drop_two path "<stdin>" r.packetSize_pos _ hlong⟩

theorem reports_of_given (hcheck : Workers.own.check settings = .ok ())
    (hsize : 0 < settings.packetSize)
    (hroom : settings.packetSize * settings.chunkPackets ≤ ChunkBuffer.capacityLimit) :
    ∃ report, Inspected folder data onFile report ∧ report.source = path ∧
      Inspected folder data onPassing { report with source := "<stdin>" } ∧
      ∃ later,
        (runIn folder data onFile).report =
          Report.opening json path settings.packetSize false ++ later ∧
        (runIn folder data onPassing).report =
          Report.opening json "<stdin>" settings.packetSize false ++ later := by
  have hopen : (Input.file path).openIn folder data = .ok (.ofBytes data) := hfile
  have hopen' : Input.standardInput.openIn folder data = .ok (.passing data) := rfl
  have hreport :=
    inspected_of_given hparse hopen (Source.steady_ofBytes data) rfl hcheck hsize hroom
  have hreport' :=
    inspected_of_given hparse' hopen' (Source.steady_passing data) rfl hcheck hsize hroom
  have hgiven : (settings.packetSize == 0) = false := beq_eq_false_iff_ne.mpr (Nat.ne_of_gt hsize)
  have hprinted := report_of_inspected hparse hreport rfl rfl hgiven
  have hprinted' := report_of_inspected hparse' hreport' rfl rfl hgiven
  refine ⟨_, hreport, rfl, hreport', _, hprinted, ?_⟩
  rw [hprinted']
  cases json <;> rfl

end

end

/-- The shortest command line for a command on an input. -/
def spelled (command : String) : Input → List String
  | .standardInput => [command, "-"]
  | .file path => [command, path]

/-- A folder with a file of two packets and nothing behind them. -/
def pairFolder : Folder := { files := [("a.ts", Sample.stream 188 2)] }

theorem openIn_pairFolder (standardInput : Bytes) :
    (Input.file "a.ts").openIn pairFolder standardInput = .ok (.ofBytes (Sample.stream 188 2)) :=
  Folder.openPath_of_listed (by decide +kernel) (by decide +kernel) (by decide +kernel)
    (by decide +kernel) rfl

end CommandLine

end TransportStream
