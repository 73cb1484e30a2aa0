import TransportStream.CommandLine.Run
import TransportStream.Proofs.Reader.Refusal
import TransportStream.Proofs.Report.Inspection

/-!
# What an inspection writes

The report on the whole stream, or one line that says what could not be done and
why. A step that fails for good stands behind every such line (`Failure`).
-/
namespace TransportStream

namespace Reader
variable {workers : Workers} {settings : Settings} {s : Source}

/-- An opening that gives an error has refused the settings or failed to detect. -/
theorem cause_of_ofSource {P E : Type} {decoder : Decoder P E} {e : ReadError E}
    (h : (ofSource workers settings decoder s).result = .error (.error e)) :
    (∃ fault, e = .invalidSettings fault) ∨
      ∃ reason, (detect s).result = .error reason ∧ e = .ofDetection reason := by
  cases hcheck : workers.check settings with
  | error fault =>
    rw [ofSource_of_unusable decoder hcheck] at h
    cases h
    exact .inl ⟨fault, rfl⟩
  | ok _ =>
    cases hlocate : (Framing.locate settings.packetSize s).result with
    | error reason =>
      simp only [ofSource, hcheck, hlocate] at h
      cases h
      exact .inr ⟨reason, Framing.detect_of_locate_error hlocate, rfl⟩
    | ok framing =>
      rw [result_of_located decoder hcheck hlocate] at h
      unfold ofFraming Settings.chunkLength at h
      split at h
      · cases h
        exact .inl ⟨_, rfl⟩
      · split at h
        · cases h
        · cases h

/-- Opening stops only for good. -/
theorem isFatal_of_ofSource {P E : Type} {decoder : Decoder P E} {e : ReadError E}
    (h : (ofSource workers settings decoder s).result = .error (.error e)) :
    e.isFatal = true := by
  rcases cause_of_ofSource h with ⟨fault, rfl⟩ | ⟨reason, -, rfl⟩
  · rfl
  · exact ReadError.isFatal_ofDetection reason

theorem exists_chain_of_ofSource {decoder : Decoder Packet PacketDefect}
    {e : ReadError PacketDefect}
    (h : (ofSource workers settings decoder s).result = .error (.error e)) :
    ∃ message causes, e.Chain (message :: causes) := by
  rcases cause_of_ofSource h with ⟨fault, rfl⟩ | ⟨reason, hdetect, rfl⟩
  · cases fault with
    | emptyChunk => exact ⟨_, _, .emptyChunk⟩
    | noWorkers => exact ⟨_, _, .noWorkers⟩
    | chunkTooLong => exact ⟨_, _, .chunkTooLong⟩
  · obtain ⟨chain, hchain⟩ := exists_chain_of_detect hdetect
    exact hchain.ofDetection

end Reader

namespace CommandLine

/-- A line that says that the command has failed. -/
def ErrorLine (line : String) : Prop := "error: ".toList <+: line.toList

theorem not_errorLine_of_mem_warnings {notes : List Note} {line : String}
    (h : line ∈ warnings notes) : ¬ErrorLine line := by
  obtain ⟨note, -, rfl⟩ := List.mem_map.mp h
  rintro ⟨later, heq⟩
  rw [String.toList_append] at heq
  cases heq

namespace Output

/-- The command has succeeded and written just the report, as a table or as JSON. -/
structure Reports (o : Output) (json : Bool) (report : Report) : Prop where
  exitCode : o.exitCode = 0
  report : o.report =
    Report.opening json report.source report.packetSize report.detected ++ report.remainder json
  no_error_line : ∀ line ∈ o.messages, ¬ErrorLine line

/-- The command has failed. It has written what was left undone and the chain of
causes in the last line of its messages, which is the only error line, and no report. -/
structure Fails (o : Output) (undone : String) (chain : List String) : Prop where
  exitCode : o.exitCode = 1
  report : o.report = ""
  error_line : ∃ earlier, (∀ line ∈ earlier, ¬ErrorLine line) ∧
    o.messages = earlier ++ ["error: " ++ ": ".intercalate (undone :: chain)]

/-- What the output on the standard output begins with. -/
def StartsWith (o : Output) (text : String) : Prop := ∃ later, o.report = text ++ later

theorem reports_success (json : Bool) (report : Report) (notes : List Note) :
    (success (writeReport json report) (warnings notes)).Reports json report where
  exitCode := rfl
  report :=
    match json with
    | false => report.render_eq
    | true => report.render_toJson
  no_error_line := fun _ hmem => not_errorLine_of_mem_warnings hmem

theorem fails_failure {cause message : String} {causes : List String} (undone : String)
    (hcause : cause = ": ".intercalate (message :: causes)) (notes : List Note) :
    (failure undone cause (warnings notes)).Fails undone (message :: causes) where
  exitCode := rfl
  report := rfl
  error_line :=
    ⟨warnings notes, fun _ hmem => not_errorLine_of_mem_warnings hmem, by
      rw [failure, hcause, String.intercalate_cons_cons]
      simp only [String.append_assoc]⟩

end Output

section
variable {input : Input} {settings : Settings} {json : Bool} {s : Source}

/-- What an inspection has left undone, and the chain of causes: the input could
not be opened, no reader could be opened on it, or a read of the reader failed. -/
inductive Failure (input : Input) (settings : Settings) :
    Except Fault Source → String → List String → Prop
  | unopened (fault : Fault) :
      Failure input settings (.error fault) ("cannot open " ++ input.name) [fault.text]
  | refused {s : Source} {e : ReadError PacketDefect} {chain : List String} :
      (Reader.ofSource .own settings Packet.decoder s).result = .error (.error e) →
      e.isFatal = true → e.Chain chain →
      Failure input settings (.ok s) ("cannot open packet buffer on " ++ input.name) chain
  | interrupted {s : Source} {r : Reader Packet PacketDefect} {fault : Fault} :
      (Reader.ofSource .own settings Packet.decoder s).result = .ok r →
      FailedWith (r.inspect input.name).requests fault →
      (r.inspect input.name).result = .error (.io (.filling r.chunkLength) fault) →
      Failure input settings (.ok s) "reading stream failed"
        [s!"reading {r.chunkLength} bytes failed", fault.text]

/-- A report on everything that a reader on the source has to give: its run has
come to the end of the stream, and the report sums up that run. On a steady
source it is the report on the bytes from the first packet on. -/
structure Complete (input : Input) (settings : Settings) (s : Source)
    (r : Reader Packet PacketDefect) (report : Report) : Prop where
  opened : (Reader.ofSource .own settings Packet.decoder s).result = .ok r
  ended : ∃ step, r.drain.getLast? = some step ∧ step.item = none
  survey : report =
    .ofSurvey input.name (r.afterSteps r.drain) (Survey.ofItems (Reader.items r.drain))
  whole : s.Steady → s.position = 0 →
    report = .ofBytes input.name r.packetSize (settings.packetSize == 0)
      (s.data.drop (s.origin settings r.packetSize))

theorem ended_of_not_failed {r : Reader Packet PacketDefect}
    (h : Report.failure? r.drain = none) :
    ∃ step, r.drain.getLast? = some step ∧ step.item = none := by
  obtain ⟨count, hdrain, hlast⟩ := r.exists_drain
  have hstep : r.drain.getLast? = some (r.afterCalls count).next := by
    rw [List.getLast?_eq_getElem?, hdrain, Reader.length_steps, Nat.add_sub_cancel]
    exact Reader.getElem?_steps (Nat.lt_succ_self count) r
  refine ⟨_, hstep, ?_⟩
  unfold Report.failure? at h
  rw [hstep, Option.bind_some] at h
  unfold Step.isLast at hlast
  cases hitem : (r.afterCalls count).next.item with
  | none => rfl
  | some outcome =>
    rw [hitem] at h hlast
    cases outcome with
    | ok packet => cases hlast
    | error e =>
      simp only [hlast, if_true] at h
      cases h

theorem complete_of_inspect {r : Reader Packet PacketDefect} {report : Report}
    (hopened : (Reader.ofSource .own settings Packet.decoder s).result = .ok r)
    (h : (r.inspect input.name).result = .ok report) :
    Complete input settings s r report := by
  obtain ⟨hfailure, hsurvey⟩ := Reader.survey_of_inspect h
  refine ⟨hopened, ended_of_not_failed hfailure, hsurvey, ?_⟩
  intro hs hstart
  have hwhole := (Reader.settled_of_steady hs hstart hopened).inspect input.name
  exact Except.ok.inj (h.symm.trans hwhole)

theorem reportInspection_of_opened {r : Reader Packet PacketDefect} (name : String) (json : Bool)
    (hopened : (Reader.ofSource .own settings Packet.decoder s).result = .ok r) :
    (∀ report, (r.inspect name).result = .ok report →
      (reportInspection name settings json s).Reports json report) ∧
    ∀ e message causes, (r.inspect name).result = .error e → e.Chain (message :: causes) →
      (reportInspection name settings json s).Fails "reading stream failed"
        (message :: causes) := by
  constructor
  · intro report hreport
    simp only [reportInspection, hopened, hreport]
    exact Output.reports_success ..
  · intro e message causes he hchain
    simp only [reportInspection, hopened, he]
    exact Output.fails_failure _ hchain.account_eq _

theorem reportInspection_of_refused {e : ReadError PacketDefect} {message : String}
    {causes : List String} (name : String)
    (hrefused : (Reader.ofSource .own settings Packet.decoder s).result = .error (.error e))
    (hchain : e.Chain (message :: causes)) :
    (reportInspection name settings json s).Fails ("cannot open packet buffer on " ++ name)
      (message :: causes) := by
  simp only [reportInspection, hrefused]
  exact Output.fails_failure _ hchain.account_eq _

/-- An inspection of any source ends with its whole report or with a failure,
unless the buffer that it asks for cannot be had. -/
theorem run_inspect_of_allocatable {opened : Except Fault Source}
    (hroom : ∀ s, opened = .ok s → ¬settings.Unallocatable .own s) :
    (∃ s r report, opened = .ok s ∧ Complete input settings s r report ∧
      ((Command.inspect input settings json).run opened).Reports json report) ∨
    ∃ undone chain, Failure input settings opened undone chain ∧
      ((Command.inspect input settings json).run opened).Fails undone chain := by
  cases opened with
  | error fault =>
    have haccount : fault.text = ": ".intercalate [fault.text] :=
      String.intercalate_singleton.symm
    exact .inr ⟨_, _, .unopened fault, Output.fails_failure _ haccount []⟩
  | ok s =>
    rcases Reader.answered_of_allocatable Packet.decoder (hroom s rfl) with
      ⟨r, hopened⟩ | ⟨e, hrefused⟩
    · obtain ⟨hreports, hfails⟩ := reportInspection_of_opened input.name json hopened
      cases hresult : (r.inspect input.name).result with
      | ok report =>
        exact .inl ⟨s, r, report, rfl, complete_of_inspect hopened hresult,
          hreports report hresult⟩
      | error e =>
        have hcalm : r.Calm := by
          obtain ⟨-, framing, -, -, rfl⟩ := Reader.start_of_ofSource hopened
          exact Reader.calm_start Packet.decoder
        obtain ⟨fault, hfailed, rfl⟩ := (hcalm.inspect_failed input.name).mp hresult
        exact .inr ⟨_, _, .interrupted hopened hfailed hresult,
          hfails _ _ _ hresult (.filling _ fault)⟩
    · obtain ⟨message, causes, hchain⟩ := Reader.exists_chain_of_ofSource hrefused
      exact .inr ⟨_, _, .refused hrefused (Reader.isFatal_of_ofSource hrefused) hchain,
        reportInspection_of_refused input.name hrefused hchain⟩

/-- What a folder or the standard input gives is a directory, or bytes that are
served from the first one on without a failure. -/
theorem steady_of_openIn {folder : Folder} {standardInput : Bytes}
    (h : input.openIn folder standardInput = .ok s) :
    s = .directory ∨ s.Steady ∧ s.position = 0 := by
  cases input with
  | standardInput =>
    obtain rfl := Except.ok.inj h
    exact .inr ⟨Source.steady_passing standardInput, rfl⟩
  | file path =>
    change folder.openPath path = .ok s at h
    unfold Folder.openPath at h
    cases hwalk : folder.walk path with
    | error fault =>
      rw [hwalk] at h
      cases h
    | ok place =>
      rw [hwalk] at h
      cases place with
      | file data =>
        obtain rfl := Except.ok.inj h
        exact .inr ⟨Source.steady_ofBytes data, rfl⟩
      | here | inside | above => exact .inl (Except.ok.inj h).symm

theorem allocatable_of_answered {decoder : Decoder Packet PacketDefect}
    (h : (Reader.ofSource .own settings decoder s).Answered) :
    ∀ s', Except.ok s = (.ok s' : Except Fault Source) → ¬settings.Unallocatable .own s' := by
  intro s' hsource hroom
  obtain rfl := Except.ok.inj hsource
  exact Reader.not_answered_of_unallocatable decoder hroom h

/-- Five bytes, to be taken for packets of two. -/
def oddBytes : Bytes := [0x47, 0, 1, 0, 0x47]

theorem report_oddBytes (name : String) :
    (Report.ofBytes name 2 false oddBytes).packets = 0 ∧
      (Report.ofBytes name 2 false oddBytes).decodeErrors = 3 := by
  have hslices : Bytes.slices 2 oddBytes = [[0x47, 0], [1, 0], [0x47]] := by
    simp [oddBytes, Bytes.slices_of_ne_nil]
  unfold Report.ofBytes
  rw [hslices]
  exact ⟨rfl, rfl⟩

theorem openIn_here (folder : Folder) (standardInput : Bytes) :
    (Input.file ".").openIn folder standardInput = .ok .directory := by
  have hnames : Folder.names "." = ["."] := by decide +kernel
  have hrelative : ".".startsWith "/" = false := by decide +kernel
  have hwalk : folder.walk "." = .ok .here := by
    rw [Folder.walk, if_neg (by decide), if_neg (by decide), hnames, hrelative]
    rfl
  rw [Input.openIn, Folder.openPath, hwalk]
  rfl

theorem ofSource_directory : (Reader.ofSource .own {} Packet.decoder .directory).result =
    .error (.error (.io (.detecting (.probing 193)) .directory)) := by
  have hread : (Source.directory.read 193).1 = .error .directory := rfl
  have hprobe : (Source.directory.readUpTo 193).result = .error .directory := by
    rw [Source.readUpTo, Source.gather_of_fault (by decide) (by decide) hread]
    rfl
  have hmeasure : (Detection.measure .directory).result = .error (.io (.probing 193) .directory) :=
    Exchange.result_andThen_eq_error.mpr
      (.inl (Exchange.result_mapError_eq_error.mpr ⟨_, hprobe, rfl⟩))
  exact Reader.ofSource_of_undetected Packet.decoder rfl rfl
    (Exchange.result_andThen_eq_error.mpr (.inl hmeasure))

end

end CommandLine

end TransportStream
