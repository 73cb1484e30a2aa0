import TransportStream.Proofs.Detection
import TransportStream.Proofs.Reader.Reachable
import TransportStream.Proofs.Source.Trail
import TransportStream.Sample

/-!
# What becomes of a failing request

A failure of the source is the last request of the call that met it, and the call
reports it as it is (`Accounts`). Nothing else is reported as one, except for a skip
whose input ends early.
-/
namespace TransportStream

/-- A source that could not be rewound was to be skipped forward, and its last
read brought nothing. -/
def SkipMetEnd (requests : List Request) : Prop :=
  .rewind (.ok false) ∈ requests ∧ MetEnd requests

/-- What is reported of some requests, as an operation and the fault it met,
agrees with how the requests went. -/
structure Accounts (requests : List Request) (reported : Option (Operation × Fault)) : Prop where
  /-- A failure is the last request, and it is reported as it is. -/
  surfaced : ∀ {before after : List Request} {request : Request} {fault : Fault},
    requests = before ++ request :: after → request.failure? = some fault →
      after = [] ∧ ∃ during, reported = some (during, fault)
  /-- What is reported is the failure of the last request, or a skip met the end. -/
  grounded : ∀ {during : Operation} {fault : Fault}, reported = some (during, fault) →
    (∃ before request, requests = before ++ [request] ∧ request.failure? = some fault) ∨
      ((∃ count, during = .detecting (.skipping count)) ∧ fault = .endedEarly ∧
        SkipMetEnd requests)
  /-- A skip that met the end is reported as such. -/
  skipped : SkipMetEnd requests →
    ∃ count, reported = some (.detecting (.skipping count), .endedEarly)
  /-- An interrupted read is neither a failure nor the end: the same read follows. -/
  again : ∀ {before after : List Request} {offset wanted : Nat} {interruption : Fault},
    requests = before ++ .read offset wanted (.error interruption) :: after →
      interruption.Interrupted → ∃ answer later, after = .read offset wanted answer :: later

namespace Accounts
variable {requests : List Request} {reported : Option (Operation × Fault)}

theorem of_trail (h : Trail requests (reported.map (·.2))) (hskip : ¬SkipMetEnd requests) :
    Accounts requests reported where
  surfaced := by
    rintro before after request fault rfl hfault
    obtain ⟨hafter, hreported⟩ := h.last_of_failure hfault
    obtain ⟨⟨during, fault'⟩, rfl, rfl⟩ := Option.map_eq_some_iff.mp hreported
    exact ⟨hafter, during, rfl⟩
  grounded := by
    rintro during fault rfl
    exact .inl h.failure_of_last
  skipped := fun hmet => absurd hmet hskip
  again := by
    rintro before after offset wanted interruption rfl hf
    exact h.again_of_interrupted hf

theorem of_skip {count : Nat} (h : Trail requests none) (hskip : SkipMetEnd requests) :
    Accounts requests (some (.detecting (.skipping count), .endedEarly)) where
  surfaced := by
    rintro before after request fault rfl hfault
    cases (h.last_of_failure hfault).2
  grounded := by
    rintro during fault hreported
    obtain ⟨rfl, rfl⟩ := Prod.mk.inj (Option.some.inj hreported)
    exact .inr ⟨⟨count, rfl⟩, rfl, hskip⟩
  skipped := fun _ => ⟨count, rfl⟩
  again := by
    rintro before after offset wanted interruption rfl hf
    exact h.again_of_interrupted hf

end Accounts

/-- The operation that failed and the fault it met, where the source is to blame. -/
def DetectionError.io? : DetectionError → Option (Operation × Fault)
  | .io during fault => some (during, fault)
  | .rejected _ => none

namespace Exchange
variable {α β : Type}

def reported (x : Exchange (Except DetectionError α)) : Option (Operation × Fault) :=
  match x.result with
  | .ok _ => none
  | .error e => e.io?

/-- The fault that is reported, whatever operation met it. -/
def failure? (x : Exchange (Except DetectionError α)) : Option Fault := x.reported.map (·.2)

theorem failure?_of_ok {x : Exchange (Except DetectionError α)} {a : α} (h : x.result = .ok a) :
    x.failure? = none := by
  simp only [failure?, reported, h, Option.map_none]

/-- A failure is passed on as it is, whatever was to follow. -/
theorem failure?_of_error {x : Exchange (Except DetectionError α)} {e : DetectionError}
    (h : x.result = .error e) :
    (⟨.error e, x.source, x.requests⟩ : Exchange (Except DetectionError β)).failure? =
      x.failure? := by
  simp only [failure?, reported, h]

theorem andThen_done {ε : Type} (x : Exchange (Except ε α)) (f : α → β) :
    (x.andThen fun a s => .done (.ok (f a)) s) = x.map (·.map f) := by
  obtain ⟨result, s, requests⟩ := x
  cases result with
  | error e => rfl
  | ok a => exact congrArg (Exchange.mk _ s) (List.append_nil requests)

/-- An operation that only reads, and reports the failure that its trail ends with. -/
structure Reading (x : Exchange (Except DetectionError α)) : Prop where
  trail : Trail x.requests x.failure?
  reads : ∀ answer, .rewind answer ∉ x.requests

theorem reading_done {result : Except DetectionError α} {s : Source}
    (h : (done result s).failure? = none) : (done result s).Reading where
  trail := h ▸ .done
  reads := fun _ => List.not_mem_nil

theorem Reading.andThen {x : Exchange (Except DetectionError α)}
    {next : α → Source → Exchange (Except DetectionError β)} (h : x.Reading)
    (hnext : ∀ a s, (next a s).Reading) : (x.andThen next).Reading := by
  cases hx : x.result with
  | error e =>
    rw [andThen_of_error hx]
    exact ⟨failure?_of_error hx ▸ h.trail, h.reads⟩
  | ok a =>
    have htrail := h.trail
    rw [failure?_of_ok hx] at htrail
    rw [andThen_of_ok hx]
    refine ⟨htrail.append (hnext a x.source).trail, fun answer hmem => ?_⟩
    rcases List.mem_append.mp hmem with hmem | hmem
    · exact h.reads answer hmem
    · exact (hnext a x.source).reads answer hmem

end Exchange

namespace Detection
open Exchange

theorem failure?_readUpTo (s : Source) (wanted : Nat) (during : Operation) :
    ((s.readUpTo wanted).mapError (DetectionError.io during)).failure? =
      (s.gather wanted).result.fault := by
  simp only [failure?, reported, mapError, Source.readUpTo, result_map]
  cases (s.gather wanted).result.fault <;> rfl

theorem reading_readUpTo (s : Source) (wanted : Nat) (during : Operation) :
    ((s.readUpTo wanted).mapError (DetectionError.io during)).Reading where
  trail := by
    rw [failure?_readUpTo]
    exact s.trail_gather wanted
  reads := s.rewind_not_mem_gather wanted

theorem reading_measure (s : Source) : (measure s).Reading := by
  refine (reading_readUpTo s _ _).andThen fun head s => ?_
  split
  · exact reading_done rfl
  split
  · exact reading_done rfl
  split
  · exact reading_done rfl
  refine (reading_readUpTo s _ _).andThen fun more s => ?_
  split <;> exact reading_done rfl

/-- How an operation of detection may go: its trail ends with the failure it
reports, or it reports a skip that met the end, which no request reports. -/
inductive Explained {α : Type} (x : Exchange (Except DetectionError α)) : Prop
  | plain : Trail x.requests x.failure? → ¬SkipMetEnd x.requests → Explained x
  | skip (count : Nat) : x.reported = some (.skipping count, .endedEarly) →
      Trail x.requests none → SkipMetEnd x.requests → Explained x

namespace Explained
variable {α β : Type} {x : Exchange (Except DetectionError α)}

theorem of_reading (h : x.Reading) : Explained x :=
  .plain h.trail fun hskip => h.reads _ hskip.1

theorem congr {y : Exchange (Except DetectionError β)} (h : Explained x)
    (hrequests : y.requests = x.requests) (hreported : y.reported = x.reported) :
    Explained y := by
  cases h with
  | plain htrail hskip =>
    rw [← hrequests] at htrail hskip
    rw [failure?, ← hreported] at htrail
    exact .plain htrail hskip
  | skip count hx htrail hskip =>
    rw [← hrequests] at htrail hskip
    exact .skip count (hreported.trans hx) htrail hskip

theorem map (h : Explained x) (f : α → β) : Explained (x.map (·.map f)) := by
  refine h.congr rfl ?_
  unfold reported
  rw [result_map]
  cases x.result <;> rfl

theorem after {before : List Request} (htrail : Trail before none)
    (hreads : ∀ answer, .rewind answer ∉ before) (h : Explained x) :
    Explained (x.after before) := by
  have hiff : SkipMetEnd (before ++ x.requests) ↔ SkipMetEnd x.requests := by
    unfold SkipMetEnd
    rw [List.mem_append, or_iff_right (hreads _)]
    exact and_congr_right fun hmem => metEnd_append (List.ne_nil_of_mem hmem)
  cases h with
  | plain hx hskip => exact .plain (htrail.append hx) (mt hiff.mp hskip)
  | skip count hresult hx hskip =>
    exact .skip count hresult (htrail.append hx) (hiff.mpr hskip)

end Explained

theorem explained_skip (s : Source) (count : Nat) :
    Explained (((s.readExactly count).mapError (.io (.skipping count))).after
      [.rewind (.ok false)]) := by
  have htrail : Trail (.rewind (.ok false) :: (s.gather count).requests)
      (s.gather count).result.fault := .rewind (s.trail_gather count)
  have hmet : MetEnd (.rewind (.ok false) :: (s.gather count).requests) ↔
      MetEnd (s.gather count).requests := metEnd_cons (by simp)
  cases hf : (s.gather count).result.fault with
  | some fault =>
    have hresult : (s.readExactly count).result = .error fault := by
      simp only [Source.readExactly, result_map, hf]
    rw [hf] at htrail
    refine .plain ?_ fun hskip => htrail.not_metEnd hskip.2
    simp only [failure?, reported, mapError, result_after, result_map, hresult]
    exact htrail
  | none =>
    rw [hf] at htrail
    rw [Source.metEnd_gather hf] at hmet
    by_cases hshort : (s.gather count).result.bytes.length < count
    · have hresult : (s.readExactly count).result = .error .endedEarly := by
        simp only [Source.readExactly, result_map, hf, hshort, if_true]
      refine .skip count ?_ htrail ⟨List.mem_cons_self .., hmet.mpr hshort⟩
      simp only [reported, mapError, result_after, result_map, hresult]
      rfl
    · have hresult : (s.readExactly count).result = .ok (s.gather count).result.bytes := by
        simp only [Source.readExactly, result_map, hf, hshort, if_false]
      refine .plain ?_ fun hskip => hshort (hmet.mp hskip.2)
      simp only [failure?, reported, mapError, result_after, result_map, hresult]
      exact htrail

theorem explained_realign (m : Measure) (s : Source) : Explained (realign m s) := by
  cases hr : s.rewinding with
  | unsupported =>
    rw [realign_of_unsupported m hr, andThen_done]
    exact (explained_skip s m.skip).map _
  | supported =>
    unfold realign Source.rewind
    rw [hr]
    refine .plain (.rewind .done) fun hskip => ?_
    cases List.mem_singleton.mp hskip.1
  | failing fault =>
    unfold realign Source.rewind
    rw [hr]
    refine .plain (.failed rfl) fun hskip => ?_
    cases List.mem_singleton.mp hskip.1

theorem explained_detect (s : Source) : Explained (detect s) := by
  have hmeasure := reading_measure s
  unfold detect
  cases hm : (measure s).result with
  | error e =>
    rw [andThen_of_error hm]
    exact .plain (failure?_of_error hm ▸ hmeasure.trail) fun hskip => hmeasure.reads _ hskip.1
  | ok m =>
    have htrail := hmeasure.trail
    rw [failure?_of_ok hm] at htrail
    rw [andThen_of_ok hm]
    exact .after htrail hmeasure.reads (.map (explained_realign m _) _)

end Detection

/-- The operation that failed and the fault it met, where the source is to blame. -/
def ReadError.io? {E : Type} : ReadError E → Option (Operation × Fault)
  | .io during fault => some (during, fault)
  | .invalidSettings _ | .rejected _ => none
  | .undecodable _ _ | .truncated _ _ _ | .workerLost _ => none

def Opening.reported {P E : Type} (o : Opening P E) : Option (Operation × Fault) :=
  match o.result with
  | .error (.error e) => e.io?
  | .error (.unallocatable _) | .ok _ => none

def Outcome.io? {P E : Type} : Outcome P E → Option (Operation × Fault)
  | .ok _ => none
  | .error e => e.io?

def Step.reported {P E : Type} (step : Step P E) : Option (Operation × Fault) :=
  step.item.bind Outcome.io?

theorem Outcome.io?_of_not_fatal {P E : Type} {outcome : Outcome P E}
    (h : Outcome.isFatal outcome = false) : outcome.io? = none := by
  cases outcome with
  | ok packet => rfl
  | error e =>
    cases e with
    | undecodable | truncated | workerLost => rfl
    | invalidSettings | rejected | io => cases h

theorem ReadError.io?_ofDetection {E : Type} (e : DetectionError) :
    (ofDetection e : ReadError E).io? = e.io?.map fun met => (.detecting met.1, met.2) := by
  cases e <;> rfl

/-- An explained operation accounts for its requests once it is part of opening. -/
theorem Detection.Explained.accounts {α : Type} {x : Exchange (Except DetectionError α)}
    (h : Explained x) :
    Accounts x.requests (x.reported.map fun met => (.detecting met.1, met.2)) := by
  cases h with
  | plain htrail hskip =>
    refine .of_trail ?_ hskip
    rw [Option.map_map]
    exact htrail
  | skip count hx htrail hskip =>
    rw [hx]
    exact .of_skip htrail hskip

namespace Reader
variable {P E : Type}

theorem explained_locate (packetSize : Nat) (s : Source) :
    Detection.Explained (Framing.locate packetSize s) := by
  rcases Nat.eq_zero_or_pos packetSize with rfl | hpos
  · have hdetect := Detection.explained_detect s
    cases hd : (detect s).result with
    | error e =>
      rw [Framing.locate_zero_of_error hd]
      exact hdetect.congr rfl (by rw [Exchange.reported, Exchange.reported, hd])
    | ok d =>
      rw [Framing.locate_zero_of_ok hd]
      exact hdetect.congr rfl (by rw [Exchange.reported, Exchange.reported, hd])
  · rw [Framing.locate_of_given hpos]
    exact .of_reading (Exchange.reading_done rfl)

theorem reported_of_framing {settings : Settings} {decoder : Decoder P E} {framing : Framing}
    {s : Source} {o : Opening P E} (h : o.result = ofFraming settings decoder framing s) :
    o.reported = none := by
  unfold Opening.reported
  rw [h]
  unfold ofFraming
  cases settings.chunkLength framing.packetSize with
  | error fault => rfl
  | ok length =>
    cases hb : ChunkBuffer.allocate? length with
    | none => simp only [hb]
    | some buffer => simp only [hb]

theorem accounts_ofSource (workers : Workers) (settings : Settings) (decoder : Decoder P E)
    (s : Source) : Accounts (ofSource workers settings decoder s).requests
      (ofSource workers settings decoder s).reported := by
  cases hcheck : workers.check settings with
  | error fault =>
    simp only [ofSource, hcheck]
    exact .of_trail .done fun hskip => List.not_mem_nil hskip.1
  | ok _ =>
    have hlocate := (explained_locate settings.packetSize s).accounts
    cases hl : (Framing.locate settings.packetSize s).result with
    | error e =>
      simp only [Exchange.reported, hl] at hlocate
      simp only [ofSource, hcheck, hl, Opening.reported, ReadError.io?_ofDetection]
      exact hlocate
    | ok framing =>
      simp only [Exchange.reported, hl] at hlocate
      rw [reported_of_framing (by simp only [ofSource, hcheck, hl]; rfl)]
      simp only [ofSource, hcheck, hl]
      exact hlocate

/-- No outcome in line is a fatal error. -/
def Calm (r : Reader P E) : Prop :=
  ∀ outcome ∈ r.backlog.slots.map (·.await r.decoder), Outcome.isFatal outcome = false

theorem Calm.finish {r : Reader P E} (h : r.Calm) (place : Nat) : (r.finish place).Calm := by
  intro outcome hmem
  exact h outcome ((r.awaited_finish place) ▸ hmem)

theorem Calm.dropFirst {r : Reader P E} (h : r.Calm) : r.dropFirst.Calm := by
  intro outcome hmem
  rw [Reader.dropFirst, List.map_tail] at hmem
  exact h outcome (List.mem_of_mem_tail hmem)

theorem Calm.refilled {r : Reader P E} (h : r.Calm) : r.refilled.Calm := by
  intro outcome hmem
  simp only [Reader.refilled, queue, received, Backlog.submit, List.map_append, List.map_map]
    at hmem
  rcases List.mem_append.mp hmem with hline | hcut
  · exact h outcome hline
  · have houtcomes : r.cut.map (·.outcome r.decoder) = _ := Task.outcomes_ofChunk ..
    exact Outcome.isFatal_of_mem_ofSlices (houtcomes ▸ hcut)

theorem Calm.next {r : Reader P E} (h : r.Calm) : r.next.reader.Calm := by
  have hcall := r.call_next
  generalize r.next = step at hcall
  cases hcall with
  | deliver hs => exact h.dropFirst
  | fault | finish => exact h
  | refill hs hf hb => exact h.refilled.dropFirst

theorem Calm.reachable {opened r : Reader P E} (h : opened.Calm) (hr : Reachable opened r) :
    r.Calm := by
  induction hr with
  | opened => exact h
  | called _ ih => exact ih.next
  | worked place _ ih => exact ih.finish place

theorem not_skipMetEnd_intake (r : Reader P E) : ¬SkipMetEnd r.intake.requests :=
  fun hskip => r.source.rewind_not_mem_gather r.chunkLength _ hskip.1

/-- A call for a packet accounts for its requests, and can only fail to fill a chunk. -/
theorem Calm.accounts {r : Reader P E} (h : r.Calm) :
    Accounts r.next.requests r.next.reported ∧
      ∀ during fault, r.next.reported = some (during, fault) →
        during = .filling r.chunkLength := by
  have htrail : Trail r.intake.requests r.intake.result.fault :=
    r.source.trail_gather r.chunkLength
  have hcall := r.call_next
  generalize r.next = step at hcall
  cases hcall with
  | @deliver slot later hs =>
    have hfatal : Outcome.isFatal (slot.await r.decoder) = false :=
      h _ (by rw [hs]; exact List.mem_cons_self ..)
    simp only [Step.reported, Option.bind_some, Outcome.io?_of_not_fatal hfatal]
    exact ⟨.of_trail .done fun hskip => List.not_mem_nil hskip.1, nofun⟩
  | fault hs hf =>
    rw [hf] at htrail
    refine ⟨.of_trail htrail r.not_skipMetEnd_intake, ?_⟩
    rintro during fault hreported
    exact (Prod.mk.inj (Option.some.inj hreported)).1.symm
  | finish hs hf hb =>
    rw [hf] at htrail
    exact ⟨.of_trail htrail r.not_skipMetEnd_intake, nofun⟩
  | refill hs hf hb =>
    have hfatal := Outcome.isFatal_ofSlice r.decoder r.packetSize r.backlog.nextIndex
      (r.intake.result.bytes.take r.packetSize)
    rw [hf] at htrail
    simp only [Step.reported, Option.bind_some, Outcome.io?_of_not_fatal hfatal]
    exact ⟨.of_trail htrail r.not_skipMetEnd_intake, nofun⟩

/-- In every state that calls and workers lead to, and for every answer of the
source, opening and each later call account for what they ask of it. -/
theorem failures_surface (workers : Workers) (settings : Settings) (decoder : Decoder P E)
    (s : Source) :
    Accounts (ofSource workers settings decoder s).requests
        (ofSource workers settings decoder s).reported ∧
      ∀ opened r : Reader P E, (ofSource workers settings decoder s).result = .ok opened →
        Reachable opened r → Accounts r.next.requests r.next.reported ∧
          ∀ during fault, r.next.reported = some (during, fault) →
            during = .filling r.chunkLength := by
  refine ⟨accounts_ofSource workers settings decoder s, fun opened r hopened hr => ?_⟩
  obtain ⟨-, framing, -, -, rfl⟩ := start_of_ofSource hopened
  have hcalm : (start settings decoder framing
      (Framing.locate settings.packetSize s).source).Calm :=
    fun outcome hmem => absurd hmem List.not_mem_nil
  exact (hcalm.reachable hr).accounts

/-- A first read is interrupted, and then one takes too long. -/
def stalling : Source where
  data := [0x47, 1]
  answers := [.fail ⟨.interrupted, "again"⟩, .fail ⟨.timedOut, "late"⟩]

theorem failures_surface_stalling :
    ∃ opened : Reader Nat PacketDefect,
      (ofSource .borrowed { packetSize := 2, chunkPackets := 1 } (Sample.tagDecoder none)
        stalling).result = .ok opened ∧
      opened.next.reported = some (.filling 2, ⟨.timedOut, "late"⟩) ∧
      Accounts opened.next.requests (some (.filling 2, ⟨.timedOut, "late"⟩)) := by
  let opened : Reader Nat PacketDefect := start { packetSize := 2, chunkPackets := 1 }
    (Sample.tagDecoder none) ⟨2, by decide, none⟩ stalling
  have hopened : (ofSource .borrowed { packetSize := 2, chunkPackets := 1 }
      (Sample.tagDecoder none) stalling).result = .ok opened :=
    ofSource_of_given (Sample.tagDecoder none) rfl (by decide) (by decide)
  have hreads : Source.Reads stalling 2 [] (some ⟨.timedOut, "late"⟩)
      { stalling with answers := [] } :=
    .retried (by decide) (show Fault.Interrupted ⟨.interrupted, "again"⟩ by decide) rfl
      (.failed (by decide) (by decide) rfl)
  have hreported : opened.next.reported = some (.filling 2, ⟨.timedOut, "late"⟩) := by
    rw [Step.reported, (@next_of_failing _ _ opened _ _ _ rfl hreads).1]
    rfl
  have haccounts := ((failures_surface .borrowed _ _ stalling).2 opened opened hopened .opened).1
  exact ⟨opened, hopened, hreported, hreported ▸ haccounts⟩

end Reader

end TransportStream
