import TransportStream.Proofs.Report.Survey
import Mathlib.Algebra.Ring.Nat

/-!
# The table of PIDs

A packet changes the entry of its own PID (`track?_observeIn_self`) and no other
(`track?_observeIn_other`), so an entry is made by the packets of its PID alone, and
its gaps are those between neighbours (`Counter.breaks_concat`).
-/
namespace TransportStream

theorem Pid.wide_inj {pid pid' : Pid} : pid.wide = pid'.wide ↔ pid = pid' := by
  rw [Fin.ext_iff, Fin.ext_iff]
  rfl

/-- The packets of one PID, in order. -/
def WidePid.own (pid : WidePid) (headers : List Header) : List Header :=
  headers.filter (·.pid.wide = pid)

/-- The counters of the packets that carry a payload. -/
def Header.payloadCounters (headers : List Header) : List Counter :=
  (headers.filter (·.control.hasPayload)).map (·.counter)

/-- How many neighbours there are of which the second neither repeats nor
follows the first. -/
def Counter.breaks (counters : List Counter) : Nat :=
  (counters.zip counters.tail).countP fun (c, c') => c' ≠ c ∧ c'.val ≠ (c.val + 1) % 16

theorem toNat_eq_ite (b : Bool) : b.toNat = if b = true then 1 else 0 := Bool.cond_eq_ite b 1 0

namespace Counter

theorem isGap_some (c c' : Counter) :
    PidTrack.isGap (some c) c' = decide (c' ≠ c ∧ c'.val ≠ (c.val + 1) % 16) := by
  have hsucc : c' = c + 1 ↔ c'.val = (c.val + 1) % 16 := Fin.ext_iff
  rw [Bool.eq_iff_iff, decide_eq_true_iff, ne_eq (c'.val), ← hsucc]
  simp only [PidTrack.isGap, Bool.and_eq_true, bne_iff_ne]

theorem breaks_cons_cons (c c' : Counter) (later : List Counter) :
    breaks (c :: c' :: later) = (PidTrack.isGap (some c) c').toNat + breaks (c' :: later) := by
  unfold breaks
  rw [List.tail_cons, List.zip_cons_cons, List.countP_cons, isGap_some, Nat.add_comm,
    toNat_eq_ite]
  rfl

theorem breaks_concat (counters : List Counter) (c : Counter) :
    breaks (counters ++ [c]) =
      breaks counters + (PidTrack.isGap counters.getLast? c).toNat := by
  induction counters with
  | nil => rfl
  | cons first later ih =>
    cases later with
    | nil => rw [List.singleton_append, breaks_cons_cons, Nat.add_comm]; rfl
    | cons second later =>
      rw [List.cons_append, List.cons_append, breaks_cons_cons, breaks_cons_cons,
        ← List.cons_append, ih, List.getLast?_cons_cons, Nat.add_assoc]

end Counter

/-- The row of a PID, given its own packets. -/
def PidRow.ofOwn (pid : WidePid) (own : List Header) : PidRow where
  pid
  packets := own.length
  unitStarts := own.countP (·.unitStart)
  gaps := if pid = Pid.null.wide then 0 else Counter.breaks (Header.payloadCounters own)

namespace PidTrack

/-- The track of a PID, given its own packets. -/
def ofOwn (pid : WidePid) (own : List Header) : PidTrack where
  row := .ofOwn pid own
  lastCounter := if pid = Pid.null.wide then none else (Header.payloadCounters own).getLast?

theorem ofOwn_nil (pid : WidePid) : ofOwn pid [] = start pid := by
  unfold ofOwn PidRow.ofOwn start
  congr 1
  · congr 1
    exact ite_self _
  · exact ite_self _

theorem ofOwn_concat {pid : WidePid} (own : List Header) {header : Header}
    (h : header.pid.wide = pid) :
    ofOwn pid (own ++ [header]) = (ofOwn pid own).observe header := by
  have hstarts : (own ++ [header]).countP (·.unitStart) =
      own.countP (·.unitStart) + header.unitStart.toNat := by
    rw [List.countP_append, List.countP_singleton, toNat_eq_ite]
  have hnull : header.isNull = decide (pid = Pid.null.wide) := by
    rw [← h, Header.isNull, Bool.eq_iff_iff, beq_iff_eq, decide_eq_true_iff, Pid.wide_inj]
  unfold ofOwn PidRow.ofOwn observe
  rw [hstarts, hnull, List.length_append, List.length_singleton]
  by_cases hpid : pid = Pid.null.wide
  · simp only [hpid, if_true, decide_true, Bool.true_or]
  cases hpayload : header.control.hasPayload with
  | false =>
    have hcounters : Header.payloadCounters (own ++ [header]) = Header.payloadCounters own := by
      simp [Header.payloadCounters, hpayload]
    simp [hpid, hcounters]
  | true =>
    have hcounters : Header.payloadCounters (own ++ [header]) =
        Header.payloadCounters own ++ [header.counter] := by
      simp [Header.payloadCounters, hpayload]
    simp [hpid, hcounters, Counter.breaks_concat]

/-- The track of a PID, where there is one. -/
def track? (tracks : List PidTrack) (pid : WidePid) : Option PidTrack :=
  tracks.find? (·.row.pid = pid)

def Ascending (tracks : List PidTrack) : Prop := tracks.Pairwise (·.row.pid < ·.row.pid)

theorem pid_of_mem_observeIn {tracks : List PidTrack} {header : Header} {track : PidTrack}
    (h : track ∈ observeIn tracks header) : track.row.pid = header.pid.wide ∨ track ∈ tracks := by
  fun_induction PidTrack.observeIn tracks header with
  | case1 header =>
    rw [List.mem_singleton.mp h, pid_observe]
    exact .inl rfl
  | case2 first later header hlt =>
    rcases List.mem_cons.mp h with rfl | hmem
    · exact .inl (pid_observe ..)
    · exact .inr hmem
  | case3 first later header hnlt heq =>
    rcases List.mem_cons.mp h with rfl | hmem
    · exact .inl ((pid_observe ..).trans heq.symm)
    · exact .inr (List.mem_cons_of_mem _ hmem)
  | case4 first later header hnlt hne ih =>
    rcases List.mem_cons.mp h with rfl | hmem
    · exact .inr (List.mem_cons_self ..)
    · exact (ih hmem).imp_right (List.mem_cons_of_mem _)

theorem Ascending.observeIn {tracks : List PidTrack} (h : Ascending tracks) (header : Header) :
    Ascending (observeIn tracks header) := by
  fun_induction PidTrack.observeIn tracks header with
  | case1 header => exact List.pairwise_singleton ..
  | case2 first later header hlt =>
    have hfirst := (List.pairwise_cons.mp h).1
    refine List.pairwise_cons.mpr ⟨fun track hmem => ?_, h⟩
    rw [pid_observe]
    rcases List.mem_cons.mp hmem with rfl | hmem
    · exact hlt
    · exact Fin.lt_trans hlt (hfirst track hmem)
  | case3 first later header hnlt heq =>
    obtain ⟨hfirst, hlater⟩ := List.pairwise_cons.mp h
    refine List.pairwise_cons.mpr ⟨fun track hmem => ?_, hlater⟩
    rw [pid_observe]
    exact hfirst track hmem
  | case4 first later header hnlt hne ih =>
    obtain ⟨hfirst, hlater⟩ := List.pairwise_cons.mp h
    refine List.pairwise_cons.mpr ⟨fun track hmem => ?_, ih hlater⟩
    rcases pid_of_mem_observeIn hmem with heq | hmem
    · rw [heq]
      exact Nat.lt_of_le_of_ne (Fin.not_lt.mp hnlt) fun h => hne (Fin.ext h.symm)
    · exact hfirst track hmem

section
variable {tracks : List PidTrack} {header : Header} {pid : WidePid}

theorem track?_cons_of_eq {track : PidTrack} (h : track.row.pid = pid) (later : List PidTrack) :
    track? (track :: later) pid = some track :=
  List.find?_cons_of_pos (decide_eq_true h)

theorem track?_cons_of_ne {track : PidTrack} (h : track.row.pid ≠ pid) (later : List PidTrack) :
    track? (track :: later) pid = track? later pid :=
  List.find?_cons_of_neg (by simpa using h)

theorem track?_of_mem (h : Ascending tracks) {track : PidTrack} (hmem : track ∈ tracks) :
    track? tracks track.row.pid = some track := by
  induction tracks with
  | nil => cases hmem
  | cons first later ih =>
    obtain ⟨hfirst, hlater⟩ := List.pairwise_cons.mp h
    rcases List.mem_cons.mp hmem with rfl | hmem
    · exact track?_cons_of_eq rfl later
    · rw [track?_cons_of_ne (Fin.ne_of_lt (hfirst track hmem)), ih hlater hmem]

/-- A packet changes the entry of its own PID, or makes one. -/
theorem track?_observeIn_self (h : Ascending tracks) :
    track? (observeIn tracks header) header.pid.wide =
      some (((track? tracks header.pid.wide).getD (start header.pid.wide)).observe header) := by
  fun_induction observeIn tracks header with
  | case1 header => exact track?_cons_of_eq (pid_observe ..) _
  | case2 first later header hlt =>
    have hfirst := (List.pairwise_cons.mp h).1
    have hnone : track? (first :: later) header.pid.wide = none := by
      refine List.find?_eq_none.mpr fun track hmem => ?_
      rw [decide_eq_true_iff]
      rcases List.mem_cons.mp hmem with rfl | hmem
      · exact Fin.ne_of_gt hlt
      · exact Fin.ne_of_gt (Fin.lt_trans hlt (hfirst track hmem))
    rw [hnone]
    exact track?_cons_of_eq (pid_observe ..) _
  | case3 first later header hnlt heq =>
    rw [track?_cons_of_eq heq.symm, track?_cons_of_eq ((pid_observe ..).trans heq.symm)]
    rfl
  | case4 first later header hnlt hne ih =>
    rw [track?_cons_of_ne (Ne.symm hne), track?_cons_of_ne (Ne.symm hne),
      ih (List.pairwise_cons.mp h).2]

/-- It changes no other entry. -/
theorem track?_observeIn_other (h : header.pid.wide ≠ pid) :
    track? (observeIn tracks header) pid = track? tracks pid := by
  fun_induction observeIn tracks header with
  | case1 header => exact track?_cons_of_ne (by rwa [pid_observe]) _
  | case2 first later header hlt => exact track?_cons_of_ne (by rwa [pid_observe]) _
  | case3 first later header hnlt heq =>
    rw [track?_cons_of_ne (by rwa [pid_observe, ← heq]), track?_cons_of_ne (by rwa [← heq])]
  | case4 first later header hnlt hne ih =>
    by_cases hfirst : first.row.pid = pid
    · rw [track?_cons_of_eq hfirst, track?_cons_of_eq hfirst]
    · rw [track?_cons_of_ne hfirst, track?_cons_of_ne hfirst, ih h]

end

theorem ascending_ofHeaders (headers : List Header) : Ascending (ofHeaders headers) := by
  induction headers using List.reverseRecOn with
  | nil => exact List.Pairwise.nil
  | append_singleton headers header ih =>
    rw [ofHeaders_concat]
    exact ih.observeIn header

/-- The entry of a PID is what its own packets make of it. -/
theorem track?_ofHeaders (headers : List Header) (pid : WidePid) :
    track? (ofHeaders headers) pid =
      if pid.own headers = [] then none else some (ofOwn pid (pid.own headers)) := by
  induction headers using List.reverseRecOn with
  | nil => rfl
  | append_singleton headers header ih =>
    rw [ofHeaders_concat]
    by_cases hpid : header.pid.wide = pid
    · subst hpid
      have hown : header.pid.wide.own (headers ++ [header]) =
          header.pid.wide.own headers ++ [header] := by simp [WidePid.own]
      rw [track?_observeIn_self (ascending_ofHeaders headers), ih, hown,
        if_neg (List.append_ne_nil_of_right_ne_nil _ (List.cons_ne_nil _ _)),
        ofOwn_concat _ rfl]
      split
      · rename_i hnone
        rw [hnone, ofOwn_nil]
        rfl
      · rfl
    · have hown : pid.own (headers ++ [header]) = pid.own headers := by simp [WidePid.own, hpid]
      rw [track?_observeIn_other hpid, ih, hown]

theorem ofHeaders_of_single {headers : List Header} {pid : WidePid} (hne : headers ≠ [])
    (h : ∀ header ∈ headers, header.pid.wide = pid) : ofHeaders headers = [ofOwn pid headers] := by
  induction headers using List.reverseRecOn with
  | nil => exact absurd rfl hne
  | append_singleton headers header ih =>
    have hpid : header.pid.wide = pid := h header (by simp)
    rw [ofHeaders_concat, ofOwn_concat headers hpid]
    by_cases hfirst : headers = []
    · rw [hfirst, ofOwn_nil, ← hpid]
      rfl
    · have htrack : (ofOwn pid headers).row.pid = header.pid.wide := hpid.symm
      rw [ih hfirst fun header hmem => h header (List.mem_append_left _ hmem), observeIn, htrack,
        if_neg (Fin.lt_irrefl _), if_pos rfl]

theorem packets_observeIn (tracks : List PidTrack) (header : Header) :
    ((observeIn tracks header).map (·.row.packets)).sum =
      (tracks.map (·.row.packets)).sum + 1 := by
  have hobserve (track : PidTrack) :
      (track.observe header).row.packets = track.row.packets + 1 := by
    unfold observe
    split <;> rfl
  fun_induction observeIn tracks header with
  | case1 header => exact congrArg (· + 0) (hobserve (start header.pid.wide))
  | case2 first later header hlt =>
    simp only [List.map_cons, List.sum_cons, hobserve]
    exact Nat.add_comm ..
  | case3 first later header hnlt heq =>
    simp only [List.map_cons, List.sum_cons, hobserve]
    exact Nat.add_right_comm ..
  | case4 first later header hnlt hne ih =>
    rw [List.map_cons, List.sum_cons, ih hobserve]
    rfl

theorem packets_ofHeaders (headers : List Header) :
    ((ofHeaders headers).map (·.row.packets)).sum = headers.length := by
  induction headers using List.reverseRecOn with
  | nil => rfl
  | append_singleton headers header ih =>
    rw [ofHeaders_concat, packets_observeIn, ih, List.length_append, List.length_singleton]

end PidTrack

end TransportStream
