import TransportStream.Proofs.Source.Steady
import TransportStream.Source.Basic

/-!
# Sources with a barrier

A barred source is steady up to a place inside its data and fails every read from
there on (`gather_of_barred`). A barrier beyond the data is never met
(`gather_unbarred`).
-/
namespace TransportStream.Source

structure Barred (s : Source) (barrier : Barrier) : Prop where
  answers : ∀ answer ∈ s.answers, answer.Steady
  holds : s.barrier = some barrier
  before : s.position ≤ barrier.offset
  within : barrier.offset ≤ s.data.length

/-- The same source without its barrier. -/
def unbarred (s : Source) : Source := { s with barrier := none }

namespace Barred
variable {s : Source} {barrier : Barrier}

theorem read_of_met (hs : s.Barred barrier) (h : s.position = barrier.offset) (wanted : Nat) :
    s.read wanted = (.error barrier.fault, s) := by
  have hclear : s.clear wanted = .error barrier.fault := by
    simp only [clear, hs.holds, h, Nat.le_refl, if_true]
  simp only [Source.read, hclear]

theorem clear_of_lt (hs : s.Barred barrier) (h : s.position < barrier.offset) (wanted : Nat) :
    s.clear wanted = .ok (min wanted (barrier.offset - s.position)) := by
  simp only [clear, hs.holds, if_neg (Nat.not_le.mpr h)]

theorem serve (hs : s.Barred barrier) {count : Nat} (h : count ≤ barrier.offset - s.position) :
    (s.serve count).2.Barred barrier := by
  refine ⟨hs.answers, hs.holds, ?_, hs.within⟩
  have hbefore := hs.before
  simp only [serve_eq, List.length_take]
  omega

theorem later (hs : s.Barred barrier) {answer : Answer} {answers : List Answer}
    (h : s.answers = answer :: answers) : ({ s with answers } : Source).Barred barrier :=
  ⟨fun a ha => hs.answers a (by simp [h, ha]), hs.holds, hs.before, hs.within⟩

theorem read_of_lt (hs : s.Barred barrier) (h : s.position < barrier.offset) {wanted : Nat}
    (hw : wanted ≠ 0) :
    (s.read wanted).2.Barred barrier ∧
      ((∃ fault, fault.Interrupted ∧ (s.read wanted).1 = .error fault) ∨
        ∃ bytes, bytes ≠ [] ∧ (s.read wanted).1 = .ok bytes) := by
  have hwithin := hs.within
  have hserved {t : Source} (hrest : t.rest = s.rest) {count : Nat} (hc : 0 < count) :
      ∃ bytes, bytes ≠ [] ∧ (t.serve count).1 = .ok bytes := by
    refine ⟨t.rest.take count, ?_, by rw [serve_eq]⟩
    rw [hrest, ← List.length_pos_iff, List.length_take, rest, List.length_drop]
    omega
  simp only [Source.read, hs.clear_of_lt h]
  cases ha : s.answers with
  | nil => exact ⟨hs.serve (Nat.min_le_right ..), .inr (hserved rfl (by omega))⟩
  | cons answer answers =>
    have hsteady := hs.answers answer (by simp [ha])
    cases answer with
    | serve count =>
      have hcount : 0 < count := hsteady
      refine ⟨(hs.later ha).serve ?_, .inr (hserved rfl (by omega))⟩
      exact Nat.le_trans (Nat.min_le_right ..) (Nat.min_le_right ..)
    | fail fault => exact ⟨hs.later ha, .inl ⟨fault, hsteady, rfl⟩⟩

theorem read (hs : s.Barred barrier) {wanted : Nat} (hw : wanted ≠ 0) :
    (s.read wanted).2.Barred barrier := by
  rcases Nat.lt_or_eq_of_le hs.before with hlt | hmet
  · exact (hs.read_of_lt hlt hw).1
  · rw [hs.read_of_met hmet]
    exact hs

theorem not_end (hs : s.Barred barrier) {wanted : Nat} (hw : wanted ≠ 0) :
    (s.read wanted).1 ≠ .ok [] := by
  intro h
  rcases Nat.lt_or_eq_of_le hs.before with hlt | hmet
  · obtain ⟨-, ⟨fault, -, herror⟩ | ⟨bytes, hb, hok⟩⟩ := hs.read_of_lt hlt hw
    · cases herror.symm.trans h
    · exact hb (Except.ok.inj (hok.symm.trans h))
  · rw [hs.read_of_met hmet] at h
    cases h

theorem met_of_error (hs : s.Barred barrier) {wanted : Nat} (hw : wanted ≠ 0) {fault : Fault}
    (hf : ¬fault.Interrupted) (h : (s.read wanted).1 = .error fault) :
    s.position = barrier.offset ∧ fault = barrier.fault := by
  rcases Nat.lt_or_eq_of_le hs.before with hlt | hmet
  · obtain ⟨-, ⟨fault', hinterrupted, herror⟩ | ⟨bytes, -, hok⟩⟩ := hs.read_of_lt hlt hw
    · exact absurd (Except.error.inj (herror.symm.trans h) ▸ hinterrupted) hf
    · cases hok.symm.trans h
  · rw [hs.read_of_met hmet] at h
    exact ⟨hmet, (Except.error.inj h).symm⟩

end Barred

/-- From a barred source a loop takes all it wants, or what there is before the
barrier, where it fails. -/
theorem gather_of_barred {s : Source} {barrier : Barrier} (hs : s.Barred barrier)
    (wanted : Nat) :
    (s.gather wanted).result =
      if s.position + wanted ≤ barrier.offset then ⟨s.rest.take wanted, none⟩
      else ⟨s.rest.take (barrier.offset - s.position), some barrier.fault⟩ := by
  fun_induction gather s wanted with
  | case1 s =>
    rw [if_pos (show s.position + 0 ≤ barrier.offset from hs.before)]
    rfl
  | case2 s wanted hw h => exact absurd h (hs.not_end hw)
  | case3 s wanted hw b bs h ih =>
    have hnext := hs.read hw
    have hbefore := hnext.before
    have hrest := read_rest h
    obtain ⟨hle, -, hposition⟩ := read_bytes h
    have hlength : (b :: bs).length = bs.length + 1 := List.length_cons
    rw [hposition] at hbefore
    simp only [Exchange.result_after, Exchange.result_map, ih hnext, hposition]
    by_cases hclear : s.position + wanted ≤ barrier.offset
    · rw [if_pos hclear, if_pos (by omega), hrest, List.take_append,
        List.take_of_length_le hle, hlength, Intake.prepend_mk]
    · rw [if_neg hclear, if_neg (by omega), hrest, List.take_append,
        List.take_of_length_le (show (b :: bs).length ≤ barrier.offset - s.position by omega),
        Nat.sub_add_eq, Intake.prepend_mk, hlength]
  | case4 s wanted hw fault h hf ih =>
    have hlater := ih (hs.read hw)
    rw [read_error_rest h, read_error_position h] at hlater
    exact hlater
  | case5 s wanted hw fault h hf =>
    obtain ⟨hmet, rfl⟩ := hs.met_of_error hw hf h
    rw [if_neg (by omega), hmet, Nat.sub_self]
    rfl

theorem Barred.gather {s : Source} {barrier : Barrier} (hs : s.Barred barrier) (wanted : Nat) :
    (s.gather wanted).source.Barred barrier :=
  gather_keeps (·.Barred barrier) (fun hw hs => hs.read hw) hs wanted

theorem barred_failingAfter {data : Bytes} {count : Nat} (h : count ≤ data.length)
    (rewinding : Rewinding) :
    ((scripted data rewinding).failingAfter count).Barred ⟨count, .scripted, by decide⟩ :=
  ⟨nofun, rfl, Nat.zero_le _, h⟩

theorem steady_failingAfter {data : Bytes} {count : Nat} (h : data.length < count)
    (rewinding : Rewinding) : ((scripted data rewinding).failingAfter count).Steady := by
  refine ⟨nofun, fun barrier hb => ?_⟩
  obtain rfl := Option.some.inj hb
  exact ⟨Nat.zero_lt_of_lt h, h⟩

theorem serve_congr {s : Source} {count more : Nat}
    (h : min count s.rest.length = min more s.rest.length) : s.serve count = s.serve more := by
  rw [serve_eq, serve_eq, List.take_eq_take_iff.mpr h]

/-- A barrier beyond the data leaves room for all that a read can be served. -/
theorem room_of_steady {s : Source} (hs : s.Steady) (wanted : Nat) :
    ∃ room, s.clear wanted = .ok room ∧ min room s.rest.length = min wanted s.rest.length := by
  cases hb : s.barrier with
  | none => exact ⟨wanted, by simp only [clear, hb], rfl⟩
  | some barrier =>
    obtain ⟨hbefore, hbeyond⟩ := hs.barrier barrier hb
    refine ⟨min wanted (barrier.offset - s.position), ?_, ?_⟩
    · simp only [clear, hb, if_neg (Nat.not_le.mpr hbefore)]
    · rw [rest, List.length_drop]
      omega

theorem read_unbarred {s : Source} (hs : s.Steady) (wanted : Nat) :
    s.unbarred.read wanted = ((s.read wanted).1, (s.read wanted).2.unbarred) := by
  obtain ⟨room, hclear, hroom⟩ := room_of_steady hs wanted
  have hopen : s.unbarred.clear wanted = .ok wanted := rfl
  simp only [read, hclear, hopen]
  obtain ⟨data, position, answers, rewinding, barrier⟩ := s
  cases answers with
  | nil =>
    dsimp only [unbarred]
    rw [serve_congr hroom]
    rfl
  | cons answer answers =>
    cases answer with
    | fail fault => rfl
    | serve count =>
      have hcut : min (min count room) (data.drop position).length =
          min (min count wanted) (data.drop position).length := by
        change min room (data.drop position).length =
          min wanted (data.drop position).length at hroom
        omega
      dsimp only [unbarred]
      rw [@serve_congr ⟨data, position, answers, rewinding, barrier⟩ _ _ hcut]
      rfl

/-- A steady source never meets its barrier, so it answers as it would without one. -/
theorem gather_unbarred {s : Source} (hs : s.Steady) (wanted : Nat) :
    s.unbarred.gather wanted =
      ⟨(s.gather wanted).result, (s.gather wanted).source.unbarred,
        (s.gather wanted).requests⟩ := by
  fun_induction gather s wanted with
  | case1 s => exact gather_zero _
  | case2 s wanted hw h =>
    have hread := read_unbarred hs wanted
    rw [gather_of_end hw (by rw [hread, h]), hread]
    rfl
  | case3 s wanted hw b bs h ih =>
    have hread := read_unbarred hs wanted
    rw [gather_of_bytes hw (List.cons_ne_nil b bs) (by rw [hread, h]), hread, List.length_cons,
      ih (hs.read hw)]
    rfl
  | case4 s wanted hw fault h hf ih =>
    have hread := read_unbarred hs wanted
    rw [gather_of_interrupted hw hf (by rw [hread, h]), hread, ih (hs.read hw)]
    rfl
  | case5 s wanted hw fault h hf =>
    have hread := read_unbarred hs wanted
    rw [gather_of_fault hw hf (by rw [hread, h]), hread]
    rfl

end TransportStream.Source
