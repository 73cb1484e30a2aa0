import TransportStream.Proofs.Source.Candid

/-!
# Steady sources

Every answer of a steady source serves bytes or asks to try again, up to the end of
its data. What a read loop takes does not depend on how the answers cut the bytes
(`gather_of_steady`).
-/
namespace TransportStream

/-- Serves bytes where any are left, or asks to try again. -/
def Answer.Steady : Answer → Prop
  | .serve count => 0 < count
  | .fail fault => fault.Interrupted

instance : DecidablePred Answer.Steady
  | .serve count => inferInstanceAs (Decidable (0 < count))
  | .fail fault => inferInstanceAs (Decidable fault.Interrupted)

namespace Source

structure Steady (s : Source) : Prop where
  answers : ∀ answer ∈ s.answers, answer.Steady
  barrier : ∀ barrier ∈ s.barrier, s.position < barrier.offset ∧ s.data.length < barrier.offset

@[simp] theorem rest_of_start {s : Source} (h : s.position = 0) : s.rest = s.data := by
  simp [rest, h]

theorem steady_ofBytes (data : Bytes) : (ofBytes data).Steady := ⟨nofun, nofun⟩

theorem steady_passing (data : Bytes) : (passing data).Steady := ⟨nofun, nofun⟩

namespace Steady
variable {s : Source}

theorem clear_pos (hs : s.Steady) {wanted : Nat} (hw : wanted ≠ 0) :
    ∃ room, s.clear wanted = .ok room ∧ 0 < room := by
  unfold clear
  cases hb : s.barrier with
  | none => exact ⟨wanted, rfl, Nat.pos_of_ne_zero hw⟩
  | some barrier =>
    have h := (hs.barrier barrier (by simp [hb])).1
    refine ⟨min wanted (barrier.offset - s.position), if_neg (by omega), ?_⟩
    omega

theorem later (hs : s.Steady) {answer : Answer} {answers : List Answer}
    (h : s.answers = answer :: answers) : ({ s with answers } : Source).Steady :=
  ⟨fun a ha => hs.answers a (by simp [h, ha]), hs.barrier⟩

theorem rewound (hs : s.Steady) : ({ s with position := 0 } : Source).Steady := by
  refine ⟨hs.answers, fun barrier hb => ?_⟩
  have h := hs.barrier barrier hb
  exact ⟨Nat.lt_of_le_of_lt (Nat.zero_le _) h.1, h.2⟩

theorem serve (hs : s.Steady) (count : Nat) : (s.serve count).2.Steady := by
  refine ⟨hs.answers, fun barrier hb => ?_⟩
  have h := hs.barrier barrier hb
  simp only [serve_eq, rest, List.length_take, List.length_drop]
  omega

theorem read (hs : s.Steady) {wanted : Nat} (hw : wanted ≠ 0) : (s.read wanted).2.Steady := by
  obtain ⟨room, hr, -⟩ := hs.clear_pos hw
  simp only [Source.read, hr]
  cases ha : s.answers with
  | nil => exact hs.serve room
  | cons answer answers =>
    cases answer with
    | serve count => exact (hs.later ha).serve _
    | fail fault => exact hs.later ha

theorem candid (hs : s.Steady) : s.Candid :=
  fun hmem => absurd (hs.answers _ hmem) (Nat.lt_irrefl 0)

theorem rest_of_end (hs : s.Steady) {wanted : Nat} (hw : wanted ≠ 0)
    (h : (s.read wanted).1 = .ok []) : s.rest = [] :=
  hs.candid.rest_of_end hw h

theorem interrupted_of_error (hs : s.Steady) {wanted : Nat} (hw : wanted ≠ 0) {fault : Fault}
    (h : (s.read wanted).1 = .error fault) : fault.Interrupted := by
  obtain ⟨room, hr, -⟩ := hs.clear_pos hw
  simp only [Source.read, hr] at h
  cases ha : s.answers with
  | nil => simp [ha, serve_eq] at h
  | cons answer answers =>
    have hsteady := hs.answers answer (by simp [ha])
    cases answer with
    | serve count => simp [ha, serve_eq] at h
    | fail fault' =>
      simp only [ha, Except.error.injEq] at h
      exact h ▸ hsteady

end Steady

/-- From a steady source a loop takes all it wants, or all there is. -/
theorem gather_of_steady {s : Source} (hs : s.Steady) (wanted : Nat) :
    (s.gather wanted).result = ⟨s.rest.take wanted, none⟩ := by
  fun_induction gather s wanted with
  | case1 => simp
  | case2 s wanted hw h => simp [hs.rest_of_end hw h]
  | case3 s wanted hw b bs h ih =>
    have hrest := read_rest h
    have hle := (read_bytes h).1
    rw [hrest, List.take_append, List.take_of_length_le hle]
    simp only [Exchange.result_after, Exchange.result_map, ih (hs.read hw), Intake.prepend_mk,
      List.length_cons]
  | case4 s wanted hw fault h hf ih =>
    rw [← read_error_rest h]
    exact ih (hs.read hw)
  | case5 s wanted hw fault h hf => exact absurd (hs.interrupted_of_error hw h) hf

theorem Steady.gather {s : Source} (hs : s.Steady) (wanted : Nat) :
    (s.gather wanted).source.Steady :=
  gather_keeps Steady (fun hw hs => hs.read hw) hs wanted

theorem position_gather (s : Source) (wanted : Nat) :
    (s.gather wanted).source.position =
      s.position + (s.gather wanted).result.bytes.length := by
  fun_induction gather s wanted with
  | case1 => simp
  | case2 s wanted hw h => simpa using (read_bytes h).2.2
  | case3 s wanted hw b bs h ih =>
    have hp := (read_bytes h).2.2
    simp only [Exchange.source_after, Exchange.source_map, Exchange.result_after,
      Exchange.result_map, Intake.bytes_prepend, List.length_append]
    omega
  | case4 s wanted hw fault h hf ih =>
    have hp := read_error_position h
    simp only [Exchange.source_after, Exchange.result_after]
    omega
  | case5 s wanted hw fault h hf => simpa using read_error_position h

/-- The source is `count` bytes further on and otherwise as it was, except for
the answers that this has taken. -/
structure Advanced (s : Source) (count : Nat) (s' : Source) : Prop where
  steady : s'.Steady
  data : s'.data = s.data
  rewinding : s'.rewinding = s.rewinding
  position : s'.position = s.position + count

theorem Advanced.trans {s s' s'' : Source} {count more : Nat} (h : Advanced s count s')
    (h' : Advanced s' more s'') : Advanced s (count + more) s'' where
  steady := h'.steady
  data := h'.data.trans h.data
  rewinding := h'.rewinding.trans h.rewinding
  position := by rw [h'.position, h.position, Nat.add_assoc]

theorem Advanced.rest {s s' : Source} {count : Nat} (h : Advanced s count s') :
    s'.rest = s.rest.drop count := by
  unfold Source.rest
  rw [h.data, h.position, List.drop_drop]

theorem advanced_gather {s : Source} (hs : s.Steady) (wanted : Nat) :
    Advanced s (min wanted s.rest.length) (s.gather wanted).source where
  steady := hs.gather wanted
  data := s.gather_data wanted
  rewinding := s.rewinding_gather wanted
  position := by rw [position_gather, gather_of_steady hs, List.length_take]

theorem readUpTo_of_steady {s : Source} (hs : s.Steady) (wanted : Nat) :
    (s.readUpTo wanted).result = .ok (s.rest.take wanted) := by
  simp [readUpTo, gather_of_steady hs]

theorem readUpTo_andThen_of_steady {α ε : Type} {s : Source} (hs : s.Steady) (wanted : Nat)
    (retell : Fault → ε) (next : Bytes → Source → Exchange (Except ε α)) :
    ((s.readUpTo wanted).mapError retell).andThen next =
      (next (s.rest.take wanted) (s.gather wanted).source).after (s.gather wanted).requests := by
  have h : ((s.readUpTo wanted).mapError retell).result = .ok (s.rest.take wanted) := by
    rw [Exchange.mapError, Exchange.result_map, readUpTo_of_steady hs]
    rfl
  exact Exchange.andThen_of_ok h next

/-- An exact read from a steady source fails only where too few bytes are left. -/
theorem readExactly_of_steady {s : Source} (hs : s.Steady) (wanted : Nat) :
    (s.readExactly wanted).result =
      if s.rest.length < wanted then .error .endedEarly else .ok (s.rest.take wanted) := by
  simp only [readExactly, Exchange.result_map, gather_of_steady hs, List.length_take]
  by_cases h : s.rest.length < wanted
  · rw [if_pos (by omega), if_pos h]
  · rw [if_neg (by omega), if_neg h]

end Source

end TransportStream
