import TransportStream.Source.Gather

/-!
# Candid sources

A candid source says "end of input" only when no bytes are left, so a read loop ends
by a fault or has all that was wanted or all there was (`Candid.bytes_gather`).
-/
namespace TransportStream.Source

/-- No answer to come says "end of input" by itself. -/
def Candid (s : Source) : Prop := Answer.serve 0 ∉ s.answers

instance (s : Source) : Decidable s.Candid :=
  inferInstanceAs (Decidable (Answer.serve 0 ∉ s.answers))

/-- Every answer of no bytes was given where none were left. -/
def CandidIn (data : Bytes) (requests : List Request) : Prop :=
  ∀ offset wanted, .read offset wanted (.ok []) ∈ requests → data.length ≤ offset

theorem pos_of_clear {s : Source} {wanted room : Nat} (hw : wanted ≠ 0)
    (h : s.clear wanted = .ok room) : 0 < room := by
  unfold clear at h
  split at h
  · obtain rfl := Except.ok.inj h
    exact Nat.pos_of_ne_zero hw
  · split at h
    · cases h
    · obtain rfl := Except.ok.inj h
      omega

theorem rest_of_serve_nil {s : Source} {count : Nat} (hc : 0 < count)
    (h : (s.serve count).1 = .ok []) : s.rest = [] := by
  rw [serve_eq] at h
  have htake : s.rest.take count = [] := Except.ok.inj h
  exact (List.take_eq_nil_iff.mp htake).resolve_left (Nat.ne_of_gt hc)

namespace Candid
variable {s : Source} {wanted : Nat}

theorem rest_of_end (hs : s.Candid) (hw : wanted ≠ 0) (h : (s.read wanted).1 = .ok []) :
    s.rest = [] := by
  unfold Source.read at h
  split at h
  · cases h
  · rename_i room hroom
    have hpos := pos_of_clear hw hroom
    split at h
    · exact rest_of_serve_nil hpos h
    · rename_i count later ha
      have hcount : count ≠ 0 := by
        rintro rfl
        exact hs (by simp [ha])
      exact @rest_of_serve_nil { s with answers := later } _ (by omega) h
    · cases h

theorem read (hs : s.Candid) (wanted : Nat) : (s.read wanted).2.Candid := by
  unfold Source.read
  split
  · exact hs
  · split
    · exact hs
    · rename_i ha
      exact fun hmem => hs (ha ▸ List.mem_cons_of_mem _ hmem)
    · rename_i ha
      exact fun hmem => hs (ha ▸ List.mem_cons_of_mem _ hmem)

theorem gather (hs : s.Candid) (wanted : Nat) : (s.gather wanted).source.Candid :=
  gather_keeps Candid (fun _ hs => hs.read _) hs wanted

/-- A loop that no fault has ended took all that was wanted or all there was. -/
theorem bytes_gather (hs : s.Candid) (h : (s.gather wanted).result.fault = none) :
    (s.gather wanted).result.bytes = s.rest.take wanted := by
  fun_induction Source.gather s wanted with
  | case1 => simp
  | case2 s wanted hw hr => simp [hs.rest_of_end hw hr]
  | case3 s wanted hw b bs hr ih =>
    have hle := (read_bytes hr).1
    have hlater := ih (hs.read wanted) h
    rw [read_rest hr, List.take_append, List.take_of_length_le hle]
    simp only [Exchange.result_after, Exchange.result_map, Intake.bytes_prepend, hlater,
      List.length_cons]
  | case4 s wanted hw fault hr hf ih =>
    rw [← read_error_rest hr]
    exact ih (hs.read wanted) h
  | case5 s wanted hw fault hr hf => simp at h

theorem rest_gather (hs : s.Candid) (h : (s.gather wanted).result.fault = none) :
    (s.gather wanted).source.rest = s.rest.drop wanted := by
  have hrest := s.gather_rest wanted
  rw [hs.bytes_gather h] at hrest
  exact List.append_cancel_left (hrest.symm.trans (List.take_append_drop wanted s.rest).symm)

theorem candidIn_gather (hs : s.Candid) (wanted : Nat) :
    CandidIn s.data (s.gather wanted).requests := by
  intro offset count hmem
  fun_induction Source.gather s wanted with
  | case1 => cases hmem
  | case2 s wanted hw h =>
    obtain ⟨rfl, -⟩ := Request.read.inj (List.mem_singleton.mp hmem)
    exact List.drop_eq_nil_iff.mp (hs.rest_of_end hw h)
  | case3 s wanted hw b bs h ih =>
    rcases List.mem_cons.mp hmem with hfirst | hlater
    · cases hfirst
    · exact s.read_data wanted ▸ ih (hs.read wanted) hlater
  | case4 s wanted hw fault h hf ih =>
    rcases List.mem_cons.mp hmem with hfirst | hlater
    · cases hfirst
    · exact s.read_data wanted ▸ ih (hs.read wanted) hlater
  | case5 => cases List.mem_singleton.mp hmem

end Candid

end TransportStream.Source
