import TransportStream.Bytes
import TransportStream.Fault

/-!
# Byte sources

Each read takes one answer from the list: an upper bound on the bytes it serves, or a
fault. Once the list is used up a read serves as much as it is asked for. An answer of
no bytes says "end of input", also when later reads serve data again.
-/
namespace TransportStream

inductive Answer where
  | serve (count : Nat)
  | fail (fault : Fault)
  deriving DecidableEq, Repr

inductive Rewinding where
  | supported
  | unsupported
  | failing (fault : Fault)
  deriving DecidableEq, Repr

/-- No byte at or beyond `offset` is ever served: such reads fail, and an
earlier read is cut to end there. Since every later read fails the same way,
the fault is not an interruption, which would be tried again without end. -/
structure Barrier where
  offset : Nat
  fault : Fault
  lasting : ¬fault.Interrupted
  deriving DecidableEq

structure Source where
  data : Bytes
  position : Nat := 0
  answers : List Answer := []
  rewinding : Rewinding := .supported
  barrier : Option Barrier := none
  deriving DecidableEq

/-- What was asked of a source and what it answered. -/
inductive Request where
  | read (offset wanted : Nat) (answer : Except Fault Bytes)
  | rewind (answer : Except Fault Bool)

/-- Where a read began that served any bytes. -/
def Request.servedFrom? : Request → Option Nat
  | .read offset _ (.ok (_ :: _)) => some offset
  | _ => none

namespace Source

/-- Bytes in memory or in a plain file. -/
def ofBytes (data : Bytes) : Source := { data }

/-- Bytes that pass by once. -/
def passing (data : Bytes) : Source := { data, rewinding := .unsupported }

/-- An open directory: it can be rewound, but not read. -/
def directory : Source := { data := [], barrier := some ⟨0, .directory, by decide⟩ }

/-- The bytes not served yet. -/
def rest (s : Source) : Bytes := s.data.drop s.position

/-- How many of `wanted` bytes may be asked for before the barrier. -/
def clear (s : Source) (wanted : Nat) : Except Fault Nat :=
  match s.barrier with
  | none => .ok wanted
  | some barrier =>
    if barrier.offset ≤ s.position then .error barrier.fault
    else .ok (min wanted (barrier.offset - s.position))

def serve (s : Source) (count : Nat) : Except Fault Bytes × Source :=
  let bytes := Bytes.front count s.rest
  (.ok bytes, { s with position := s.position + bytes.length })

theorem serve_eq (s : Source) (count : Nat) :
    s.serve count =
      (.ok (s.rest.take count),
        { s with position := s.position + (s.rest.take count).length }) := by
  simp only [serve, Bytes.front_eq]

/-- One read into room for `wanted` bytes. -/
def read (s : Source) (wanted : Nat) : Except Fault Bytes × Source :=
  match s.clear wanted with
  | .error fault => (.error fault, s)
  | .ok room =>
    match s.answers with
    | [] => s.serve room
    | .serve count :: later => { s with answers := later }.serve (min count room)
    | .fail fault :: later => (.error fault, { s with answers := later })

/-- Everything that a source does follows one of three courses: it serves the
next bytes, fails for the one answer, or fails at its barrier. -/
theorem read_cases (s : Source) (wanted : Nat) :
    (∃ count answers, count ≤ wanted ∧ answers.length ≤ s.answers.length ∧
      s.read wanted = { s with answers := answers }.serve count) ∨
    (∃ fault answers, answers.length < s.answers.length ∧
      s.read wanted = (.error fault, { s with answers := answers })) ∨
    (∃ fault, ¬fault.Interrupted ∧ s.read wanted = (.error fault, s)) := by
  unfold read
  split
  · rename_i fault h
    refine .inr (.inr ⟨fault, ?_, rfl⟩)
    unfold clear at h
    split at h
    · simp at h
    · rename_i barrier _
      split at h
      · exact Except.error.inj h ▸ barrier.lasting
      · simp at h
  · rename_i room h
    have hroom : room ≤ wanted := by
      unfold clear at h
      split at h
      · simp only [Except.ok.injEq] at h
        omega
      · split at h <;> simp only [Except.ok.injEq, reduceCtorEq] at h
        omega
    split
    · rename_i ha
      exact .inl ⟨room, s.answers, hroom, Nat.le_refl _, rfl⟩
    · rename_i count later ha
      exact .inl ⟨min count room, later, by omega, by simp [ha], rfl⟩
    · rename_i fault later ha
      exact .inr (.inl ⟨fault, later, by simp [ha], rfl⟩)

@[simp] theorem read_data (s : Source) (wanted : Nat) : (s.read wanted).2.data = s.data := by
  obtain ⟨_, _, _, _, h⟩ | ⟨_, _, _, h⟩ | ⟨_, _, h⟩ := read_cases s wanted <;> simp [h, serve_eq]

@[simp] theorem read_rewinding (s : Source) (wanted : Nat) :
    (s.read wanted).2.rewinding = s.rewinding := by
  obtain ⟨_, _, _, _, h⟩ | ⟨_, _, _, h⟩ | ⟨_, _, h⟩ := read_cases s wanted <;> simp [h, serve_eq]

theorem answers_read_le (s : Source) (wanted : Nat) :
    (s.read wanted).2.answers.length ≤ s.answers.length := by
  obtain ⟨_, _, _, h', h⟩ | ⟨_, _, h', h⟩ | ⟨_, _, h⟩ := read_cases s wanted <;>
    simp only [h, serve_eq] <;> omega

theorem answers_read_lt {s : Source} {wanted : Nat} {fault : Fault}
    (h : (s.read wanted).1 = .error fault) (hf : fault.Interrupted) :
    (s.read wanted).2.answers.length < s.answers.length := by
  obtain ⟨_, _, _, _, hr⟩ | ⟨_, _, h', hr⟩ | ⟨_, hn, hr⟩ := read_cases s wanted
  · simp [hr, serve_eq] at h
  · simpa [hr] using h'
  · rw [hr] at h
    exact absurd hf (Except.error.inj h ▸ hn)

theorem read_bytes {s : Source} {wanted : Nat} {bytes : Bytes}
    (h : (s.read wanted).1 = .ok bytes) :
    bytes.length ≤ wanted ∧ bytes = s.rest.take bytes.length ∧
      (s.read wanted).2.position = s.position + bytes.length := by
  obtain ⟨count, _, hc, _, hr⟩ | ⟨_, _, _, hr⟩ | ⟨_, _, hr⟩ := read_cases s wanted
  · simp only [hr, serve_eq, rest, Except.ok.injEq] at h ⊢
    subst h
    simp only [List.length_take, List.length_drop]
    refine ⟨by omega, ?_, trivial⟩
    by_cases hle : count ≤ s.data.length - s.position
    · rw [Nat.min_eq_left hle]
    · rw [Nat.min_eq_right (by omega),
        List.take_of_length_le (i := count) (by simp; omega),
        List.take_of_length_le (by simp)]
  · simp [hr] at h
  · simp [hr] at h

theorem read_rest {s : Source} {wanted : Nat} {bytes : Bytes}
    (h : (s.read wanted).1 = .ok bytes) : s.rest = bytes ++ (s.read wanted).2.rest := by
  obtain ⟨-, hb, hp⟩ := read_bytes h
  simp only [rest, read_data, hp]
  rw [← List.drop_drop]
  conv => lhs; rw [← List.take_append_drop bytes.length (s.data.drop s.position)]
  rw [← rest, ← hb]

theorem read_error_position {s : Source} {wanted : Nat} {fault : Fault}
    (h : (s.read wanted).1 = .error fault) : (s.read wanted).2.position = s.position := by
  obtain ⟨_, _, _, _, hr⟩ | ⟨_, _, _, hr⟩ | ⟨_, _, hr⟩ := read_cases s wanted
  · simp [hr, serve_eq] at h
  · simp [hr]
  · simp [hr]

theorem read_error_rest {s : Source} {wanted : Nat} {fault : Fault}
    (h : (s.read wanted).1 = .error fault) : (s.read wanted).2.rest = s.rest := by
  simp [rest, read_error_position h]

end Source

/-- What a scripted source reports where it fails. -/
def Fault.scripted : Fault := ⟨.brokenPipe, "scripted failure"⟩

namespace Source

def scripted (data : Bytes) (rewinding : Rewinding) : Source := { data, rewinding }

/-- The same source, but no byte at or beyond `count` is ever served. -/
def failingAfter (s : Source) (count : Nat) : Source :=
  { s with barrier := some ⟨count, .scripted, by decide⟩ }

end Source

/-- Where the reads began that brought any bytes. -/
def Request.offsets (requests : List Request) : List Nat := requests.filterMap (·.servedFrom?)

end TransportStream
