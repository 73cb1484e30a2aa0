import TransportStream.Packet.Basic

/-!
# Decoding with checked indices

The decoder never asks for a byte or a range beyond its string (`decode?_eq`).
-/
namespace TransportStream

/-- The bytes from `start` up to `stop`, provided the string has all of them. -/
def Bytes.slice? (bytes : Bytes) (start stop : Nat) : Option Bytes :=
  if start ≤ stop ∧ stop ≤ bytes.length then some ((bytes.take stop).drop start) else none

namespace Bytes
variable {bytes piece : Bytes} {start stop : Nat}

theorem slice?_of_le (hle : start ≤ stop) (hlength : stop ≤ bytes.length) :
    bytes.slice? start stop = some ((bytes.take stop).drop start) := if_pos ⟨hle, hlength⟩

theorem slice?_eq_some_iff : bytes.slice? start stop = some piece ↔
    start ≤ stop ∧ stop ≤ bytes.length ∧ piece = (bytes.take stop).drop start := by
  unfold slice?
  split
  · rename_i hrange
    rw [Option.some.injEq, eq_comm]
    exact ⟨fun h => ⟨hrange.1, hrange.2, h⟩, fun h => h.2.2⟩
  · rename_i hrange
    exact ⟨nofun, fun h => absurd ⟨h.1, h.2.1⟩ hrange⟩

theorem length_of_slice? (h : bytes.slice? start stop = some piece) :
    start + piece.length = stop := by
  obtain ⟨hle, hlength, rfl⟩ := slice?_eq_some_iff.mp h
  rw [List.length_drop, List.length_take]
  omega

theorem getElem?_of_slice? (h : bytes.slice? start stop = some piece) {i : Nat}
    (hi : start + i < stop) : piece[i]? = bytes[start + i]? := by
  obtain ⟨-, -, rfl⟩ := slice?_eq_some_iff.mp h
  rw [List.getElem?_drop, List.getElem?_take_of_lt hi]

end Bytes

/-- Reads a header with every index checked. -/
def Header.parse? (bytes : Bytes) : Option (Except PacketDefect Header) :=
  if bytes.length < Header.length then some (.error (.tooShort bytes.length))
  else do
    let sync ← bytes[0]?
    if sync = syncByte then
      let first ← bytes[1]?
      let second ← bytes[2]?
      let third ← bytes[3]?
      return .ok (ofFields first second third)
    else return .error (.missingSync sync)

theorem Header.parse?_eq (bytes : Bytes) : parse? bytes = some (parse bytes) := by
  match bytes with
  | [] | [_] | [_, _] | [_, _, _] => rfl
  | sync :: first :: second :: third :: rest =>
    have hlong : ¬ (sync :: first :: second :: third :: rest).length < Header.length := by
      simp [Header.length]
    rw [parse?, if_neg hlong]
    by_cases hsync : sync = syncByte
    · simp [parse, hsync]
    · simp [parse, hsync]

namespace Packet

/-- The payload of a body from `start` on, with its range checked. -/
def payload? (header : Header) (body : Bytes) (start : Nat) : Option Bytes :=
  if header.control.hasPayload then body.slice? start body.length else some []

def ofBody? (header : Header) (body : Bytes) (trailerLength : Nat) :
    Option (Except PacketDefect Packet) :=
  if header.control.hasAdaptation then do
    let length ← body[0]?
    if body.length < 1 + length.toNat then return .error (.fieldOverflow length)
    else
      let payload ← payload? header body (1 + length.toNat)
      return .ok ⟨header, some length, payload, trailerLength⟩
  else do
    let payload ← payload? header body 0
    return .ok ⟨header, none, payload, trailerLength⟩

/-- Decodes with every index and every range checked. -/
def decode? (bytes : Bytes) : Option (Except PacketDefect Packet) :=
  if bytes.length < coreLength then some (.error (.tooShort bytes.length))
  else do
    match ← Header.parse? bytes with
    | .error reason => return .error reason
    | .ok header =>
      if header.control = .reserved then return .error (.reservedControl header.pid.val)
      else
        let body ← bytes.slice? Header.length coreLength
        ofBody? header body (bytes.length - coreLength)

theorem payload?_eq (header : Header) {body : Bytes} {start : Nat} (h : start ≤ body.length) :
    payload? header body start =
      some (if header.control.hasPayload then body.drop start else []) := by
  unfold payload?
  split
  · rw [Bytes.slice?_of_le h (Nat.le_refl _), List.take_length]
  · rfl

theorem ofBody?_eq (header : Header) {body : Bytes} (hbody : body ≠ []) (trailerLength : Nat) :
    ofBody? header body trailerLength = some (ofBody header body trailerLength) := by
  cases hfield : header.control.hasAdaptation with
  | false =>
    rw [ofBody_of_no_field hfield, ofBody?, if_neg (by simp [hfield]),
      payload?_eq header (Nat.zero_le _), List.drop_zero]
    rfl
  | true =>
    obtain ⟨length, rest, rfl⟩ := List.exists_cons_of_ne_nil hbody
    simp only [ofBody?, ofBody, hfield, if_true, List.getElem?_cons_zero, List.head?_cons,
      Option.bind_eq_bind, Option.bind_some, Option.pure_def]
    split
    · rfl
    · rename_i hfits
      rw [payload?_eq header (Nat.le_of_not_lt hfits)]
      rfl

/-- No byte and no range is asked for that the string does not have. -/
theorem decode?_eq (bytes : Bytes) : decode? bytes = some (decode bytes) := by
  unfold decode? decode
  split
  · rfl
  rename_i hlong
  have hlong : coreLength ≤ bytes.length := Nat.le_of_not_lt hlong
  rw [Header.parse?_eq]
  cases hparse : Header.parse bytes with
  | error reason => rfl
  | ok header =>
    simp only [Option.bind_eq_bind, Option.bind_some]
    split
    · rfl
    · have hbody : body bytes ≠ [] := by
        rw [← List.length_pos_iff, length_body hlong]
        decide
      rw [Bytes.slice?_of_le (by decide) hlong]
      exact ofBody?_eq header hbody _

end Packet

end TransportStream
