import TransportStream.Packet.Header

/-!
# Packets

The body of 184 bytes holds an adaptation field, a payload or both. Bytes behind it
are counted only.
-/
namespace TransportStream

structure Packet where
  header : Header
  /-- The length byte of the adaptation field, when there is one. -/
  fieldLength : Option UInt8
  payload : Bytes
  trailerLength : Nat
  deriving DecidableEq, Repr

namespace Packet

/-- The bytes of a packet that are interpreted. -/
def coreLength : Nat := 188

def body (bytes : Bytes) : Bytes := (bytes.take coreLength).drop Header.length

def ofBody (header : Header) (body : Bytes) (trailerLength : Nat) : Except PacketDefect Packet :=
  let payload (start : Nat) := if header.control.hasPayload then body.drop start else []
  match if header.control.hasAdaptation then body.head? else none with
  | none => .ok ⟨header, none, payload 0, trailerLength⟩
  | some length =>
    if body.length < 1 + length.toNat then .error (.fieldOverflow length)
    else .ok ⟨header, some length, payload (1 + length.toNat), trailerLength⟩

def decode (bytes : Bytes) : Except PacketDefect Packet :=
  if bytes.length < coreLength then .error (.tooShort bytes.length)
  else
    match Header.parse bytes with
    | .error reason => .error reason
    | .ok header =>
      if header.control = .reserved then .error (.reservedControl header.pid.val)
      else ofBody header (body bytes) (bytes.length - coreLength)

theorem length_body {bytes : Bytes} (h : coreLength ≤ bytes.length) :
    (body bytes).length = 184 := by
  simp only [body, Header.length, coreLength] at *
  simp only [List.length_drop, List.length_take]
  omega

theorem decode_of_short {bytes : Bytes} (h : bytes.length < coreLength) :
    decode bytes = .error (.tooShort bytes.length) := if_pos h

theorem decode_of_parse_error {bytes : Bytes} {reason : PacketDefect}
    (hl : coreLength ≤ bytes.length) (h : Header.parse bytes = .error reason) :
    decode bytes = .error reason := by
  rw [decode, if_neg (by omega), h]

theorem decode_of_reserved {bytes : Bytes} {header : Header} (hl : coreLength ≤ bytes.length)
    (h : Header.parse bytes = .ok header) (hc : header.control = .reserved) :
    decode bytes = .error (.reservedControl header.pid.val) := by
  rw [decode, if_neg (by omega), h]
  exact if_pos hc

theorem decode_of_control {bytes : Bytes} {header : Header} (hl : coreLength ≤ bytes.length)
    (h : Header.parse bytes = .ok header) (hc : header.control ≠ .reserved) :
    decode bytes = ofBody header (body bytes) (bytes.length - coreLength) := by
  rw [decode, if_neg (by omega), h]
  exact if_neg hc

theorem ofBody_of_no_field {header : Header} (h : header.control.hasAdaptation = false)
    (body : Bytes) (trailerLength : Nat) :
    ofBody header body trailerLength =
      .ok ⟨header, none, if header.control.hasPayload then body else [], trailerLength⟩ := by
  simp [ofBody, h]

theorem ofBody_of_field {header : Header} (h : header.control.hasAdaptation = true)
    (length : UInt8) (rest : Bytes) (trailerLength : Nat) :
    ofBody header (length :: rest) trailerLength =
      if rest.length < length.toNat then .error (.fieldOverflow length)
      else .ok ⟨header, some length,
        if header.control.hasPayload then rest.drop length.toNat else [], trailerLength⟩ := by
  unfold ofBody
  simp only [h, if_true, List.head?_cons, List.length_cons, Nat.add_comm 1, List.drop_succ_cons,
    Nat.add_lt_add_iff_right]

end Packet

inductive Verdict (P E : Type) where
  | decoded (packet : P)
  | refused (cause : E)
  | brokeDown
  deriving DecidableEq, Repr

def Verdict.ofExcept {P E : Type} : Except E P → Verdict P E
  | .ok packet => .decoded packet
  | .error cause => .refused cause

abbrev Decoder (P E : Type) := Bytes → Verdict P E

def Packet.decoder : Decoder Packet PacketDefect := fun bytes => .ofExcept (Packet.decode bytes)

end TransportStream
