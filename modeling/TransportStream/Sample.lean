import TransportStream.ChunkBuffer
import TransportStream.Packet.Basic

/-!
# Sample streams

Valid streams to try a reader on. The payload of a packet begins with its index as
four bytes, the highest first, which the tag decoder reads back.
-/
namespace TransportStream.Sample

def pid : Pid := ⟨0x0100, by decide⟩

def header (index : Nat) : Header where
  transportError := false
  unitStart := false
  priority := false
  pid := pid
  scrambling := ⟨0, by decide⟩
  control := .payload
  counter := ⟨index % 16, Nat.mod_lt index (by decide)⟩

/-- The lowest 32 bits of a number as four bytes, the highest first. -/
def word (n : Nat) : Bytes :=
  [.ofNat (n >>> 24), .ofNat (n >>> 16), .ofNat (n >>> 8), .ofNat n]

def ofWord (bytes : Bytes) : Nat := bytes.foldl (fun n b => n * 256 + b.toNat) 0

/-- Header and tag, which no packet can do without. -/
def headLength : Nat := 8

def packet (size index : Nat) : Bytes :=
  (header index).toBytes ++ word index ++ List.replicate (size - headLength) 0

/-- A size that leaves no room for the tag, or is beyond any buffer, gives no packet. -/
def packet? (size index : Nat) : Option Bytes :=
  if size < headLength ∨ ChunkBuffer.capacityLimit < size then none
  else some (packet size index)

def stream (size count : Nat) : Bytes := (List.range count).flatMap (packet size)

/-- Packets of a stream have at least the size that is interpreted, and the
whole stream fits one buffer. -/
def stream? (size count : Nat) : Option Bytes :=
  if size < Packet.coreLength ∨ ChunkBuffer.capacityLimit < size * count then none
  else some (stream size count)

/-- The index at the start of a decoded packet's payload. -/
def tag? (p : Packet) : Option Nat :=
  if p.payload.length < 4 then none else some (ofWord (p.payload.take 4))

def tagDecoder (refusedTag : Option Nat) : Decoder Nat PacketDefect := fun bytes =>
  match bytes with
  | [] => .brokeDown
  | first :: _ =>
    if first ≠ syncByte then .refused (.missingSync first)
    else if bytes.length < headLength then .brokeDown
    else
      let tag := ofWord ((bytes.drop Header.length).take 4)
      if refusedTag = some tag then .refused (.missingSync first) else .decoded tag

theorem ofWord_word {n : Nat} (h : n < UInt32.size) : ofWord (word n) = n := by
  simp only [ofWord, word, List.foldl_cons, List.foldl_nil, UInt8.toNat_ofNat',
    Nat.shiftRight_eq_div_pow]
  simp only [UInt32.size] at h
  omega

theorem length_packet {size : Nat} (h : headLength ≤ size) (index : Nat) :
    (packet size index).length = size := by
  simp only [headLength] at h
  simp only [packet, Header.toBytes, word, headLength, List.length_append, List.length_cons,
    List.length_nil, List.length_replicate]
  omega

end TransportStream.Sample
