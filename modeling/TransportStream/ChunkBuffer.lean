import TransportStream.Source.Gather

/-!
# Chunk buffers

Each fill writes over the one buffer from the front and hands out what it has just
written (`front_store`). The bytes that a failing fill had taken are lost.
-/
namespace TransportStream

structure ChunkBuffer where
  capacity : Nat
  /-- What stands in the buffer, as far as anything has been written. -/
  contents : Bytes := []
  deriving DecidableEq, Repr

/-- The outcome of a fill: the chunk, nothing at the end of the input, or a fault. -/
structure Filled where
  chunk : Except Fault (Option Bytes)
  buffer : ChunkBuffer

namespace ChunkBuffer

/-- The most bytes that one buffer can hold: every offset in it has to fit a
signed word, so this is 2 ^ 63 - 1. -/
def capacityLimit : Nat := UInt64.size / 2 - 1

def allocate? (capacity : Nat) : Option ChunkBuffer :=
  if capacity ≤ capacityLimit then some ⟨capacity, []⟩ else none

def store (buffer : ChunkBuffer) (bytes : Bytes) : ChunkBuffer :=
  { buffer with contents := Bytes.join bytes (buffer.contents.drop bytes.length) }

def front (buffer : ChunkBuffer) (count : Nat) : Bytes := Bytes.front count buffer.contents

def fill (buffer : ChunkBuffer) (s : Source) : Exchange Filled :=
  (s.gather buffer.capacity).map fun taken =>
    let stored := buffer.store taken.bytes
    match taken.fault with
    | some fault => ⟨.error fault, stored⟩
    | none =>
      if taken.bytes.length = 0 then ⟨.ok none, stored⟩
      else ⟨.ok (some (stored.front taken.bytes.length)), stored⟩

/-- The outcomes of `count` fills of one buffer from one source. -/
def fills : Nat → ChunkBuffer → Source → List (Exchange Filled)
  | 0, _, _ => []
  | count + 1, buffer, s =>
    let x := buffer.fill s
    x :: fills count x.result.buffer x.source

@[simp] theorem capacity_store (buffer : ChunkBuffer) (bytes : Bytes) :
    (buffer.store bytes).capacity = buffer.capacity := rfl

/-- What has just been written is what is handed out, whatever stood there before. -/
@[simp] theorem front_store (buffer : ChunkBuffer) (bytes : Bytes) :
    (buffer.store bytes).front bytes.length = bytes := by
  simp [store, front]

@[simp] theorem capacity_fill (buffer : ChunkBuffer) (s : Source) :
    (buffer.fill s).result.buffer.capacity = buffer.capacity := by
  simp only [fill, Exchange.result_map]
  split
  · rfl
  · split <;> rfl

/-- A chunk is never empty, and it is the next part of the data. -/
theorem fill_chunk {buffer : ChunkBuffer} {s : Source} {chunk : Bytes}
    (h : (buffer.fill s).result.chunk = .ok (some chunk)) :
    chunk ≠ [] ∧ s.rest = chunk ++ (buffer.fill s).source.rest := by
  simp only [fill, Exchange.result_map] at h
  split at h
  · simp at h
  · split at h
    · simp at h
    · rename_i hn
      simp only [front_store, Except.ok.injEq, Option.some.injEq] at h
      subst h
      refine ⟨fun hc => hn (by simp [hc]), ?_⟩
      simpa [fill] using s.gather_rest buffer.capacity

end ChunkBuffer

end TransportStream
