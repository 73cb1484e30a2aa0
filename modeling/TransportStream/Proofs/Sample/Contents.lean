import TransportStream.Proofs.Detection
import TransportStream.Proofs.Outcome
import TransportStream.Sample

/-!
# What sample streams hold

A sample packet is decoded to its header and its tag (`decode_packet`), a stream is
cut into its packets (`slices_stream`), and the second packet has the first sync byte
that detection meets (`secondSync_stream`).
-/
namespace TransportStream.Sample

section
variable {size : Nat}

/-- What a sample packet is decoded to: all of its body is payload. -/
def content (size index : Nat) : Packet where
  header := header index
  fieldLength := none
  payload := word index ++ List.replicate 180 0
  trailerLength := size - Packet.coreLength

theorem body_packet (h : 188 ≤ size) (index : Nat) :
    Packet.body (packet size index) = word index ++ List.replicate 180 0 := by
  have hheader : (header index).toBytes.length = Header.length := rfl
  have htag : (word index).length = 4 := rfl
  have hzeros : min 180 (size - headLength) = 180 := by
    unfold headLength
    omega
  rw [Packet.body, packet, List.append_assoc, List.drop_take, List.drop_left' hheader]
  change (word index ++ List.replicate (size - headLength) 0).take 184 = _
  rw [List.take_append, htag, List.take_of_length_le (by decide : 4 ≤ 184), List.take_replicate,
    hzeros]

theorem decode_packet (h : 188 ≤ size) (index : Nat) :
    Packet.decode (packet size index) = .ok (content size index) := by
  have hlength : (packet size index).length = size :=
    length_packet (Nat.le_trans (by decide) h) index
  have hparse : Header.parse (packet size index) = .ok (header index) := by
    rw [packet, List.append_assoc]
    exact Header.parse_toBytes ..
  have hcontrol : (header index).control ≠ .reserved := by
    intro h
    cases h
  rw [Packet.decode_of_control (by rw [hlength]; exact h) hparse hcontrol,
    Packet.ofBody_of_no_field rfl, body_packet h, hlength]
  rfl

theorem decoder_packet (h : 188 ≤ size) (index : Nat) :
    Packet.decoder (packet size index) = .decoded (content size index) := by
  rw [Packet.decoder, decode_packet h]
  rfl

theorem tag?_content (size : Nat) {index : Nat} (h : index < UInt32.size) :
    tag? (content size index) = some index := by
  have hpayload : (content size index).payload = word index ++ List.replicate 180 0 := rfl
  have htag : (word index).length = 4 := rfl
  rw [tag?, hpayload, List.length_append, htag, if_neg (by omega), List.take_left' htag,
    ofWord_word h]

theorem tagDecoder_of_sync {later : Bytes} (h : headLength ≤ (syncByte :: later).length) :
    tagDecoder none (syncByte :: later) =
      .decoded (ofWord (((syncByte :: later).drop Header.length).take 4)) := by
  unfold tagDecoder
  exact (if_neg (not_not_intro rfl)).trans ((if_neg (Nat.not_lt.mpr h)).trans (if_neg nofun))

theorem tagDecoder_packet (h : headLength ≤ size) {index : Nat} (hindex : index < UInt32.size) :
    tagDecoder none (packet size index) = .decoded index := by
  have hheader : (header index).toBytes.length = Header.length := rfl
  have hword : (word index).length = 4 := rfl
  have htag : ofWord (((packet size index).drop Header.length).take 4) = index := by
    rw [packet, List.append_assoc, List.drop_left' hheader, List.take_left' hword,
      ofWord_word hindex]
  have hlong : headLength ≤ (packet size index).length := by
    rw [length_packet h]
    exact h
  exact (tagDecoder_of_sync hlong).trans (congrArg Verdict.decoded htag)

/-- Behind header and tag there is no sync byte. -/
theorem getElem?_packet_ne_sync {index i : Nat} (hi : headLength ≤ i) :
    (packet size index)[i]? ≠ some 0x47 := by
  have hhead : ((header index).toBytes ++ word index).length = headLength := rfl
  rw [packet, List.getElem?_append_right (hhead ▸ hi), List.getElem?_replicate]
  split
  · decide
  · intro h
    cases h

theorem stream_eq_flatten (size count : Nat) :
    stream size count = ((List.range count).map (packet size)).flatten :=
  List.flatMap_def

theorem length_stream (h : headLength ≤ size) (count : Nat) :
    (stream size count).length = size * count := by
  induction count with
  | zero => rfl
  | succ count ih =>
    have hlater : stream size (count + 1) = stream size count ++ packet size count := by
      unfold stream
      rw [List.range_succ, List.flatMap_append, List.flatMap_singleton]
    rw [hlater, List.length_append, ih, length_packet h, Nat.mul_succ]

theorem slices_stream (h : headLength ≤ size) (count : Nat) :
    Bytes.slices size (stream size count) = (List.range count).map (packet size) := by
  rw [stream_eq_flatten]
  apply Bytes.slices_flatten (Nat.lt_of_lt_of_le (by decide) h)
  intro piece hmem
  obtain ⟨index, -, rfl⟩ := List.mem_map.mp hmem
  exact length_packet h index

/-- Byte `i` of packet `index` in its place in the stream. -/
theorem getElem?_stream (h : headLength ≤ size) {count index i : Nat} (hindex : index < count)
    (hi : i < size) : (stream size count)[index * size + i]? = (packet size index)[i]? := by
  have hpos : 0 < size := Nat.lt_of_lt_of_le (by decide) h
  have hplace : index * size < (stream size count).length := by
    rw [length_stream h, Nat.mul_comm]
    exact Nat.mul_lt_mul_of_pos_left hindex hpos
  have hslice := Bytes.getElem?_slices hpos (stream size count) index
  rw [slices_stream h, List.getElem?_map, List.getElem?_range hindex, if_pos hplace] at hslice
  rw [Option.some.inj hslice, List.getElem?_take_of_lt hi, List.getElem?_drop]

theorem head_stream (h : headLength ≤ size) {count : Nat} (hcount : 0 < count) :
    (stream size count)[0]? = some 0x47 := by
  have hpos : 0 < size := Nat.lt_of_lt_of_le (by decide) h
  have hplace := getElem?_stream h hcount hpos
  rw [Nat.zero_mul] at hplace
  exact hplace

/-- The first packet of a stream holds no sync byte from offset 188 on. -/
theorem stream_ne_sync (h : headLength ≤ size) {count i : Nat} (hcount : 0 < count)
    (hi : headLength ≤ i) (hlt : i < size) : (stream size count)[i]? ≠ some 0x47 := by
  have hplace := getElem?_stream h hcount hlt
  rw [Nat.zero_mul, Nat.zero_add] at hplace
  rw [hplace]
  exact getElem?_packet_ne_sync hi

theorem secondSync_stream (h : 188 ≤ size) {count : Nat} (hcount : 2 ≤ count) :
    Detection.SecondSync (stream size count) size where
  beyond := h
  held := by
    have hhead : headLength ≤ size := Nat.le_trans (by decide) h
    have hpos : 0 < size := Nat.lt_of_lt_of_le (by decide) h
    have hplace := getElem?_stream hhead hcount hpos
    rw [Nat.one_mul] at hplace
    exact hplace
  first := fun i hi hlt =>
    stream_ne_sync (Nat.le_trans (by decide) h) (Nat.lt_of_lt_of_le (by decide) hcount)
      (Nat.le_trans (by decide) hi) hlt

end

section
variable {size count : Nat}

theorem survey_stream (hlow : 188 ≤ size) (hhigh : size ≤ 204) (hcount : 2 ≤ count) :
    Detection.survey (stream size count) =
      .ok ⟨size, Detection.reach (stream size count)⟩ := by
  have hhead : headLength ≤ size := Nat.le_trans (by decide) hlow
  have hlong : 193 ≤ (stream size count).length := by
    rw [length_stream hhead]
    exact Nat.le_trans (by omega) (Nat.mul_le_mul hlow hcount)
  exact Detection.survey_of_second hlong (head_stream hhead (Nat.lt_of_lt_of_le (by decide) hcount))
    (secondSync_stream hlow hcount) (Nat.lt_succ_of_le hhigh)

/-- Of longer packets the probes see only the first. -/
theorem survey_stream_of_gt (hbeyond : 204 < size) (hcount : 2 ≤ count) :
    Detection.survey (stream size count) = .error (.noSecondSync 205) := by
  have hhead : headLength ≤ size := Nat.le_trans (by decide) (Nat.le_of_lt hbeyond)
  have hpos : 0 < count := Nat.lt_of_lt_of_le (by decide) hcount
  have hlong : 205 ≤ (stream size count).length := by
    rw [length_stream hhead]
    exact Nat.le_trans hbeyond (Nat.le_mul_of_pos_right size hpos)
  rw [Detection.survey_of_single (Nat.le_trans (by decide) hlong) (head_stream hhead hpos),
    Nat.min_eq_right hlong]
  intro i hi hlt
  exact stream_ne_sync hhead hpos (Nat.le_trans (by decide) hi) (Nat.lt_of_lt_of_le hlt hbeyond)

theorem ofSlices_packets {P E : Type} {decoder : Decoder P E} {value : Nat → P}
    (h : headLength ≤ size) {indices : List Nat}
    (hdecoder : ∀ index ∈ indices, decoder (packet size index) = .decoded (value index))
    (first : Nat) :
    Outcome.ofSlices decoder size first (indices.map (packet size)) =
      (indices.map value).map .ok := by
  induction indices generalizing first with
  | nil => rfl
  | cons index later ih =>
    have hlength : ¬(packet size index).length < size := by
      rw [length_packet h]
      exact Nat.lt_irrefl size
    have hfirst : Outcome.ofSlice decoder size first (packet size index) = .ok (value index) := by
      rw [Outcome.ofSlice, if_neg hlength, hdecoder index (List.mem_cons_self ..)]
    rw [List.map_cons, List.map_cons, List.map_cons, Outcome.ofSlices, hfirst,
      ih fun index hmem => hdecoder index (List.mem_cons_of_mem _ hmem)]

end

end TransportStream.Sample
