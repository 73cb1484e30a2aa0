/-!
# Byte strings and their slices

`slices size bytes` cuts a string into consecutive pieces, the last of which may be
shorter. A size of zero gives no pieces.
-/
namespace TransportStream

abbrev Bytes := List UInt8

namespace Bytes

/-- The first `count` bytes, or all if there are fewer. -/
def front (count : Nat) (bytes : Bytes) : Bytes := (bytes.splitAt count).1

/-- Two strings in one; nothing is copied where nothing follows. -/
def join (bytes later : Bytes) : Bytes := if later.isEmpty then bytes else bytes ++ later

@[simp] theorem front_eq (count : Nat) (bytes : Bytes) : front count bytes = bytes.take count := by
  rw [front, List.splitAt_eq]

@[simp] theorem join_eq (bytes later : Bytes) : join bytes later = bytes ++ later := by
  cases later <;> simp [join]

/-- Consecutive pieces of `size` bytes; only the last one may be shorter. -/
def slices (size : Nat) (bytes : Bytes) : List Bytes :=
  if size = 0 ∨ bytes = [] then []
  else bytes.take size :: slices size (bytes.drop size)
termination_by bytes.length
decreasing_by
  have := List.length_pos_iff.mpr (show bytes ≠ [] by simp_all)
  simp only [List.length_drop]
  omega

@[simp] theorem slices_nil (size : Nat) : slices size [] = [] := by
  rw [slices]
  simp

@[simp] theorem slices_zero (bytes : Bytes) : slices 0 bytes = [] := by
  rw [slices]
  simp

theorem slices_of_ne_nil {size : Nat} {bytes : Bytes} (hs : 0 < size) (hb : bytes ≠ []) :
    slices size bytes = bytes.take size :: slices size (bytes.drop size) := by
  rw [slices, if_neg]
  simp only [hb, or_false]
  omega

theorem flatten_slices {size : Nat} (hs : 0 < size) (bytes : Bytes) :
    (slices size bytes).flatten = bytes := by
  fun_induction slices size bytes with
  | case1 bytes h =>
    rcases h with h | h
    · omega
    · simp [h]
  | case2 bytes h ih => simp [ih]

/-- Pieces of one length that have been put together are cut apart again. -/
theorem slices_flatten {size : Nat} (hs : 0 < size) {pieces : List Bytes}
    (h : ∀ piece ∈ pieces, piece.length = size) : slices size pieces.flatten = pieces := by
  induction pieces with
  | nil => exact slices_nil size
  | cons piece later ih =>
    have hlength : piece.length = size := h piece (List.mem_cons_self ..)
    have hlater : slices size later.flatten = later :=
      ih fun piece hmem => h piece (List.mem_cons_of_mem _ hmem)
    have hne : piece ++ later.flatten ≠ [] := by
      rw [← List.length_pos_iff, List.length_append, hlength]
      omega
    rw [List.flatten_cons, slices_of_ne_nil hs hne, List.take_left' hlength,
      List.drop_left' hlength, hlater]

theorem slices_drop {size : Nat} (hs : 0 < size) (count : Nat) (bytes : Bytes) :
    slices size (bytes.drop (count * size)) = (slices size bytes).drop count := by
  induction count generalizing bytes with
  | zero => rw [Nat.zero_mul, List.drop_zero, List.drop_zero]
  | succ count ih =>
    by_cases hb : bytes = []
    · simp [hb]
    · rw [slices_of_ne_nil hs hb, List.drop_succ_cons, ← ih, List.drop_drop, Nat.add_mul,
        Nat.one_mul, Nat.add_comm]

theorem length_slices {size : Nat} (hs : 0 < size) (bytes : Bytes) :
    (slices size bytes).length = (bytes.length + size - 1) / size := by
  fun_induction slices size bytes with
  | case1 bytes h =>
    rcases h with h | h
    · omega
    · subst h
      simpa using (Nat.div_eq_of_lt (by omega : size - 1 < size)).symm
  | case2 bytes h ih =>
    have hpos := List.length_pos_iff.mpr (show bytes ≠ [] by simp_all)
    rw [List.length_cons, ih, List.length_drop]
    by_cases hle : size ≤ bytes.length
    · rw [show bytes.length + size - 1 = bytes.length - size + size - 1 + size by omega,
        Nat.add_div_right _ hs]
    · rw [show bytes.length - size + size - 1 = size - 1 by omega,
        Nat.div_eq_of_lt (by omega : size - 1 < size),
        show bytes.length + size - 1 = bytes.length - 1 + size by omega,
        Nat.add_div_right _ hs, Nat.div_eq_of_lt (by omega)]

/-- No piece is empty, so there are at most as many as there are bytes. -/
theorem length_slices_le {size : Nat} (hs : 0 < size) (bytes : Bytes) :
    (slices size bytes).length ≤ bytes.length := by
  fun_induction slices size bytes with
  | case1 bytes h => simp
  | case2 bytes h ih =>
    have hpos := List.length_pos_iff.mpr (show bytes ≠ [] by simp_all)
    simp only [List.length_cons, List.length_drop] at ih ⊢
    omega

/-- Piece `i` holds the bytes from `i * size` up to the next multiple or the end. -/
theorem getElem?_slices {size : Nat} (hs : 0 < size) (bytes : Bytes) (i : Nat) :
    (slices size bytes)[i]? =
      if i * size < bytes.length then some ((bytes.drop (i * size)).take size) else none := by
  induction i generalizing bytes with
  | zero =>
    by_cases hb : bytes = []
    · simp [hb]
    · have hpos := List.length_pos_iff.mpr hb
      simp [slices_of_ne_nil hs hb, hpos]
  | succ i ih =>
    by_cases hb : bytes = []
    · simp [hb]
    · rw [slices_of_ne_nil hs hb, List.getElem?_cons_succ, ih, List.length_drop, List.drop_drop,
        show size + i * size = (i + 1) * size by rw [Nat.add_mul]; omega]
      have : (i + 1) * size = i * size + size := by rw [Nat.add_mul]; omega
      by_cases hlt : (i + 1) * size < bytes.length
      · rw [if_pos hlt, if_pos (by omega)]
      · rw [if_neg hlt, if_neg (by omega)]

/-- Cutting at a multiple of `size` cuts between two pieces. -/
theorem slices_split {size count : Nat} (h : size ∣ count) (bytes : Bytes) :
    slices size bytes = slices size (bytes.take count) ++ slices size (bytes.drop count) := by
  obtain ⟨pieces, rfl⟩ := h
  rcases Nat.eq_zero_or_pos size with rfl | hs
  · simp
  induction pieces generalizing bytes with
  | zero => simp
  | succ pieces ih =>
    by_cases hb : bytes = []
    · simp [hb]
    have hpos := List.length_pos_iff.mpr hb
    have hmul : size * (pieces + 1) = size + size * pieces := by rw [Nat.mul_succ, Nat.add_comm]
    have hne : bytes.take (size * (pieces + 1)) ≠ [] := by
      rw [← List.length_pos_iff, List.length_take]
      omega
    have hfirst : (bytes.take (size * (pieces + 1))).take size = bytes.take size := by
      rw [List.take_take, Nat.min_eq_left (by omega)]
    have hlater : (bytes.take (size * (pieces + 1))).drop size =
        (bytes.drop size).take (size * pieces) := by
      rw [List.drop_take, hmul, Nat.add_sub_cancel_left]
    rw [slices_of_ne_nil hs hb, slices_of_ne_nil hs hne, hfirst, hlater, ih (bytes.drop size),
      List.drop_drop, ← hmul, List.cons_append]

end Bytes

end TransportStream
