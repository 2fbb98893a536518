import Mathlib.Data.List.Basic

/-!
Files that are read and written in chunks of one size: what a write at the place of one
chunk leaves of the others, and when a file is made of given chunks.
-/

namespace PageCamel.Lib

universe u
variable {α : Type u}

/-- The part of a file that a chunk number names; the last one may be shorter. -/
def fileChunk (size : Nat) (file : List α) (k : Nat) : List α := (file.drop (k * size)).take size

/-- Reading one chunk after the other until nothing comes. -/
def readChunks (size : Nat) : Nat → List α → List (List α)
  | 0, _ => []
  | fuel + 1, rest =>
      if rest.take size = [] then []
      else rest.take size :: readChunks size fuel (rest.drop size)

/-- A write at a position; what lies between the end of the file and the position is filled. -/
def writeAt (fill : α) (file : List α) (pos : Nat) (data : List α) : List α :=
  file.take pos ++ List.replicate (pos - file.length) fill ++ data ++ file.drop (pos + data.length)

/-- The octets a chunk has in a file of this length. -/
def chunkLength (size length k : Nat) : Nat := min size (length - k * size)

theorem of_mem_readChunks {size fuel : Nat} {file chunk : List α}
    (hChunk : chunk ∈ readChunks size fuel file) :
    chunk ≠ [] ∧ chunk.length ≤ size ∧ chunk ⊆ file := by
  induction fuel generalizing file with
  | zero => cases hChunk
  | succ fuel ih =>
      rw [readChunks] at hChunk
      split at hChunk
      · cases hChunk
      · next hSome =>
          rcases List.mem_cons.mp hChunk with rfl | hRest
          · exact ⟨hSome, List.length_take_le size file, List.take_subset size file⟩
          · obtain ⟨hNonempty, hShort, hSub⟩ := ih hRest
            exact ⟨hNonempty, hShort, fun a ha => List.drop_subset size file (hSub ha)⟩

theorem flatten_readChunks {size : Nat} (hSize : 0 < size) {fuel : Nat} {file : List α}
    (hFuel : file.length ≤ fuel) : (readChunks size fuel file).flatten = file := by
  induction fuel generalizing file with
  | zero =>
      obtain rfl := List.eq_nil_of_length_eq_zero (Nat.le_zero.mp hFuel)
      rfl
  | succ fuel ih =>
      rw [readChunks]
      split
      · next hNone =>
          rcases List.take_eq_nil_iff.mp hNone with rfl | rfl
          · exact absurd hSize (Nat.lt_irrefl 0)
          · rfl
      · have hRest : (file.drop size).length ≤ fuel := by
          rw [List.length_drop]
          omega
        rw [List.flatten_cons, ih hRest, List.take_append_drop]

theorem length_flatten_map_le {f : List α → List α} {chunks : List (List α)}
    (hShort : ∀ chunk ∈ chunks, (f chunk).length ≤ chunk.length) :
    (chunks.map f).flatten.length ≤ chunks.flatten.length := by
  induction chunks with
  | nil => exact Nat.le_refl _
  | cons chunk chunks ih =>
      rw [List.forall_mem_cons] at hShort
      rw [List.map_cons, List.flatten_cons, List.flatten_cons, List.length_append, List.length_append]
      exact Nat.add_le_add hShort.1 (ih hShort.2)

/-- Where every chunk can only lose something, the whole stays the same just when each does. -/
theorem eq_of_flatten_map {f : List α → List α} {chunks : List (List α)}
    (hShort : ∀ chunk ∈ chunks, (f chunk).length ≤ chunk.length)
    (hFlatten : (chunks.map f).flatten = chunks.flatten) : ∀ chunk ∈ chunks, f chunk = chunk := by
  induction chunks with
  | nil => exact fun chunk hChunk => absurd hChunk List.not_mem_nil
  | cons chunk chunks ih =>
      rw [List.forall_mem_cons] at hShort ⊢
      rw [List.map_cons, List.flatten_cons, List.flatten_cons] at hFlatten
      have hRest := length_flatten_map_le hShort.2
      have hFirst := hShort.1
      have hLength := congrArg List.length hFlatten
      rw [List.length_append, List.length_append] at hLength
      obtain ⟨hSame, hSames⟩ := List.append_inj hFlatten (by omega)
      exact ⟨hSame, ih hShort.2 hSames⟩

theorem getElem?_readChunks {size : Nat} (hSize : 0 < size) (k fuel : Nat) :
    ∀ file : List α, file.length ≤ fuel → (readChunks size fuel file)[k]? =
      if k * size < file.length then some (fileChunk size file k) else none := by
  induction k generalizing fuel with
  | zero =>
      intro file hFuel
      cases fuel with
      | zero =>
          obtain rfl := List.eq_nil_of_length_eq_zero (Nat.le_zero.mp hFuel)
          rfl
      | succ fuel =>
          rw [readChunks]
          by_cases hEmpty : file = []
          · simp [hEmpty]
          · have hLength := List.length_pos_iff.mpr hEmpty
            have hTake : file.take size ≠ [] := by simp [hEmpty, Nat.ne_of_gt hSize]
            simp [hTake, hLength, fileChunk]
  | succ k ih =>
      intro file hFuel
      cases fuel with
      | zero =>
          obtain rfl := List.eq_nil_of_length_eq_zero (Nat.le_zero.mp hFuel)
          simp [readChunks]
      | succ fuel =>
          rw [readChunks, Nat.succ_mul]
          by_cases hEmpty : file = []
          · simp [hEmpty]
          · have hLength := List.length_pos_iff.mpr hEmpty
            have hTake : file.take size ≠ [] := by simp [hEmpty, Nat.ne_of_gt hSize]
            rw [if_neg hTake, List.getElem?_cons_succ, ih fuel _ (by simp; omega)]
            simp only [List.length_drop, fileChunk, List.drop_drop, Nat.succ_mul,
              Nat.add_comm size]
            have hIff : k * size < file.length - size ↔ k * size + size < file.length := by omega
            simp only [hIff]

theorem length_fileChunk (size : Nat) (file : List α) (k : Nat) :
    (fileChunk size file k).length = chunkLength size file.length k := by
  rw [fileChunk, List.length_take, List.length_drop, chunkLength]

theorem getElem?_fileChunk (size : Nat) (file : List α) (k i : Nat) :
    (fileChunk size file k)[i]? = if i < size then file[k * size + i]? else none := by
  rw [fileChunk, List.getElem?_take, List.getElem?_drop]

theorem getElem?_writeAt (fill : α) {file : List α} {pos : Nat} (hPos : pos ≤ file.length)
    (data : List α) (i : Nat) : (writeAt fill file pos data)[i]? =
      if i < pos then file[i]? else if i < pos + data.length then data[i - pos]? else file[i]? := by
  have hFill : pos - file.length = 0 := by omega
  have hTake : (file.take pos).length = pos := by rw [List.length_take]; omega
  simp only [writeAt, hFill, List.replicate_zero, List.append_nil, List.append_assoc]
  rw [List.getElem?_append, hTake]
  split
  · next hBefore => rw [List.getElem?_take, if_pos hBefore]
  · rw [List.getElem?_append]
    split
    · next hAfter hIn => rw [if_pos (by omega)]
    · next hAfter hIn =>
        rw [if_neg (by omega), List.getElem?_drop]
        congr 1
        omega

theorem length_writeAt (fill : α) {file : List α} {pos : Nat} (hPos : pos ≤ file.length)
    (data : List α) : (writeAt fill file pos data).length = max file.length (pos + data.length) := by
  simp only [writeAt, List.length_append, List.length_take, List.length_replicate, List.length_drop]
  omega

/-- A chunk that is written is there, when the file does not go on behind it within the place
of the chunk. -/
theorem fileChunk_writeAt_self (fill : α) {size k : Nat} {file data : List α}
    (hPos : k * size ≤ file.length) (hData : data.length ≤ size)
    (hEnd : data.length = size ∨ file.length ≤ k * size + data.length) :
    fileChunk size (writeAt fill file (k * size) data) k = data := by
  refine List.ext_getElem? fun i => ?_
  rw [getElem?_fileChunk, getElem?_writeAt fill hPos]
  split
  · next hIn =>
      rw [if_neg (by omega)]
      split
      · congr 1
        omega
      · next hOut =>
          rw [List.getElem?_eq_none (by omega), List.getElem?_eq_none (by omega)]
  · next hOut => exact (List.getElem?_eq_none (by omega)).symm

/-- The other chunks stay. -/
theorem fileChunk_writeAt_ne (fill : α) {size k j : Nat} {file data : List α} (hNe : j ≠ k)
    (hPos : k * size ≤ file.length) (hData : data.length ≤ size) :
    fileChunk size (writeAt fill file (k * size) data) j = fileChunk size file j := by
  refine List.ext_getElem? fun i => ?_
  rw [getElem?_fileChunk, getElem?_fileChunk, getElem?_writeAt fill hPos]
  split
  · next hIn =>
      rcases Nat.lt_or_gt_of_ne hNe with hBefore | hAfter
      · have hNext : (j + 1) * size ≤ k * size := Nat.mul_le_mul_right size hBefore
        rw [Nat.succ_mul] at hNext
        rw [if_pos (by omega)]
      · have hNext : (k + 1) * size ≤ j * size := Nat.mul_le_mul_right size hAfter
        rw [Nat.succ_mul] at hNext
        rw [if_neg (by omega), if_neg (by omega)]
  · rfl

/-- A file that is not too long and has its last chunk in full length has its length. -/
theorem length_of_chunks {size length count : Nat} {file : List α}
    (hCount : length ≤ count * size) (hShort : file.length ≤ length)
    (hFull : ∀ k < count, (fileChunk size file k).length = chunkLength size length k) :
    file.length = length := by
  by_cases hSize : size = 0
  · rw [hSize, Nat.mul_zero] at hCount
    omega
  · by_cases hEmpty : length = 0
    · omega
    · have hEnd := Nat.div_add_mod (length - 1) size
      have hIn := Nat.mod_lt (length - 1) (Nat.pos_of_ne_zero hSize)
      rw [Nat.mul_comm] at hEnd
      have hLast : (length - 1) / size < count := by
        by_contra hOut
        have hPast := Nat.mul_le_mul_right size (Nat.le_of_not_lt hOut)
        omega
      have hFull := hFull _ hLast
      rw [length_fileChunk, chunkLength, chunkLength] at hFull
      omega

/-- A chunk in front of another one that is part of the file is full. -/
theorem chunkLength_of_lt {size length j k : Nat} (hLess : j < k) (hIn : k * size < length) :
    chunkLength size length j = size := by
  have hNext : (j + 1) * size ≤ k * size := Nat.mul_le_mul_right size hLess
  rw [Nat.succ_mul] at hNext
  rw [chunkLength]
  omega

end PageCamel.Lib
