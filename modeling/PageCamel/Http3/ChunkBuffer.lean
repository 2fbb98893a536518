import Mathlib.Data.List.Nodup
import PageCamel.Http3.SendBuffer

/-!
The response body of an HTTP/3 stream in memory (`h3_buffer.c`): a list of chunks
that are never moved, the counters over it, and the three cursors. `size_t` has 64
bits, and its arithmetic wraps.
-/

namespace PageCamel.Http3
open PageCamel.Lib

/-- `H3_CHUNK_SIZE`. -/
def chunkSize : Nat := 65536

/-- The number of values of a `size_t`. -/
def sizeLimit : Nat := 2 ^ 64

def addSize (a b : Nat) : Nat := (a + b) % sizeLimit

def subSize (a b : Nat) : Nat := (a + (sizeLimit - b)) % sizeLimit

theorem addSize_of_lt {a b : Nat} (h : a + b < sizeLimit) : addSize a b = a + b :=
  Nat.mod_eq_of_lt h

theorem subSize_of_le {a b : Nat} (hLe : b ≤ a) (hLimit : a < sizeLimit) :
    subSize a b = a - b := by
  have hSum : a + (sizeLimit - b) = a - b + sizeLimit := by omega
  rw [subSize, hSum, Nat.add_mod_right]
  exact Nat.mod_eq_of_lt (by omega)

/-- `h3_data_chunk_t`: where it lies, and the octets of it that are in use. -/
structure DataChunk where
  address : Nat
  data : Octets
  deriving DecidableEq, Repr

/-- `malloc`, successful: an address where no chunk lies. -/
structure Allocator where
  malloc : List Nat → Nat
  fresh : ∀ used, malloc used ∉ used

/-- `h3_stream_buffer_t`, with the chunks in the order of their `next` pointers. -/
structure ChunkBuffer where
  chunks : List DataChunk := []
  writeChunk : Option Nat := none
  totalLen : Nat := 0
  consumedBytes : Nat := 0
  ackedBytes : Nat := 0
  freedBytes : Nat := 0
  eof : Bool := false
  deriving DecidableEq, Repr

namespace ChunkBuffer

def chunkAt (b : ChunkBuffer) (address : Nat) : Option DataChunk :=
  b.chunks.find? (·.address == address)

def lenAt (b : ChunkBuffer) (address : Nat) : Nat :=
  ((b.chunkAt address).map (·.data.length)).getD 0

/-- `alloc_chunk`, and the new chunk appended to the list. -/
def appendChunk (malloc : Allocator) (b : ChunkBuffer) : ChunkBuffer × Nat :=
  let address := malloc.malloc (b.chunks.map (·.address))
  let newChunk : DataChunk := { address, data := [] }
  ({ b with
      chunks := if b.writeChunk.isSome then b.chunks ++ [newChunk] else [newChunk]
      writeChunk := some address }, address)

/-- Get or create the write chunk. -/
def getWriteChunk (malloc : Allocator) (b : ChunkBuffer) : ChunkBuffer × Nat :=
  match b.writeChunk with
  | none => b.appendChunk malloc
  | some address =>
      if chunkSize ≤ b.lenAt address then b.appendChunk malloc else (b, address)

/-- The `memcpy` behind the octets of a chunk. -/
def copy (b : ChunkBuffer) (address : Nat) (data : Octets) : ChunkBuffer :=
  { b with
    chunks := b.chunks.map fun c =>
      if c.address = address then { c with data := c.data ++ data } else c
    totalLen := addSize b.totalLen data.length }

/-- The loop of `h3_buffer_write`; every turn copies an octet at least. -/
def writeLoop (malloc : Allocator) : Nat → ChunkBuffer → Octets → ChunkBuffer
  | 0, b, _ => b
  | _ + 1, b, [] => b
  | turns + 1, b, data =>
      let (b, address) := b.getWriteChunk malloc
      let toCopy := min data.length (chunkSize - b.lenAt address)
      writeLoop malloc turns (b.copy address (data.take toCopy)) (data.drop toCopy)

/-- `h3_buffer_write`. -/
def write (malloc : Allocator) (b : ChunkBuffer) (data : Octets) : ChunkBuffer :=
  writeLoop malloc data.length b data

/-- `h3_buffer_set_eof`. -/
def setEof (b : ChunkBuffer) : ChunkBuffer := { b with eof := true }

/-- `h3_buffer_read_result_t`; the base is a chunk and an offset in it. -/
structure ReadResult where
  base : Option (Nat × Nat) := none
  len : Nat := 0
  eof : Bool := false
  deriving DecidableEq, Repr

/-- Skip to the chunk containing the position. -/
def seek : List DataChunk → Nat → Option (DataChunk × Nat)
  | [], _ => none
  | c :: cs, pos =>
      if c.data.length ≤ pos then seek cs (pos - c.data.length) else some (c, pos)

/-- `h3_buffer_read`, and whether it returns 1. -/
def read (b : ChunkBuffer) : ReadResult × Bool :=
  match seek b.chunks (subSize b.consumedBytes b.freedBytes) with
  | none => ({ eof := b.eof }, b.eof)
  | some (c, pos) =>
      let avail := c.data.length - pos
      if 0 < avail then
        ({ base := some (c.address, pos)
           len := avail
           eof := b.eof && decide (b.totalLen ≤ addSize b.consumedBytes avail) }, true)
      else ({ eof := b.eof }, b.eof)

/-- `h3_buffer_pending`. -/
def pending (b : ChunkBuffer) : Nat :=
  if b.consumedBytes < b.totalLen then b.totalLen - b.consumedBytes else 0

/-- `h3_buffer_consume`. -/
def consume (b : ChunkBuffer) (bytes : Nat) : ChunkBuffer :=
  { b with
    consumedBytes :=
      addSize b.consumedBytes (if b.pending < bytes then b.pending else bytes) }

/-- `h3_buffer_ack`. -/
def ack (b : ChunkBuffer) (bytes : Nat) : ChunkBuffer :=
  { b with ackedBytes := addSize b.ackedBytes bytes }

/-- `h3_buffer_in_flight`. -/
def inFlight (b : ChunkBuffer) : Nat :=
  if b.ackedBytes < b.consumedBytes then b.consumedBytes - b.ackedBytes else 0

/-- The loop of `h3_buffer_flush_acked`: the chunks that remain and the octets freed. -/
def flushLoop (writeChunk : Option Nat) (acked : Nat) :
    List DataChunk → Nat → List DataChunk × Nat
  | [], freed => ([], freed)
  | c :: cs, freed =>
      if some c.address ≠ writeChunk ∧ addSize freed c.data.length ≤ acked then
        flushLoop writeChunk acked cs (addSize freed c.data.length)
      else (c :: cs, freed)

/-- `h3_buffer_flush_acked`. -/
def flushAcked (b : ChunkBuffer) : ChunkBuffer :=
  let remaining := flushLoop b.writeChunk b.ackedBytes b.chunks b.freedBytes
  { b with chunks := remaining.1, freedBytes := remaining.2 }

/-- `h3_buffer_memory_usage`. -/
def memoryUsage (b : ChunkBuffer) : Nat :=
  if b.freedBytes < b.totalLen then b.totalLen - b.freedBytes else 0

/-- The octets a slice points to, as long as its chunk has not been freed. -/
def contents (b : ChunkBuffer) (base : Nat × Nat) (len : Nat) : Option Octets :=
  (b.chunkAt base.1).map fun c => (c.data.drop base.2).take len

@[simp] theorem consumedBytes_ack (b : ChunkBuffer) (bytes : Nat) :
    (b.ack bytes).consumedBytes = b.consumedBytes := rfl

@[simp] theorem consumedBytes_flushAcked (b : ChunkBuffer) :
    b.flushAcked.consumedBytes = b.consumedBytes := rfl

@[simp] theorem consumedBytes_setEof (b : ChunkBuffer) :
    b.setEof.consumedBytes = b.consumedBytes := rfl

@[simp] theorem eof_getWriteChunk (malloc : Allocator) (b : ChunkBuffer) :
    (b.getWriteChunk malloc).1.eof = b.eof := by
  rw [getWriteChunk]
  split
  · rfl
  · split
    · rfl
    · rfl

theorem eof_writeLoop (malloc : Allocator) (turns : Nat) (b : ChunkBuffer) (data : Octets) :
    (b.writeLoop malloc turns data).eof = b.eof := by
  induction turns generalizing b data with
  | zero => rfl
  | succ turns ih =>
      cases data with
      | nil => rfl
      | cons octet data =>
          rw [writeLoop]
          · exact (ih ..).trans (eof_getWriteChunk malloc b)
          · exact List.cons_ne_nil _ _

theorem writeLoop_nil (malloc : Allocator) (turns : Nat) (b : ChunkBuffer) :
    b.writeLoop malloc turns [] = b := by
  cases turns with
  | zero => rfl
  | succ turns => rfl

/-- Writing what fits into the write chunk takes one turn. -/
theorem write_one (malloc : Allocator) (b : ChunkBuffer) {data : Octets} (hData : data ≠ [])
    (hRoom : data.length ≤ chunkSize - (b.getWriteChunk malloc).1.lenAt (b.getWriteChunk malloc).2) :
    b.write malloc data =
      (b.getWriteChunk malloc).1.copy (b.getWriteChunk malloc).2 data := by
  cases data with
  | nil => exact absurd rfl hData
  | cons octet data =>
      rw [write, List.length_cons, writeLoop]
      · dsimp only
        rw [Nat.min_eq_left hRoom, List.take_length, List.drop_length, writeLoop_nil]
      · exact List.cons_ne_nil _ _
/-! ### The chunks -/

/-- Every chunk but the write chunk is full, and the write chunk is the last one. -/
inductive Shape : List DataChunk → Option Nat → Prop
  | empty : Shape [] none
  | chunks {full : List DataChunk} {address : Nat} {data : Octets}
      (hFull : ∀ c ∈ full, c.data.length = chunkSize) (hData : 0 < data.length)
      (hLe : data.length ≤ chunkSize)
      (hDistinct : ((full ++ [DataChunk.mk address data]).map DataChunk.address).Nodup) :
      Shape (full ++ [DataChunk.mk address data]) (some address)

/-- The chunks stay where they are, with what is in them. -/
def Grown (cs cs' : List DataChunk) : Prop :=
  ∀ front c rest, cs = front ++ c :: rest →
    ∃ more rest', cs' = front ++ { c with data := c.data ++ more } :: rest'

theorem Grown.refl (cs : List DataChunk) : Grown cs cs := by
  rintro front c rest rfl
  exact ⟨[], rest, by rw [List.append_nil]⟩

theorem Grown.trans {cs cs' cs'' : List DataChunk} (h : Grown cs cs') (h' : Grown cs' cs'') :
    Grown cs cs'' := by
  intro front c rest hSplit
  obtain ⟨more, rest', hMore⟩ := h front c rest hSplit
  obtain ⟨more', rest'', hMore'⟩ := h' front _ rest' hMore
  exact ⟨more ++ more', rest'', by rw [hMore', List.append_assoc]⟩

theorem Grown.append (cs new : List DataChunk) : Grown cs (cs ++ new) := by
  rintro front c rest rfl
  exact ⟨[], rest ++ new, by rw [List.append_nil, List.append_assoc, List.cons_append]⟩

theorem Grown.extend (full : List DataChunk) (address : Nat) (data more : Octets) :
    Grown (full ++ [DataChunk.mk address data]) (full ++ [DataChunk.mk address (data ++ more)]) := by
  intro front c rest hSplit
  rcases List.eq_nil_or_concat rest with rfl | ⟨rest, last, rfl⟩
  · obtain ⟨rfl, hLast⟩ := List.append_inj' hSplit rfl
    obtain rfl := List.singleton_inj.mp hLast
    exact ⟨more, [], rfl⟩
  · rw [List.concat_eq_append, ← List.cons_append, ← List.append_assoc] at hSplit
    obtain ⟨rfl, hLast⟩ := List.append_inj' hSplit rfl
    exact ⟨[], rest ++ [DataChunk.mk address (data ++ more)], by simp⟩

theorem find?_address {cs : List DataChunk} (hDistinct : (cs.map DataChunk.address).Nodup)
    {c : DataChunk} (hMem : c ∈ cs) : cs.find? (·.address == c.address) = some c := by
  induction cs with
  | nil => cases hMem
  | cons c' cs ih =>
      rw [List.map_cons, List.nodup_cons] at hDistinct
      rcases List.mem_cons.mp hMem with rfl | hMem
      · exact List.find?_cons_of_pos (beq_self_eq_true _)
      · have hOther : c'.address ≠ c.address := by
          intro hSame
          exact hDistinct.1 (hSame ▸ List.mem_map_of_mem hMem)
        rw [List.find?_cons_of_neg (by simpa using hOther)]
        exact ih hDistinct.2 hMem

theorem Shape.distinct {cs : List DataChunk} {w : Option Nat} (h : Shape cs w) :
    (cs.map DataChunk.address).Nodup := by
  cases h with
  | empty => exact List.nodup_nil
  | chunks _ _ _ hDistinct => exact hDistinct

theorem chunkAt_last {b : ChunkBuffer} {full : List DataChunk} {c : DataChunk}
    (hChunks : b.chunks = full ++ [c]) (hDistinct : (b.chunks.map DataChunk.address).Nodup) :
    b.lenAt c.address = c.data.length := by
  have hMem : c ∈ b.chunks := by rw [hChunks]; exact List.mem_concat_self
  rw [lenAt, chunkAt, find?_address hDistinct hMem]
  rfl

theorem nodup_malloc (malloc : Allocator) {cs : List DataChunk}
    (hDistinct : (cs.map DataChunk.address).Nodup) (data : Octets) :
    ((cs ++ [DataChunk.mk (malloc.malloc (cs.map (·.address))) data]).map DataChunk.address).Nodup := by
  rw [List.map_append, List.map_singleton, ← List.concat_eq_append]
  exact hDistinct.concat (malloc.fresh _)

/-- The write chunk has room, and is the last one. -/
theorem getWriteChunk_spec (malloc : Allocator) {b : ChunkBuffer}
    (h : Shape b.chunks b.writeChunk) :
    ∃ full address data,
      b.getWriteChunk malloc =
        ({ b with chunks := full ++ [DataChunk.mk address data], writeChunk := some address }, address) ∧
      (∀ c ∈ full, c.data.length = chunkSize) ∧ data.length < chunkSize ∧
      ((full ++ [DataChunk.mk address data]).map DataChunk.address).Nodup ∧
      (b.chunks = full ∧ data = [] ∨ b.chunks = full ++ [DataChunk.mk address data]) := by
  generalize hChunks : b.chunks = cs at h
  generalize hWrite : b.writeChunk = w at h
  cases h with
  | empty =>
      refine ⟨[], malloc.malloc [], [], ?_, ?_, by decide, List.nodup_singleton _, .inl ⟨rfl, rfl⟩⟩
      · simp only [getWriteChunk, appendChunk, hWrite, hChunks, List.map_nil, List.nil_append,
          Option.isSome_none, Bool.false_eq_true, if_false]
      · exact fun c hMem => by cases hMem
  | @chunks full address data hFull hData hLe hDistinct =>
      have hLen : b.lenAt address = data.length :=
        chunkAt_last hChunks (hChunks ▸ hDistinct)
      simp only [getWriteChunk, hWrite, hLen]
      split
      · next hLong =>
          refine ⟨_, malloc.malloc ((full ++ [DataChunk.mk address data]).map (·.address)), [],
            ?_, ?_, by decide, nodup_malloc malloc hDistinct [], .inl ⟨rfl, rfl⟩⟩
          · simp only [appendChunk, hWrite, hChunks, Option.isSome_some, if_true]
          · intro c hMem
            rcases List.mem_append.mp hMem with hMem | hMem
            · exact hFull c hMem
            · obtain rfl := List.mem_singleton.mp hMem
              exact Nat.le_antisymm hLe hLong
      · next hShort =>
          refine ⟨full, address, data, ?_, hFull, Nat.lt_of_not_le hShort, hDistinct, .inr rfl⟩
          rw [← hChunks, ← hWrite]

theorem copy_last {b : ChunkBuffer} {full : List DataChunk} {address : Nat} {data : Octets}
    (hChunks : b.chunks = full ++ [DataChunk.mk address data])
    (hDistinct : (b.chunks.map DataChunk.address).Nodup) (more : Octets) :
    b.copy address more =
      { b with
        chunks := full ++ [DataChunk.mk address (data ++ more)]
        totalLen := addSize b.totalLen more.length } := by
  rw [hChunks, List.map_append, List.nodup_append] at hDistinct
  have hFront : ∀ c ∈ full, (if c.address = address then
      { c with data := c.data ++ more } else c) = c := by
    intro c hMem
    rw [if_neg]
    exact hDistinct.2.2 _ (List.mem_map_of_mem hMem) _ (List.mem_singleton_self _)
  rw [copy, hChunks, List.map_append, List.map_congr_left hFront, List.map_id',
    List.map_singleton, if_pos rfl]

/-! ### The counters -/

/-- All octets of the chunks, in order. -/
def held (cs : List DataChunk) : Octets := cs.flatMap (·.data)

@[simp] theorem held_append (cs cs' : List DataChunk) : held (cs ++ cs') = held cs ++ held cs' :=
  List.flatMap_append

@[simp] theorem held_cons (c : DataChunk) (cs : List DataChunk) :
    held (c :: cs) = c.data ++ held cs := rfl

@[simp] theorem held_nil : held [] = [] := rfl

/-- The buffer after these octets have been written to it. -/
structure Holds (b : ChunkBuffer) (written : Octets) : Prop where
  shape : Shape b.chunks b.writeChunk
  total : b.totalLen = written.length
  limit : b.totalLen < sizeLimit
  freed_acked : b.freedBytes ≤ b.ackedBytes
  acked_consumed : b.ackedBytes ≤ b.consumedBytes
  consumed_total : b.consumedBytes ≤ b.totalLen
  held : held b.chunks = written.drop b.freedBytes

theorem Holds.start : Holds {} [] :=
  ⟨.empty, rfl, by decide, Nat.le_refl _, Nat.le_refl _, Nat.le_refl _, rfl⟩

/-- Writing moves no cursor and no chunk. -/
structure Wrote (b b' : ChunkBuffer) : Prop where
  grown : Grown b.chunks b'.chunks
  consumed : b'.consumedBytes = b.consumedBytes
  acked : b'.ackedBytes = b.ackedBytes
  freed : b'.freedBytes = b.freedBytes
  eof : b'.eof = b.eof

theorem Wrote.refl (b : ChunkBuffer) : Wrote b b := ⟨.refl _, rfl, rfl, rfl, rfl⟩

theorem Wrote.trans {b b' b'' : ChunkBuffer} (h : Wrote b b') (h' : Wrote b' b'') : Wrote b b'' :=
  ⟨h.grown.trans h'.grown, h'.consumed.trans h.consumed, h'.acked.trans h.acked,
    h'.freed.trans h.freed, h'.eof.trans h.eof⟩

/-- One turn of the loop. -/
theorem Holds.turn {b : ChunkBuffer} {written : Octets} (h : Holds b written)
    (malloc : Allocator) {data : Octets} (hData : data ≠ [])
    (hLimit : written.length + data.length < sizeLimit) :
    ∃ n, 0 < n ∧ n ≤ data.length ∧
      let room := b.getWriteChunk malloc
      min data.length (chunkSize - room.1.lenAt room.2) = n ∧
        Holds (room.1.copy room.2 (data.take n)) (written ++ data.take n) ∧
        Wrote b (room.1.copy room.2 (data.take n)) := by
  obtain ⟨full, address, old, hEq, hFull, hRoom, hDistinct, hOld⟩ :=
    getWriteChunk_spec malloc h.shape
  rw [hEq]
  dsimp only
  have hPositive := List.length_pos_iff.mpr hData
  obtain ⟨n, hn⟩ : ∃ n, n = min data.length (chunkSize - old.length) := ⟨_, rfl⟩
  have hCopied : (data.take n).length = n := List.length_take_of_le (by omega)
  have hBefore := h.total
  have hTotal : addSize b.totalLen (data.take n).length = written.length + n := by
    rw [hCopied, h.total]
    exact addSize_of_lt (by omega)
  have hFreed : b.freedBytes ≤ written.length := by
    have hChain := h.freed_acked.trans (h.acked_consumed.trans h.consumed_total)
    omega
  refine ⟨n, by omega, by omega, ?_, ?_⟩
  · rw [chunkAt_last (c := DataChunk.mk address old) rfl hDistinct]
    exact hn.symm
  · rw [copy_last rfl hDistinct]
    constructor
    · refine ⟨.chunks hFull ?_ ?_ ?_, ?_, ?_, h.freed_acked, h.acked_consumed, ?_, ?_⟩
      · rw [List.length_append, hCopied]
        omega
      · rw [List.length_append, hCopied]
        omega
      · simpa using hDistinct
      · dsimp only
        rw [hTotal, List.length_append, hCopied]
      · dsimp only
        rw [hTotal]
        omega
      · dsimp only
        rw [hTotal]
        exact h.consumed_total.trans (by omega)
      · have hHeld := h.held
        dsimp only
        rw [List.drop_append_of_le_length hFreed, ← hHeld]
        rcases hOld with ⟨hChunks, rfl⟩ | hChunks
        · simp [hChunks]
        · simp [hChunks]
    · refine ⟨?_, rfl, rfl, rfl, rfl⟩
      rcases hOld with ⟨hChunks, rfl⟩ | hChunks
      · rw [hChunks]
        exact .append full [_]
      · rw [hChunks]
        exact .extend full address old _

theorem Holds.writeLoop (malloc : Allocator) (turns : Nat) :
    ∀ {b : ChunkBuffer} {written data : Octets}, Holds b written → data.length ≤ turns →
      written.length + data.length < sizeLimit →
      Holds (b.writeLoop malloc turns data) (written ++ data) ∧
        Wrote b (b.writeLoop malloc turns data) := by
  induction turns with
  | zero =>
      intro b written data h hTurns _
      rw [List.eq_nil_of_length_eq_zero (Nat.le_zero.mp hTurns), List.append_nil]
      exact ⟨h, .refl b⟩
  | succ turns ih =>
      intro b written data h hTurns hLimit
      cases data with
      | nil =>
          rw [List.append_nil]
          exact ⟨h, .refl b⟩
      | cons octet data =>
          obtain ⟨n, hPositive, hLe, hCopy, hHolds, hWrote⟩ := h.turn malloc (by simp) hLimit
          rw [ChunkBuffer.writeLoop]
          · dsimp only
            rw [hCopy]
            have hLength : ((octet :: data).drop n).length = (octet :: data).length - n :=
              List.length_drop
            have hTaken : ((octet :: data).take n).length = n := List.length_take_of_le hLe
            obtain ⟨hAll, hRest⟩ := @ih _ _ ((octet :: data).drop n) hHolds (by omega)
              (by rw [List.length_append]; omega)
            rw [List.append_assoc, List.take_append_drop] at hAll
            exact ⟨hAll, hWrote.trans hRest⟩
          · simp

/-- `h3_buffer_write` appends all of the data. -/
theorem Holds.write {b : ChunkBuffer} {written : Octets} (h : Holds b written)
    (malloc : Allocator) {data : Octets} (hLimit : written.length + data.length < sizeLimit) :
    Holds (b.write malloc data) (written ++ data) ∧ Wrote b (b.write malloc data) :=
  Holds.writeLoop malloc data.length h (Nat.le_refl _) hLimit

theorem Holds.setEof {b : ChunkBuffer} {written : Octets} (h : Holds b written) :
    Holds b.setEof written :=
  ⟨h.shape, h.total, h.limit, h.freed_acked, h.acked_consumed, h.consumed_total, h.held⟩

theorem Holds.consumed_consume {b : ChunkBuffer} {written : Octets} (h : Holds b written)
    (bytes : Nat) :
    (b.consume bytes).consumedBytes =
      b.consumedBytes + min bytes (b.totalLen - b.consumedBytes) := by
  have hLe := h.consumed_total
  have hLimit := h.limit
  have hPending : b.pending = b.totalLen - b.consumedBytes := by
    rw [pending]
    split <;> omega
  have hBytes : (if b.pending < bytes then b.pending else bytes) =
      min bytes (b.totalLen - b.consumedBytes) := by
    rw [hPending]
    split <;> omega
  rw [consume]
  dsimp only
  rw [hBytes]
  exact addSize_of_lt (by omega)

theorem Holds.consume {b : ChunkBuffer} {written : Octets} (h : Holds b written) (bytes : Nat) :
    Holds (b.consume bytes) written := by
  have hConsumed := h.consumed_consume bytes
  have hLe := h.consumed_total
  refine ⟨h.shape, h.total, h.limit, h.freed_acked, ?_, ?_, h.held⟩
  · rw [hConsumed]
    exact h.acked_consumed.trans (Nat.le_add_right ..)
  · rw [hConsumed]
    change _ ≤ b.totalLen
    omega

theorem Holds.inFlight {b : ChunkBuffer} {written : Octets} (h : Holds b written) :
    b.inFlight = b.consumedBytes - b.ackedBytes := by
  have hLe := h.acked_consumed
  rw [ChunkBuffer.inFlight]
  split <;> omega

theorem Holds.acked_ack {b : ChunkBuffer} {written : Octets} (h : Holds b written) {bytes : Nat}
    (hBytes : bytes ≤ b.inFlight) : (b.ack bytes).ackedBytes = b.ackedBytes + bytes := by
  have hAcked := h.acked_consumed
  have hConsumed := h.consumed_total
  have hLimit := h.limit
  rw [h.inFlight] at hBytes
  exact addSize_of_lt (by omega)

theorem Holds.ack {b : ChunkBuffer} {written : Octets} (h : Holds b written) {bytes : Nat}
    (hBytes : bytes ≤ b.inFlight) : Holds (b.ack bytes) written := by
  have hAcked := h.acked_ack hBytes
  have hLe := h.acked_consumed
  rw [h.inFlight] at hBytes
  refine ⟨h.shape, h.total, h.limit, ?_, ?_, h.consumed_total, h.held⟩
  · rw [hAcked]
    exact h.freed_acked.trans (Nat.le_add_right ..)
  · rw [hAcked]
    change _ ≤ b.consumedBytes
    omega

/-! ### Reading -/

theorem seek_none {cs : List DataChunk} {pos : Nat} (h : seek cs pos = none) :
    (held cs).length ≤ pos := by
  induction cs generalizing pos with
  | nil => exact Nat.zero_le _
  | cons c cs ih =>
      rw [seek] at h
      split at h
      · next hLe =>
          have hRest := ih h
          rw [held_cons, List.length_append]
          omega
      · cases h

theorem seek_some {cs : List DataChunk} {pos offset : Nat} {c : DataChunk}
    (h : seek cs pos = some (c, offset)) :
    ∃ front rest, cs = front ++ c :: rest ∧ pos = (held front).length + offset ∧
      offset < c.data.length := by
  induction cs generalizing pos with
  | nil => cases h
  | cons c' cs ih =>
      rw [seek] at h
      split at h
      · next hLe =>
          obtain ⟨front, rest, hSplit, hPos, hOffset⟩ := ih h
          refine ⟨c' :: front, rest, by rw [hSplit, List.cons_append], ?_, hOffset⟩
          rw [held_cons, List.length_append]
          omega
      · next hLt =>
          cases h
          exact ⟨[], cs, rfl, (Nat.zero_add _).symm, Nat.lt_of_not_le hLt⟩

/-- Where a slice lies: in a chunk, from the octet to be read next to the end of the
chunk. -/
structure Slice (b : ChunkBuffer) (front : List DataChunk) (c : DataChunk)
    (rest : List DataChunk) (offset : Nat) : Prop where
  chunks : b.chunks = front ++ c :: rest
  position : b.freedBytes + (held front).length + offset = b.consumedBytes
  inside : offset < c.data.length

/-- `h3_buffer_read`: a slice, or nothing once all is read. -/
theorem Holds.read {b : ChunkBuffer} {written : Octets} (h : Holds b written) :
    b.consumedBytes = b.totalLen ∧ b.read = ({ eof := b.eof }, b.eof) ∨
      ∃ front c rest offset, Slice b front c rest offset ∧
        b.consumedBytes + (c.data.length - offset) ≤ b.totalLen ∧
        b.read =
          ({ base := some (c.address, offset)
             len := c.data.length - offset
             eof := b.eof &&
              decide (b.totalLen ≤ b.consumedBytes + (c.data.length - offset)) }, true) := by
  have hFreed := h.freed_acked.trans h.acked_consumed
  have hConsumed := h.consumed_total
  have hLimit := h.limit
  have hTotal := h.total
  have hHeld : (ChunkBuffer.held b.chunks).length = b.totalLen - b.freedBytes := by
    rw [h.held, List.length_drop, h.total]
  have hPos := subSize_of_le hFreed (by omega)
  rw [ChunkBuffer.read]
  cases hSeek : seek b.chunks (subSize b.consumedBytes b.freedBytes) with
  | none =>
      have hEnd := seek_none hSeek
      exact .inl ⟨by omega, rfl⟩
  | some found =>
      obtain ⟨c, offset⟩ := found
      obtain ⟨front, rest, hSplit, hPosition, hOffset⟩ := seek_some hSeek
      have hLength : (ChunkBuffer.held b.chunks).length =
          (ChunkBuffer.held front).length + (c.data.length + (ChunkBuffer.held rest).length) := by
        rw [hSplit, held_append, held_cons, List.length_append, List.length_append]
      refine .inr ⟨front, c, rest, offset, ⟨hSplit, by omega, hOffset⟩, by omega, ?_⟩
      dsimp only
      rw [if_pos (by omega), addSize_of_lt (by omega)]

theorem Slice.contents {b : ChunkBuffer} {front rest : List DataChunk} {c : DataChunk}
    {offset : Nat} (h : Slice b front c rest offset)
    (hDistinct : (b.chunks.map DataChunk.address).Nodup) (len : Nat) :
    b.contents (c.address, offset) len = some ((c.data.drop offset).take len) := by
  have hMem : c ∈ b.chunks := by
    rw [h.chunks]
    exact List.mem_append_right _ (List.mem_cons_self ..)
  rw [ChunkBuffer.contents, chunkAt, find?_address hDistinct hMem]
  rfl

/-- A slice holds the octets that come next. -/
theorem Slice.octets {b : ChunkBuffer} {written : Octets} (hHolds : Holds b written)
    {front rest : List DataChunk} {c : DataChunk} {offset : Nat}
    (h : Slice b front c rest offset) :
    (written.drop b.consumedBytes).take (c.data.length - offset) = c.data.drop offset := by
  have hPosition := h.position
  have hInside := h.inside
  rw [← h.position, Nat.add_assoc, ← List.drop_drop, ← hHolds.held, h.chunks, held_append,
    List.drop_append, List.drop_of_length_le (Nat.le_add_right ..), List.nil_append,
    Nat.add_sub_cancel_left, held_cons, List.drop_append_of_le_length (Nat.le_of_lt hInside)]
  exact List.take_left' List.length_drop

/-! ### Freeing -/

/-- `h3_buffer_flush_acked`: chunks go from the front on, as far as they have been
acknowledged, and never the write chunk. -/
theorem flushLoop_spec {w : Option Nat} {acked : Nat} :
    ∀ {cs : List DataChunk} {freed : Nat}, freed + (held cs).length < sizeLimit →
      ∃ gone, cs = gone ++ (flushLoop w acked cs freed).1 ∧
        (flushLoop w acked cs freed).2 = freed + (held gone).length ∧
        (gone = [] ∨ freed + (held gone).length ≤ acked) ∧ ∀ c ∈ gone, some c.address ≠ w
  | [], freed, _ => ⟨[], rfl, rfl, .inl rfl, fun c hMem => by cases hMem⟩
  | c :: cs, freed, hHeld => by
      rw [held_cons, List.length_append] at hHeld
      have hNext : addSize freed c.data.length = freed + c.data.length :=
        addSize_of_lt (by omega)
      rw [flushLoop, hNext]
      split
      · next hFree =>
          obtain ⟨gone, hSplit, hCount, hAcked, hKept⟩ :=
            @flushLoop_spec w acked cs (freed + c.data.length) (by omega)
          have hLength : (held (c :: gone)).length = c.data.length + (held gone).length := by
            rw [held_cons, List.length_append]
          refine ⟨c :: gone, by rw [List.cons_append, ← hSplit], by omega, .inr ?_, ?_⟩
          · rcases hAcked with rfl | hAcked
            · rw [hLength, held_nil, List.length_nil]
              exact hFree.2
            · omega
          · intro c' hMem
            rcases List.mem_cons.mp hMem with rfl | hMem
            · exact hFree.1
            · exact hKept c' hMem
      · exact ⟨[], rfl, rfl, .inl rfl, fun c hMem => by cases hMem⟩

theorem Shape.drop {gone cs : List DataChunk} {w : Option Nat} (h : Shape (gone ++ cs) w)
    (hKept : ∀ c ∈ gone, some c.address ≠ w) : Shape cs w := by
  generalize hAll : gone ++ cs = all at h
  cases h with
  | empty =>
      obtain ⟨-, rfl⟩ := List.append_eq_nil_iff.mp hAll
      exact .empty
  | @chunks full address data hFull hData hLe hDistinct =>
      rcases List.eq_nil_or_concat cs with rfl | ⟨cs, last, rfl⟩
      · rw [List.append_nil] at hAll
        have hTail : DataChunk.mk address data ∈ gone := by
          rw [hAll]
          exact List.mem_concat_self
        exact absurd rfl (hKept _ hTail)
      · rw [List.concat_eq_append, ← List.append_assoc] at hAll
        obtain ⟨rfl, hLast⟩ := List.append_inj' hAll rfl
        obtain rfl := List.singleton_inj.mp hLast
        rw [List.concat_eq_append]
        refine .chunks (fun c hMem => hFull c (List.mem_append_right _ hMem)) hData hLe ?_
        rw [List.append_assoc, List.map_append] at hDistinct
        exact (List.nodup_append.mp hDistinct).2.1

theorem Holds.flushAcked {b : ChunkBuffer} {written : Octets} (h : Holds b written) :
    ∃ gone, b.chunks = gone ++ b.flushAcked.chunks ∧
      b.flushAcked.freedBytes = b.freedBytes + (ChunkBuffer.held gone).length ∧
      Holds b.flushAcked written := by
  have hAcked := h.acked_consumed.trans h.consumed_total
  have hLimit := h.limit
  have hTotal := h.total
  have hFreed := h.freed_acked
  have hLength : (ChunkBuffer.held b.chunks).length = b.totalLen - b.freedBytes := by
    rw [h.held, List.length_drop, h.total]
  obtain ⟨gone, hSplit, hCount, hGone, hKept⟩ :=
    @flushLoop_spec b.writeChunk b.ackedBytes b.chunks b.freedBytes (by omega)
  refine ⟨gone, hSplit, hCount, ?_, h.total, h.limit, ?_, h.acked_consumed, h.consumed_total, ?_⟩
  · have hShape := h.shape
    rw [hSplit] at hShape
    exact hShape.drop hKept
  · rw [ChunkBuffer.flushAcked]
    dsimp only
    rw [hCount]
    rcases hGone with rfl | hGone
    · exact hFreed
    · exact hGone
  · have hHeld := h.held
    rw [hSplit, held_append] at hHeld
    rw [ChunkBuffer.flushAcked]
    dsimp only
    rw [hCount, ← List.drop_drop, ← hHeld]
    exact (List.drop_left' rfl).symm

end ChunkBuffer

end PageCamel.Http3
