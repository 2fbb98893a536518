import PageCamel.Lib.Runs
import PageCamel.Http3.ChunkBuffer

/-!
Runs over the body of a stream. What the operations keep is kept as long as fewer than
`2 ^ 64` octets have been written: `total_len` counts all that was ever written, and once
it wraps, the counters no longer agree.
-/

namespace PageCamel.Http3
open PageCamel.Lib

/-- A call of one of the functions of `h3_buffer.c`. With `readConsume` the caller
consumes the slice it has read; `consume` is for any number of octets. -/
inductive BufferOp where
  | write (malloc : Allocator) (data : Octets)
  | readConsume
  | consume (bytes : Nat)
  | ack (bytes : Nat)
  | flushAcked
  | setEof

namespace BufferOp

def apply (b : ChunkBuffer) : BufferOp → ChunkBuffer
  | .write malloc data => b.write malloc data
  | .readConsume => b.consume b.read.1.len
  | .consume bytes => b.consume bytes
  | .ack bytes => b.ack bytes
  | .flushAcked => b.flushAcked
  | .setEof => b.setEof

def written : BufferOp → Octets
  | .write _ data => data
  | _ => []

/-- The octets of the slice that is consumed. -/
def handedOut (b : ChunkBuffer) : BufferOp → Octets
  | .readConsume => (b.read.1.base.bind fun base => b.contents base b.read.1.len).getD []
  | _ => []

/-- No more is acknowledged than is in flight. -/
def InFlight (b : ChunkBuffer) : BufferOp → Prop
  | .ack bytes => bytes ≤ b.inFlight
  | _ => True

/-- And what is consumed is what was read. -/
def Whole (b : ChunkBuffer) : BufferOp → Prop
  | .consume _ => False
  | op => op.InFlight b

theorem Whole.inFlight {b : ChunkBuffer} {op : BufferOp} (h : op.Whole b) : op.InFlight b := by
  cases op with
  | consume bytes => exact h.elim
  | _ => exact h

end BufferOp

/-- A buffer with what has been written to it and what was handed out of it. -/
structure BufferSession where
  buffer : ChunkBuffer := {}
  written : Octets := []
  handedOut : Octets := []

namespace BufferSession
open ChunkBuffer

def step (s : BufferSession) (op : BufferOp) : BufferSession :=
  { buffer := op.apply s.buffer
    written := s.written ++ op.written
    handedOut := s.handedOut ++ op.handedOut s.buffer }

def run (ops : List BufferOp) : BufferSession := runEvents step {} ops

theorem buffer_step (s : BufferSession) (op : BufferOp) :
    (s.step op).buffer = op.apply s.buffer := rfl

/-! ### Order -/

theorem holds_apply {b : ChunkBuffer} {written : Octets} (h : b.Holds written) (op : BufferOp)
    (hInFlight : op.InFlight b) (hLimit : (written ++ op.written).length < sizeLimit) :
    (op.apply b).Holds (written ++ op.written) := by
  rw [List.length_append] at hLimit
  cases op with
  | write malloc data => exact (h.write malloc hLimit).1
  | readConsume => exact (List.append_nil written).symm ▸ h.consume _
  | consume bytes => exact (List.append_nil written).symm ▸ h.consume bytes
  | ack bytes => exact (List.append_nil written).symm ▸ h.ack hInFlight
  | flushAcked => exact (List.append_nil written).symm ▸ h.flushAcked.choose_spec.2.2
  | setEof => exact (List.append_nil written).symm ▸ h.setEof

theorem consumed_readConsume {b : ChunkBuffer} {written : Octets} (h : b.Holds written) :
    (b.consume b.read.1.len).consumedBytes = b.consumedBytes + b.read.1.len ∧
      BufferOp.readConsume.handedOut b = (written.drop b.consumedBytes).take b.read.1.len := by
  have hConsumed := h.consumed_consume b.read.1.len
  rcases h.read with ⟨hEnd, hRead⟩ | ⟨front, c, rest, offset, hSlice, hLe, hRead⟩
  · rw [hRead] at hConsumed
    simp only [BufferOp.handedOut, hRead, Option.bind_none, Option.getD_none, List.take_zero]
    refine ⟨?_, trivial⟩
    rw [hConsumed, Nat.zero_min]
  · rw [hRead] at hConsumed
    simp only [BufferOp.handedOut, hRead, Option.bind_some,
      hSlice.contents h.shape.distinct, Option.getD_some, hSlice.octets h]
    refine ⟨?_, List.take_of_length_le (by rw [List.length_drop])⟩
    rw [hConsumed, Nat.min_eq_left (by dsimp only; omega)]

/-- What has been handed out is what was written, up to the octet consumed last. -/
def InOrder (s : BufferSession) : Prop :=
  s.written.length < sizeLimit →
    s.buffer.Holds s.written ∧ s.handedOut = s.written.take s.buffer.consumedBytes

theorem length_written_le (s : BufferSession) (op : BufferOp) :
    s.written.length ≤ (s.step op).written.length := by
  rw [step, List.length_append]
  exact Nat.le_add_right ..

theorem inOrder_step (s : BufferSession) (op : BufferOp) (h : s.InOrder)
    (hWhole : op.Whole s.buffer) : (s.step op).InOrder := by
  intro hLimit
  obtain ⟨hHolds, hOut⟩ := h (Nat.lt_of_le_of_lt (s.length_written_le op) hLimit)
  refine ⟨holds_apply hHolds op hWhole.inFlight hLimit, ?_⟩
  have hConsumed : s.buffer.consumedBytes ≤ s.written.length :=
    hHolds.total ▸ hHolds.consumed_total
  cases op with
  | write malloc data =>
      have hSum : s.written.length + data.length < sizeLimit := by
        rw [← List.length_append]
        exact hLimit
      have hSame := (hHolds.write malloc hSum).2.consumed
      simp only [step, BufferOp.apply, BufferOp.written, BufferOp.handedOut, List.append_nil, hSame]
      rw [List.take_append_of_le_length hConsumed, hOut]
  | readConsume =>
      obtain ⟨hNext, hSlice⟩ := consumed_readConsume hHolds
      simp only [step, BufferOp.apply, BufferOp.written, List.append_nil, hNext, hSlice, hOut]
      rw [List.take_add]
  | consume bytes => exact hWhole.elim
  | ack bytes => simpa [step, BufferOp.apply, BufferOp.written, BufferOp.handedOut] using hOut
  | flushAcked => simpa [step, BufferOp.apply, BufferOp.written, BufferOp.handedOut] using hOut
  | setEof => simpa [step, BufferOp.apply, BufferOp.written, BufferOp.handedOut] using hOut

theorem eof_apply (b : ChunkBuffer) (op : BufferOp) :
    (op.apply b).eof = true ↔ b.eof = true ∨ op = .setEof := by
  cases op with
  | write malloc data =>
      have hSame : (b.write malloc data).eof = b.eof := ChunkBuffer.eof_writeLoop malloc ..
      simp [BufferOp.apply, hSame]
  | setEof => simp [BufferOp.apply, ChunkBuffer.setEof]
  | readConsume => simp [BufferOp.apply, ChunkBuffer.consume]
  | consume bytes => simp [BufferOp.apply, ChunkBuffer.consume]
  | ack bytes => simp [BufferOp.apply, ChunkBuffer.ack]
  | flushAcked => simp [BufferOp.apply, ChunkBuffer.flushAcked]

/-- The end is marked exactly when it has been set. -/
theorem eof_run (ops : List BufferOp) : (run ops).buffer.eof = true ↔ .setEof ∈ ops := by
  have hFrom (s : BufferSession) :
      (runEvents step s ops).buffer.eof = true ↔ s.buffer.eof = true ∨ .setEof ∈ ops := by
    induction ops generalizing s with
    | nil => simp [runEvents]
    | cons op ops ih =>
        rw [show runEvents step s (op :: ops) = runEvents step (s.step op) ops from rfl, ih,
          List.mem_cons]
        have hStep : (s.step op).buffer.eof = true ↔ _ := eof_apply s.buffer op
        rw [hStep, or_assoc, eq_comm (a := op)]
  exact (hFrom {}).trans (or_iff_right Bool.false_ne_true)

/-- What the buffer promises: the order of the counters, what remains in memory, which
chunks are full, what has been handed out, and where the end is reported. -/
structure Accurate (s : BufferSession) (ended : Prop) : Prop where
  freed_acked : s.buffer.freedBytes ≤ s.buffer.ackedBytes
  acked_consumed : s.buffer.ackedBytes ≤ s.buffer.consumedBytes
  consumed_total : s.buffer.consumedBytes ≤ s.buffer.totalLen
  remaining : (s.buffer.chunks.map (·.data.length)).sum =
    s.buffer.totalLen - s.buffer.freedBytes
  full : ∀ c ∈ s.buffer.chunks.dropLast, c.data.length = chunkSize
  all : s.buffer.totalLen = s.written.length
  handedOut : s.handedOut = s.written.take s.buffer.consumedBytes
  more : s.buffer.consumedBytes < s.buffer.totalLen → 0 < s.buffer.read.1.len
  eof : s.buffer.read.1.eof = true ↔
    ended ∧ s.buffer.consumedBytes + s.buffer.read.1.len = s.buffer.totalLen

theorem length_held (cs : List DataChunk) :
    (ChunkBuffer.held cs).length = (cs.map (·.data.length)).sum := List.length_flatMap ..

theorem full_dropLast {cs : List DataChunk} {w : Option Nat} (h : ChunkBuffer.Shape cs w) :
    ∀ c ∈ cs.dropLast, c.data.length = chunkSize := by
  cases h with
  | empty => exact fun c hMem => by cases hMem
  | chunks hFull _ _ _ => rw [List.dropLast_concat]; exact hFull

theorem InOrder.accurate {s : BufferSession} (h : s.InOrder)
    (hLimit : s.written.length < sizeLimit) {ended : Prop}
    (hEnded : s.buffer.eof = true ↔ ended) : s.Accurate ended := by
  obtain ⟨hHolds, hOut⟩ := h hLimit
  refine ⟨hHolds.freed_acked, hHolds.acked_consumed, hHolds.consumed_total, ?_,
    full_dropLast hHolds.shape, hHolds.total, hOut, ?_, ?_⟩
  · rw [← length_held, hHolds.held, List.length_drop, hHolds.total]
  · intro hMore
    rcases hHolds.read with ⟨hEnd, -⟩ | ⟨front, c, rest, offset, hSlice, -, hRead⟩
    · omega
    · have hInside := hSlice.inside
      rw [hRead]
      dsimp only
      omega
  · rcases hHolds.read with ⟨hEnd, hRead⟩ | ⟨front, c, rest, offset, hSlice, hLe, hRead⟩
    · rw [hRead]
      simp [hEnd, hEnded]
    · rw [hRead]
      simp only [Bool.and_eq_true, decide_eq_true_eq, hEnded]
      exact and_congr_right fun _ => ⟨fun hAll => by omega, fun hAll => by omega⟩

/-- As long as fewer than `2 ^ 64` octets have been written. -/
theorem buffer_accurate (ops : List BufferOp)
    (hWhole : Meets step (fun s op => op.Whole s.buffer) {} ops)
    (hLimit : (run ops).written.length < sizeLimit) : (run ops).Accurate (.setEof ∈ ops) := by
  have hStart : InOrder {} := fun _ => ⟨.start, rfl⟩
  have hRun : (run ops).InOrder := hWhole.invariant hStart inOrder_step
  exact hRun.accurate hLimit (eof_run ops)

/-! ### Slices -/

/-- The octets of a slice are where they were, and their chunk goes on to `last`, the
position behind the slice, as long as not all of it has been acknowledged. -/
def Pinned (base : Nat × Nat) (slice : Octets) (last : Nat) (b : ChunkBuffer) : Prop :=
  b.ackedBytes < last →
    ∃ front c rest, b.chunks = front ++ c :: rest ∧ c.address = base.1 ∧
      base.2 + slice.length ≤ c.data.length ∧ (c.data.drop base.2).take slice.length = slice ∧
      last ≤ b.freedBytes + (held front).length + c.data.length

theorem Pinned.contents {base : Nat × Nat} {slice : Octets} {last : Nat} {b : ChunkBuffer}
    (h : Pinned base slice last b) {written : Octets} (hHolds : b.Holds written)
    (hOpen : b.ackedBytes < last) : b.contents base slice.length = some slice := by
  obtain ⟨front, c, rest, hChunks, hAddress, _, hSlice, _⟩ := h hOpen
  have hMem : c ∈ b.chunks := by
    rw [hChunks]
    exact List.mem_append_right _ (List.mem_cons_self ..)
  rw [ChunkBuffer.contents, chunkAt, ← hAddress, find?_address hHolds.shape.distinct hMem,
    Option.map_some, hSlice]

/-- The cursors move on, the chunks stay. -/
theorem Pinned.congr {base : Nat × Nat} {slice : Octets} {last : Nat} {b b' : ChunkBuffer}
    (h : Pinned base slice last b) (hChunks : b'.chunks = b.chunks)
    (hFreed : b'.freedBytes = b.freedBytes) (hAcked : b.ackedBytes ≤ b'.ackedBytes) :
    Pinned base slice last b' := by
  intro hOpen
  rw [hChunks, hFreed]
  exact h (Nat.lt_of_le_of_lt hAcked hOpen)

theorem Pinned.wrote {base : Nat × Nat} {slice : Octets} {last : Nat} {b b' : ChunkBuffer}
    (h : Pinned base slice last b) (hWrote : Wrote b b') : Pinned base slice last b' := by
  intro hOpen
  rw [hWrote.acked] at hOpen
  obtain ⟨front, c, rest, hChunks, hAddress, hInside, hSlice, hLast⟩ := h hOpen
  obtain ⟨more, rest', hGrown⟩ := hWrote.grown front c rest hChunks
  refine ⟨front, _, rest', hGrown, hAddress, ?_, ?_, ?_⟩
  · rw [List.length_append]
    exact hInside.trans (Nat.le_add_right ..)
  · rw [List.drop_append_of_le_length (by omega),
      List.take_append_of_le_length (by rw [List.length_drop]; omega), hSlice]
  · rw [hWrote.freed, List.length_append]
    omega

/-- A chunk is freed only when all of it has been acknowledged. -/
theorem Pinned.flushAcked {base : Nat × Nat} {slice : Octets} {last : Nat} {b : ChunkBuffer}
    (h : Pinned base slice last b) {written : Octets} (hHolds : b.Holds written) :
    Pinned base slice last b.flushAcked := by
  intro hOpen
  obtain ⟨front, c, rest, hChunks, hAddress, hInside, hSlice, hLast⟩ := h hOpen
  obtain ⟨gone, hSplit, hFreed, hAfter⟩ := hHolds.flushAcked
  have hAcked := hAfter.freed_acked
  have hOpen' : b.flushAcked.ackedBytes < last := hOpen
  rw [hChunks] at hSplit
  have hKept (front' : List DataChunk) (hFront : front = gone ++ front')
      (hRest : b.flushAcked.chunks = front' ++ c :: rest) : ∃ front c rest,
      b.flushAcked.chunks = front ++ c :: rest ∧ c.address = base.1 ∧
      base.2 + slice.length ≤ c.data.length ∧ (c.data.drop base.2).take slice.length = slice ∧
      last ≤ b.flushAcked.freedBytes + (held front).length + c.data.length := by
    rw [hFront, held_append, List.length_append] at hLast
    exact ⟨front', c, rest, hRest, hAddress, hInside, hSlice, by omega⟩
  rcases List.append_eq_append_iff.mp hSplit with ⟨more, hGone, hRest⟩ | ⟨front', hFront, hRest⟩
  · cases more with
    | nil =>
        rw [List.append_nil] at hGone
        exact hKept [] (by rw [hGone, List.append_nil]) hRest.symm
    | cons c' more =>
        -- the chunk would be gone, and so be acknowledged to its end
        obtain ⟨rfl, -⟩ := List.cons_eq_cons.mp hRest
        rw [hGone, held_append, held_cons, List.length_append, List.length_append] at hFreed
        omega
  · exact hKept front' hFront hRest

theorem Pinned.apply {base : Nat × Nat} {slice : Octets} {last : Nat} {b : ChunkBuffer}
    (h : Pinned base slice last b) {written : Octets} (hHolds : b.Holds written) (op : BufferOp)
    (hInFlight : op.InFlight b) (hLimit : (written ++ op.written).length < sizeLimit) :
    Pinned base slice last (op.apply b) := by
  rw [List.length_append] at hLimit
  cases op with
  | write malloc data => exact h.wrote (hHolds.write malloc hLimit).2
  | readConsume => exact h.congr rfl rfl (Nat.le_refl _)
  | consume bytes => exact h.congr rfl rfl (Nat.le_refl _)
  | ack bytes =>
      refine h.congr rfl rfl ?_
      rw [BufferOp.apply, hHolds.acked_ack hInFlight]
      exact Nat.le_add_right ..
  | flushAcked => exact h.flushAcked hHolds
  | setEof => exact h.congr rfl rfl (Nat.le_refl _)

/-- What a read returns is pinned. -/
theorem pinned_read {b : ChunkBuffer} {written : Octets} (hHolds : b.Holds written)
    {base : Nat × Nat} (hBase : b.read.1.base = some base) :
    ∃ slice, b.contents base b.read.1.len = some slice ∧ slice.length = b.read.1.len ∧
      Pinned base slice (b.consumedBytes + b.read.1.len) b := by
  rcases hHolds.read with ⟨-, hRead⟩ | ⟨front, c, rest, offset, hSlice, hLe, hRead⟩
  · rw [hRead] at hBase
    cases hBase
  · rw [hRead] at hBase ⊢
    obtain rfl := Option.some.inj hBase
    have hInside := hSlice.inside
    have hPosition := hSlice.position
    have hLength : (c.data.drop offset).length = c.data.length - offset := List.length_drop
    have hAll : (c.data.drop offset).take (c.data.length - offset) = c.data.drop offset :=
      List.take_of_length_le (by omega)
    refine ⟨c.data.drop offset, ?_, hLength, fun _ => ?_⟩
    · rw [hSlice.contents hHolds.shape.distinct, hAll]
    · refine ⟨front, c, rest, hSlice.chunks, rfl, ?_, ?_, ?_⟩
      · dsimp only
        omega
      · rw [hLength, hAll]
      · dsimp only
        omega

/-- A slice keeps its octets until it has been acknowledged. -/
def SliceKept (before after : List BufferOp) : Prop :=
  let b := (run before).buffer
  let b' := (run (before ++ after)).buffer
  ∀ base, b.read.1.base = some base → b'.ackedBytes < b.consumedBytes + b.read.1.len →
    ∃ slice, b.contents base b.read.1.len = some slice ∧ slice.length = b.read.1.len ∧
      b'.contents base b.read.1.len = some slice

def Consistent (s : BufferSession) : Prop :=
  s.written.length < sizeLimit → s.buffer.Holds s.written

theorem consistent_start : Consistent {} := fun _ => .start

theorem consistent_step (s : BufferSession) (op : BufferOp) (h : s.Consistent)
    (hInFlight : op.InFlight s.buffer) : (s.step op).Consistent := fun hLimit =>
  holds_apply (h (Nat.lt_of_le_of_lt (s.length_written_le op) hLimit)) op hInFlight hLimit

/-- A slice pinned in the buffer of a session. -/
def Keeps (base : Nat × Nat) (slice : Octets) (last : Nat) (s : BufferSession) : Prop :=
  s.Consistent ∧ (s.written.length < sizeLimit → Pinned base slice last s.buffer)

theorem keeps_step (base : Nat × Nat) (slice : Octets) (last : Nat) (s : BufferSession)
    (op : BufferOp) (h : Keeps base slice last s) (hInFlight : op.InFlight s.buffer) :
    Keeps base slice last (s.step op) := by
  refine ⟨consistent_step s op h.1 hInFlight, fun hLimit => ?_⟩
  have hBefore := Nat.lt_of_le_of_lt (s.length_written_le op) hLimit
  exact (h.2 hBefore).apply (h.1 hBefore) op hInFlight hLimit

theorem length_written_run (s : BufferSession) (ops : List BufferOp) :
    s.written.length ≤ (runEvents step s ops).written.length := by
  induction ops generalizing s with
  | nil => exact Nat.le_refl _
  | cons op ops ih => exact (s.length_written_le op).trans (ih _)

/-- As long as fewer than `2 ^ 64` octets have been written. -/
theorem slice_kept (before after : List BufferOp)
    (hInFlight : Meets step (fun s op => op.InFlight s.buffer) {} (before ++ after))
    (hLimit : (run (before ++ after)).written.length < sizeLimit) : SliceKept before after := by
  intro base hBase hOpen
  obtain ⟨hBefore, hAfter⟩ := hInFlight.of_append
  have hRun : run (before ++ after) = runEvents step (run before) after := runEvents_append ..
  have hConsistent : (run before).Consistent := hBefore.invariant consistent_start consistent_step
  have hLimitBefore : (run before).written.length < sizeLimit := by
    rw [hRun] at hLimit
    exact Nat.lt_of_le_of_lt (length_written_run _ after) hLimit
  obtain ⟨slice, hSlice, hLength, hPinned⟩ := pinned_read (hConsistent hLimitBefore) hBase
  have hStart : Keeps base slice _ (run before) :=
    ⟨hConsistent, fun _ => hPinned⟩
  have hKeeps : Keeps base slice _ (run (before ++ after)) :=
    hRun ▸ hAfter.invariant hStart (keeps_step base slice _)
  refine ⟨slice, hSlice, hLength, ?_⟩
  rw [← hLength]
  exact (hKeeps.2 hLimit).contents (hKeeps.1 hLimit) hOpen

/-! ### What the callers see -/

/-- The buffer as `h3_api.c` sees it. -/
def view (s : BufferSession) : StreamBuffer :=
  { data := s.written, freed := s.buffer.freedBytes, eof := s.buffer.eof }

theorem memoryUsage_view {s : BufferSession} (h : s.buffer.Holds s.written) :
    s.buffer.memoryUsage = s.view.memoryUsage := by
  have hLength : s.view.memoryUsage = s.buffer.totalLen - s.buffer.freedBytes := by
    rw [h.total]
    rfl
  rw [hLength, ChunkBuffer.memoryUsage]
  split <;> omega

/-- Seen so, a write appends, a flush frees, the end is marked, and nothing else
happens. -/
def Seen (b b' : StreamBuffer) : BufferOp → Prop
  | .write _ data => b' = { b with data := b.data ++ data }
  | .flushAcked => ∃ n, b' = b.free n
  | .setEof => b' = { b with eof := true }
  | _ => b' = b

theorem view_step {s : BufferSession} (h : s.buffer.Holds s.written) (op : BufferOp)
    (hLimit : (s.step op).written.length < sizeLimit) : Seen s.view (s.step op).view op := by
  cases op with
  | write malloc data =>
      have hSum : s.written.length + data.length < sizeLimit := by
        rw [← List.length_append]
        exact hLimit
      have hWrote := (h.write malloc hSum).2
      simp only [Seen, view, step, BufferOp.apply, BufferOp.written, hWrote.freed, hWrote.eof]
  | flushAcked =>
      obtain ⟨gone, hSplit, hFreed, hAfter⟩ := h.flushAcked
      have hLe : s.buffer.freedBytes + (held gone).length ≤ s.written.length := by
        have hChain := hAfter.freed_acked.trans (hAfter.acked_consumed.trans hAfter.consumed_total)
        rw [hFreed, hAfter.total] at hChain
        exact hChain
      refine ⟨(held gone).length, ?_⟩
      simp only [view, step, BufferOp.apply, BufferOp.written, List.append_nil, hFreed,
        StreamBuffer.free, Nat.min_eq_left hLe]
      rfl
  | setEof => simp [Seen, view, step, BufferOp.apply, BufferOp.written, ChunkBuffer.setEof]
  | readConsume => simp [Seen, view, step, BufferOp.apply, BufferOp.written, ChunkBuffer.consume]
  | consume bytes => simp [Seen, view, step, BufferOp.apply, BufferOp.written, ChunkBuffer.consume]
  | ack bytes => simp [Seen, view, step, BufferOp.apply, BufferOp.written, ChunkBuffer.ack]

/-- In every run, each operation is one of the flat buffer, the memory in use is that of the flat
buffer, and what has been handed out are the first octets of its data. -/
theorem view_run (ops : List BufferOp) (op : BufferOp)
    (hWhole : Meets step (fun s op => op.Whole s.buffer) {} (ops ++ [op]))
    (hLimit : (run (ops ++ [op])).written.length < sizeLimit) :
    Seen (run ops).view (run (ops ++ [op])).view op ∧
      (run ops).buffer.memoryUsage = (run ops).view.memoryUsage ∧
      (run ops).handedOut <+: (run ops).view.data := by
  have hNext : run (ops ++ [op]) = (run ops).step op := runEvents_append ..
  rw [hNext] at hLimit ⊢
  have hStart : InOrder {} := fun _ => ⟨.start, rfl⟩
  have hRun : (run ops).InOrder := hWhole.of_append.1.invariant hStart inOrder_step
  obtain ⟨hHolds, hOut⟩ := hRun (Nat.lt_of_le_of_lt (length_written_le _ op) hLimit)
  refine ⟨view_step hHolds op hLimit, memoryUsage_view hHolds, ?_⟩
  rw [hOut]
  exact List.take_prefix ..

/-- An allocator that takes the first address behind all chunks. -/
def behind : Allocator where
  malloc used := used.foldr max 0 + 1
  fresh used hMem := by
    have hLe : ∀ {as : List Nat} {a : Nat}, a ∈ as → a ≤ as.foldr max 0 := by
      intro as a hMem
      induction as with
      | nil => cases hMem
      | cons a' as ih =>
          rcases List.mem_cons.mp hMem with rfl | hMem
          · exact Nat.le_max_left ..
          · exact (ih hMem).trans (Nat.le_max_right ..)
    exact absurd (hLe hMem) (Nat.not_succ_le_self _)

theorem buffer_accurate_acked :
    let ops := [.write behind [1, 2, 3], .readConsume, .ack 2, .flushAcked, .setEof]
    (run ops).Accurate (.setEof ∈ ops) := by
  have hAck : 2 ≤ (run [.write behind [1, 2, 3], .readConsume]).buffer.inFlight := by decide
  exact buffer_accurate _ ⟨trivial, trivial, hAck, trivial, trivial, trivial⟩ (by decide)

theorem slice_kept_acked :
    SliceKept [.write behind [1, 2, 3], .readConsume, .write behind [4, 5]]
      [.readConsume, .ack 3, .flushAcked, .write behind [6]] := by
  have hAck : 3 ≤ (run [.write behind [1, 2, 3], .readConsume, .write behind [4, 5],
      .readConsume]).buffer.inFlight := by decide
  exact slice_kept _ _ ⟨trivial, trivial, trivial, trivial, hAck, trivial, trivial, trivial⟩
    (by decide)

/-! A stream on which a whole chunk is written, read, acknowledged and flushed again
and again. -/

def round (page : Octets) : List BufferOp :=
  [.write behind page, .readConsume, .ack chunkSize, .flushAcked]

/-- The buffer after `n + 1` rounds. -/
def settled (page : Octets) (n : Nat) : ChunkBuffer :=
  { chunks := [⟨n + 1, page⟩]
    writeChunk := some (n + 1)
    totalLen := (n + 1) * chunkSize
    consumedBytes := (n + 1) * chunkSize
    ackedBytes := (n + 1) * chunkSize
    freedBytes := n * chunkSize }

/-- A round, once it is known what the read returns. -/
theorem meets_round {page : Octets} {s : BufferSession} {b : ChunkBuffer}
    (h : let wrote := s.buffer.write behind page
      wrote.read.1.len = chunkSize ∧ chunkSize ≤ (wrote.consume chunkSize).inFlight ∧
        ((wrote.consume chunkSize).ack chunkSize).flushAcked = b) :
    Meets step (fun s op => op.Whole s.buffer) s (round page) ∧
      (runEvents step s (round page)).buffer = b := by
  obtain ⟨hLen, hInFlight, hAfter⟩ := h
  constructor
  · refine ⟨trivial, trivial, ?_, trivial, trivial⟩
    simp only [BufferOp.Whole, BufferOp.InFlight, buffer_step, BufferOp.apply, hLen]
    exact hInFlight
  · simp only [round, runEvents, List.foldl_cons, List.foldl_nil, buffer_step, BufferOp.apply, hLen]
    exact hAfter

section
variable {page : Octets} (hPage : page.length = chunkSize)
include hPage

theorem getWriteChunk_settled (n : Nat) :
    (settled page n).getWriteChunk behind =
      ({ settled page n with
         chunks := [⟨n + 1, page⟩, ⟨n + 2, []⟩]
         writeChunk := some (n + 2) }, n + 2) := by
  have hLen : (settled page n).lenAt (n + 1) = chunkSize := by
    simp [settled, lenAt, chunkAt, hPage]
  have hWrite : (settled page n).writeChunk = some (n + 1) := rfl
  simp only [getWriteChunk, hWrite, hLen, Nat.le_refl, if_true]
  simp [appendChunk, settled, behind]

/-- The chunk of the round before is still there, as it was the write chunk. -/
theorem write_settled (n : Nat) :
    (settled page n).write behind page =
      { settled page n with
        chunks := [⟨n + 1, page⟩, ⟨n + 2, page⟩]
        writeChunk := some (n + 2)
        totalLen := addSize ((n + 1) * chunkSize) chunkSize } := by
  have hNonempty : page ≠ [] := List.ne_nil_of_length_pos (by rw [hPage]; decide)
  rw [write_one behind _ hNonempty, getWriteChunk_settled hPage]
  · simp [copy, settled, hPage]
  · rw [getWriteChunk_settled hPage]
    simp [lenAt, chunkAt, hPage]

/-- The rest of the round. -/
theorem round_settled (n : Nat) (hLimit : (n + 2) * chunkSize < sizeLimit) :
    let b := (settled page n).write behind page
    b.read.1.len = chunkSize ∧ chunkSize ≤ (b.consume chunkSize).inFlight ∧
      ((b.consume chunkSize).ack chunkSize).flushAcked = settled page (n + 1) := by
  have hOne : (n + 1) * chunkSize = n * chunkSize + chunkSize := Nat.succ_mul ..
  have hTwo : (n + 2) * chunkSize = (n + 1) * chunkSize + chunkSize := Nat.succ_mul ..
  have hPositive : 0 < chunkSize := by decide
  have hTotal : addSize ((n + 1) * chunkSize) chunkSize = (n + 2) * chunkSize :=
    (addSize_of_lt (by omega)).trans hTwo.symm
  have hFreed : addSize (n * chunkSize) chunkSize = (n + 1) * chunkSize :=
    (addSize_of_lt (by omega)).trans hOne.symm
  have hPos : subSize ((n + 1) * chunkSize) (n * chunkSize) = chunkSize :=
    (subSize_of_le (by omega) (by omega)).trans (by omega)
  have hPending : (n + 2) * chunkSize - (n + 1) * chunkSize = chunkSize := by omega
  have hMore : (n + 1) * chunkSize < (n + 2) * chunkSize := by omega
  rw [write_settled hPage, hTotal]
  dsimp only
  refine ⟨?_, ?_, ?_⟩
  · simp [ChunkBuffer.read, seek, settled, hPos, hPage, hPositive, hPositive.ne']
  · simp [inFlight, consume, pending, settled, hMore, hPending, hTotal]
  · simp [flushAcked, flushLoop, ChunkBuffer.ack, consume, pending, settled, hMore, hPending, hTotal, hFreed,
      hPage, Nat.le_of_lt hMore]

theorem first_write :
    ({} : ChunkBuffer).write behind page =
      { chunks := [⟨1, page⟩], writeChunk := some 1, totalLen := chunkSize } := by
  have hNonempty : page ≠ [] := List.ne_nil_of_length_pos (by rw [hPage]; decide)
  have hChunk : ({} : ChunkBuffer).getWriteChunk behind =
      ({ chunks := [⟨1, []⟩], writeChunk := some 1 }, 1) := by
    simp [getWriteChunk, appendChunk, behind]
  have hTotal : addSize 0 chunkSize = chunkSize := by decide
  rw [write_one behind _ hNonempty, hChunk]
  · simp [copy, hPage, hTotal]
  · rw [hChunk]
    simp [lenAt, chunkAt, hPage]

theorem first_round {start : ChunkBuffer} (hEmpty : start = {}) :
    let b := start.write behind page
    b.read.1.len = chunkSize ∧ chunkSize ≤ (b.consume chunkSize).inFlight ∧
      ((b.consume chunkSize).ack chunkSize).flushAcked = settled page 0 := by
  have hPositive : 0 < chunkSize := by decide
  have hTotal : addSize 0 chunkSize = chunkSize := by decide
  have hPos : subSize 0 0 = 0 := by decide
  rw [hEmpty, first_write hPage]
  dsimp only
  refine ⟨?_, ?_, ?_⟩
  · simp [ChunkBuffer.read, seek, hPos, hPage, hPositive, hPositive.ne']
  · simp [inFlight, consume, pending, hPositive, hTotal]
  · simp [flushAcked, flushLoop, ChunkBuffer.ack, consume, pending, settled, hPositive, hTotal]

theorem rounds (n : Nat) (hLimit : (n + 1) * chunkSize < sizeLimit) :
    ∃ ops, Meets step (fun s op => op.Whole s.buffer) {} ops ∧ (run ops).buffer = settled page n := by
  induction n with
  | zero =>
      obtain ⟨hMeets, hAfter⟩ := meets_round (s := {}) (first_round hPage rfl)
      exact ⟨round page, hMeets, hAfter⟩
  | succ n ih =>
      have hBefore : (n + 1) * chunkSize < sizeLimit :=
        Nat.lt_of_le_of_lt (Nat.mul_le_mul_right _ (Nat.le_succ _)) hLimit
      obtain ⟨ops, hMeets, hSettled⟩ := ih hBefore
      have hRound := round_settled hPage n hLimit
      rw [← hSettled] at hRound
      obtain ⟨hNext, hAfter⟩ := meets_round hRound
      refine ⟨ops ++ round page, hMeets.append hNext, ?_⟩
      rw [run, runEvents_append]
      exact hAfter

/-- The chunk behind the last position a `size_t` can count, and one more octet. -/
theorem lost_settled {n : Nat} (hWrap : (n + 2) * chunkSize = sizeLimit) :
    let b := (settled page n).write behind page
    b.read.1.base = some (n + 2, 0) ∧ b.read.1.len = chunkSize ∧
      (b.write behind [1]).flushAcked.chunks = [⟨n + 3, [1]⟩] ∧
      (b.write behind [1]).flushAcked.ackedBytes = b.consumedBytes := by
  have hOne : (n + 1) * chunkSize = n * chunkSize + chunkSize := Nat.succ_mul ..
  have hTwo : (n + 2) * chunkSize = (n + 1) * chunkSize + chunkSize := Nat.succ_mul ..
  have hPositive : 0 < chunkSize := by decide
  have hFirst : addSize (n * chunkSize) chunkSize = (n + 1) * chunkSize :=
    (addSize_of_lt (by omega)).trans hOne.symm
  have hSecond : addSize ((n + 1) * chunkSize) chunkSize = 0 := by
    rw [addSize, ← hTwo, hWrap]
    exact Nat.mod_self _
  have hPos : subSize ((n + 1) * chunkSize) (n * chunkSize) = chunkSize :=
    (subSize_of_le (by omega) (by omega)).trans (by omega)
  have hLong : ¬ chunkSize + chunkSize ≤ chunkSize := by omega
  rw [write_settled hPage, hSecond]
  dsimp only
  refine ⟨?_, ?_, ?_⟩
  · simp [ChunkBuffer.read, seek, settled, hPos, hPage, hPositive, hPositive.ne']
  · simp [ChunkBuffer.read, seek, settled, hPos, hPage, hPositive, hPositive.ne']
  · rw [write_one behind _ (by simp)]
    · simp [getWriteChunk, appendChunk, lenAt, chunkAt, behind, copy, flushAcked, flushLoop, settled,
        hPage, hFirst, hSecond]
    · simp [getWriteChunk, appendChunk, lenAt, chunkAt, behind, settled, hPage]
      decide

end

/-- The second chunk is written, read and acknowledged, and the first is freed. -/
theorem view_run_freed :
    let page := List.replicate chunkSize 0
    let ops := round page ++ [.write behind page, .readConsume, .ack chunkSize]
    Seen (run ops).view (run (ops ++ [.flushAcked])).view .flushAcked ∧
      (run ops).buffer.freedBytes = 0 ∧
        (run (ops ++ [.flushAcked])).buffer.freedBytes = chunkSize := by
  intro page ops
  have hPage : page.length = chunkSize := List.length_replicate
  clear_value page
  obtain ⟨hFirst, hAfter⟩ := meets_round (s := {}) (first_round hPage rfl)
  have hRound := round_settled hPage 0 (by decide)
  rw [← hAfter] at hRound
  obtain ⟨hNext, hSettled⟩ := meets_round hRound
  have hFreed : (run (ops ++ [.flushAcked])).buffer.freedBytes = chunkSize :=
    (congrArg freedBytes hSettled).trans (Nat.one_mul chunkSize)
  have hOps : (run ops).buffer.freedBytes = ((settled page 0).write behind page).freedBytes := by
    rw [← hAfter]
    rfl
  have hLimit : (run (ops ++ [.flushAcked])).written.length < sizeLimit := by
    show (([] ++ page ++ [] ++ [] ++ []) ++ page ++ [] ++ [] ++ []).length < sizeLimit
    simp only [List.append_nil, List.length_append, hPage]
    decide
  refine ⟨(view_run ops .flushAcked (hFirst.append hNext) hLimit).1, ?_, hFreed⟩
  rw [hOps, write_settled hPage]
  exact Nat.zero_mul chunkSize

/-- After `2 ^ 48` chunks. -/
theorem buffer_inaccurate_wrap :
    ¬ ∀ ops, Meets step (fun s op => op.Whole s.buffer) {} ops →
      (run ops).Accurate (.setEof ∈ ops) := by
  intro hClaim
  obtain ⟨page, hPage⟩ : ∃ page : Octets, page.length = chunkSize :=
    ⟨List.replicate chunkSize 0, List.length_replicate⟩
  obtain ⟨ops, hMeets, hSettled⟩ := rounds hPage (2 ^ 48 - 2) (by decide)
  have hLast : Meets step (fun s op => op.Whole s.buffer) (runEvents step {} ops)
      [.write behind page] := ⟨trivial, trivial⟩
  have hOrder := (hClaim _ (hMeets.append hLast)).consumed_total
  have hWritten : (run (ops ++ [.write behind page])).buffer =
      (settled page (2 ^ 48 - 2)).write behind page := by
    rw [run, runEvents_append, runEvents_singleton, buffer_step, BufferOp.apply, ← run, hSettled]
  rw [hWritten, write_settled hPage] at hOrder
  change (2 ^ 48 - 2 + 1) * chunkSize ≤ addSize ((2 ^ 48 - 2 + 1) * chunkSize) chunkSize at hOrder
  exact absurd hOrder (by decide)

/-- After `2 ^ 48` chunks, the last of them is freed although nothing of it has been
acknowledged. -/
theorem slice_lost_wrap :
    ¬ ∀ before after, Meets step (fun s op => op.InFlight s.buffer) {} (before ++ after) →
      SliceKept before after := by
  intro hClaim
  obtain ⟨page, hPage⟩ : ∃ page : Octets, page.length = chunkSize :=
    ⟨List.replicate chunkSize 0, List.length_replicate⟩
  have hWrap : (2 ^ 48 - 2 + 2) * chunkSize = sizeLimit := by decide
  generalize 2 ^ 48 - 2 = n at hWrap
  have hOne : (n + 2) * chunkSize = (n + 1) * chunkSize + chunkSize := Nat.succ_mul ..
  have hPositive : 0 < chunkSize := by decide
  obtain ⟨ops, hMeets, hSettled⟩ := rounds hPage n (by omega)
  have hLast : Meets step (fun s op => op.InFlight s.buffer) (run ops)
      [.write behind page, .write behind [1], .flushAcked] := ⟨trivial, trivial, trivial, trivial⟩
  have hAll := (hMeets.mono fun _ _ hWhole => hWhole.inFlight).append hLast
  have hBefore : (run (ops ++ [.write behind page])).buffer = (settled page n).write behind page := by
    rw [run, runEvents_append, runEvents_singleton, buffer_step, BufferOp.apply, ← run, hSettled]
  have hAfter : (run (ops ++ [.write behind page] ++ [.write behind [1], .flushAcked])).buffer =
      (((settled page n).write behind page).write behind [1]).flushAcked := by
    rw [run, runEvents_append, ← run, ← hBefore]
    rfl
  obtain ⟨hBase, hLen, hChunks, hAcked⟩ := lost_settled hPage hWrap
  have hKept := hClaim (ops ++ [.write behind page]) [.write behind [1], .flushAcked]
    (by rw [List.append_assoc]; exact hAll) (n + 2, 0)
  rw [hAfter, hBefore] at hKept
  obtain ⟨slice, -, -, hSlice⟩ := hKept hBase (by rw [hAcked, hLen]; omega)
  have hGone : ((((settled page n).write behind page).write behind [1]).flushAcked).chunkAt (n + 2) =
      none := by
    rw [chunkAt, hChunks]
    simp
  rw [contents, hGone] at hSlice
  cases hSlice

end BufferSession

end PageCamel.Http3
