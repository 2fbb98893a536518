import PageCamel.Http3.ChunkRuns

/-!
Writes to the body of a stream that may find no memory (`h3_buffer.c`), and what is left in
a buffer all of whose octets have been acknowledged: the write chunk is never freed, so its
octets count as memory in use for good.
-/

namespace PageCamel.Http3
open PageCamel.Lib

/-- `malloc`: an address where no chunk lies, or none. -/
structure FallibleAllocator where
  malloc : List Nat → Option Nat
  fresh : ∀ used address, malloc used = some address → address ∉ used

namespace ChunkBuffer

/-- Get or create the write chunk, unless there is no memory for a new one. -/
def tryGetWriteChunk (malloc : FallibleAllocator) (b : ChunkBuffer) :
    Option (ChunkBuffer × Nat) :=
  let newChunk := (malloc.malloc (b.chunks.map (·.address))).map fun address =>
    ({ b with
        chunks :=
          if b.writeChunk.isSome then b.chunks ++ [DataChunk.mk address []]
          else [DataChunk.mk address []]
        writeChunk := some address }, address)
  match b.writeChunk with
  | none => newChunk
  | some address => if chunkSize ≤ b.lenAt address then newChunk else some (b, address)

/-- The loop of `h3_buffer_write`, and whether it copied all of the data. -/
def tryWriteLoop (malloc : FallibleAllocator) : Nat → ChunkBuffer → Octets → ChunkBuffer × Bool
  | 0, b, _ => (b, true)
  | _ + 1, b, [] => (b, true)
  | turns + 1, b, data =>
      match b.tryGetWriteChunk malloc with
      | none => (b, false)
      | some (b, address) =>
          let toCopy := min data.length (chunkSize - b.lenAt address)
          tryWriteLoop malloc turns (b.copy address (data.take toCopy)) (data.drop toCopy)

/-- `h3_buffer_write`. -/
def tryWrite (malloc : FallibleAllocator) (b : ChunkBuffer) (data : Octets) : ChunkBuffer × Bool :=
  tryWriteLoop malloc data.length b data

/-- `h3_buffer_can_write`. -/
def canWrite (b : ChunkBuffer) (len : Nat) : Bool :=
  decide (addSize b.memoryUsage len ≤ maxBufferSize)

/-! ### One turn of the loop -/

/-- The octets that go into the write chunk. -/
def room (b : ChunkBuffer) : Nat :=
  match b.writeChunk with
  | none => 0
  | some address => chunkSize - b.lenAt address

def addresses (b : ChunkBuffer) : List Nat := b.chunks.map (·.address)

theorem room_last {b : ChunkBuffer} {full : List DataChunk} {address : Nat} {data : Octets}
    (hWrite : b.writeChunk = some address)
    (hChunks : b.chunks = full ++ [DataChunk.mk address data])
    (hDistinct : (b.chunks.map DataChunk.address).Nodup) : b.room = chunkSize - data.length := by
  simp only [room, hWrite]
  rw [chunkAt_last (c := DataChunk.mk address data) hChunks hDistinct]

/-- What a turn of the loop finds and leaves, of which memory it takes. -/
structure Turn (malloc : FallibleAllocator) (b : ChunkBuffer) (data : Octets) (n : Nat)
    (b' : ChunkBuffer) : Prop where
  positive : 0 < n
  shape : Shape b'.chunks b'.writeChunk
  held : held b'.chunks = held b.chunks ++ data.take n
  total : b'.totalLen = addSize b.totalLen n
  freed : b'.freedBytes = b.freedBytes
  writable : b'.writeChunk ≠ none
  memory : 0 < b.room ∧ n = min data.length b.room ∧ b'.addresses = b.addresses ∧
      b'.room = b.room - n ∨
    b.room = 0 ∧ n = min data.length chunkSize ∧ b'.room = chunkSize - n ∧
      ∃ address, malloc.malloc b.addresses = some address ∧
        b'.addresses = b.addresses ++ [address]

/-- Octets behind those of the last chunk. -/
theorem turn_copy {b : ChunkBuffer} {full : List DataChunk} {address : Nat} {old data : Octets}
    (hFull : ∀ c ∈ full, c.data.length = chunkSize) (hRoom : old.length < chunkSize)
    (hDistinct : ((full ++ [DataChunk.mk address old]).map DataChunk.address).Nodup)
    (hWrite : b.writeChunk = some address) (hChunks : b.chunks = full ++ [DataChunk.mk address old])
    (hData : data ≠ []) :
    ∃ n, n = min data.length (chunkSize - old.length) ∧ 0 < n ∧ chunkSize - b.lenAt address =
        chunkSize - old.length ∧
      let b' := b.copy address (data.take n)
      Shape b'.chunks b'.writeChunk ∧
        ChunkBuffer.held b'.chunks = ChunkBuffer.held b.chunks ++ data.take n ∧
        b'.totalLen = addSize b.totalLen n ∧ b'.addresses = b.addresses ∧
        b'.room = chunkSize - old.length - n := by
  have hPositive := List.length_pos_iff.mpr hData
  obtain ⟨n, hn⟩ : ∃ n, n = min data.length (chunkSize - old.length) := ⟨_, rfl⟩
  have hCopied : (data.take n).length = n := List.length_take_of_le (by omega)
  have hLen : b.lenAt address = old.length :=
    chunkAt_last (c := DataChunk.mk address old) hChunks (hChunks ▸ hDistinct)
  have hDistinct' : ((full ++ [DataChunk.mk address (old ++ data.take n)]).map
      DataChunk.address).Nodup := by simpa using hDistinct
  refine ⟨n, hn, by omega, by rw [hLen], ?_⟩
  rw [copy_last hChunks (hChunks ▸ hDistinct)]
  refine ⟨?_, ?_, by dsimp only; rw [hCopied], ?_, ?_⟩
  · rw [hWrite]
    refine .chunks hFull ?_ ?_ hDistinct'
    · rw [List.length_append, hCopied]
      omega
    · rw [List.length_append, hCopied]
      omega
  · simp [hChunks]
  · simp [addresses, hChunks]
  · have hAfter := @room_last
      { b with
        chunks := full ++ [DataChunk.mk address (old ++ data.take n)]
        totalLen := addSize b.totalLen (data.take n).length } full address _ hWrite rfl hDistinct'
    rw [hAfter, List.length_append, hCopied, Nat.sub_add_eq]

/-- One turn of the loop. -/
theorem turn_spec (malloc : FallibleAllocator) {b : ChunkBuffer} (h : Shape b.chunks b.writeChunk)
    {data : Octets} (hData : data ≠ []) :
    (b.room = 0 ∧ malloc.malloc b.addresses = none ∧ b.tryGetWriteChunk malloc = none) ∨
    ∃ found n, b.tryGetWriteChunk malloc = some found ∧
      min data.length (chunkSize - found.1.lenAt found.2) = n ∧
      Turn malloc b data n (found.1.copy found.2 (data.take n)) := by
  -- a chunk for these octets, behind full ones
  have hNew (hFull : ∀ c ∈ b.chunks, c.data.length = chunkSize) (hRoom : b.room = 0)
      {address : Nat} (hMalloc : malloc.malloc b.addresses = some address)
      (hDistinct : (b.chunks.map DataChunk.address).Nodup)
      (hFound : b.tryGetWriteChunk malloc =
        some ({ b with
          chunks := b.chunks ++ [DataChunk.mk address []], writeChunk := some address }, address)) :
      ∃ found n, b.tryGetWriteChunk malloc = some found ∧
        min data.length (chunkSize - found.1.lenAt found.2) = n ∧
        Turn malloc b data n (found.1.copy found.2 (data.take n)) := by
    have hDistinct' : ((b.chunks ++ [DataChunk.mk address []]).map DataChunk.address).Nodup := by
      rw [List.map_append, List.map_singleton, ← List.concat_eq_append]
      exact hDistinct.concat (malloc.fresh _ _ hMalloc)
    obtain ⟨n, hn, hPositive, hSpace, hShape, hHeld, hTotal, hAddresses, hRoom'⟩ :=
      @turn_copy { b with chunks := b.chunks ++ [DataChunk.mk address []], writeChunk := some address }
        b.chunks address [] data hFull (by decide) hDistinct' rfl rfl hData
    refine ⟨_, n, hFound, ?_, hPositive, hShape, ?_, hTotal, rfl, Option.some_ne_none _,
      .inr ⟨hRoom, hn, hRoom', address, hMalloc, ?_⟩⟩
    · rw [hSpace]
      exact hn.symm
    · rw [hHeld]
      simp
    · rw [hAddresses]
      simp [addresses]
  generalize hChunks : b.chunks = cs at h
  generalize hWrite : b.writeChunk = w at h
  cases h with
  | empty =>
      have hRoom : b.room = 0 := by simp only [room, hWrite]
      cases hMalloc : malloc.malloc b.addresses with
      | none =>
          refine .inl ⟨hRoom, rfl, ?_⟩
          simp only [addresses, hChunks] at hMalloc
          simp only [tryGetWriteChunk, hWrite, hChunks, hMalloc, Option.map_none]
      | some address =>
          refine .inr (hNew ?_ hRoom hMalloc (by rw [hChunks]; exact List.nodup_nil) ?_)
          · rw [hChunks]
            exact fun c hMem => by cases hMem
          · simp only [addresses, hChunks] at hMalloc
            simp only [tryGetWriteChunk, hWrite, hChunks, hMalloc, Option.map_some,
              Option.isSome_none, Bool.false_eq_true, if_false, List.nil_append]
  | @chunks full last old hFull hOld hLe hDistinct =>
      have hLen : b.lenAt last = old.length :=
        chunkAt_last (c := DataChunk.mk last old) hChunks (hChunks ▸ hDistinct)
      have hRoom : b.room = chunkSize - old.length :=
        room_last hWrite hChunks (hChunks ▸ hDistinct)
      by_cases hShort : old.length < chunkSize
      · obtain ⟨n, hn, hPositive, hSpace, hShape, hHeld, hTotal, hAddresses, hRoom'⟩ :=
          turn_copy hFull hShort hDistinct hWrite hChunks hData
        have hStays : b.writeChunk ≠ none := by rw [hWrite]; exact Option.some_ne_none _
        refine .inr ⟨(b, last), n, ?_, ?_, hPositive, hShape, hHeld, hTotal, rfl, hStays,
          .inl ⟨?_, ?_, hAddresses, ?_⟩⟩
        · simp only [tryGetWriteChunk, hWrite, hLen, if_neg (Nat.not_le_of_lt hShort)]
        · rw [hSpace]
          exact hn.symm
        · omega
        · rw [hRoom]
          exact hn
        · rw [hRoom']
          omega
      · have hLong : chunkSize ≤ b.lenAt last := by omega
        cases hMalloc : malloc.malloc b.addresses with
        | none =>
            refine .inl ⟨by omega, rfl, ?_⟩
            simp only [addresses] at hMalloc
            simp only [tryGetWriteChunk, hWrite, if_pos hLong, hMalloc, Option.map_none]
        | some address =>
            refine .inr (hNew ?_ (by omega) hMalloc (by rw [hChunks]; exact hDistinct) ?_)
            · rw [hChunks]
              intro c hMem
              rcases List.mem_append.mp hMem with hMem | hMem
              · exact hFull c hMem
              · obtain rfl := List.mem_singleton.mp hMem
                exact Nat.le_antisymm hLe (Nat.le_of_not_lt hShort)
            · simp only [addresses] at hMalloc
              simp only [tryGetWriteChunk, hWrite, if_pos hLong, hMalloc, Option.map_some,
                Option.isSome_some, if_true]

/-! ### What is counted, whatever is acknowledged -/

/-- The buffer after at most so many octets, with any acknowledgements. -/
structure Counted (b : ChunkBuffer) (offered : Nat) : Prop where
  shape : Shape b.chunks b.writeChunk
  total_le : b.totalLen ≤ offered
  total : b.freedBytes + (held b.chunks).length = b.totalLen
  freed : chunkSize ∣ b.freedBytes
  unwritten : b.writeChunk = none → b.totalLen = 0

theorem Counted.start : Counted {} 0 := 
  ⟨.empty, Nat.le_refl _, rfl, Nat.dvd_zero _, fun _ => rfl⟩

theorem Counted.mono {b : ChunkBuffer} {offered more : Nat} (h : Counted b offered)
    (hLe : offered ≤ more) : Counted b more :=
  ⟨h.shape, h.total_le.trans hLe, h.total, h.freed, h.unwritten⟩

theorem Counted.turn {malloc : FallibleAllocator} {b b' : ChunkBuffer} {offered n : Nat}
    {data : Octets} (h : Counted b offered) (hTurn : Turn malloc b data n b') (hLe : n ≤ data.length)
    (hLimit : offered + data.length < sizeLimit) : Counted b' (offered + n) := by
  have hOffered := h.total_le
  have hBefore := h.total
  have hTotal : b'.totalLen = b.totalLen + n := by
    rw [hTurn.total]
    exact addSize_of_lt (by omega)
  refine ⟨hTurn.shape, by omega, ?_, ?_, fun hNone => absurd hNone hTurn.writable⟩
  · rw [hTurn.held, List.length_append, List.length_take_of_le hLe, hTurn.freed]
    omega
  · rw [hTurn.freed]
    exact h.freed

theorem Counted.tryWriteLoop (malloc : FallibleAllocator) (turns : Nat) :
    ∀ {b : ChunkBuffer} {offered : Nat} {data : Octets}, Counted b offered →
      offered + data.length < sizeLimit →
      Counted (b.tryWriteLoop malloc turns data).1 (offered + data.length) := by
  induction turns with
  | zero => exact fun h _ => h.mono (Nat.le_add_right ..)
  | succ turns ih =>
      intro b offered data h hLimit
      cases data with
      | nil => exact h
      | cons octet data =>
          rw [ChunkBuffer.tryWriteLoop]
          · rcases turn_spec malloc h.shape (List.cons_ne_nil octet data) with
              ⟨-, -, hNone⟩ | ⟨found, n, hFound, hCopy, hTurn⟩
            · rw [hNone]
              exact h.mono (Nat.le_add_right ..)
            · have hLe : n ≤ (octet :: data).length := hCopy ▸ Nat.min_le_left ..
              have hLength : ((octet :: data).drop n).length = (octet :: data).length - n :=
                List.length_drop
              rw [hFound]
              dsimp only
              rw [hCopy]
              have hRest := ih (h.turn hTurn hLe hLimit) (by rw [hLength]; omega)
              rw [hLength] at hRest
              exact hRest.mono (by omega)
          · exact List.cons_ne_nil _ _

theorem Counted.tryWrite {b : ChunkBuffer} {offered : Nat} (h : Counted b offered)
    (malloc : FallibleAllocator) {data : Octets} (hLimit : offered + data.length < sizeLimit) :
    Counted (b.tryWrite malloc data).1 (offered + data.length) :=
  Counted.tryWriteLoop malloc data.length h hLimit

/-! ### What is left -/

/-- What is freed are full chunks. -/
theorem Shape.full_of_gone {gone cs : List DataChunk} {w : Option Nat} (h : Shape (gone ++ cs) w)
    (hKept : ∀ c ∈ gone, some c.address ≠ w) : ∀ c ∈ gone, c.data.length = chunkSize := by
  generalize hAll : gone ++ cs = all at h
  cases h with
  | empty =>
      obtain ⟨rfl, -⟩ := List.append_eq_nil_iff.mp hAll
      exact fun c hMem => by cases hMem
  | @chunks full address data hFull _ _ _ =>
      intro c hMem
      have hIn : c ∈ full ++ [DataChunk.mk address data] := hAll ▸ List.mem_append_left _ hMem
      rcases List.mem_append.mp hIn with hIn | hLast
      · exact hFull c hIn
      · cases List.mem_singleton.mp hLast
        exact absurd rfl (hKept _ hMem)

theorem dvd_length_held {cs : List DataChunk} (hFull : ∀ c ∈ cs, c.data.length = chunkSize) :
    chunkSize ∣ (held cs).length := by
  induction cs with
  | nil => exact Nat.dvd_zero _
  | cons c cs ih =>
      rw [held_cons, List.length_append, hFull c List.mem_cons_self]
      exact Nat.dvd_add (Nat.dvd_refl _) (ih fun c' hMem => hFull c' (List.mem_cons_of_mem _ hMem))

theorem Counted.flushAcked {b : ChunkBuffer} {offered : Nat} (h : Counted b offered)
    (hLimit : offered < sizeLimit) : Counted b.flushAcked offered := by
  have hLe := h.total_le
  have hTotal := h.total
  obtain ⟨gone, hSplit, hCount, -, hKept⟩ :=
    @flushLoop_spec b.writeChunk b.ackedBytes b.chunks b.freedBytes (by omega)
  have hShape := h.shape
  rw [hSplit] at hShape hTotal
  rw [held_append, List.length_append] at hTotal
  refine ⟨hShape.drop hKept, h.total_le, ?_, ?_, h.unwritten⟩
  · rw [ChunkBuffer.flushAcked]
    dsimp only
    omega
  · rw [ChunkBuffer.flushAcked]
    dsimp only
    rw [hCount]
    exact Nat.dvd_add h.freed (dvd_length_held (hShape.full_of_gone hKept))

/-- Once all is acknowledged the loop runs up to the write chunk. -/
theorem flushLoop_acked {full : List DataChunk} {last : DataChunk} {acked : Nat} :
    ∀ {freed : Nat}, (∀ c ∈ full, c.address ≠ last.address) →
      freed + (held full).length ≤ acked → freed + (held full).length < sizeLimit →
      flushLoop (some last.address) acked (full ++ [last]) freed =
        ([last], freed + (held full).length) := by
  induction full with
  | nil =>
      intro freed _ _ _
      rw [List.nil_append, flushLoop, if_neg (fun h => h.1 rfl)]
      rfl
  | cons c full ih =>
      intro freed hOthers hAcked hLimit
      rw [held_cons, List.length_append] at hAcked hLimit ⊢
      have hNext : addSize freed c.data.length = freed + c.data.length := addSize_of_lt (by omega)
      rw [List.cons_append, flushLoop, hNext, if_pos, ih, Nat.add_assoc]
      · exact fun c' hMem => hOthers c' (List.mem_cons_of_mem _ hMem)
      · omega
      · omega
      · exact ⟨fun hSame => hOthers c List.mem_cons_self (Option.some.inj hSame), by omega⟩

/-- The octets of the last chunk, when so many have been written. -/
def tail (n : Nat) : Nat := if n = 0 then 0 else (n - 1) % chunkSize + 1

/-- What remains in use is the write chunk. -/
theorem Counted.memoryUsage_flushAcked {b : ChunkBuffer} {offered : Nat} (h : Counted b offered)
    (hLimit : offered < sizeLimit) (hAcked : b.totalLen ≤ b.ackedBytes) :
    b.flushAcked.memoryUsage = tail b.totalLen := by
  have hShape := h.shape
  have hTotal := h.total
  have hLe := h.total_le
  have hUnwritten := h.unwritten
  obtain ⟨pages, hPages⟩ := h.freed
  rw [memoryUsage]
  change (if b.flushAcked.freedBytes < b.totalLen then b.totalLen - b.flushAcked.freedBytes else 0) = _
  generalize hChunks : b.chunks = cs at hShape hTotal
  generalize hWrite : b.writeChunk = w at hShape hUnwritten
  cases hShape with
  | empty => rw [hUnwritten rfl, if_neg (Nat.not_lt_zero _), tail, if_pos rfl]
  | @chunks full address data hFull hData hRoom hDistinct =>
      obtain ⟨fullPages, hFullPages⟩ := dvd_length_held hFull
      rw [held_append, List.length_append, held_cons, held_nil, List.append_nil] at hTotal
      dsimp only at hTotal
      have hOthers : ∀ c ∈ full, c.address ≠ (DataChunk.mk address data).address := by
        rw [List.map_append, List.nodup_append] at hDistinct
        exact fun c hMem =>
          hDistinct.2.2 _ (List.mem_map_of_mem hMem) _ (List.mem_singleton_self _)
      have hFlushed : b.flushAcked.freedBytes = b.freedBytes + (held full).length := by
        rw [ChunkBuffer.flushAcked, hChunks, hWrite]
        dsimp only
        rw [@flushLoop_acked full (DataChunk.mk address data) _ _ hOthers (by omega) (by omega)]
      rw [hFlushed, if_pos (by omega), tail, if_neg (by omega)]
      simp only [chunkSize] at hPages hFullPages hRoom ⊢
      omega

/-! ### How much memory a write needs -/

/-- The number of chunks to be allocated for so many octets. -/
def chunksNeeded (b : ChunkBuffer) (len : Nat) : Nat := (len - b.room + (chunkSize - 1)) / chunkSize

/-- There is memory for `n` chunks more, one after the other. -/
def Grants (malloc : FallibleAllocator) : List Nat → Nat → Prop
  | _, 0 => True
  | used, n + 1 => ∃ address, malloc.malloc used = some address ∧
      Grants malloc (used ++ [address]) n

theorem chunksNeeded_zero (b : ChunkBuffer) : b.chunksNeeded 0 = 0 := by
  rw [chunksNeeded, Nat.zero_sub, Nat.zero_add]
  exact Nat.div_eq_of_lt (by decide)

/-- A turn takes one of the chunks that are needed, or none. -/
theorem Turn.grants_iff {malloc : FallibleAllocator} {b b' : ChunkBuffer} {data : Octets} {n : Nat}
    (h : Turn malloc b data n b') :
    Grants malloc b'.addresses (b'.chunksNeeded (data.length - n)) ↔
      Grants malloc b.addresses (b.chunksNeeded data.length) := by
  have hPositive := h.positive
  rcases h.memory with ⟨hRoom, hn, hAddresses, hRoom'⟩ |
      ⟨hRoom, hn, hRoom', address, hMalloc, hAddresses⟩
  · have hNeeded : b'.chunksNeeded (data.length - n) = b.chunksNeeded data.length := by
      rw [chunksNeeded, chunksNeeded, hRoom']
      congr 2
      omega
    rw [hNeeded, hAddresses]
  · have hNeeded : b.chunksNeeded data.length = b'.chunksNeeded (data.length - n) + 1 := by
      simp only [chunksNeeded, hRoom, hRoom', hn, chunkSize]
      omega
    rw [hNeeded, hAddresses, Grants, hMalloc]
    constructor
    · exact fun hGrants => ⟨address, rfl, hGrants⟩
    · rintro ⟨_, ⟨⟩, hGrants⟩
      exact hGrants

/-- What is written stays, and the rest is behind it. -/
theorem tryWriteLoop_grown (malloc : FallibleAllocator) (turns : Nat) :
    ∀ {b : ChunkBuffer} {data : Octets}, Shape b.chunks b.writeChunk →
      Shape (b.tryWriteLoop malloc turns data).1.chunks (b.tryWriteLoop malloc turns data).1.writeChunk ∧
        (held b.chunks).length ≤ (held (b.tryWriteLoop malloc turns data).1.chunks).length := by
  induction turns with
  | zero => exact fun h => ⟨h, Nat.le_refl _⟩
  | succ turns ih =>
      intro b data h
      cases data with
      | nil => exact ⟨h, Nat.le_refl _⟩
      | cons octet data =>
          rw [tryWriteLoop]
          · rcases turn_spec malloc h (List.cons_ne_nil octet data) with
              ⟨-, -, hNone⟩ | ⟨found, n, hFound, hCopy, hTurn⟩
            · rw [hNone]
              exact ⟨h, Nat.le_refl _⟩
            · rw [hFound]
              dsimp only
              rw [hCopy]
              obtain ⟨hShape, hLe⟩ := @ih _ ((octet :: data).drop n) hTurn.shape
              rw [hTurn.held, List.length_append] at hLe
              exact ⟨hShape, by omega⟩
          · exact List.cons_ne_nil _ _

/-- A write takes all of the data just when there is memory for the chunks it needs. -/
theorem tryWriteLoop_iff (malloc : FallibleAllocator) (turns : Nat) :
    ∀ {b : ChunkBuffer} {data : Octets}, Shape b.chunks b.writeChunk → data.length ≤ turns →
      ((b.tryWriteLoop malloc turns data).2 = true ↔
        Grants malloc b.addresses (b.chunksNeeded data.length)) := by
  induction turns with
  | zero =>
      intro b data _ hTurns
      rw [Nat.le_zero.mp hTurns, chunksNeeded_zero]
      exact iff_of_true rfl trivial
  | succ turns ih =>
      intro b data h hTurns
      cases data with
      | nil =>
          rw [List.length_nil, chunksNeeded_zero]
          exact iff_of_true rfl trivial
      | cons octet data =>
          rw [tryWriteLoop]
          · rcases turn_spec malloc h (List.cons_ne_nil octet data) with
              ⟨hRoom, hMalloc, hNone⟩ | ⟨found, n, hFound, hCopy, hTurn⟩
            · rw [hNone]
              refine iff_of_false Bool.false_ne_true ?_
              have hNeeded : ∃ k, b.chunksNeeded (octet :: data).length = k + 1 := by
                refine Nat.exists_eq_succ_of_ne_zero (Nat.ne_of_gt (Nat.div_pos ?_ (by decide)))
                rw [hRoom, List.length_cons]
                omega
              obtain ⟨k, hNeeded⟩ := hNeeded
              rw [hNeeded, Grants, hMalloc]
              rintro ⟨_, hSome, _⟩
              cases hSome
            · have hLength : ((octet :: data).drop n).length = (octet :: data).length - n :=
                List.length_drop
              have hPositive := hTurn.positive
              rw [hFound]
              dsimp only
              rw [hCopy, ih hTurn.shape (by omega), hLength]
              exact hTurn.grants_iff
          · exact List.cons_ne_nil _ _

/-- A write leaves the buffer as it was when there is nothing to write, or no memory for its
first octet. -/
theorem tryWrite_same_iff (malloc : FallibleAllocator) {b : ChunkBuffer}
    (h : Shape b.chunks b.writeChunk) (data : Octets) :
    (b.tryWrite malloc data).1 = b ↔
      data = [] ∨ b.room = 0 ∧ malloc.malloc b.addresses = none := by
  cases data with
  | nil => exact iff_of_true rfl (.inl rfl)
  | cons octet data =>
      rw [tryWrite, List.length_cons, tryWriteLoop]
      · rcases turn_spec malloc h (List.cons_ne_nil octet data) with
          ⟨hRoom, hMalloc, hNone⟩ | ⟨found, n, hFound, hCopy, hTurn⟩
        · rw [hNone]
          exact iff_of_true rfl (.inr ⟨hRoom, hMalloc⟩)
        · rw [hFound]
          dsimp only
          rw [hCopy]
          refine iff_of_false (fun hSame => ?_) ?_
          · -- an octet more is in the chunks
            have hLe :=
              (@tryWriteLoop_grown malloc data.length _ ((octet :: data).drop n) hTurn.shape).2
            have hCopied : ((octet :: data).take n).length = n :=
              List.length_take_of_le (hCopy ▸ Nat.min_le_left ..)
            have hPositive := hTurn.positive
            rw [hSame, hTurn.held, List.length_append, hCopied] at hLe
            omega
          · rintro (hNil | ⟨hRoom, hMalloc⟩)
            · cases hNil
            · rcases hTurn.memory with ⟨hPositive, -⟩ | ⟨-, -, -, address, hSome, -⟩
              · omega
              · rw [hMalloc] at hSome
                cases hSome
      · exact List.cons_ne_nil _ _

theorem tryWrite_iff (malloc : FallibleAllocator) {b : ChunkBuffer}
    (h : Shape b.chunks b.writeChunk) (data : Octets) :
    (b.tryWrite malloc data).2 = true ↔
      Grants malloc b.addresses (b.chunksNeeded data.length) :=
  tryWriteLoop_iff malloc data.length h (Nat.le_refl _)

end ChunkBuffer

/-! ### Histories -/

/-- A call of one of the functions on a buffer, with any allocations and acknowledgements. -/
inductive HistoryOp where
  | write (malloc : FallibleAllocator) (data : Octets)
  | read
  | consume (bytes : Nat)
  | ack (bytes : Nat)
  | flushAcked
  | setEof

namespace HistoryOp
open ChunkBuffer

def apply (b : ChunkBuffer) : HistoryOp → ChunkBuffer
  | .write malloc data => (b.tryWrite malloc data).1
  | .read => b
  | .consume bytes => b.consume bytes
  | .ack bytes => b.ack bytes
  | .flushAcked => b.flushAcked
  | .setEof => b.setEof

/-- How many octets are to be written. -/
def offered : HistoryOp → Nat
  | .write _ data => data.length
  | _ => 0

def run (ops : List HistoryOp) : ChunkBuffer := runEvents apply {} ops

def allOffered (ops : List HistoryOp) : Nat := (ops.map offered).sum

theorem counted_apply {b : ChunkBuffer} {n : Nat} (h : b.Counted n) (op : HistoryOp)
    (hLimit : n + op.offered < sizeLimit) : (op.apply b).Counted (n + op.offered) := by
  cases op with
  | write malloc data => exact h.tryWrite malloc hLimit
  | read => exact h
  | consume bytes => exact ⟨h.shape, h.total_le, h.total, h.freed, h.unwritten⟩
  | ack bytes => exact ⟨h.shape, h.total_le, h.total, h.freed, h.unwritten⟩
  | flushAcked => exact h.flushAcked hLimit
  | setEof => exact ⟨h.shape, h.total_le, h.total, h.freed, h.unwritten⟩

theorem counted_run (ops : List HistoryOp) :
    ∀ {b : ChunkBuffer} {n : Nat}, b.Counted n → n + allOffered ops < sizeLimit →
      (runEvents apply b ops).Counted (n + allOffered ops) := by
  induction ops with
  | nil => exact fun h _ => h
  | cons op ops ih =>
      intro b n h hLimit
      rw [allOffered, List.map_cons, List.sum_cons, ← Nat.add_assoc] at hLimit ⊢
      exact ih (counted_apply h op (by omega)) hLimit

/-- All that was written has been consumed and acknowledged. -/
def AllAcked (b : ChunkBuffer) : Prop := b.consumedBytes = b.totalLen ∧ b.totalLen ≤ b.ackedBytes

/-- Once all has been acknowledged and freed, a write finds room beside the last chunk. -/
theorem canWrite_flushed_iff (ops : List HistoryOp) (hLimit : allOffered ops < sizeLimit)
    (hAcked : AllAcked (run ops)) (len : Nat) (hLen : len ≤ maxBufferSize) :
    (run ops).flushAcked.canWrite len = true ↔
      len + tail (run ops).totalLen ≤ maxBufferSize := by
  have hCounted : (run ops).Counted (0 + allOffered ops) :=
    counted_run ops .start (by rwa [Nat.zero_add])
  rw [Nat.zero_add] at hCounted
  have hTail : tail (run ops).totalLen ≤ chunkSize := by
    have := Nat.mod_lt ((run ops).totalLen - 1) (by decide : 0 < chunkSize)
    rw [tail]
    split <;> omega
  have hMax : maxBufferSize + chunkSize < sizeLimit := by decide
  rw [canWrite, decide_eq_true_iff, hCounted.memoryUsage_flushAcked hLimit hAcked.2,
    addSize_of_lt (by omega), Nat.add_comm]

/-- Memory behind all chunks, without end. -/
def plenty : FallibleAllocator where
  malloc used := some (BufferSession.behind.malloc used)
  fresh := by
    rintro used address ⟨⟩
    exact BufferSession.behind.fresh used

theorem canWrite_flushed_page :
    (run [.write plenty [1, 2, 3], .read, .consume 3, .ack 3]).flushAcked.canWrite 65536 = true ↔
      65536 + tail (run [.write plenty [1, 2, 3], .read, .consume 3, .ack 3]).totalLen ≤
        maxBufferSize :=
  canWrite_flushed_iff _ (by decide) ⟨by decide, by decide⟩ 65536 (by decide)

/-- One octet is written, sent and acknowledged, and a write of the maximal length is refused. -/
theorem canWrite_flushed_max :
    ¬ (run [.write plenty [1], .read, .consume 1, .ack 1]).flushAcked.canWrite maxBufferSize := by
  decide

end HistoryOp

end PageCamel.Http3
