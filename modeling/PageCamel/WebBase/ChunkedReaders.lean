import PageCamel.WebBase.ChunkedBody

/-!
What the readers of chunked bodies report. A body that arrives whole and in time is read
to its end; of any other input they report the same success.
-/

namespace PageCamel.WebBase
open PageCamel.Lib PageCamel.Lib.Http1

/-! ### Chunked bodies -/

/-- A chunk-size line without its line end. -/
def IsSizeLine (line : Octets) (size : Nat) : Prop :=
  chunkSize line = some size ∧ ∀ b ∈ line, isValueChar b = true

/-- Field lines and the empty line after them. -/
inductive TrailerSection : Octets → Prop
  | empty : TrailerSection crlf
  | field {line rest : Octets} : (parseField line).isSome = true → TrailerSection rest →
      TrailerSection (line ++ crlf ++ rest)

/-- The chunks with their data, up to the line of the terminal chunk. -/
inductive ChunkLines : List Octets → Octets → Prop
  | last {line : Octets} : IsSizeLine line 0 → ChunkLines [] (line ++ crlf)
  | chunk {line data rest : Octets} {chunks : List Octets} : IsSizeLine line data.length →
      data ≠ [] → ChunkLines chunks rest →
      ChunkLines (data :: chunks) (line ++ crlf ++ data ++ crlf ++ rest)

/-- A chunked body with these chunks arrives, all of it in time. -/
def BodyArrives (chunks : List Octets) (socket rest : Arrivals) : Prop :=
  ∃ lines trailers, ChunkLines chunks lines ∧ TrailerSection trailers ∧
    socket = arriving (lines ++ trailers) ++ rest

/-! ### Reading what arrives in time -/

theorem arriving_append (s s' : Octets) : arriving (s ++ s') = arriving s ++ arriving s' :=
  List.map_append

/-- A line has no line ends in it. -/
def IsLineText (line : Octets) : Prop := ∀ b ∈ line, b ≠ 13 ∧ b ≠ 10

theorem isLineText_of_value {line : Octets} (h : ∀ b ∈ line, isValueChar b = true) :
    IsLineText line := by
  intro b hb
  have hValue := h b hb
  refine ⟨?_, ?_⟩
  · rintro rfl
    exact absurd hValue (by decide)
  · rintro rfl
    exact absurd hValue (by decide)

theorem read_line_append {line : Octets} (h : IsLineText line) (rest : Arrivals) (acc : Octets) :
    read_chunk_size_line (arriving (line ++ crlf) ++ rest) acc = (some (acc ++ line), rest) := by
  induction line generalizing acc with
  | nil => rw [List.append_nil]; rfl
  | cons b line ih =>
      have hByte := h b List.mem_cons_self
      rw [List.cons_append, arriving, List.map_cons, List.cons_append, read_chunk_size_line,
        if_neg hByte.1, if_neg hByte.2, ← arriving,
        ih fun b' hb' => h b' (List.mem_cons_of_mem _ hb'), List.append_assoc]
      rfl

theorem sysread_append {n : Nat} {data : Octets} (h : n ≤ data.length) (rest : Arrivals) :
    sysread n (arriving data ++ rest) = (data.take n, arriving (data.drop n) ++ rest) := by
  induction data generalizing n with
  | nil =>
      rw [Nat.le_zero.mp h]
      cases rest with
      | nil => rfl
      | cons s rest => rfl
  | cons b data ih =>
      cases n with
      | zero => rfl
      | succ n =>
          rw [arriving, List.map_cons, List.cons_append, sysread, ← arriving,
            ih (Nat.le_of_succ_le_succ h)]
          rfl

theorem readSize_le (cuts : List Nat) {remaining : Nat} (h : 0 < remaining) :
    readSize cuts remaining ≤ remaining := by
  rw [readSize]
  split <;> omega

theorem readSize_pos (cuts : List Nat) (remaining : Nat) : 0 < readSize cuts remaining :=
  Nat.lt_of_lt_of_le Nat.one_pos (Nat.le_max_left _ _)

/-- The blocks in which the data of a chunk is read, and the cuts that are left. -/
def pieces : Nat → List Nat → Octets → List Octets × List Nat
  | 0, cuts, _ => ([], cuts)
  | fuel + 1, cuts, data =>
      if data = [] then ([], cuts)
      else
        let n := readSize cuts data.length
        let (blocks, cuts) := pieces fuel cuts.tail (data.drop n)
        (data.take n :: blocks, cuts)

/-- The handler takes these blocks after those it was given before. -/
def Takes (accepts : List Octets → Octets → Bool) : List Octets → List Octets → Prop
  | _, [] => True
  | before, block :: blocks => accepts before block = true ∧ Takes accepts (before ++ [block]) blocks

theorem takes_append {accepts : List Octets → Octets → Bool} {before blocks blocks' : List Octets} :
    Takes accepts before (blocks ++ blocks') ↔
      Takes accepts before blocks ∧ Takes accepts (before ++ blocks) blocks' := by
  induction blocks generalizing before with
  | nil => simp [Takes]
  | cons block blocks ih =>
      rw [List.cons_append, Takes, Takes, ih, and_assoc, List.append_assoc]
      rfl

theorem takes_all (before blocks : List Octets) : Takes (fun _ _ => true) before blocks := by
  induction blocks generalizing before with
  | nil => trivial
  | cons block blocks ih => exact ⟨rfl, ih _⟩

theorem pieces_flatten {fuel : Nat} {cuts : List Nat} {data : Octets} (h : data.length ≤ fuel) :
    (pieces fuel cuts data).1.flatten = data := by
  induction fuel generalizing cuts data with
  | zero => rw [List.length_eq_zero_iff.mp (Nat.le_zero.mp h)]; rfl
  | succ fuel ih =>
      rw [pieces]
      by_cases hData : data = []
      · rw [if_pos hData, hData]
        rfl
      · rw [if_neg hData]
        have hPos := readSize_pos cuts data.length
        dsimp only
        rw [List.flatten_cons, ih, List.take_append_drop]
        rw [List.length_drop]
        omega

section
variable {accepts : List Octets → Octets → Bool}

/-- One read of a chunk whose data arrives. -/
theorem readChunk_step {fuel : Nat} {cuts : List Nat} {data : Octets} {rest : Arrivals}
    {blocks : List Octets} {total_size : Nat} (h : data ≠ []) :
    readChunk accepts (fuel + 1) data.length
        { cuts, socket := arriving data ++ rest, blocks, total_size } =
      if accepts blocks (data.take (readSize cuts data.length)) then
        let (complete, data', r) := readChunk accepts fuel
          (data.drop (readSize cuts data.length)).length
          { cuts := cuts.tail
            socket := arriving (data.drop (readSize cuts data.length)) ++ rest
            blocks := blocks ++ [data.take (readSize cuts data.length)]
            total_size := total_size + (data.take (readSize cuts data.length)).length }
        (complete, data.take (readSize cuts data.length) ++ data', r)
      else
        (false, data.take (readSize cuts data.length),
          { cuts := cuts.tail
            socket := arriving (data.drop (readSize cuts data.length)) ++ rest
            blocks := blocks ++ [data.take (readSize cuts data.length)], total_size }) := by
  obtain ⟨b, data', rfl⟩ := List.exists_cons_of_ne_nil h
  have hPos : 0 < (b :: data').length := Nat.succ_pos _
  have hSize := readSize_le cuts hPos
  have hRead := sysread_append hSize rest
  rw [readChunk, if_neg (Nat.ne_of_gt hPos)]
  have hLength : (b :: data').length - ((b :: data').take (readSize cuts (b :: data').length)).length =
      ((b :: data').drop (readSize cuts (b :: data').length)).length := by
    rw [List.length_drop, List.length_take, Nat.min_eq_left hSize]
  rw [← hLength]
  simp only [arriving, List.map_cons, List.cons_append] at hRead ⊢
  rw [hRead]

theorem readChunk_taken {fuel : Nat} {cuts : List Nat} {data : Octets} {rest : Arrivals}
    {blocks : List Octets} {total_size : Nat} (hFuel : data.length ≤ fuel)
    (hTakes : Takes accepts blocks (pieces fuel cuts data).1) :
    readChunk accepts fuel data.length
        { cuts, socket := arriving data ++ rest, blocks, total_size } =
      (true, data,
        { cuts := (pieces fuel cuts data).2
          socket := rest
          blocks := blocks ++ (pieces fuel cuts data).1
          total_size := total_size + data.length }) := by
  induction fuel generalizing cuts data blocks total_size with
  | zero =>
      rw [List.length_eq_zero_iff.mp (Nat.le_zero.mp hFuel)]
      simp [readChunk, pieces, arriving]
  | succ fuel ih =>
      by_cases hData : data = []
      · subst hData
        simp [readChunk, pieces, arriving]
      · rw [pieces, if_neg hData] at hTakes
        rw [readChunk_step hData, pieces, if_neg hData, if_pos hTakes.1]
        have hPos := readSize_pos cuts data.length
        have hSize := readSize_le cuts (List.length_pos_iff.mpr hData)
        rw [ih (by rw [List.length_drop]; omega) hTakes.2]
        simp only [List.take_append_drop, List.append_assoc, List.singleton_append,
          List.length_take, List.length_drop, Nat.min_eq_left hSize]
        rw [show total_size + readSize cuts data.length + (data.length - readSize cuts data.length) =
          total_size + data.length by omega]

theorem readChunk_refused {fuel : Nat} {cuts : List Nat} {data : Octets} {rest : Arrivals}
    {blocks : List Octets} {total_size : Nat} (hFuel : data.length ≤ fuel)
    (hRefuses : ¬ Takes accepts blocks (pieces fuel cuts data).1) :
    ∃ data' r, readChunk accepts fuel data.length
        { cuts, socket := arriving data ++ rest, blocks, total_size } = (false, data', r) ∧
      ∃ given, r.blocks = blocks ++ given ∧ ¬ Takes accepts blocks given := by
  induction fuel generalizing cuts data blocks total_size with
  | zero => exact absurd trivial hRefuses
  | succ fuel ih =>
      by_cases hData : data = []
      · rw [pieces, if_pos hData] at hRefuses
        exact absurd trivial hRefuses
      · rw [pieces, if_neg hData] at hRefuses
        have hPos := readSize_pos cuts data.length
        have hSize := readSize_le cuts (List.length_pos_iff.mpr hData)
        rw [readChunk_step hData]
        by_cases hAccepts : accepts blocks (data.take (readSize cuts data.length)) = true
        · obtain ⟨data', r, hRead, given, hGiven, hNot⟩ :=
            @ih cuts.tail (data.drop (readSize cuts data.length))
              (blocks ++ [data.take (readSize cuts data.length)])
              (total_size + (data.take (readSize cuts data.length)).length)
              (by rw [List.length_drop]; omega) fun hTakes => hRefuses ⟨hAccepts, hTakes⟩
          rw [if_pos hAccepts, hRead]
          refine ⟨_, r, rfl, data.take (readSize cuts data.length) :: given, ?_, ?_⟩
          · rw [hGiven, List.append_assoc, List.singleton_append]
          · exact fun hTakes => hNot hTakes.2
        · rw [if_neg hAccepts]
          exact ⟨_, _, rfl, [data.take (readSize cuts data.length)], rfl,
            fun hTakes => hAccepts hTakes.1⟩

theorem size_of_line {line : Octets} {size : Nat} (h : IsSizeLine line size) :
    isHexNumber (withoutExtension line) = true ∧ hexValue (withoutExtension line) = size := by
  have hChunk := h.1
  rw [chunkSize] at hChunk
  have hParts := List.takeWhile_append_dropWhile (p := fun b => (hexDigit? b).isSome) (l := line)
  have hDrop : line.drop (line.takeWhile fun b => (hexDigit? b).isSome).length =
      line.dropWhile fun b => (hexDigit? b).isSome :=
    (congrArg (List.drop _) hParts.symm).trans List.drop_left
  rw [hDrop] at hChunk
  have hDigits : ∀ b ∈ line.takeWhile fun b => (hexDigit? b).isSome, (hexDigit? b).isSome = true :=
    fun b hb => List.all_eq_true.mp List.all_takeWhile b hb
  generalize line.takeWhile (fun b => (hexDigit? b).isSome) = digits at *
  generalize line.dropWhile (fun b => (hexDigit? b).isSome) = extension at *
  split at hChunk
  · next hSize =>
      rw [Option.some.injEq] at hChunk
      have hWithout : withoutExtension line = digits := by
        rw [withoutExtension, ← hParts, List.takeWhile_append_of_pos]
        · rcases hSize.2 with rfl | hSemicolon
          · simp
          · cases extension with
            | nil => cases hSemicolon
            | cons b extension =>
                cases hSemicolon
                simp
        · intro b hb
          rw [decide_eq_true_eq]
          rintro rfl
          exact absurd (hDigits _ hb) (by decide)
      rw [hWithout]
      refine ⟨?_, hChunk⟩
      rw [isHexNumber, decide_eq_true_eq]
      exact ⟨hSize.1, List.all_eq_true.mpr hDigits⟩
  · cases hChunk

/-- The blocks in which a whole body is read. -/
def allPieces : List Nat → List Octets → List Octets × List Nat
  | cuts, [] => ([], cuts)
  | cuts, data :: chunks =>
      let (blocks, cuts) := pieces data.length cuts data
      let (blocks', cuts) := allPieces cuts chunks
      (blocks ++ blocks', cuts)

theorem allPieces_flatten (cuts : List Nat) (chunks : List Octets) :
    (allPieces cuts chunks).1.flatten = chunks.flatten := by
  induction chunks generalizing cuts with
  | nil => rfl
  | cons data chunks ih =>
      rw [allPieces]
      dsimp only
      rw [List.flatten_append, pieces_flatten le_rfl, ih, List.flatten_cons]

theorem arriving_chunk (line data : Octets) (rest : Arrivals) :
    arriving (line ++ crlf ++ data ++ crlf) ++ rest =
      arriving (line ++ crlf) ++ (arriving data ++ (arriving crlf ++ rest)) := by
  simp only [arriving_append, List.append_assoc]

/-- A chunk whose data were read, and the line end after it. -/
theorem readChunks_chunk {fuel : Nat} {line data : Octets} {cuts : List Nat} {rest : Arrivals}
    {blocks : List Octets} {total_size : Nat} {r : Reader} (hLine : IsSizeLine line data.length)
    (hData : data ≠ [])
    (hRead : readChunk accepts data.length data.length
      { cuts, socket := arriving data ++ (arriving crlf ++ rest), blocks, total_size } =
        (true, data, r)) (hSocket : r.socket = arriving crlf ++ rest) :
    readChunks accepts (fuel + 1)
        { cuts, socket := arriving (line ++ crlf ++ data ++ crlf) ++ rest, blocks, total_size } =
      ((readChunks accepts fuel { r with socket := rest }).1,
        data :: (readChunks accepts fuel { r with socket := rest }).2.1,
        (readChunks accepts fuel { r with socket := rest }).2.2) := by
  have hSize := size_of_line hLine
  have hEnd : read_chunk_size_line r.socket [] = (some [], rest) := by
    rw [hSocket]
    exact @read_line_append [] (fun b hb => absurd hb List.not_mem_nil) rest []
  rw [readChunks, arriving_chunk]
  simp only
  rw [read_line_append (isLineText_of_value hLine.2)]
  simp only [List.nil_append]
  rw [hSize.1, hSize.2, if_neg (by decide),
    if_neg (fun hZero => hData (List.length_eq_zero_iff.mp hZero))]
  simp only [hRead, hEnd]

theorem readChunks_chunk_refused {fuel : Nat} {line data data' : Octets} {cuts : List Nat}
    {rest : Arrivals} {blocks : List Octets} {total_size : Nat} {r : Reader}
    (hLine : IsSizeLine line data.length) (hData : data ≠ [])
    (hRead : readChunk accepts data.length data.length
      { cuts, socket := arriving data ++ (arriving crlf ++ rest), blocks, total_size } =
        (false, data', r)) :
    readChunks accepts (fuel + 1)
        { cuts, socket := arriving (line ++ crlf ++ data ++ crlf) ++ rest, blocks, total_size } =
      (false, [], r) := by
  have hSize := size_of_line hLine
  rw [readChunks, arriving_chunk]
  simp only
  rw [read_line_append (isLineText_of_value hLine.2)]
  simp only [List.nil_append]
  rw [hSize.1, hSize.2, if_neg (by decide),
    if_neg (fun hZero => hData (List.length_eq_zero_iff.mp hZero))]
  simp only [hRead]

theorem readChunks_taken {chunks : List Octets} {lines : Octets} (h : ChunkLines chunks lines)
    {fuel : Nat} (hFuel : chunks.length < fuel) {cuts : List Nat} {rest : Arrivals}
    {blocks : List Octets} {total_size : Nat}
    (hTakes : Takes accepts blocks (allPieces cuts chunks).1) :
    readChunks accepts fuel { cuts, socket := arriving lines ++ rest, blocks, total_size } =
      (true, chunks,
        { cuts := (allPieces cuts chunks).2
          socket := rest
          blocks := blocks ++ (allPieces cuts chunks).1
          total_size := total_size + (chunks.map List.length).sum }) := by
  induction h generalizing fuel cuts blocks total_size with
  | @last line hLine =>
      obtain ⟨fuel, rfl⟩ := Nat.exists_eq_succ_of_ne_zero (Nat.ne_of_gt hFuel)
      have hSize := size_of_line hLine
      rw [readChunks]
      simp only
      rw [read_line_append (isLineText_of_value hLine.2)]
      simp only [List.nil_append]
      rw [hSize.1, hSize.2, if_neg (by decide), if_pos rfl]
      simp [allPieces]
  | @chunk line data lines chunks hLine hData _ ih =>
      obtain ⟨fuel, rfl⟩ := Nat.exists_eq_succ_of_ne_zero (Nat.ne_of_gt (Nat.zero_lt_of_lt hFuel))
      rw [List.length_cons] at hFuel
      rw [allPieces] at hTakes ⊢
      dsimp only at hTakes ⊢
      rw [takes_append] at hTakes
      rw [arriving_append, List.append_assoc,
        readChunks_chunk hLine hData (readChunk_taken le_rfl hTakes.1) rfl]
      dsimp only
      rw [ih (Nat.lt_of_succ_lt_succ hFuel) hTakes.2]
      simp only [List.append_assoc, List.map_cons, List.sum_cons, Nat.add_assoc]

theorem readChunks_refused {chunks : List Octets} {lines : Octets} (h : ChunkLines chunks lines)
    {fuel : Nat} (hFuel : chunks.length < fuel) {cuts : List Nat} {rest : Arrivals}
    {blocks : List Octets} {total_size : Nat}
    (hRefuses : ¬ Takes accepts blocks (allPieces cuts chunks).1) :
    ∃ chunks' r, readChunks accepts fuel
        { cuts, socket := arriving lines ++ rest, blocks, total_size } = (false, chunks', r) ∧
      ∃ given, r.blocks = blocks ++ given ∧ ¬ Takes accepts blocks given := by
  induction h generalizing fuel cuts blocks total_size with
  | last hLine => exact absurd trivial hRefuses
  | @chunk line data lines chunks hLine hData _ ih =>
      obtain ⟨fuel, rfl⟩ := Nat.exists_eq_succ_of_ne_zero (Nat.ne_of_gt (Nat.zero_lt_of_lt hFuel))
      rw [List.length_cons] at hFuel
      rw [allPieces] at hRefuses
      dsimp only at hRefuses
      rw [takes_append, not_and_or] at hRefuses
      rw [arriving_append, List.append_assoc]
      by_cases hFirst : Takes accepts blocks (pieces data.length cuts data).1
      · obtain ⟨chunks', r, hRead, given, hGiven, hNot⟩ :=
          @ih fuel (Nat.lt_of_succ_lt_succ hFuel) (pieces data.length cuts data).2
            (blocks ++ (pieces data.length cuts data).1) (total_size + data.length)
            (hRefuses.resolve_left (not_not.mpr hFirst))
        rw [readChunks_chunk hLine hData (readChunk_taken le_rfl hFirst) rfl]
        dsimp only
        rw [hRead]
        refine ⟨_, r, rfl, (pieces data.length cuts data).1 ++ given, ?_, ?_⟩
        · rw [hGiven, List.append_assoc]
        · exact fun hTakes => hNot (takes_append.mp hTakes).2
      · obtain ⟨data', r, hRead, hGiven⟩ := readChunk_refused le_rfl hFirst
        exact ⟨_, r, readChunks_chunk_refused hLine hData hRead, hGiven⟩

end

theorem readTrailers_section {trailers : Octets} (h : TrailerSection trailers) {fuel : Nat}
    (hFuel : trailers.length < fuel) (rest : Arrivals) :
    (readTrailers fuel (arriving trailers ++ rest)).2 = rest := by
  induction h generalizing fuel with
  | empty =>
      obtain ⟨fuel, rfl⟩ := Nat.exists_eq_succ_of_ne_zero (Nat.ne_of_gt (Nat.zero_lt_of_lt hFuel))
      rfl
  | @field line lines hField _ ih =>
      obtain ⟨fuel, rfl⟩ := Nat.exists_eq_succ_of_ne_zero (Nat.ne_of_gt (Nat.zero_lt_of_lt hFuel))
      cases line with
      | nil => cases hField
      | cons b line =>
          have hText : IsLineText (b :: line) := isLineText_of_value (parseField_chars hField)
          rw [arriving_append, List.append_assoc, readTrailers, read_line_append hText]
          dsimp only
          rw [List.nil_append]
          dsimp only
          refine ih ?_
          rw [List.length_append, List.length_append, show crlf.length = 2 from rfl] at hFuel
          omega

theorem chunkLines_length {chunks : List Octets} {lines : Octets} (h : ChunkLines chunks lines) :
    chunks.length < lines.length := by
  have hCrlf : crlf.length = 2 := rfl
  induction h with
  | last hLine =>
      rw [List.length_append, hCrlf, List.length_nil]
      omega
  | chunk hLine hData _ ih =>
      simp only [List.length_append, hCrlf, List.length_cons]
      omega

theorem arriving_length (s : Octets) : (arriving s).length = s.length := List.length_map ..

section
variable {accepts : List Octets → Octets → Bool} {cuts : List Nat} {socket rest : Arrivals}
  {chunks : List Octets}

/-- A body that arrives is read to its end, and nothing after it. -/
theorem evalBlock_taken (h : BodyArrives chunks socket rest)
    (hTakes : Takes accepts [] (allPieces cuts chunks).1) :
    ∃ trailers r, evalBlock accepts cuts socket = (true, chunks, trailers, r) ∧
      r.blocks = (allPieces cuts chunks).1 ∧ r.total_size = (chunks.map List.length).sum ∧
        r.socket = rest := by
  obtain ⟨lines, trailers, hLines, hTrailers, rfl⟩ := h
  have hLength := chunkLines_length hLines
  rw [evalBlock, arriving_append, List.append_assoc, readChunks_taken hLines ?_ hTakes]
  · have hRest : (readTrailers ((arriving trailers ++ rest).length + 1)
        (arriving trailers ++ rest)).2 = rest :=
      readTrailers_section hTrailers (by rw [List.length_append, arriving_length]; omega) rest
    exact ⟨_, _, rfl, List.nil_append _, Nat.zero_add _, hRest⟩
  · rw [List.length_append, arriving_length]
    omega

theorem evalBlock_refused (h : BodyArrives chunks socket rest)
    (hRefuses : ¬ Takes accepts [] (allPieces cuts chunks).1) :
    ¬ Takes accepts [] (evalBlock accepts cuts socket).2.2.2.blocks := by
  obtain ⟨lines, trailers, hLines, hTrailers, rfl⟩ := h
  have hLength := chunkLines_length hLines
  have hFuel : chunks.length < (arriving lines ++ (arriving trailers ++ rest)).length + 1 := by
    rw [List.length_append, arriving_length]
    omega
  obtain ⟨chunks', r, hRead, given, hGiven, hNot⟩ :=
    @readChunks_refused accepts chunks lines hLines _ hFuel cuts (arriving trailers ++ rest) [] 0
      hRefuses
  rw [evalBlock, arriving_append, List.append_assoc, hRead]
  dsimp only
  rw [hGiven, List.nil_append]
  exact hNot

end

/-! ### What the readers report -/

/-- The return value says whether a whole body was read and handled, and if so the data are
those of its chunks. The callers go by the return value. -/
structure Reports (socket : Arrivals) (handled : Prop) (returned : Bool) (data : Option Octets) :
    Prop where
  returned_iff : returned = true ↔ (∃ chunks rest, BodyArrives chunks socket rest) ∧ handled
  data_eq : returned = true → ∀ chunks rest, BodyArrives chunks socket rest →
    data = some chunks.flatten

theorem collected_data {cuts : List Nat} {chunks : List Octets} {socket rest : Arrivals}
    (h : BodyArrives chunks socket rest) :
    (get_request_body_chunked cuts socket).postdata = some chunks.flatten := by
  obtain ⟨trailers, r, hBlock, -⟩ := evalBlock_taken h (takes_all [] (allPieces cuts chunks).1)
  rw [get_request_body_chunked, hBlock]

/-- Both readers report success always, so what they report is right when a whole body
arrives in time, and when the handler takes each block of it. -/
theorem chunked_readers_iff (accepts : List Octets → Octets → Bool) (cuts : List Nat)
    (socket : Arrivals) :
    (Reports socket True (get_request_body_chunked cuts socket).returned
        (get_request_body_chunked cuts socket).postdata ↔
      ∃ chunks rest, BodyArrives chunks socket rest) ∧
    (Reports socket (Takes accepts [] (stream_request_body_chunked accepts cuts socket).blocks)
        (stream_request_body_chunked accepts cuts socket).returned
        (some (stream_request_body_chunked accepts cuts socket).blocks.flatten) ↔
      ∃ chunks rest, BodyArrives chunks socket rest ∧
        Takes accepts [] (allPieces cuts chunks).1) := by
  refine ⟨⟨fun h => (h.returned_iff.mp rfl).1, fun hArrives => ?_⟩, fun h => ?_, ?_⟩
  · exact ⟨⟨fun _ => ⟨hArrives, trivial⟩, fun _ => rfl⟩, fun _ chunks rest h => collected_data h⟩
  · obtain ⟨⟨chunks, rest, hArrives⟩, hTaken⟩ := h.returned_iff.mp rfl
    refine ⟨chunks, rest, hArrives, ?_⟩
    by_contra hRefuses
    exact evalBlock_refused hArrives hRefuses hTaken
  · rintro ⟨chunks, rest, hArrives, hTakes⟩
    obtain ⟨trailers, r, hBlock, hBlocks, -⟩ := evalBlock_taken hArrives hTakes
    have hGiven : (stream_request_body_chunked accepts cuts socket).blocks =
        (allPieces cuts chunks).1 := by
      rw [stream_request_body_chunked, hBlock]
      exact hBlocks
    rw [hGiven]
    refine ⟨⟨fun _ => ⟨⟨chunks, rest, hArrives⟩, hTakes⟩, fun _ => rfl⟩, fun _ chunks' rest' h => ?_⟩
    -- the data are a function of the socket
    have hData := (@collected_data cuts _ _ _ hArrives).symm.trans (collected_data h)
    rw [allPieces_flatten, hData]

/-- The client breaks off in the middle of a chunk, and the reader reports an empty body. -/
theorem truncated_body :
    ¬ ∀ (cuts : List Nat) (socket : Arrivals),
      Reports socket True (get_request_body_chunked cuts socket).returned
        (get_request_body_chunked cuts socket).postdata := by
  intro hAll
  obtain ⟨⟨chunks, rest, hArrives⟩, -⟩ :=
    (hAll [] (arriving (octets "5\r\nhel"))).returned_iff.mp rfl
  obtain ⟨trailers, r, hBlock, -⟩ :=
    evalBlock_taken hArrives (takes_all [] (allPieces [] chunks).1)
  have hFirst : (evalBlock (fun _ _ => true) [] (arriving (octets "5\r\nhel"))).1 = true :=
    congrArg Prod.fst hBlock
  revert hFirst
  decide +kernel

end PageCamel.WebBase
