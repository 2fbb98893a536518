import PageCamel.Http2.ConnectionErrors
import PageCamel.Http2.FeedProgress
import PageCamel.Http2.SendSteps
import PageCamel.Http2.StreamTree

/-!
Frames that are decoded again. A decoder that fails leaves its frame in the input, and the next
call of `feed` decodes it once more. After an error of the connection that changes nothing,
unless the block of the frame has moved the decoder on, or the frame is so short that its decoder
reads the octets behind it.
-/

namespace PageCamel.Http2
open PageCamel.Lib

/-! ### Octets of a frame -/

section
variable {buf buf' : Octets} {n : Nat} (hSame : buf'.take n = buf.take n)
include hSame

theorem take_congr_of_le {m : Nat} (h : m ≤ n) : buf'.take m = buf.take m := by
  have hTake := congrArg (List.take m) hSame
  rwa [List.take_take, List.take_take, Nat.min_eq_left h] at hTake

theorem drop_take_congr {start len : Nat} (h : start + len ≤ n) :
    (buf'.drop start).take len = (buf.drop start).take len := by
  rw [List.take_drop, List.take_drop, take_congr_of_le hSame h]

theorem unpack8_congr {start : Nat} (h : start + 1 ≤ n) :
    unpack8 (buf'.drop start) = unpack8 (buf.drop start) := by
  have hTake (l : Octets) : unpack8 l = unpack8 (l.take 1) := by cases l <;> rfl
  rw [hTake, drop_take_congr hSame h, ← hTake]

theorem unpack32_congr {start : Nat} (h : start + 4 ≤ n) :
    unpack32 (buf'.drop start) = unpack32 (buf.drop start) := by
  have hTake (l : Octets) : unpack32 l = unpack32 (l.take 4) := by
    match l with
    | [] | [_] | [_, _] | [_, _, _] | _ :: _ :: _ :: _ :: _ => rfl
  rw [hTake, drop_take_congr hSame h, ← hTake]

theorem unpack16_congr {start : Nat} (h : start + 2 ≤ n) :
    unpack16 (buf'.drop start) = unpack16 (buf.drop start) := by
  have hTake (l : Octets) : unpack16 l = unpack16 (l.take 2) := by
    match l with
    | [] | [_] | _ :: _ :: _ => rfl
  rw [hTake, drop_take_congr hSame h, ← hTake]

theorem headD_congr {start : Nat} (h : start + 1 ≤ n) :
    (buf'.drop start).headD 0 = (buf.drop start).headD 0 := by
  have hTake (l : Octets) : l.headD 0 = (l.take 1).headD 0 := by cases l <;> rfl
  rw [hTake, drop_take_congr hSame h, ← hTake]

theorem frameHeaderDecode_congr (h : frameHeaderSize ≤ n) :
    frameHeaderDecode buf' = frameHeaderDecode buf := by
  rw [frameHeaderSize] at h
  have hHigh := @unpack8_congr _ _ _ hSame 0 (by omega)
  rw [List.drop_zero, List.drop_zero] at hHigh
  rw [frameHeaderDecode, frameHeaderDecode, hHigh, unpack16_congr hSame (by omega),
    unpack8_congr hSame (by omega), headD_congr hSame (by omega), unpack32_congr hSame (by omega)]

end

namespace Connection

variable {con con' c : Connection} {fh : FrameHeader} {buf block : Octets} {sid : Nat}

/-! ### Hashes without their order -/

/-- The connection, but for the order in which its hashes hold their keys. -/
def unordered (con : Connection) : Connection × (Nat → Option Stream) × (Nat → Option Nat) :=
  ({ con with streams := ∅, encodeCtx := { con.encodeCtx with settings := ∅ } }, con.stream?,
    fun key => con.encodeCtx.settings.lookup key)

theorem stream?_unordered (h : c.unordered = con.unordered) (sid : Nat) : c.stream? sid = con.stream? sid :=
  congrArg (fun v => v.2.1 sid) h

theorem unordered_modifyStream {f : Stream → Stream} (h : (con.stream? sid).map f = con.stream? sid) :
    (con.modifyStream sid f).unordered = con.unordered := by
  cases hs : con.stream? sid with
  | none => rw [modifyStream_of_none hs]
  | some s =>
      have hStreams : (con.modifyStream sid f).stream? = con.stream? := by
        funext other
        rw [stream?_modifyStream]
        split
        · next hSame => rw [hSame, h]
        · rfl
      rw [unordered, hStreams, modifyStream_of_some hs]
      rfl

theorem setError_of_shutdown (h : con.shutdown = true) (code : ErrorCode) :
    con.setError code = con := if_pos h

theorem unordered_snd_setError (con : Connection) (code : ErrorCode) :
    (con.setError code).unordered.2 = con.unordered.2 := by
  rw [setError]
  split
  · rfl
  · rw [finish]
    split <;> rfl

/-- An error has been raised exactly when the connection has been shut down, and then it makes no
more streams. -/
structure Sound (con : Connection) : Prop where
  error : con.error.isSome = con.shutdown
  goaway : con.shutdown = true → con.goaway = true

theorem Sound.fate (h : con.Sound) (hFate : Fate con con') : con'.Sound := by
  rcases hFate.outcome with ⟨hSame, hError⟩ | ⟨hUp, hDown, hError⟩
  · exact ⟨by rw [hError, hSame, h.error], fun hDown => hFate.goaway (h.goaway (hSame ▸ hDown))⟩
  · exact ⟨by rw [hError, hDown], fun _ => hFate.closes hUp hDown⟩

/-- Once the connection is shut down, the function fails and changes nothing. -/
def Again (con : Connection) (decode : Connection → Connection × Option Nat) : Prop :=
  ∀ c : Connection, c.unordered = con.unordered → c.shutdown = true →
    ∃ c', decode c = (c', none) ∧ c'.unordered = con.unordered

theorem again_setError {code : ErrorCode} : Again con fun c => (c.setError code, none) :=
  fun c hView hDown => ⟨c, congrArg (·, none) (setError_of_shutdown hDown code), hView⟩

/-- A check of the frame comes out as before. -/
theorem Again.ite {p : Prop} [Decidable p] {r r' : Connection × Option Nat}
    {decode decode' : Connection → Connection × Option Nat}
    (hNone : (if p then r else r') = (con', none)) (h : p → r = (con', none) → Again con' decode)
    (h' : ¬ p → r' = (con', none) → Again con' decode') :
    Again con' fun c => if p then decode c else decode' c := by
  by_cases hp : p
  · simp only [if_pos hp] at hNone ⊢
    exact h hp hNone
  · simp only [if_neg hp] at hNone ⊢
    exact h' hp hNone

/-! ### Priorities -/

/-- `stream_reprio` takes the dependency: both streams are there, and they are two. -/
def Hangs (con : Connection) (sid dep : Nat) : Prop :=
  (con.stream? sid).isSome ∧ (dep = 0 ∨ (con.stream? dep).isSome) ∧ sid ≠ dep

theorem hangs_congr (h : ∀ other, (c.stream? other).isSome = (con.stream? other).isSome)
    (sid dep : Nat) : c.Hangs sid dep ↔ con.Hangs sid dep := by
  rw [Hangs, Hangs, h, h]

theorem streamReprio_eq (con : Connection) (sid : Nat) (exclusive : Bool) (dep : Nat)
    [Decidable (con.Hangs sid dep)] :
    con.streamReprio sid exclusive dep =
      if con.Hangs sid dep then
        (if exclusive then (con.changeDep sid dep).takeSiblings sid dep else con.changeDep sid dep,
          true)
      else (con, false) := by
  have hGuard : ((con.stream? sid).isNone ∨ (dep ≠ 0 ∧ (con.stream? dep).isNone) ∨ sid = dep) ↔
      ¬ con.Hangs sid dep := by
    simp only [Hangs, ← Option.not_isSome, Bool.not_eq_true', not_and_or, not_or, ne_eq, not_not,
      Bool.not_eq_true]
  rw [streamReprio, ite_congr (propext hGuard) (fun _ => rfl) fun _ => rfl, ite_not]

theorem takeSiblings_of_none {dep : Nat}
    (h : ∀ other, other ≠ sid → (con.stream? other).isSome → con.parent other ≠ dep) :
    con.takeSiblings sid dep = con := by
  have hKeys (other : Nat) (hMem : other ∈ con.streams.keys) : (con.stream? other).isSome :=
    AList.lookup_isSome.mpr hMem
  rw [takeSiblings]
  generalize con.streams.keys = keys at hKeys
  induction keys with
  | nil => rfl
  | cons other keys ih =>
      have hSkip : (con.get other Stream.streamDep).getD 0 ≠ dep ∨ other = sid :=
        or_iff_not_imp_right.mpr fun hNe => h other hNe (hKeys other (List.mem_cons_self ..))
      rw [List.foldl_cons]
      rw [if_pos hSkip]
      exact ih fun other hMem => hKeys other (.tail _ hMem)

/-- After an exclusive dependency no other stream depends on the same one. -/
theorem parent_takeSiblings {dep other : Nat} (hNe : sid ≠ dep) (hOther : other ≠ sid)
    (hs : (con.stream? other).isSome) : (con.takeSiblings sid dep).parent other ≠ dep := by
  have hStays (keys : List Nat) (con : Connection) (h : con.parent other ≠ dep) :
      (keys.foldl (fun con other =>
        if (con.get other Stream.streamDep).getD 0 ≠ dep ∨ other = sid then con
        else con.setStreamDep other sid) con).parent other ≠ dep := by
    induction keys generalizing con with
    | nil => exact h
    | cons key keys ih =>
        refine ih _ ?_
        dsimp only
        split
        · exact h
        · next hSibling =>
            obtain ⟨hDep, hKey⟩ := not_or.mp hSibling
            rcases (adopts_setStreamDep (not_not.mp hDep) hKey).others other with hSame | ⟨-, hIs⟩
            · rwa [hSame]
            · rwa [hIs]
  have hMem : other ∈ con.streams.keys := AList.lookup_isSome.mp hs
  rw [takeSiblings]
  generalize con.streams.keys = keys at hMem
  induction keys generalizing con with
  | nil => cases hMem
  | cons key keys ih =>
      rcases List.mem_cons.mp hMem with rfl | hLater
      · refine hStays keys _ ?_
        dsimp only
        split
        · next hSkip => exact hSkip.resolve_right hOther
        · rw [parent_setStreamDep hs, Function.update_self]
          exact hNe
      · refine ih ?_ hLater
        dsimp only
        split
        · exact hs
        · rwa [isSome_setStreamDep]

/-- The same weight and dependency once more. -/
theorem reprio_again {weight dep : Nat} {exclusive : Bool}
    (hParent : ∀ other, c.parent other =
      ((con.setWeight sid weight).streamReprio sid exclusive dep).1.parent other)
    (hSome : ∀ other, (c.stream? other).isSome = (con.stream? other).isSome)
    (hWeight : (c.stream? sid).map (fun s => { s with weight := some weight }) = c.stream? sid) :
    (c.setWeight sid weight).streamReprio sid exclusive dep =
        (c.setWeight sid weight, ((con.setWeight sid weight).streamReprio sid exclusive dep).2) ∧
      (c.setWeight sid weight).unordered = c.unordered := by
  have hView : (c.setWeight sid weight).unordered = c.unordered := unordered_modifyStream hWeight
  refine ⟨?_, hView⟩
  have hBefore : (con.setWeight sid weight).Hangs sid dep ↔ con.Hangs sid dep :=
    hangs_congr (fun _ => isSome_stream?_modifyStream ..) sid dep
  have hNow : (c.setWeight sid weight).Hangs sid dep ↔ con.Hangs sid dep :=
    hangs_congr (fun other => by rw [stream?_unordered hView, hSome]) sid dep
  have hHung (other : Nat) : (c.setWeight sid weight).parent other = c.parent other := by
    rw [parent, parent, Connection.get, Connection.get, stream?_unordered hView]
  classical
  rw [streamReprio_eq (con.setWeight sid weight)] at hParent ⊢
  rw [streamReprio_eq (c.setWeight sid weight)]
  by_cases hHangs : con.Hangs sid dep
  · rw [if_pos (hBefore.mpr hHangs)] at hParent ⊢
    rw [if_pos (hNow.mpr hHangs)]
    obtain ⟨hs, -, hNe⟩ := hBefore.mpr hHangs
    have hOwn : (c.setWeight sid weight).parent sid = dep := by
      rw [hHung, hParent]
      cases exclusive with
      | false => exact parent_changeDep_self hs
      | true => exact (adopts_takeSiblings _ sid dep).own.trans (parent_changeDep_self hs)
    have hChange : (c.setWeight sid weight).changeDep sid dep = c.setWeight sid weight := if_pos hOwn
    rw [hChange]
    cases exclusive with
    | false => rfl
    | true =>
        refine congrArg (·, true) (takeSiblings_of_none fun other hOther hThere => ?_)
        rw [hHung, hParent]
        refine parent_takeSiblings hNe hOther ?_
        rwa [isSome_changeDep, setWeight, isSome_stream?_modifyStream, ← hSome, ← stream?_unordered hView]
  · rw [if_neg fun h => hHangs (hBefore.mp h), if_neg fun h => hHangs (hNow.mp h)]

theorem get_weight_streamReprio (con : Connection) (sid : Nat) (exclusive : Bool) (dep other : Nat) :
    (con.streamReprio sid exclusive dep).1.get other Stream.weight = con.get other Stream.weight := by
  have hRehangs : Rehangs fun con con' : Connection =>
      con'.get other Stream.weight = con.get other Stream.weight :=
    ⟨⟨fun _ => rfl, fun h h' => h'.trans h⟩, fun con sid dep => get_modifyStream
      (f := fun s => { s with streamDep := some dep }) (fun _ => rfl) con sid other⟩
  exact hRehangs.streamReprio con sid exclusive dep

/-- The same streams, but for the blocks collected. -/
def SameBeside (con c : Connection) : Prop :=
  ∀ sid, (c.stream? sid).map (Stream.setHeaderBlock []) = (con.stream? sid).map (Stream.setHeaderBlock [])

theorem SameBeside.isSome (h : SameBeside con c) (sid : Nat) :
    (c.stream? sid).isSome = (con.stream? sid).isSome := by
  simpa only [Option.isSome_map] using congrArg Option.isSome (h sid)

theorem SameBeside.get {α : Type} {field : Stream → Option α} (h : SameBeside con c)
    (hField : ∀ s, field (Stream.setHeaderBlock [] s) = field s) (sid : Nat) :
    c.get sid field = con.get sid field := by
  have hBind (s : Option Stream) : (s.map (Stream.setHeaderBlock [])).bind field = s.bind field := by
    cases s <;> simp [hField]
  rw [Connection.get, Connection.get, ← hBind, h sid, hBind]

theorem headersPriority_again {ok : Bool} (hPriority : con.headersPriority fh buf = (con', ok))
    (hSame : SameBeside con' c) : ∃ c', c.headersPriority fh buf = (c', ok) ∧ c'.unordered = c.unordered := by
  have hThere (other : Nat) : (c.stream? other).isSome = (con.stream? other).isSome := by
    have hAlike := (alike_headersPriority con fh buf).isSome other
    rw [hPriority] at hAlike
    rw [hSame.isSome, hAlike]
  rw [headersPriority] at hPriority ⊢
  split
  · next hFlag =>
      rw [if_pos hFlag] at hPriority
      dsimp only at hPriority ⊢
      generalize unpack8 ((buf.drop (padOffset fh)).drop 4) + 1 = weight at hPriority ⊢
      generalize (decide (unpack32 (buf.drop (padOffset fh)) >>> 31 ≠ 0)) = exclusive at hPriority ⊢
      generalize unpack32 (buf.drop (padOffset fh)) &&& 0x7FFFFFFF = dep at hPriority ⊢
      have hWeight : c.get fh.stream Stream.weight =
          (con.setWeight fh.stream weight).get fh.stream Stream.weight := by
        have hKept := get_weight_streamReprio (con.setWeight fh.stream weight) fh.stream exclusive dep
          fh.stream
        rw [hPriority] at hKept
        rw [hSame.get fun _ => rfl, hKept]
      have hAgain := @reprio_again con c fh.stream weight dep exclusive
        (fun other => by rw [parent, parent, hSame.get fun _ => rfl, hPriority]) hThere ?_
      · rw [hPriority] at hAgain
        exact ⟨_, hAgain⟩
      · have hOld := hThere fh.stream
        cases hs : c.stream? fh.stream with
        | none => rfl
        | some s =>
            rw [hs] at hOld
            obtain ⟨old, hOld⟩ := Option.isSome_iff_exists.mp hOld.symm
            have hSet : (con.setWeight fh.stream weight).get fh.stream Stream.weight = some weight := by
              simp [setWeight, Connection.get, hOld]
            rw [hSet, get_of_some hs] at hWeight
            rw [Option.map_some, ← hWeight]
  · next hFlag =>
      rw [if_neg hFlag] at hPriority
      exact ⟨c, by rw [(Prod.mk.inj hPriority).2], rfl⟩

/-! ### Header blocks -/

/-- The frame ends a block that is refused, or that fails after it has changed the decoder. -/
def BlockWavers (con : Connection) (fh : FrameHeader) (block : Octets) : Prop :=
  hasFlag fh.flags Flag.endHeaders = true ∧
    match headersDecode con.decodeCtx block with
    | (decodeCtx, .conError _) => decodeCtx ≠ con.decodeCtx
    | _ => con.refusesBlock fh.stream block = true

theorem Alike.blockWavers (h : Alike con con') (fh : FrameHeader) (block : Octets) :
    con'.BlockWavers fh block ↔ con.BlockWavers fh block := by
  rw [BlockWavers, BlockWavers, h.decodeCtx, refusesBlock_congr h]

theorem setHeaderBlock_setDecodeCtx (con : Connection) (decodeCtx : DecodeContext) (sid : Nat)
    (block : Octets) : (con.setHeaderBlock sid block).setDecodeCtx decodeCtx =
      (con.setDecodeCtx decodeCtx).setHeaderBlock sid block := by
  have hSame : (con.setDecodeCtx decodeCtx).stream? sid = con.stream? sid := rfl
  rw [setHeaderBlock, setHeaderBlock]
  cases hs : con.stream? sid with
  | none => rw [modifyStream_of_none hs, modifyStream_of_none (hSame.trans hs)]
  | some s =>
      rw [modifyStream_of_some hs, modifyStream_of_some (hSame.trans hs)]
      rfl

theorem headersDecoded_snd (con : Connection) (sid : Nat) :
    (con.headersDecoded sid).2 = !con.refusesList sid := by
  simp only [headersDecoded, validateHeaders, refusesList]
  cases (con.validation con.decodeCtx.emittedHeaders sid (con.isResponse sid)).accepted <;> rfl

/-- A block that comes to no result otherwise is one the decoder fails at as it is. -/
theorem blockDecode_none (hs : (con.stream? fh.stream).isSome)
    (hNone : (con.blockDecode fh block).2 = none) (hNot : ¬ con.BlockWavers fh block) :
    hasFlag fh.flags Flag.endHeaders = true ∧
      ∃ code, headersDecode con.decodeCtx block = (con.decodeCtx, .conError code) := by
  obtain ⟨s, hs⟩ := Option.isSome_iff_exists.mp hs
  obtain ⟨hSet, hCtx⟩ := setHeaderBlock_self hs block
  rw [blockDecode] at hNone
  split at hNone
  · next hEnd =>
      refine ⟨hEnd, ?_⟩
      rw [BlockWavers, refusesBlock] at hNot
      simp only [streamHeadersDone, hSet, Stream.setHeaderBlock, Option.getD_some, decodeBlock,
        hCtx] at hNone
      rcases hDecode : headersDecode con.decodeCtx block with ⟨decodeCtx, result⟩
      simp only [hDecode, hEnd, true_and] at hNot hNone
      cases result with
      | conError code => exact ⟨code, by rw [not_not.mp hNot]⟩
      | streamError code => exact absurd rfl hNot
      | done =>
          have hAccepted : (con.setDecodeCtx decodeCtx).refusesList fh.stream = false :=
            Bool.eq_false_of_not_eq_true hNot
          rw [setHeaderBlock_setDecodeCtx] at hNone
          have hDone := headersDecoded_snd (((con.setDecodeCtx decodeCtx).setHeaderBlock fh.stream
            block).setHeaderBlock fh.stream []) fh.stream
          rw [refusesList_setHeaderBlock, refusesList_setHeaderBlock, hAccepted] at hDone
          dsimp only at hNone
          split at hNone
          · cases hNone
          · next hFalse =>
              rw [hFalse] at hDone
              cases hDone
  · cases hNone

theorem blockDecode_fails (hs : (con.stream? fh.stream).isSome)
    (hEnd : hasFlag fh.flags Flag.endHeaders = true) {code : ErrorCode}
    (hFail : headersDecode con.decodeCtx block = (con.decodeCtx, .conError code)) :
    con.blockDecode fh block = ((con.setHeaderBlock fh.stream block).setError code, none) := by
  obtain ⟨s, hs⟩ := Option.isSome_iff_exists.mp hs
  obtain ⟨hSet, hCtx⟩ := setHeaderBlock_self hs block
  have hSame : (con.setHeaderBlock fh.stream block).setDecodeCtx con.decodeCtx =
      con.setHeaderBlock fh.stream block := by
    rw [← hCtx]
    rfl
  rw [blockDecode, if_pos hEnd, streamHeadersDone, hSet]
  simp only [Stream.setHeaderBlock, Option.getD_some, decodeBlock, hCtx, hFail, hSame]

theorem decodeCtx_setError (con : Connection) (code : ErrorCode) :
    (con.setError code).decodeCtx = con.decodeCtx := by
  rw [setError]
  split
  · rfl
  · rw [finish]
    split <;> rfl

theorem blockDecode_again (hs : (con.stream? fh.stream).isSome)
    (hNone : con.blockDecode fh block = (con', none)) (hNot : ¬ con.BlockWavers fh block) :
    Again con' fun c => c.blockDecode fh block := by
  intro c hView hDown
  obtain ⟨hEnd, code, hFail⟩ := blockDecode_none hs (by rw [hNone]) hNot
  have hDecode := blockDecode_fails hs hEnd hFail
  rw [hNone, Prod.mk.injEq] at hDecode
  obtain ⟨rfl, -⟩ := hDecode
  obtain ⟨s, hs⟩ := Option.isSome_iff_exists.mp hs
  have hStream : c.stream? fh.stream = some (s.setHeaderBlock block) := by
    rw [stream?_unordered hView, stream?_setError]
    simp [setHeaderBlock, hs]
  have hCtx : c.decodeCtx = con.decodeCtx := by
    have hSame := congrArg (fun v => v.1.decodeCtx) hView
    exact hSame.trans ((decodeCtx_setError ..).trans (alike_setHeaderBlock ..).decodeCtx)
  refine ⟨c.setHeaderBlock fh.stream block, ?_, ?_⟩
  · dsimp only
    rw [blockDecode_fails (by rw [hStream]; rfl) hEnd (by rw [hCtx, hFail]),
      setError_of_shutdown (by rw [shutdown_setHeaderBlock, hDown])]
  · rw [setHeaderBlock, unordered_modifyStream (by rw [hStream]; rfl), hView]

/-! ### Decoders -/

theorem sameBeside_of_unordered (h : c.unordered = con.unordered) : SameBeside con c :=
  fun sid => by rw [stream?_unordered h]

theorem headersFrameDecode_again (hs : fh.stream ≠ 0 → (con.stream? fh.stream).isSome)
    (hNone : con.headersFrameDecode fh buf = (con', none))
    (hNot : fh.stream ≠ 0 → (con.headersPriority fh buf).2 = true →
      headersOffset fh + padSize fh buf ≤ fh.length → ¬ con.BlockWavers fh (headersBlock fh buf)) :
    Again con' fun c => c.headersFrameDecode fh buf := by
  refine .ite hNone (fun _ _ => again_setError) fun hStream hNone => ?_
  intro c hView hDown
  dsimp only
  rcases hPriority : con.headersPriority fh buf with ⟨mid, ok⟩
  have hAlike := alike_headersPriority con fh buf
  rw [hPriority] at hNone hNot hAlike
  have hThere : (mid.stream? fh.stream).isSome := by rw [hAlike.isSome, hs hStream]
  -- what the decoder leaves behind has the streams of `mid`, but for the block collected
  have hSame : SameBeside mid con' := by
    cases ok with
    | false =>
        obtain ⟨rfl, -⟩ := Prod.mk.inj hNone
        exact fun sid => by rw [stream?_setError]
    | true =>
        dsimp only at hNone
        split at hNone
        · obtain ⟨rfl, -⟩ := Prod.mk.inj hNone
          exact fun sid => by rw [stream?_setError]
        · next hLong =>
            obtain ⟨hEnd, code, hFail⟩ := blockDecode_none hThere (by rw [hNone]) fun h =>
              hNot hStream rfl (Nat.not_lt.mp hLong) ((hAlike.blockWavers fh _).mp h)
            rw [blockDecode_fails hThere hEnd hFail] at hNone
            obtain ⟨rfl, -⟩ := Prod.mk.inj hNone
            intro sid
            rw [stream?_setError, setHeaderBlock, stream?_modifyStream]
            split
            · next hSid =>
                rw [hSid, Option.map_map]
                rfl
            · rfl
  obtain ⟨c', hAgain, hView'⟩ := headersPriority_again hPriority fun sid =>
    (sameBeside_of_unordered hView sid).trans (hSame sid)
  have hDown' : c'.shutdown = true := (congrArg (fun v => v.1.shutdown) hView').trans hDown
  rw [hAgain]
  cases ok with
  | false => exact again_setError c' (hView'.trans hView) hDown'
  | true =>
      exact Again.ite hNone (fun _ _ => again_setError) (fun hLong hNone =>
        blockDecode_again hThere hNone fun h =>
          hNot hStream rfl (Nat.not_lt.mp hLong) ((hAlike.blockWavers fh _).mp h)) c'
        (hView'.trans hView) hDown'

theorem continuationDecode_again (hs : fh.stream ≠ 0 → (con.stream? fh.stream).isSome)
    (hNone : con.continuationDecode fh buf = (con', none))
    (hNot : fh.stream ≠ 0 → ¬ con.BlockWavers fh (buf.take fh.length)) :
    Again con' fun c => c.continuationDecode fh buf :=
  .ite hNone (fun _ _ => again_setError) fun hStream hNone =>
    blockDecode_again (hs hStream) hNone (hNot hStream)

theorem priorityDecode_again (hNone : con.priorityDecode fh buf = (con', none)) :
    Again con' fun c => c.priorityDecode fh buf := by
  -- the same as the priority in a HEADERS frame that has no padding
  have hHeaders (con : Connection) : (con.setWeight fh.stream (unpack8 (buf.drop 4) + 1)).streamReprio
      fh.stream (unpack32 buf >>> 31 ≠ 0) (unpack32 buf &&& 0x7FFFFFFF) =
        con.headersPriority { fh with flags := Flag.priority } buf := by
    have hFlag : hasFlag Flag.priority Flag.priority = true := by decide
    have hPad : hasFlag Flag.priority Flag.padded = false := by decide
    simp only [headersPriority, padOffset, hFlag, hPad, if_true, Bool.false_eq_true, if_false,
      List.drop_zero]
  refine .ite hNone (fun _ _ => again_setError) fun _ hNone =>
    .ite hNone (fun _ _ => again_setError) fun _ hNone => ?_
  intro c hView hDown
  dsimp only at hNone ⊢
  rw [hHeaders] at hNone ⊢
  rcases hPriority : con.headersPriority { fh with flags := Flag.priority } buf with ⟨mid, ok⟩
  rw [hPriority] at hNone
  cases ok with
  | true => cases hNone
  | false =>
      obtain ⟨rfl, -⟩ := Prod.mk.inj hNone
      obtain ⟨c', hAgain, hView'⟩ := @headersPriority_again _ _ c _ _ _ hPriority fun sid => by
        rw [stream?_unordered hView, stream?_setError]
      rw [hAgain]
      exact again_setError c' (hView'.trans hView)
        ((congrArg (fun v => v.1.shutdown) hView').trans hDown)

/-- A connection that is shut down takes no promise. -/
theorem pushPromiseDecode_again (hGoaway : con.goaway = true) :
    Again con fun c => c.pushPromiseDecode fh buf := by
  intro c hView hDown
  have hBad : c.badPeerStream (promisedId fh buf) = true := by
    have hGone : c.goaway = true := (congrArg (fun v => v.1.goaway) hView).trans hGoaway
    simp [badPeerStream, hGone]
  refine ⟨c, ?_, hView⟩
  simp only [pushPromiseDecode, newPeerStream, hBad, if_true, setError_of_shutdown hDown, ite_self]

/-- These decoders fail for what is in the frame. -/
theorem plainDecode_again (ord : HashOrder) (hNone : (con.payloadDecode ord fh buf).2 = none)
    (hKind : fh.type = .data ∨ fh.type = .rstStream ∨ fh.type = .ping ∨ fh.type = .goaway ∨
      fh.type = .windowUpdate) : Again con' fun c => c.payloadDecode ord fh buf := by
  intro c hView hDown
  refine ⟨c, ?_, hView⟩
  have hError := @setError_of_shutdown c hDown
  rcases hKind with hType | hType | hType | hType | hType <;>
    simp only [payloadDecode, hType, dataDecode, rstStreamDecode, pingDecode, goawayDecode,
      windowUpdateDecode] at hNone ⊢
  all_goals
    repeat' split at hNone
    all_goals first | contradiction | simp only [*, if_true, if_false, not_false_eq_true, ne_eq]

/-! ### Settings -/

/-- The settings have been stored, each of them known, and the windows of the streams have moved
with theirs. -/
structure Stores (stored : Nat → Option Nat) (con con' : Connection) : Prop where
  known : ∀ key, (stored key).isSome → (con.encodeCtx.settings.lookup key).isSome
  lookup : ∀ key, con'.encodeCtx.settings.lookup key =
    (stored key).or (con.encodeCtx.settings.lookup key)
  streams : ∀ sid, con'.stream? sid = (con.stream? sid).map
    (if (stored Setting.initialWindowSize).isSome then
      shiftOpen ((con'.initialWindow : Int) - con.initialWindow) else id)
  rest : con'.unordered.1 = con.unordered.1

theorem Stores.refl (con : Connection) : Stores (fun _ => none) con con :=
  ⟨fun _ => False.elim ∘ Bool.false_ne_true, fun _ => rfl, fun _ => by simp, rfl⟩

theorem Stores.isSome_lookup {stored : Nat → Option Nat} (h : Stores stored con con') (key : Nat) :
    (con'.encodeCtx.settings.lookup key).isSome = (con.encodeCtx.settings.lookup key).isSome := by
  rw [h.lookup]
  cases hStored : stored key with
  | none => rfl
  | some _ => exact (h.known key (by rw [hStored]; rfl)).symm

theorem Stores.initialWindow_none {stored : Nat → Option Nat} (h : Stores stored con con')
    (hNone : stored Setting.initialWindowSize = none) : con'.initialWindow = con.initialWindow := by
  have hLookup := h.lookup Setting.initialWindowSize
  rw [hNone, Option.none_or] at hLookup
  exact congrArg (Option.getD · 0) hLookup

theorem shiftOpen_shiftOpen (delta delta' : Int) (s : Stream) :
    shiftOpen delta' (shiftOpen delta s) = shiftOpen (delta + delta') s := by
  by_cases hClosed : s.state = some .closed
  · have hStays (delta : Int) : shiftOpen delta s = s := if_pos hClosed
    rw [hStays, hStays, hStays]
  · have hMoves (delta : Int) : shiftOpen delta s = shift delta s := if_neg hClosed
    have hAgain : shiftOpen delta' (shift delta s) = shift delta' (shift delta s) := if_neg hClosed
    rw [hMoves, hMoves, hAgain]
    simp [shift, add_assoc]

theorem Stores.trans {stored stored' : Nat → Option Nat} {con'' : Connection}
    (h : Stores stored con con') (h' : Stores stored' con' con'') :
    Stores (fun key => (stored' key).or (stored key)) con con'' where
  known key hKey := by
    cases hStored : stored' key with
    | none => exact h.known key (by simpa [hStored] using hKey)
    | some value => rw [← h.isSome_lookup, h'.known key (by rw [hStored]; rfl)]
  lookup key := by rw [h'.lookup, h.lookup, Option.or_assoc]
  streams sid := by
    rw [h'.streams, h.streams, Option.map_map]
    cases hLater : stored' Setting.initialWindowSize with
    | none =>
        rw [h'.initialWindow_none hLater]
        cases hFirst : stored Setting.initialWindowSize <;> rfl
    | some _ =>
        cases hFirst : stored Setting.initialWindowSize with
        | none =>
            rw [h.initialWindow_none hFirst]
            rfl
        | some _ =>
            refine congrArg (Option.map · _) (funext fun s => ?_)
            refine (shiftOpen_shiftOpen _ _ s).trans ?_
            simp
  rest := h'.rest.trans h.rest

theorem unordered_fst_fcwInitialChange (con : Connection) (size : Nat) :
    (con.fcwInitialChange size).unordered.1 = con.unordered.1 := by
  obtain ⟨streams, hChange⟩ := fcwInitialChange_streams con size
  rw [hChange]
  rfl

/-- The effect of one setting. -/
def single (key value : Nat) : Nat → Option Nat := fun other => if other = key then some value else none

theorem lookup_storeSetting (con : Connection) (key value other : Nat) :
    (con.storeSetting key value).encodeCtx.settings.lookup other =
      (single key value other).or (con.encodeCtx.settings.lookup other) := by
  rw [single]
  split
  · next hKey => rw [hKey]; exact AList.lookup_insert _
  · next hKey => exact AList.lookup_insert_ne hKey

theorem known_single {key value : Nat} (hKnown : (con.encodeCtx.settings.lookup key).isSome)
    (other : Nat) (hOther : (single key value other).isSome) :
    (con.encodeCtx.settings.lookup other).isSome := by
  rw [single] at hOther
  split at hOther
  · next hKey => rwa [hKey]
  · cases hOther

theorem stores_storeSetting {key : Nat} (hKnown : (con.encodeCtx.settings.lookup key).isSome)
    (hKey : key ≠ Setting.initialWindowSize) (value : Nat) :
    Stores (single key value) con (con.storeSetting key value) := by
  refine ⟨known_single hKnown, lookup_storeSetting con key value, fun sid => ?_, rfl⟩
  rw [single, if_neg (Ne.symm hKey)]
  show con.stream? sid = (con.stream? sid).map id
  rw [Option.map_id, id]

theorem stores_initialWindow
    (hKnown : (con.encodeCtx.settings.lookup Setting.initialWindowSize).isSome) (value : Nat) :
    Stores (single Setting.initialWindowSize value) con
      ((con.fcwInitialChange value).storeSetting Setting.initialWindowSize value) := by
  refine ⟨known_single hKnown, fun other => ?_, fun sid => ?_, unordered_fst_fcwInitialChange con value⟩
  · rw [lookup_storeSetting, (fcwInitialChange_same con value).2.1]
  · rw [(adjusted_initialWindow con value).2, single, if_pos rfl]
    exact stream?_fcwInitialChange con value sid

/-- One setting of the peer: whether it is stored depends on what settings there are. -/
theorem applySetting_stores (key value : Nat) (known : Bool) :
    ∃ r : Except ErrorCode (Nat → Option Nat), ∀ con : Connection,
      (con.encodeCtx.settings.lookup key).isSome = known →
        match r with
        | .error code => con.applySetting key value = .error code
        | .ok stored => ∃ con', con.applySetting key value = .ok con' ∧ Stores stored con con' := by
  cases known with
  | false =>
      refine ⟨.ok fun _ => none, fun con hKnown => ⟨con, ?_, .refl con⟩⟩
      rw [applySetting, if_pos (by simpa using hKnown)]
  | true =>
      have hGuard (con : Connection) (hKnown : (con.encodeCtx.settings.lookup key).isSome = true) :
          ¬ (con.encodeCtx.settings.lookup key).isNone = true := by
        rw [← Option.not_isSome, hKnown]
        exact Bool.false_ne_true
      cases hValid : settingError key value with
      | some code => exact ⟨.error code, fun con hKnown => by rw [applySetting, if_neg (hGuard con hKnown), hValid]⟩
      | none =>
          by_cases hEnable : key = Setting.enableConnectProtocol
          · refine ⟨.ok fun _ => none, fun con hKnown => ⟨con, ?_, .refl con⟩⟩
            rw [applySetting, if_neg (hGuard con hKnown), hValid]
            dsimp only
            rw [if_pos hEnable, if_neg (by rw [hEnable]; decide)]
          · refine ⟨.ok (single key value), fun con hKnown => ?_⟩
            dsimp only
            rw [applySetting, if_neg (hGuard con hKnown), hValid]
            dsimp only
            rw [if_neg hEnable]
            by_cases hKey : key = Setting.initialWindowSize
            · subst hKey
              rw [if_pos rfl]
              exact ⟨_, rfl, stores_initialWindow hKnown value⟩
            · rw [if_neg hKey]
              exact ⟨_, rfl, stores_storeSetting hKnown hKey value⟩

theorem applySettings_stores (pairs : List (Nat × Nat)) (known : Nat → Bool) :
    ∃ (stored : Nat → Option Nat) (error : Option ErrorCode), ∀ con : Connection,
      (∀ key, (con.encodeCtx.settings.lookup key).isSome = known key) →
        ∃ con', Stores stored con con' ∧ con.applySettings pairs =
          match error with
          | none => (con', true)
          | some code => (con'.setError code, false) := by
  induction pairs with
  | nil => exact ⟨fun _ => none, none, fun con _ => ⟨con, .refl con, rfl⟩⟩
  | cons pair pairs ih =>
      obtain ⟨key, value⟩ := pair
      obtain ⟨stored, error, hRest⟩ := ih
      obtain ⟨r, hFirst⟩ := applySetting_stores key value (known key)
      cases r with
      | error code =>
          refine ⟨fun _ => none, some code, fun con hKnown => ⟨con, .refl con, ?_⟩⟩
          have hError := hFirst con (hKnown key)
          dsimp only at hError
          rw [applySettings, hError]
      | ok first =>
          refine ⟨fun key => (stored key).or (first key), error, fun con hKnown => ?_⟩
          obtain ⟨mid, hApply, hStores⟩ := hFirst con (hKnown key)
          obtain ⟨con', hLater, hResult⟩ :=
            hRest mid fun other => (hStores.isSome_lookup other).trans (hKnown other)
          refine ⟨con', hStores.trans hLater, ?_⟩
          rw [applySettings, hApply]
          exact hResult

/-- Stored a second time, the settings change nothing. -/
theorem Stores.again {stored : Nat → Option Nat} {c' : Connection} (h : Stores stored con con')
    (hView : c.unordered.2 = con'.unordered.2) (h' : Stores stored c c') : c'.unordered = c.unordered := by
  have hStreams (sid : Nat) : c.stream? sid = con'.stream? sid := congrArg (fun v => v.1 sid) hView
  have hOld (key : Nat) : c.encodeCtx.settings.lookup key = con'.encodeCtx.settings.lookup key :=
    congrArg (fun v => v.2 key) hView
  have hLookup (key : Nat) :
      c'.encodeCtx.settings.lookup key = c.encodeCtx.settings.lookup key := by
    rw [h'.lookup, hOld, h.lookup, ← Option.or_assoc, Option.or_self]
  refine Prod.ext h'.rest (Prod.ext (funext fun sid => ?_) (funext hLookup))
  show c'.stream? sid = c.stream? sid
  have hWindow : c'.initialWindow = c.initialWindow :=
    congrArg (Option.getD · 0) (hLookup Setting.initialWindowSize)
  rw [h'.streams, hStreams, h.streams, Option.map_map, hWindow, sub_self]
  cases stored Setting.initialWindowSize with
  | none => rfl
  | some _ =>
      refine congrArg (Option.map · _) (funext fun s => ?_)
      refine (shiftOpen_shiftOpen _ _ s).trans ?_
      rw [add_zero]
      rfl

theorem settingsDecode_again (hNone : con.settingsDecode fh buf = (con', none)) :
    Again con' fun c => c.settingsDecode fh buf := by
  refine .ite hNone (fun _ _ => again_setError) fun _ hNone =>
    .ite hNone (fun _ hNone => .ite hNone (fun _ _ => again_setError) fun _ hNone => ?_)
      fun _ hNone => .ite hNone (fun _ hNone => ?_) fun _ hNone =>
        .ite hNone (fun _ _ => again_setError) fun _ hNone => ?_
  · cases hNone
  · cases hNone
  · intro c hView hDown
    obtain ⟨stored, error, hStores⟩ := applySettings_stores (settingsPairs (buf.take fh.length))
      fun key => (con.encodeCtx.settings.lookup key).isSome
    obtain ⟨mid, hFirst, hResult⟩ := hStores con fun _ => rfl
    rw [hResult] at hNone
    cases error with
    | none => cases hNone
    | some code =>
        obtain ⟨rfl, -⟩ := Prod.mk.inj hNone
        have hSame : c.unordered.2 = mid.unordered.2 :=
          (congrArg Prod.snd hView).trans (unordered_snd_setError mid code)
        obtain ⟨c', hSecond, hResult'⟩ := hStores c fun key => by
          rw [← hFirst.isSome_lookup]
          exact congrArg (fun v => (v.2 key).isSome) hSame
        have hAgain := hFirst.again hSame hSecond
        have hDown' : c'.shutdown = true := (congrArg (fun v => v.1.shutdown) hAgain).trans hDown
        refine ⟨c', ?_, hAgain.trans hView⟩
        dsimp only
        rw [hResult']
        dsimp only
        rw [setError_of_shutdown hDown']

/-! ### Frames -/

/-- The payload of a HEADERS frame does not hold the priority its flags announce. -/
def TooShort (fh : FrameHeader) : Prop :=
  hasFlag fh.flags Flag.priority = true ∧ fh.length < headersOffset fh

/-- The payloads that are decoded in another way the second time, on a stream that is there: what
follows the frame is read, or its block wavers, or a promise is refused. -/
def PayloadWavers (con : Connection) (fh : FrameHeader) (buf : Octets) : Prop :=
  fh.stream ≠ 0 ∧
    match fh.type with
    | .headers => TooShort fh ∨ (con.headersPriority fh buf).2 = true ∧
        headersOffset fh + padSize fh buf ≤ fh.length ∧ con.BlockWavers fh (headersBlock fh buf)
    | .continuation => con.BlockWavers fh (buf.take fh.length)
    | .pushPromise => con.PayloadWedges fh buf
    | _ => False

/-- The same of a frame whose stream is there or is admitted. -/
def FrameWavers (con : Connection) (fh : FrameHeader) (buf : Octets) : Prop :=
  con.awaitsOther fh = false ∧
    if fh.stream ≠ 0 ∧ (con.stream? fh.stream).isNone then
      con.badPeerStream fh.stream = false ∧ con.peerStreamsFull = false ∧
        (con.admitted fh.stream).PayloadWavers fh buf
    else con.PayloadWavers fh buf

/-- The first frame of the buffer is one of these. -/
def Wavers (con : Connection) (buf : Octets) : Prop :=
  ¬ Incomplete buf ∧ (frameHeaderDecode buf).length ≤ con.decSetting Setting.maxFrameSize ∧
    con.FrameWavers (frameHeaderDecode buf) (buf.drop frameHeaderSize)

theorem BlockWedges.blockWavers (h : con.BlockWedges fh block) : con.BlockWavers fh block := by
  obtain ⟨hEnd, -, hRefuses, -⟩ := h
  refine ⟨hEnd, ?_⟩
  split
  · next hFail =>
      rw [refusesBlock, hFail] at hRefuses
      cases hRefuses
  · exact hRefuses

theorem PayloadWedges.payloadWavers (h : con.PayloadWedges fh buf) : con.PayloadWavers fh buf := by
  obtain ⟨hStream, hKind⟩ := h
  refine ⟨hStream, ?_⟩
  split
  · next hType =>
      simp only [hType] at hKind
      exact .inr ⟨hKind.1, hKind.2.1, hKind.2.2.blockWavers⟩
  · next hType =>
      simp only [hType] at hKind
      exact hKind.blockWavers
  · exact ⟨hStream, hKind⟩
  · next hHeaders hContinuation hPromise =>
      split at hKind <;> contradiction

/-! ### Octets behind a frame -/

section
variable {buf' : Octets} (hSame : buf'.take fh.length = buf.take fh.length)
include hSame

theorem padSize_congr (h : padOffset fh ≤ fh.length) : padSize fh buf' = padSize fh buf := by
  unfold padSize
  split
  · next hPadded =>
      rw [padOffset, if_pos hPadded] at h
      have hPad := @unpack8_congr _ _ _ hSame 0 (by omega)
      rwa [List.drop_zero, List.drop_zero] at hPad
  · rfl

/-- A frame without room for its padding fails whatever follows it. -/
theorem room_congr {offset : Nat} (h : padOffset fh ≤ offset) :
    fh.length < offset + padSize fh buf' ↔ fh.length < offset + padSize fh buf := by
  by_cases hOctet : padOffset fh ≤ fh.length
  · rw [padSize_congr hSame hOctet]
  · omega

theorem dataDecode_congr (con : Connection) : con.dataDecode fh buf' = con.dataDecode fh buf := by
  unfold dataDecode
  by_cases hShort : fh.length < padOffset fh + padSize fh buf
  · simp only [hShort, (room_congr hSame (Nat.le_refl _)).mpr hShort, if_true]
  · have hBlock : (buf'.drop (padOffset fh)).take (fh.length - padOffset fh - padSize fh buf) =
        (buf.drop (padOffset fh)).take (fh.length - padOffset fh - padSize fh buf) :=
      drop_take_congr hSame (by omega)
    simp only [padSize_congr hSame (by omega : padOffset fh ≤ fh.length), hBlock]

theorem headersFrameDecode_congr (hLong : ¬ TooShort fh) (con : Connection) :
    con.headersFrameDecode fh buf' = con.headersFrameDecode fh buf := by
  have hPriority : con.headersPriority fh buf' = con.headersPriority fh buf := by
    unfold headersPriority
    split
    · next hFlag =>
        have hOffset : headersOffset fh = padOffset fh + 5 := by rw [headersOffset, if_pos hFlag]
        have hFits := Nat.not_lt.mp fun h => hLong ⟨hFlag, h⟩
        dsimp only
        rw [List.drop_drop, List.drop_drop, unpack32_congr hSame (by omega),
          unpack8_congr hSame (by omega)]
    · rfl
  have hOffset : padOffset fh ≤ headersOffset fh := Nat.le_add_right ..
  unfold headersFrameDecode
  rw [hPriority]
  by_cases hShort : fh.length < headersOffset fh + padSize fh buf
  · simp only [hShort, (room_congr hSame hOffset).mpr hShort, if_true]
  · have hPad := padSize_congr hSame (by omega)
    have hBlock : headersBlock fh buf' = headersBlock fh buf := by
      rw [headersBlock, headersBlock, hPad]
      exact drop_take_congr hSame (by omega)
    rw [hPad, hBlock]

theorem pushPromiseDecode_congr (con : Connection) :
    con.pushPromiseDecode fh buf' = con.pushPromiseDecode fh buf := by
  have hOffset : promiseOffset fh = padOffset fh + 4 := rfl
  unfold pushPromiseDecode
  by_cases hShort : fh.length < promiseOffset fh + padSize fh buf
  · simp only [hShort, (room_congr hSame (by omega)).mpr hShort, if_true]
  · have hPad := padSize_congr hSame (by omega)
    have hPromised : promisedId fh buf' = promisedId fh buf := by
      rw [promisedId, promisedId, unpack32_congr hSame (by omega)]
    have hBlock : promiseBlock fh buf' = promiseBlock fh buf := by
      rw [promiseBlock, promiseBlock, hPad]
      exact drop_take_congr hSame (by omega)
    rw [hPad, hPromised, hBlock]

theorem unpack32_zero_congr (h : 4 ≤ fh.length) : unpack32 buf' = unpack32 buf := by
  have hOctets := @unpack32_congr _ _ _ hSame 0 (by omega)
  rwa [List.drop_zero, List.drop_zero] at hOctets

/-- A payload is all that its decoder looks at, unless a HEADERS frame is too short. -/
theorem payloadDecode_congr (ord : HashOrder)
    (hLong : fh.stream ≠ 0 → fh.type = .headers → ¬ TooShort fh) (con : Connection) :
    con.payloadDecode ord fh buf' = con.payloadDecode ord fh buf := by
  unfold payloadDecode
  cases hType : fh.type with
  | data => exact dataDecode_congr hSame con
  | headers =>
      dsimp only
      by_cases hStream : fh.stream = 0
      · rw [headersFrameDecode, headersFrameDecode, if_pos hStream, if_pos hStream]
      · exact headersFrameDecode_congr hSame (hLong hStream hType) con
  | priority =>
      dsimp only
      rw [priorityDecode, priorityDecode]
      by_cases hLength : fh.length = 5
      · rw [unpack32_zero_congr hSame (by omega), unpack8_congr hSame (by omega)]
      · rw [if_pos hLength, if_pos hLength]
  | rstStream =>
      dsimp only
      rw [rstStreamDecode, rstStreamDecode]
      by_cases hLength : fh.length = 4
      · rw [unpack32_zero_congr hSame (by omega)]
      · rw [if_pos hLength, if_pos hLength]
  | settings => simp only [settingsDecode, hSame]
  | pushPromise => exact pushPromiseDecode_congr hSame con
  | ping => simp only [pingDecode, hSame]
  | goaway => rfl
  | windowUpdate =>
      dsimp only
      rw [windowUpdateDecode, windowUpdateDecode]
      by_cases hLength : fh.length = 4
      · rw [unpack32_zero_congr hSame (by omega)]
      · rw [if_pos hLength, if_pos hLength]
  | continuation => simp only [continuationDecode, hSame]
  | unknown code => rfl

theorem frameReceive_congr (ord : HashOrder)
    (hLong : fh.stream ≠ 0 → fh.type = .headers → ¬ TooShort fh) (con : Connection) :
    con.frameReceive ord fh buf' = con.frameReceive ord fh buf := by
  rw [frameReceive, frameReceive, payloadDecode_congr hSame ord hLong]

end

/-- A frame that is too short fails. -/
theorem frameReceive_tooShort (ord : HashOrder) (hStream : fh.stream ≠ 0) (hType : fh.type = .headers)
    (hShort : TooShort fh) (con : Connection) : (con.frameReceive ord fh buf).2 = none := by
  have hLess : fh.length < headersOffset fh + padSize fh buf := Nat.lt_add_right _ hShort.2
  rw [frameReceive, payloadDecode, hType]
  dsimp only
  rw [headersFrameDecode, if_neg hStream]
  rcases con.headersPriority fh buf with ⟨mid, ok⟩
  cases ok with
  | false => rfl
  | true =>
      dsimp only
      rw [if_pos hLess]

theorem PayloadWavers.of_tooShort (hStream : fh.stream ≠ 0) (hType : fh.type = .headers)
    (hShort : TooShort fh) : con.PayloadWavers fh buf := by
  rw [PayloadWavers, hType]
  exact ⟨hStream, .inl hShort⟩

/-- A frame that is taken, or fails for good, is all that its decoder looks at. -/
theorem frameApply_congr (ord : HashOrder) {buf' : Octets}
    (hSame : buf'.take fh.length = buf.take fh.length)
    (hNot : (con.frameApply ord fh buf).2 = none → ¬ con.FrameWavers fh buf) :
    con.frameApply ord fh buf' = con.frameApply ord fh buf := by
  cases hOther : con.awaitsOther fh with
  | true => rw [frameApply, frameApply, if_pos hOther, if_pos hOther]
  | false =>
      have hApply (hType : fh.type = .headers) :
          con.frameApply ord fh buf = con.frameAdmit ord fh buf := by
        rw [frameApply, if_neg (Bool.eq_false_iff.mp hOther), hType]
      have hAdmit : con.frameAdmit ord fh buf' = con.frameAdmit ord fh buf := by
        rw [FrameWavers] at hNot
        rw [frameAdmit] at hApply ⊢
        rw [frameAdmit]
        split
        · next hNew =>
            rw [if_pos hNew] at hApply hNot
            rcases hPeer : con.newPeerStream fh.stream with ⟨mid, ok⟩
            cases ok with
            | false => rfl
            | true =>
                refine frameReceive_congr hSame ord (fun hStream hType hShort => ?_) mid
                have hNone := @frameReceive_tooShort _ buf ord hStream hType hShort mid
                rw [hPeer] at hApply
                obtain ⟨hGood, hRoom, rfl⟩ := newPeerStream_of_true hPeer
                exact hNot ((congrArg Prod.snd (hApply hType)).trans hNone)
                  ⟨hOther, hGood, hRoom, .of_tooShort hStream hType hShort⟩
        · next hOld =>
            rw [if_neg hOld] at hApply hNot
            refine frameReceive_congr hSame ord (fun hStream hType hShort => ?_) con
            have hNone := @frameReceive_tooShort _ buf ord hStream hType hShort con
            exact hNot ((congrArg Prod.snd (hApply hType)).trans hNone)
              ⟨hOther, .of_tooShort hStream hType hShort⟩
      simp only [frameApply, hAdmit]

theorem payloadDecode_again (ord : HashOrder) (hs : fh.stream ≠ 0 → (con.stream? fh.stream).isSome)
    (hNone : con.payloadDecode ord fh buf = (con', none)) (hNot : ¬ con.PayloadWavers fh buf)
    (hDown : con'.goaway = true) : Again con' fun c => c.payloadDecode ord fh buf := by
  cases hType : fh.type with
  | headers =>
      simp only [payloadDecode, hType, PayloadWavers] at hNone hNot ⊢
      exact headersFrameDecode_again hs hNone fun hStream hPriority hLong hBlock =>
        hNot ⟨hStream, .inr ⟨hPriority, hLong, hBlock⟩⟩
  | continuation =>
      simp only [payloadDecode, hType, PayloadWavers] at hNone hNot ⊢
      exact continuationDecode_again hs hNone fun hStream hBlock => hNot ⟨hStream, hBlock⟩
  | priority =>
      simp only [payloadDecode, hType] at hNone ⊢
      exact priorityDecode_again hNone
  | settings =>
      simp only [payloadDecode, hType] at hNone ⊢
      exact settingsDecode_again hNone
  | pushPromise =>
      simp only [payloadDecode, hType]
      exact pushPromiseDecode_again hDown
  | unknown code => simp [payloadDecode, hType] at hNone
  | _ => exact plainDecode_again ord (by rw [hNone]) (by simp [hType])

theorem FrameWedges.frameWavers (hSound : con.Sound) (h : con.FrameWedges fh buf) :
    con.FrameWavers fh buf := by
  obtain ⟨hOther, -, hFrame⟩ := h
  refine ⟨hOther, ?_⟩
  split
  · next hNew =>
      rw [if_pos hNew] at hFrame
      obtain ⟨hGood, ⟨hError, -, hUp, -⟩ | ⟨hRoom, hPayload⟩⟩ := hFrame
      · rw [hSound.error, hUp] at hError
        cases hError
      · exact ⟨hGood, hRoom, hPayload.payloadWavers⟩
  · next hOld =>
      rw [if_neg hOld] at hFrame
      exact hFrame.payloadWavers

theorem frameReceive_again (ord : HashOrder) {buf' : Octets}
    (hSame : buf'.take fh.length = buf.take fh.length)
    (hs : fh.stream ≠ 0 → (con.stream? fh.stream).isSome)
    (hNone : con.frameReceive ord fh buf = (con', none)) (hNot : ¬ con.PayloadWavers fh buf)
    (hGone : con'.goaway = true) : Again con' fun c => c.frameReceive ord fh buf' := by
  have hPayload : con.payloadDecode ord fh buf = (con', none) := by
    rw [frameReceive] at hNone
    split at hNone
    · next hDecode => rw [hDecode, (Prod.mk.inj hNone).1]
    · cases hNone
  intro c hView hDown
  obtain ⟨c', hAgain, hView'⟩ := payloadDecode_again ord hs hPayload hNot hGone c hView hDown
  refine ⟨c', ?_, hView'⟩
  dsimp only at hAgain ⊢
  rw [frameReceive_congr hSame ord fun hStream hType hShort => hNot (.of_tooShort hStream hType hShort),
    frameReceive, hAgain]

/-- A connection that has had an error makes no stream and decodes nothing for it. -/
theorem frameAdmit_closed (ord : HashOrder) (hDown : c.shutdown = true) (hGone : c.goaway = true)
    (hError : c.error.isSome) (hNew : fh.stream ≠ 0 ∧ (c.stream? fh.stream).isNone) :
    c.frameAdmit ord fh buf = (c, none) := by
  have hBad : c.badPeerStream fh.stream = true := by simp [badPeerStream, hGone]
  rw [frameAdmit, if_pos hNew, newPeerStream, if_pos hBad, setError_of_shutdown hDown]
  dsimp only
  rw [if_pos hError]

/-- A stream that is not there is refused without an error. -/
theorem shutdown_refuse_absent (hSound : con.Sound) (hGood : con.badPeerStream sid = false)
    (hAbsent : con.stream? sid = none) :
    ((con.setLastPeerStream sid).streamError sid .refusedStream).shutdown = false := by
  refine (shutdown_refuse con sid).mpr ⟨?_, fun hRaises => ?_⟩
  · by_contra hDown
    have hGone := hSound.goaway (Bool.eq_true_of_not_eq_false hDown)
    simp [badPeerStream, hGone] at hGood
  · have hNone {α : Type} (field : Stream → Option α) : con.get sid field = none := by
      rw [Connection.get, hAbsent, Option.bind_none]
    rw [ResetRaises, hNone, Option.getD_none, hNone] at hRaises
    exact Bool.false_ne_true hRaises.2.2.1

theorem frameApply_again (ord : HashOrder) (hSound : con.Sound) {buf' : Octets}
    (hSame : buf'.take fh.length = buf.take fh.length)
    (hNone : con.frameApply ord fh buf = (con', none))
    (hNot : ¬ con.FrameWavers fh buf) (hDown : con'.shutdown = true) (hGone : con'.goaway = true)
    (hError : con'.error.isSome) : Again con' fun c => c.frameApply ord fh buf' := by
  intro c hView hDown'
  have hGone' : c.goaway = true := (congrArg (fun v => v.1.goaway) hView).trans hGone
  have hError' : c.error.isSome := by
    have hSame : c.error = con'.error := congrArg (fun v => v.1.error) hView
    rwa [hSame]
  have hPending : c.pendingStream = con'.pendingStream := congrArg (fun v => v.1.pendingStream) hView
  dsimp only
  by_cases hOther' : c.awaitsOther fh = true
  · exact ⟨c, by rw [frameApply, if_pos hOther', setError_of_shutdown hDown'], hView⟩
  rw [frameApply] at hNone
  split at hNone
  · next hOther =>
      obtain ⟨rfl, -⟩ := Prod.mk.inj hNone
      refine absurd ?_ hOther'
      rw [awaitsOther, hPending, pendingStream_setError]
      exact hOther
  · next hOther =>
      rw [FrameWavers, Bool.eq_false_of_not_eq_true hOther, eq_self, true_and] at hNot
      have hAdmit : con.frameAdmit ord fh buf = (con', none) ∧
          c.frameApply ord fh buf' = c.frameAdmit ord fh buf' := by
        rw [frameApply, if_neg hOther']
        split at hNone
        · cases hNone
        · exact ⟨hNone, rfl⟩
      obtain ⟨hAdmit, hApply⟩ := hAdmit
      rw [hApply]
      by_cases hNew' : fh.stream ≠ 0 ∧ (c.stream? fh.stream).isNone
      · exact ⟨c, frameAdmit_closed ord hDown' hGone' hError' hNew', hView⟩
      rw [frameAdmit, if_neg hNew']
      rw [frameAdmit] at hAdmit
      split at hAdmit
      · next hNew =>
          rw [if_pos hNew] at hNot
          rw [newPeerStream] at hAdmit
          -- the stream is there by now, so it was made
          cases hBad : con.badPeerStream fh.stream with
          | true =>
              rw [hBad, if_pos rfl] at hAdmit
              dsimp only at hAdmit
              obtain ⟨rfl, -⟩ := Prod.mk.inj hAdmit
              refine absurd ⟨hNew.1, ?_⟩ hNew'
              rw [stream?_unordered hView, stream?_setError]
              exact hNew.2
          | false =>
              rw [hBad, if_neg Bool.false_ne_true] at hAdmit
              cases hFull : con.peerStreamsFull with
              | true =>
                  rw [hFull, if_pos rfl] at hAdmit
                  dsimp only at hAdmit
                  obtain ⟨rfl, -⟩ := Prod.mk.inj hAdmit
                  rw [shutdown_refuse_absent hSound hBad (Option.isNone_iff_eq_none.mp hNew.2)] at hDown
                  cases hDown
              | false =>
                  rw [hFull, if_neg Bool.false_ne_true] at hAdmit
                  refine frameReceive_again ord hSame (fun _ => (stream?_admitted con _ _).mpr (.inl rfl))
                    hAdmit (fun h => hNot ⟨hBad, hFull, h⟩) hGone c hView hDown'
      · next hOld =>
          rw [if_neg hOld] at hNot
          refine frameReceive_again ord hSame (fun hStream => ?_) hAdmit hNot hGone c hView hDown'
          simpa [hStream, Option.isSome_iff_ne_none] using hOld

/-- A frame that is decoded the same way the next time fails for the connection as a whole. -/
theorem closed_of_frameDecode {ord : HashOrder} (hSound : con.Sound)
    (hNone : con.frameDecode ord buf = (con', none)) (hNot : ¬ con.Wavers buf) :
    con'.shutdown = true ∧ con'.goaway = true ∧ con'.error.isSome := by
  have hSound' : con'.Sound := by
    have hFate := fate_frameDecode ord con buf
    rw [hNone] at hFate
    exact hSound.fate hFate
  have hDown : con'.shutdown = true := by
    by_contra hUp
    have hStuck : Stuck (con.frameDecode ord buf) := by
      rw [hNone]
      exact ⟨rfl, Bool.eq_false_of_not_eq_true hUp⟩
    obtain ⟨hWhole, hFits, hWedges⟩ := (frameDecode_stuck_iff ord con buf).mp hStuck
    exact hNot ⟨hWhole, hFits, hWedges.frameWavers hSound⟩
  exact ⟨hDown, hSound'.goaway hDown, hSound'.error.trans hDown⟩

end Connection
end PageCamel.Http2
