import PageCamel.Http2.EndedStreams
import PageCamel.Http2.LengthSteps

/-!
Whether requests come with the body they announce. The length is checked when a DATA frame that
carries data ends the stream, and then against the last content-length field; no other way to
end a request is checked.
-/

namespace PageCamel.Http2
open PageCamel.Lib

/-- The length that the server keeps for the stream is that of every content-length field. -/
def Stream.Agrees (s : Stream) : Prop :=
  ∀ h ∈ s.headers, isExtendedConnect h = false → ∀ v ∈ contentLengths h,
    s.length.map numericValue = some (numericValue v)

instance (e : Event) : Decidable e.Complete :=
  match e with
  | .request _ headers data => inferInstanceAs (Decidable (FullBody headers data))
  | .connectRequest _ _ _ | .streamData _ _ => inferInstanceAs (Decidable True)

theorem Stream.headers_store (isTrailer : Bool) (eh : List Header) (s : Stream) :
    (s.store isTrailer eh).headers = if isTrailer then s.headers else some eh := by
  rw [Stream.store]
  split <;> rfl

theorem Stream.data_store (isTrailer : Bool) (eh : List Header) (s : Stream) :
    (s.store isTrailer eh).data = s.data := by
  rw [Stream.store]
  split <;> rfl

namespace Connection

variable {con con' con'' : Connection} {own : Set Nat} {sid : Nat}

/-! ### Payloads -/

theorem fair_addFcwRecv (con : Connection) (delta : Int) : Fair own con (con.addFcwRecv delta) :=
  fair_of_streams rfl rfl rfl

theorem fair_addStreamFcwRecv (con : Connection) (sid : Nat) (delta : Int) :
    Fair own con (con.addStreamFcwRecv sid delta) :=
  fair_modifyStream_same con sid (fun _ => rfl) (fun _ => rfl) (fun _ => rfl) (fun _ => rfl)
    fun _ => rfl

theorem fair_enqueue_windowUpdate (con : Connection) (size sid : Nat) :
    Fair own con (con.enqueue (.windowUpdate size) 0 sid) :=
  fair_enqueue_other con (d := .windowUpdate size) (by simp [FrameData.type])
    (by simp [FrameData.type]) (by simp [FrameData.type]) (by simp [FrameData.type]) 0 sid

theorem fair_streamData (con : Connection) (hOwn : sid ∈ own) (data : Octets) :
    Fair own con (con.streamData sid data) := by
  rw [streamData]
  cases hs : con.stream? sid with
  | none => exact .refl own con
  | some s =>
    dsimp only
    split
    · refine ⟨fun hCon => ⟨hCon.server, hCon.streams⟩, fun _ other _ t ht => .inr ⟨t, ht, rfl, rfl⟩,
        fun _ => ⟨[.streamData sid data], rfl, fun e hMem => ?_⟩⟩
      rw [List.mem_singleton.mp hMem]
      trivial
    · refine fair_setStream con sid (fun hCon => ?_) fun hNot => absurd hOwn hNot
      exact ⟨(hCon.streams sid s hs).cb, (hCon.streams sid s hs).state, (hCon.streams sid s hs).pending⟩

theorem chains_fair : Chains (Fair own) := ⟨.refl own, .trans⟩

theorem collects_fair {fh : FrameHeader} (hOwn : fh.stream ∈ own) : Collects fh.stream (Fair own) where
  toChains := chains_fair
  setError := fair_setError
  streamError con code := fair_streamError con fh.stream code
  fcwUpdate con := (fair_addFcwRecv con _).trans (fair_enqueue_windowUpdate _ _ 0)
  streamFcwUpdate _ con :=
    (fair_addStreamFcwRecv con fh.stream _).trans (fair_enqueue_windowUpdate _ _ fh.stream)
  streamData con data := fair_streamData con hOwn data

theorem fair_setDecodeCtx (con : Connection) (decodeCtx : DecodeContext) :
    Fair own con (con.setDecodeCtx decodeCtx) := fair_of_streams rfl rfl rfl

theorem fair_setHeaderBlock (con : Connection) (sid : Nat) (block : Octets) :
    Fair own con (con.setHeaderBlock sid block) :=
  fair_modifyStream_same con sid (fun _ => rfl) (fun _ => rfl) (fun _ => rfl) (fun _ => rfl)
    fun _ => rfl

theorem fair_announce (con : Connection) (sid : Nat) (c : Validation) :
    Fair own con (con.announce sid c) :=
  fair_modifyStream_same con sid (fun _ => rfl) (fun _ => rfl) (fun _ => rfl) (fun _ => rfl)
    fun _ => rfl

theorem fair_decodeBlock (con : Connection) (block : Octets) (sid : Nat) :
    Fair own con (con.decodeBlock block sid).1 := by
  rw [decodeBlock]
  dsimp only
  refine (fair_setDecodeCtx con (headersDecode con.decodeCtx block).1).trans ?_
  split
  · exact .refl own _
  · exact fair_setError _ _
  · exact fair_streamError _ _ _

/-- A list for a promise changes no header list of a request. -/
theorem fair_storeHeaders (con : Connection) {promisedSid : Option Nat}
    (hOwn : promisedSid = none → sid ∈ own) (isTrailer : Bool) (eh : List Header) :
    Fair own con (con.storeHeaders sid promisedSid isTrailer eh) := by
  cases promisedSid with
  | some promised =>
    exact (fair_vivify con promised).trans (fair_modifyStream_same _ promised (fun _ => rfl)
      (fun _ => rfl) (fun _ => rfl) (fun _ => rfl) fun _ => rfl)
  | none =>
    refine fair_modifyStream con sid (fun s hs => ?_) fun hNot => absurd (hOwn rfl) hNot
    rw [Stream.store]
    split
    · exact ⟨hs.cb, hs.state, hs.pending⟩
    · exact ⟨hs.cb, hs.state, hs.pending⟩

theorem fair_headersDecoded (con : Connection)
    (hOwn : con.get sid Stream.promisedSid = none → sid ∈ own) :
    Fair own con (con.headersDecoded sid).1 :=
  headersDecoded_rule (R := Fair own) .trans (fun con c => fair_announce con sid c)
    (fun con => fair_streamError con sid _) (fun con => fair_setDecodeCtx con _) con
    fun con' _ _ => fair_storeHeaders con' hOwn _ _

theorem fair_streamHeadersDone (con : Connection)
    (hOwn : con.get sid Stream.promisedSid = none → sid ∈ own) :
    Fair own con (con.streamHeadersDone sid).1 := by
  rw [streamHeadersDone]
  split
  · exact .refl own con
  · next s hs =>
    have hDecode : Fair own con (con.decodeBlock (s.headerBlock.getD []) sid).1 :=
      fair_decodeBlock ..
    split
    · next hFalse =>
      rw [hFalse] at hDecode
      exact hDecode
    · next con₁ hTrue =>
      rw [hTrue] at hDecode
      refine hDecode.trans ((fair_setHeaderBlock ..).trans (fair_headersDecoded _ fun hNone => ?_))
      rw [get_setHeaderBlock fun _ _ => rfl] at hNone
      refine hOwn ?_
      rw [decodeBlock] at hTrue
      dsimp only at hTrue
      split at hTrue
      · obtain ⟨rfl, -⟩ := Prod.mk.inj hTrue
        exact hNone
      · cases hTrue
      · cases hTrue

theorem fair_blockDecode (con : Connection) {fh : FrameHeader}
    (hOwn : con.get fh.stream Stream.promisedSid = none → fh.stream ∈ own) (block : Octets) :
    Fair own con (con.blockDecode fh block).1 := by
  rw [blockDecode]
  refine (fair_setHeaderBlock con fh.stream block).trans ?_
  have hDone : Fair own (con.setHeaderBlock fh.stream block)
      ((con.setHeaderBlock fh.stream block).streamHeadersDone fh.stream).1 := by
    refine fair_streamHeadersDone _ fun hNone => hOwn ?_
    rw [get_setHeaderBlock fun _ _ => rfl] at hNone
    exact hNone
  split
  · split
    · next hTrue =>
      rw [hTrue] at hDone
      exact hDone
    · next hFalse =>
      rw [hFalse] at hDone
      exact hDone
  · exact .refl own _

theorem reorders_fair : Reorders (Fair own) where
  toChains := chains_fair
  setWeight con sid _ := fair_modifyStream_same con sid (fun _ => rfl) (fun _ => rfl) (fun _ => rfl)
    (fun _ => rfl) fun _ => rfl
  setStreamDep con sid _ := fair_modifyStream_same con sid (fun _ => rfl) (fun _ => rfl)
    (fun _ => rfl) (fun _ => rfl) fun _ => rfl

theorem fair_rstStreamDecode (con : Connection) (fh : FrameHeader) (buf : Octets) :
    Fair own con (con.rstStreamDecode fh buf).1 := by
  rw [rstStreamDecode]
  split
  · exact fair_setError con _
  · split
    · exact fair_setError con _
    · exact fair_modifyStream_same con fh.stream (fun _ => rfl) (fun _ => rfl) (fun _ => rfl)
        (fun _ => rfl) fun _ => rfl

theorem fair_acceptSettings (con : Connection) : Fair own con con.acceptSettings :=
  fair_enqueue_other con (d := .settings ∅) (by simp [FrameData.type]) (by simp [FrameData.type])
    (by simp [FrameData.type]) (by simp [FrameData.type]) Flag.ack 0

theorem fair_ackPing (con : Connection) (payload : Octets) : Fair own con (con.ackPing payload) := by
  rw [ackPing, enqueueFirst]
  dsimp only [frameEncode]
  rw [stateMachine, if_pos (.inl rfl)]
  exact fair_of_streams rfl rfl rfl

theorem manages_fair : Manages (Fair own) where
  toChains := chains_fair
  setError := fair_setError
  ackPing := fair_ackPing
  goaway _ := fair_of_streams rfl rfl rfl
  addStreamFcwSend := fair_addStreamFcwSend
  setSettings _ _ := fair_of_streams rfl rfl rfl
  acceptSettings := fair_acceptSettings

theorem fair_sendPing (con : Connection) (payload : Octets) : Fair own con (con.sendPing payload) :=
  fair_enqueue_other con (d := .ping _) (by simp [FrameData.type]) (by simp [FrameData.type])
    (by simp [FrameData.type]) (by simp [FrameData.type]) 0 0

/-! ### Streams of the client -/

theorem fair_admitted (con : Connection) (hOwn : sid ∈ own) : Fair own con (con.admitted sid) := by
  have hEntry : Fair own con (con.setStream sid { con.newStreamEntry with
      cb := [(.opened, .opened), (.halfClosed, .halfClosed)] }) := by
    refine fair_setStream con sid (fun _ => ⟨?_, ?_, ?_⟩) fun hNot => absurd hOwn hNot
    · simp
    · simp [newStreamEntry]
    · simp [newStreamEntry]
  exact hEntry.trans (fair_of_streams rfl rfl rfl)

theorem fair_newPeerStream (con : Connection) (hOwn : sid ∈ own) :
    Fair own con (con.newPeerStream sid).1 := by
  rw [newPeerStream]
  split
  · exact fair_setError con _
  · split
    · have hLast : Fair own con (con.setLastPeerStream sid) := fair_of_streams rfl rfl rfl
      exact hLast.trans (fair_streamError ..)
    · exact fair_admitted con hOwn

theorem fair_pushPromiseDecode (con : Connection) {fh : FrameHeader} {buf : Octets}
    (hOwn : fh.stream ∈ own) (hPromised : promisedId fh buf ∈ own) :
    Fair own con (con.pushPromiseDecode fh buf).1 := by
  have hMade : Fair own con (con.newPeerStream (promisedId fh buf)).1 :=
    fair_newPeerStream con hPromised
  rw [pushPromiseDecode]
  split
  · exact fair_setError con _
  · split
    · exact fair_setError con _
    · split
      · next hRefused =>
        rw [hRefused] at hMade
        exact hMade
      · next hAdmitted =>
        rw [hAdmitted] at hMade
        refine (hMade.trans ?_).trans (fair_blockDecode _ (fun _ => hOwn) _)
        exact fair_modifyStream_same _ fh.stream (fun _ => rfl) (fun _ => rfl) (fun _ => rfl)
          (fun _ => rfl) fun _ => rfl

/-! ### Windows -/

theorem fair_windowUpdateDecode (ord : HashOrder) (con : Connection) {fh : FrameHeader} (buf : Octets)
    (hEnds : ∀ sid, fh.stream = 0 ∨ fh.stream = sid → con.Ending sid → con.Complete sid) :
    Fair own con (con.windowUpdateDecode ord fh buf).1 := by
  rw [windowUpdateDecode]
  split
  · exact fair_setError con _
  · dsimp only
    generalize unpack32 buf &&& 0x7FFFFFFF = fcwAdd
    split
    · exact fair_setError con _
    · split
      · next hZero =>
        refine (fair_addFcwSend con fcwAdd).trans ?_
        split
        · exact fair_setError _ _
        · exact fair_sendBlocked ord _ fun sid hEnding => hEnds sid (.inl hZero) hEnding
      · split
        · exact .refl own con
        · refine Fair.of_registered fun hCon => ?_
          have hAdded : Fair ∅ con (con.addStreamFcwSend fh.stream fcwAdd) :=
            fair_addStreamFcwSend con fh.stream fcwAdd
          refine (hAdded.mono (Set.empty_subset own)).trans ?_
          split
          · exact fair_streamError _ _ _
          · refine fair_streamSendBlocked _ fh.stream fun hEnding => ?_
            refine hAdded.complete hCon (Set.notMem_empty _) (hEnds fh.stream (.inr rfl) ?_)
            have hGet {α : Type} {field : Stream → Option α}
                (hField : ∀ s, field (shift fcwAdd s) = field s) (other : Nat) :
                (con.addStreamFcwSend fh.stream fcwAdd).get other field = con.get other field :=
              get_modifyStream hField con fh.stream other
            rw [Ending, standing, hGet fun _ => rfl, hGet fun _ => rfl, hGet fun _ => rfl] at hEnding
            exact hEnding

/-! ### DATA -/

/-- While a header block is pending, RST_STREAM is an error and leaves it so. -/
theorem pending_stateMachine_reset {ps : StreamState}
    (hPending : con.get sid Stream.pendingState = some ps) (flags : UInt8) :
    (con.stateMachine .send .rstStream flags sid).get sid Stream.pendingState = some ps := by
  have hMade := @get_vivify _ Stream.pendingState rfl con
    ((con.get sid Stream.promisedSid).getD sid) sid
  rw [stateMachine]
  split
  · exact hPending
  · dsimp only
    rw [hMade, hPending]
    split
    · exact hMade.trans hPending
    · dsimp only
      rw [if_pos (by decide), get, stream?_setError]
      exact hMade.trans hPending

/-- DATA for a stream that was reset ends no request. -/
theorem not_ends_streamError (hServer : con.type = .server) (hNonzero : sid ≠ 0)
    (hSome : (con.stream? sid).isSome) (code : ErrorCode) {flags : UInt8} {on : Nat} :
    ¬ (con.streamError sid code).Ends .recv flags sid .data on := by
  intro hOn
  have hFrame := even_resetFrame ∅ con sid code
  rw [streamError_eq] at hOn
  have hSome' := (hFrame.isSome sid).trans hSome
  have hServer' := hFrame.type.trans hServer
  generalize (con.modifyStream sid (Stream.setReset code.code)).push
    ⟨.rstStream, 0, sid, pack32 code.code⟩ = framed at hOn hSome' hServer'
  have hPreface := (quiet_stateMachine framed .send .rstStream 0 sid).preface
  cases hOn with
  | data hHeeded hEnd hOpened =>
    rw [Heeded, hPreface] at hHeeded
    by_cases hRaises : framed.ResetRaises sid
    · rcases hRaises.2.2.2 with hWaits | ⟨-, hClient⟩
      · obtain ⟨ps, hPending⟩ := Option.isSome_iff_exists.mp hWaits
        rw [pending_stateMachine_reset hPending] at hHeeded
        cases hHeeded.2
      · rw [hServer'] at hClient
        cases hClient
    · cases hState : framed.standing sid with
      | none =>
        rw [standing_stateMachine_reset hState] at hOpened
        cases hOpened
      | some state =>
        have hShut := shut_stateMachine_reset hSome' hNonzero hHeeded.1 (by rw [hState]; rfl) hRaises
        rw [hShut.1] at hOpened
        cases hOpened

/-- The connection once the windows are counted for the last DATA frame of a stream. -/
def refilled (con : Connection) (fh : FrameHeader) : Connection :=
  (con.received fh).refillWindows fh.stream true

theorem stream?_refilled (con : Connection) (fh : FrameHeader) (sid : Nat) :
    (con.refilled fh).stream? sid = (con.received fh).stream? sid := by
  rw [refilled, refillWindows]
  simp only [Bool.not_true, Bool.false_eq_true, and_false, if_false]
  split
  · rw [fcwUpdate, enqueue]
    dsimp only
    rw [stateMachine, if_pos (.inl rfl)]
    rfl
  · rfl

/-- The last DATA frame of a stream, when neither a window nor a length is violated. -/
theorem dataDecode_last {fh : FrameHeader} {buf : Octets} (hNonzero : fh.stream ≠ 0)
    (hFits : padOffset fh + padSize fh buf ≤ fh.length) (hEnd : hasFlag fh.flags Flag.endStream = true)
    (hKeeps : ¬ (con.Overflows fh ∨ con.Mismatches fh buf)) :
    con.dataDecode fh buf = (if fh.length - padOffset fh - padSize fh buf = 0 then con.refilled fh
      else con.collected fh buf, some fh.length) := by
  obtain ⟨hWithin, hMatches⟩ := not_or.mp hKeeps
  rw [dataDecode, if_neg hNonzero]
  dsimp only
  rw [if_neg (Nat.not_lt.mpr hFits)]
  have hWindows := hWithin
  rw [Overflows, received] at hWindows
  rw [if_neg hWindows, hEnd]
  split
  · rfl
  · next hData =>
    have hCheck : (con.collected fh buf).checkContentLength fh.stream = con.collected fh buf := by
      rw [checkContentLength]
      split
      · next slen data hLength hCollected =>
        refine if_neg fun hWrong => hMatches ⟨hWithin, hEnd, hData, slen, data, hLength, hCollected,
          hWrong⟩
      · rfl
    exact Prod.ext hCheck rfl

/-- The last DATA frame finds the request complete, or carries data that the server checks
against the one length the request gives. -/
def LastData (con : Connection) (fh : FrameHeader) (buf : Octets) : Prop :=
  ∀ s, con.stream? fh.stream = some s →
    if fh.length - padOffset fh - padSize fh buf = 0 ∨ s.dataCb = true then s.Complete else s.Agrees

/-- The check is enough when the length it uses is that of every field. -/
theorem complete_collected {fh : FrameHeader} {buf : Octets}
    (hEnd : hasFlag fh.flags Flag.endStream = true)
    (hKeeps : ¬ (con.Overflows fh ∨ con.Mismatches fh buf)) (hLast : con.LastData fh buf) :
    (if fh.length - padOffset fh - padSize fh buf = 0 then con.refilled fh
      else con.collected fh buf).Complete fh.stream := by
  obtain ⟨hWithin, hMatches⟩ := not_or.mp hKeeps
  have hTaken : (con.refilled fh).stream? fh.stream = (con.stream? fh.stream).map fun s =>
      { s with fcwRecv := some (s.fcwRecv.getD 0 + -fh.length) } := by
    rw [stream?_refilled]
    exact stream?_modifyStream_self ..
  have hCollected : con.collected fh buf = (con.refilled fh).streamData fh.stream
      ((buf.drop (padOffset fh)).take (fh.length - padOffset fh - padSize fh buf)) := rfl
  cases hs : con.stream? fh.stream with
  | none =>
    have hNone : (con.refilled fh).stream? fh.stream = none := by
      rw [hTaken, hs]
      rfl
    intro s' hs'
    rw [hCollected, streamData, hNone] at hs'
    simp [hNone] at hs'
  | some s =>
    have hLast := hLast s hs
    rw [hs, Option.map_some] at hTaken
    split
    · next hEmpty =>
      intro s' hs'
      rw [hTaken] at hs'
      cases hs'
      rw [if_pos (.inl hEmpty)] at hLast
      exact hLast.congr rfl rfl
    · next hData =>
      intro s' hs'
      rw [hCollected, streamData, hTaken] at hs'
      dsimp only at hs'
      by_cases hCb : s.dataCb = true
      · rw [if_pos hCb, show (pushEvent _ _).stream? fh.stream = _ from hTaken] at hs'
        cases hs'
        rw [if_pos (.inr hCb)] at hLast
        exact hLast.congr rfl rfl
      · rw [if_neg hCb, stream?_setStream_self] at hs'
        rw [if_neg (not_or.mpr ⟨hData, hCb⟩)] at hLast
        have hStream : (con.collected fh buf).stream? fh.stream = some s' := by
          rw [hCollected, streamData, hTaken]
          dsimp only
          rw [if_neg hCb, stream?_setStream_self]
          exact hs'
        cases hs'
        intro h hHeaders hConnect v hMem
        obtain ⟨slen, hLength, hValue⟩ := Option.map_eq_some_iff.mp (hLast h hHeaders hConnect v hMem)
        by_contra hWrong
        refine hMatches ⟨hWithin, hEnd, hData, slen, _, (get_of_some hStream _).trans hLength,
          get_of_some hStream _, ?_⟩
        rw [hValue]
        exact hWrong

/-- A DATA frame. -/
theorem fair_frameReceive_data (ord : HashOrder) (hServer : con.type = .server) {fh : FrameHeader}
    (hType : fh.type = .data) {buf : Octets} (hOwn : fh.stream ∈ own)
    (hSome : fh.stream ≠ 0 → (con.stream? fh.stream).isSome)
    (hLast : hasFlag fh.flags Flag.endStream = true → con.standing fh.stream = some .opened →
      padOffset fh + padSize fh buf ≤ fh.length → ¬ con.StreamViolation fh buf →
        con.LastData fh buf) : Fair own con (con.frameReceive ord fh buf).1 := by
  have hDecode : Fair own con (con.dataDecode fh buf).1 := (collects_fair hOwn).dataDecode fair_addFcwRecv fair_addStreamFcwRecv con buf
  have hPayload : con.payloadDecode ord fh buf = con.dataDecode fh buf := by
    rw [payloadDecode, hType]
  rw [frameReceive, hPayload]
  split
  · next hFails =>
    rw [hFails] at hDecode
    exact hDecode
  · next con₁ len hTaken =>
    rw [hTaken] at hDecode
    refine hDecode.trans (fair_stateMachine con₁ (fun _ => rfl) fh.flags fh.stream fun on hOn => ?_)
    rw [hType] at hOn
    have hEnd : hasFlag fh.flags Flag.endStream = true := by
      cases hOn with
      | data _ hEnd _ => exact hEnd
    have hNonzero : fh.stream ≠ 0 := by
      intro hZero
      rw [dataDecode, if_pos hZero] at hTaken
      cases hTaken
    have hFits : padOffset fh + padSize fh buf ≤ fh.length := by
      by_contra hShort
      rw [dataDecode, if_neg hNonzero] at hTaken
      dsimp only at hTaken
      rw [if_pos (Nat.not_le.mp hShort)] at hTaken
      cases hTaken
    by_cases hViolates : con.Overflows fh ∨ con.Mismatches fh buf
    · obtain ⟨con₂, code, hEven, hError⟩ := dataDecode_violation hNonzero hFits hViolates
        (Set.mem_univ fh.stream)
      rw [hTaken] at hError
      obtain ⟨rfl, -⟩ := Prod.mk.inj hError
      exact absurd hOn (not_ends_streamError (hEven.type.trans hServer) hNonzero
        ((hEven.isSome _).trans (hSome hNonzero)) code)
    · have hLast' := dataDecode_last hNonzero hFits hEnd hViolates
      rw [hTaken] at hLast'
      obtain ⟨rfl, -⟩ := Prod.mk.inj hLast'
      have hEven : Even Set.univ con (if fh.length - padOffset fh - padSize fh buf = 0 then con.refilled fh
          else con.collected fh buf) := by
        split
        · exact (even_received con (Set.mem_univ _)).trans (even_refillWindows Set.univ _ _)
        · exact even_collected con (Set.mem_univ _) buf
      have hKeeps : ¬ con.StreamViolation fh buf := by
        rintro ⟨-, hKind⟩
        rw [hType] at hKind
        exact hViolates hKind.2
      cases hOn with
      | data _ _ hOpened =>
        rw [hEven.standing] at hOpened
        exact complete_collected hEnd hViolates (hLast hEnd hOpened hFits hKeeps)

/-! ### Header blocks -/

theorem get_storeHeaders {α : Type} {field : Stream → Option α} (hEmpty : field {} = none)
    (hPromise : ∀ (s : Stream) eh, field { s with ppHeaders := eh } = field s)
    (hStore : ∀ s isTrailer eh, field (Stream.store isTrailer eh s) = field s) (con : Connection)
    (promisedSid : Option Nat) (isTrailer : Bool) (eh : List Header) (other : Nat) :
    (con.storeHeaders sid promisedSid isTrailer eh).get other field = con.get other field := by
  cases promisedSid with
  | none => exact get_modifyStream (fun s => hStore s isTrailer eh) con sid other
  | some promised =>
    exact (get_modifyStream (fun s => hPromise s (some eh)) _ promised other).trans
      (get_vivify hEmpty con promised other)

/-- What a header list that is accepted leaves of the states and of its stream. -/
structure Given (con con' : Connection) (sid : Nat) (list : List Header) : Prop where
  state : ∀ on, con'.get on Stream.state = con.get on Stream.state
  pending : ∀ on, con'.get on Stream.pendingState = con.get on Stream.pendingState
  promised : ∀ on, con'.get on Stream.promisedSid = con.get on Stream.promisedSid
  stream : ∀ s, con.stream? sid = some s → s.promisedSid = none → ∃ s', con'.stream? sid = some s' ∧
    s'.data = s.data ∧ s'.headers = (s.store s.trailer.isSome list).headers

theorem headersDecoded_taken (hTaken : con.headersDecoded sid = (con', true)) :
    con.refusesList sid = false ∧ Given con con' sid con.decodeCtx.emittedHeaders := by
  rw [headersDecoded, validateHeaders] at hTaken
  rw [refusesList]
  cases hAccepted : (con.validation con.decodeCtx.emittedHeaders sid (con.isResponse sid)).accepted with
  | false => simp [hAccepted] at hTaken
  | true =>
    simp only [hAccepted, if_true] at hTaken
    obtain ⟨rfl, -⟩ := Prod.mk.inj hTaken
    generalize con.validation con.decodeCtx.emittedHeaders sid (con.isResponse sid) = c
    have hGet {α : Type} {field : Stream → Option α} (hEmpty : field {} = none)
        (hAnnounce : ∀ s, field (Stream.announce c s) = field s)
        (hPromise : ∀ (s : Stream) eh, field { s with ppHeaders := eh } = field s)
        (hStore : ∀ s isTrailer eh, field (Stream.store isTrailer eh s) = field s) (on : Nat) :
        (((con.announce sid c).storeHeaders sid (con.get sid Stream.promisedSid)
          (con.get sid Stream.trailer).isSome con.decodeCtx.emittedHeaders).clearEmitted).get on field =
            con.get on field :=
      (get_storeHeaders hEmpty hPromise hStore _ _ _ _ on).trans
        (get_modifyStream hAnnounce con sid on)
    have hStore {α : Type} {field : Stream → Option α}
        (hTrailer : ∀ (s : Stream) eh, field { s with trailerHeaders := eh } = field s)
        (hHeaders : ∀ (s : Stream) eh, field { s with headers := eh } = field s) (s : Stream)
        (isTrailer : Bool) (eh : List Header) : field (Stream.store isTrailer eh s) = field s := by
      rw [Stream.store]
      split
      · exact hTrailer s _
      · exact hHeaders s _
    refine ⟨rfl, fun on => ?_, fun on => ?_, fun on => ?_, fun s hs hPromised => ?_⟩
    · exact hGet rfl (fun _ => rfl) (fun _ _ => rfl) (hStore (fun _ _ => rfl) fun _ _ => rfl) on
    · exact hGet rfl (fun _ => rfl) (fun _ _ => rfl) (hStore (fun _ _ => rfl) fun _ _ => rfl) on
    · exact hGet rfl (fun _ => rfl) (fun _ _ => rfl) (hStore (fun _ _ => rfl) fun _ _ => rfl) on
    · rw [get_of_some hs, get_of_some hs, hPromised]
      refine ⟨Stream.store s.trailer.isSome con.decodeCtx.emittedHeaders (Stream.announce c s), ?_, ?_, ?_⟩
      · show ((con.announce sid c).modifyStream sid _).stream? sid = _
        rw [stream?_modifyStream_self, announce, stream?_modifyStream_self, hs]
        rfl
      · rw [Stream.data_store]
        rfl
      · rw [Stream.headers_store, Stream.headers_store]
        rfl

/-- A header block that is taken in. -/
theorem blockDecode_taken {fh : FrameHeader} {block : Octets} {len : Nat}
    (hEnd : hasFlag fh.flags Flag.endHeaders = true)
    (hTaken : con.blockDecode fh block = (con', some len)) :
    (headersDecode con.decodeCtx block).2 = .done ∧ con.refusesBlock fh.stream block = false ∧
      Given con con' fh.stream (headersDecode con.decodeCtx block).1.emittedHeaders := by
  rw [blockDecode, if_pos hEnd, streamHeadersDone] at hTaken
  cases hs : con.stream? fh.stream with
  | none =>
    have hNone : (con.setHeaderBlock fh.stream block).stream? fh.stream = none := by
      rw [setHeaderBlock, stream?_modifyStream_self, hs]
      rfl
    rw [hNone] at hTaken
    cases hTaken
  | some s =>
    obtain ⟨hSet, hCtx⟩ := setHeaderBlock_self hs block
    rw [hSet] at hTaken
    dsimp only at hTaken
    rw [decodeBlock, hCtx, show (s.setHeaderBlock block).headerBlock.getD [] = block from rfl] at hTaken
    rw [refusesBlock]
    generalize hDecoded : headersDecode con.decodeCtx block = decoded at hTaken
    obtain ⟨decodeCtx, result⟩ := decoded
    cases result with
    | conError code => cases hTaken
    | streamError code => cases hTaken
    | done =>
      dsimp only at hTaken
      generalize hStored : ((con.setHeaderBlock fh.stream block).setDecodeCtx decodeCtx).setHeaderBlock
        fh.stream [] = stored at hTaken
      have hGet {α : Type} {field : Stream → Option α}
          (hField : ∀ s block, field (Stream.setHeaderBlock block s) = field s) (on : Nat) :
          stored.get on field = con.get on field := by
        rw [← hStored]
        exact (get_setHeaderBlock hField _ fh.stream on []).trans
          (get_setHeaderBlock hField con fh.stream on block)
      have hStoredCtx : stored.decodeCtx = decodeCtx := by
        rw [← hStored]
        exact decodeCtx_modifyStream ..
      have hStoredStream : stored.stream? fh.stream =
          some ((s.setHeaderBlock block).setHeaderBlock []) := by
        rw [← hStored, setHeaderBlock, stream?_modifyStream_self]
        show ((con.setHeaderBlock fh.stream block).stream? fh.stream).map _ = _
        rw [hSet]
        rfl
      have hType : stored.type = con.type := by
        rw [← hStored]
        exact (type_modifyStream ..).trans (type_modifyStream ..)
      generalize hList : stored.headersDecoded fh.stream = result at hTaken
      obtain ⟨con₁, ok⟩ := result
      cases ok with
      | false => cases hTaken
      | true =>
        obtain ⟨rfl, -⟩ := Prod.mk.inj hTaken
        obtain ⟨hAccepts, hGiven⟩ := headersDecoded_taken hList
        rw [hStoredCtx] at hGiven
        refine ⟨rfl, ?_, fun on => ?_, fun on => ?_, fun on => ?_, fun t ht hPromised => ?_⟩
        · rw [← hAccepts]
          exact refusesList_congr hType.symm hStoredCtx.symm (hGet (fun _ _ => rfl) _).symm
            (hGet (fun _ _ => rfl) _).symm
        · exact (hGiven.state on).trans (hGet (fun _ _ => rfl) on)
        · exact (hGiven.pending on).trans (hGet (fun _ _ => rfl) on)
        · exact (hGiven.promised on).trans (hGet (fun _ _ => rfl) on)
        · cases hs.symm.trans ht
          obtain ⟨s', hs', hData, hHeaders⟩ := hGiven.stream _ hStoredStream hPromised
          refine ⟨s', hs', hData, hHeaders.trans ?_⟩
          rw [Stream.headers_store, Stream.headers_store]
          rfl

/-- If the block is taken in, the request it may end is complete with the list it brings, which
is that of the stream unless the stream has announced trailers or promises another. -/
def LastBlock (con : Connection) (sid : Nat) (block : Octets) : Prop :=
  (headersDecode con.decodeCtx block).2 = .done → con.refusesBlock sid block = false →
    ∀ s, con.stream? sid = some s → (∀ promised ∈ s.promisedSid,
        s.Complete ∧ con.Complete promised) ∧
      (s.promisedSid = none → (s.store s.trailer.isSome
        (headersDecode con.decodeCtx block).1.emittedHeaders).Complete)

/-- The requests that the end of a block may end. -/
theorem BothComplete.of_lastBlock (hCon : con.Registered) {fh : FrameHeader}
    (hSome : (con.stream? fh.stream).isSome) {block : Octets} {len : Nat}
    (hEnd : hasFlag fh.flags Flag.endHeaders = true)
    (hTaken : con.blockDecode fh block = (con', some len)) (hLast : con.LastBlock fh.stream block) :
    con'.BothComplete fh.stream := by
  obtain ⟨hDone, hAccepts, hGiven⟩ := blockDecode_taken hEnd hTaken
  obtain ⟨s, hs⟩ := Option.isSome_iff_exists.mp hSome
  obtain ⟨hPromise, hList⟩ := hLast hDone hAccepts s hs
  rw [BothComplete, hGiven.promised, get_of_some hs]
  cases hPromised : s.promisedSid with
  | none =>
    obtain ⟨s', hs', hData, hHeaders⟩ := hGiven.stream s hs hPromised
    have hComplete : con'.Complete fh.stream := by
      intro t ht
      rw [hs'] at ht
      cases ht
      exact (hList hPromised).congr hHeaders (hData.trans (Stream.data_store ..).symm)
    exact ⟨hComplete, hComplete⟩
  | some promised =>
    have hFair : Fair ∅ con (con.blockDecode fh block).1 := by
      refine fair_blockDecode con (fun hNone => ?_) block
      rw [get_of_some hs, hPromised] at hNone
      cases hNone
    rw [hTaken] at hFair
    obtain ⟨hOwn, hOther⟩ := hPromise promised hPromised
    refine ⟨hFair.complete hCon (Set.notMem_empty _) fun t ht => ?_,
      hFair.complete hCon (Set.notMem_empty _) hOther⟩
    rw [hs] at ht
    cases ht
    exact hOwn

/-- A HEADERS frame. -/
theorem fair_frameReceive_headers (ord : HashOrder) {fh : FrameHeader} (hType : fh.type = .headers)
    {buf : Octets} (hOwn : fh.stream ∈ own) (hSome : fh.stream ≠ 0 → (con.stream? fh.stream).isSome)
    (hLast : hasFlag fh.flags Flag.endStream = true → hasFlag fh.flags Flag.endHeaders = true →
      con.standing fh.stream = some .opened ∨ con.standing fh.stream = some .idle →
        (con.headersPriority fh buf).2 = true → headersOffset fh + padSize fh buf ≤ fh.length →
          con.LastBlock fh.stream (headersBlock fh buf)) :
    Fair own con (con.frameReceive ord fh buf).1 := by
  refine Fair.of_registered fun hCon => ?_
  have hPayload : con.payloadDecode ord fh buf = con.headersFrameDecode fh buf := by
    rw [payloadDecode, hType]
  have hAlike := alike_headersPriority con fh buf
  have hPriority : Fair ∅ con (con.headersPriority fh buf).1 := reorders_fair.headersPriority con fh buf
  rw [frameReceive, hPayload, headersFrameDecode]
  by_cases hZero : fh.stream = 0
  · rw [if_pos hZero]
    exact fair_setError con _
  rw [if_neg hZero]
  generalize con.headersPriority fh buf = result at hAlike hPriority hLast ⊢
  obtain ⟨con₁, ok⟩ := result
  have hPriority' := hPriority.mono (Set.empty_subset own)
  cases ok with
  | false => exact hPriority'.trans (fair_setError _ _)
  | true =>
    dsimp only
    split
    · next con₂ hFails =>
      split at hFails
      · cases hFails
        exact hPriority'.trans (fair_setError _ _)
      · have hBlock : Fair own con₁ (con₁.blockDecode fh (headersBlock fh buf)).1 :=
          fair_blockDecode con₁ (fun _ => hOwn) _
        rw [hFails] at hBlock
        exact hPriority'.trans hBlock
    · next con₂ len hTaken =>
      split at hTaken
      · cases hTaken
      · next hFits =>
        have hBlock : Fair own con₁ (con₁.blockDecode fh (headersBlock fh buf)).1 :=
          fair_blockDecode con₁ (fun _ => hOwn) _
        rw [hTaken] at hBlock
        refine hPriority'.trans (hBlock.trans (fair_stateMachine con₂ (fun _ => rfl) fh.flags fh.stream
          fun on hOn => ?_))
        rw [hType] at hOn
        cases hOn with
        | headers _ hEnd hEndHeaders hWaits =>
          obtain ⟨-, -, hGiven⟩ := blockDecode_taken hEndHeaders hTaken
          have hStanding : con₂.standing fh.stream = con.standing fh.stream := by
            rw [standing, hGiven.state, hGiven.promised, hAlike.get (fun _ => rfl),
              hAlike.get (fun _ => rfl), standing]
          rw [hStanding] at hWaits
          have hBefore := hLast hEnd hEndHeaders (hWaits.imp_right fun h => h.1) rfl (not_lt.mp hFits)
          refine (BothComplete.of_lastBlock (hPriority.registered hCon)
            ((hAlike.isSome _).trans (hSome hZero)) hEndHeaders hTaken ?_).1
          intro hDone hAccepts s₁ hs₁
          rw [hAlike.decodeCtx] at hDone ⊢
          rw [refusesBlock_congr hAlike] at hAccepts
          have hCore := hAlike.streams fh.stream
          rw [hs₁] at hCore
          obtain ⟨s, hs⟩ := Option.isSome_iff_exists.mp (hSome hZero)
          rw [hs, Option.map_some, Option.map_some, Option.some.injEq] at hCore
          obtain ⟨hPromise, hList⟩ := hBefore hDone hAccepts s hs
          have hField {α : Type} {field : Stream → α} (h : ∀ s : Stream, field s.core = field s) :
              field s₁ = field s := Stream.field_congr h hCore
          rw [@hField _ Stream.promisedSid fun _ => rfl]
          refine ⟨fun promised hMem => ?_, fun hNone => (hList hNone).congr ?_ ?_⟩
          · obtain ⟨hOwn', hOther⟩ := hPromise promised hMem
            exact ⟨hOwn'.congr (hField fun _ => rfl) (hField fun _ => rfl),
              hPriority.complete hCon (Set.notMem_empty _) hOther⟩
          · rw [Stream.headers_store, Stream.headers_store, @hField _ Stream.trailer fun _ => rfl,
              @hField _ Stream.headers fun _ => rfl]
          · rw [Stream.data_store, Stream.data_store, @hField _ Stream.data fun _ => rfl]

/-- A CONTINUATION frame. -/
theorem fair_frameReceive_continuation (ord : HashOrder) {fh : FrameHeader}
    (hType : fh.type = .continuation) {buf : Octets} (hOwn : fh.stream ∈ own)
    (hSome : fh.stream ≠ 0 → (con.stream? fh.stream).isSome)
    (hLast : hasFlag fh.flags Flag.endHeaders = true →
      con.get fh.stream Stream.pendingState = some .halfClosed →
        con.LastBlock fh.stream (buf.take fh.length)) :
    Fair own con (con.frameReceive ord fh buf).1 := by
  refine Fair.of_registered fun hCon => ?_
  have hPayload : con.payloadDecode ord fh buf = con.continuationDecode fh buf := by
    rw [payloadDecode, hType]
  rw [frameReceive, hPayload, continuationDecode]
  by_cases hZero : fh.stream = 0
  · rw [if_pos hZero]
    exact fair_setError con _
  rw [if_neg hZero]
  have hBlock : Fair own con (con.blockDecode fh (buf.take fh.length)).1 :=
    fair_blockDecode con (fun _ => hOwn) _
  split
  · next hFails =>
    rw [hFails] at hBlock
    exact hBlock
  · next con₁ len hTaken =>
    rw [hTaken] at hBlock
    refine hBlock.trans (fair_stateMachine con₁ (fun _ => rfl) fh.flags fh.stream fun on hOn => ?_)
    rw [hType] at hOn
    cases hOn with
    | block hEnd hHalf =>
      obtain ⟨-, -, hGiven⟩ := blockDecode_taken hEnd hTaken
      rw [hGiven.pending] at hHalf
      exact (BothComplete.of_lastBlock hCon (hSome hZero) hEnd hTaken (hLast hEnd hHalf)).2

/-! ### Received frames -/

/-- The frame ends no request that lacks octets or has too many. -/
def Measured (con : Connection) (fh : FrameHeader) (buf : Octets) : Prop :=
  match fh.type with
  | .data => hasFlag fh.flags Flag.endStream = true → con.standing fh.stream = some .opened →
      padOffset fh + padSize fh buf ≤ fh.length → ¬ con.StreamViolation fh buf → con.LastData fh buf
  | .headers => hasFlag fh.flags Flag.endStream = true → hasFlag fh.flags Flag.endHeaders = true →
      con.standing fh.stream = some .opened ∨ con.standing fh.stream = some .idle →
        (con.headersPriority fh buf).2 = true → headersOffset fh + padSize fh buf ≤ fh.length →
          con.LastBlock fh.stream (headersBlock fh buf)
  | .continuation => hasFlag fh.flags Flag.endHeaders = true →
      con.get fh.stream Stream.pendingState = some .halfClosed →
        con.LastBlock fh.stream (buf.take fh.length)
  | .windowUpdate => ∀ sid, fh.stream = 0 ∨ fh.stream = sid → con.Ending sid → con.Complete sid
  | _ => True

theorem fair_frameReceive_other (ord : HashOrder) {fh : FrameHeader} {buf : Octets}
    (hPayload : Fair own con (con.payloadDecode ord fh buf).1) (hData : fh.type ≠ .data)
    (hHeaders : fh.type ≠ .headers) (hContinuation : fh.type ≠ .continuation) :
    Fair own con (con.frameReceive ord fh buf).1 := by
  rw [frameReceive]
  split
  · next hFails =>
    rw [hFails] at hPayload
    exact hPayload
  · next hTaken =>
    rw [hTaken] at hPayload
    exact hPayload.trans (fair_stateMachine _ (fun _ => rfl) fh.flags fh.stream fun on hOn =>
      absurd hOn (not_ends hData hHeaders hContinuation))

theorem fair_frameReceive (ord : HashOrder) (con : Connection) {fh : FrameHeader} {buf : Octets}
    (hSome : fh.stream ≠ 0 → (con.stream? fh.stream).isSome) (hMeasured : con.Measured fh buf) :
    Fair Set.univ con (con.frameReceive ord fh buf).1 := by
  have hOwn (sid : Nat) : sid ∈ (Set.univ : Set Nat) := Set.mem_univ sid
  rw [Measured] at hMeasured
  cases hType : fh.type with
  | data =>
    rw [hType] at hMeasured
    exact Fair.of_registered fun hCon =>
      fair_frameReceive_data ord hCon.server hType (hOwn _) hSome hMeasured
  | headers =>
    rw [hType] at hMeasured
    exact fair_frameReceive_headers ord hType (hOwn _) hSome hMeasured
  | continuation =>
    rw [hType] at hMeasured
    exact fair_frameReceive_continuation ord hType (hOwn _) hSome hMeasured
  | _ =>
    rw [hType] at hMeasured
    refine fair_frameReceive_other ord ?_ (by simp [hType]) (by simp [hType]) (by simp [hType])
    rw [payloadDecode, hType]
    first
    | exact reorders_fair.priorityDecode fair_setError con fh buf
    | exact fair_rstStreamDecode con fh buf
    | exact manages_fair.settingsDecode con fh buf
    | exact fair_pushPromiseDecode con (hOwn _) (hOwn _)
    | exact manages_fair.pingDecode con fh buf
    | exact manages_fair.goawayDecode con fh
    | exact fair_windowUpdateDecode ord con buf hMeasured
    | exact .refl _ con

/-- The first frame for a stream is let in. -/
def LetsIn (con : Connection) (sid : Nat) : Prop :=
  sid ≠ 0 ∧ (con.stream? sid).isNone → con.badPeerStream sid = false ∧ con.peerStreamsFull = false

theorem fair_frameAdmit (ord : HashOrder) (con : Connection) {fh : FrameHeader} {buf : Octets}
    (hMeasured : con.LetsIn fh.stream → (con.met fh).Measured fh buf) :
    Fair Set.univ con (con.frameAdmit ord fh buf).1 := by
  rw [frameAdmit]
  by_cases hNew : fh.stream ≠ 0 ∧ (con.stream? fh.stream).isNone
  · rw [if_pos hNew]
    have hMade : Fair Set.univ con (con.newPeerStream fh.stream).1 :=
      fair_newPeerStream con (Set.mem_univ _)
    split
    · next con₁ hAdmitted =>
      rw [hAdmitted] at hMade
      rw [newPeerStream] at hAdmitted
      cases hBad : con.badPeerStream fh.stream with
      | true => simp [hBad] at hAdmitted
      | false =>
        cases hFull : con.peerStreamsFull with
        | true => simp [hBad, hFull] at hAdmitted
        | false =>
          simp only [hBad, hFull, Bool.false_eq_true, if_false, Prod.mk.injEq, and_true] at hAdmitted
          have hMet := hMeasured fun _ => ⟨hBad, hFull⟩
          rw [met, if_pos hNew, hAdmitted] at hMet
          refine hMade.trans (fair_frameReceive ord con₁ (fun _ => ?_) hMet)
          rw [← hAdmitted]
          exact (stream?_admitted con _ _).mpr (.inl rfl)
    · next con₁ hRefused =>
      rw [hRefused] at hMade
      exact hMade
  · rw [if_neg hNew]
    have hSome (hNonzero : fh.stream ≠ 0) : (con.stream? fh.stream).isSome := by
      rw [Option.isSome_iff_ne_none]
      intro hNone
      exact hNew ⟨hNonzero, by rw [hNone]; rfl⟩
    refine fair_frameReceive ord con hSome ?_
    have hMet := hMeasured fun hAbsent => absurd hAbsent hNew
    rw [met, if_neg hNew] at hMet
    exact hMet

theorem fair_frameDecode (ord : HashOrder) (con : Connection) {buf : Octets}
    (hMeasured : ∀ fh payload, con.inTurn buf = some (fh, payload) → con.LetsIn fh.stream →
      (con.met fh).Measured fh payload) : Fair Set.univ con (con.frameDecode ord buf).1 := by
  rcases con.frameDecode_cases ord buf with hSame | ⟨code, hError⟩ | ⟨fh, payload, hTurn, hAdmit⟩
  · rw [hSame]
    exact .refl _ con
  · rw [hError]
    exact fair_setError con code
  · rw [hAdmit]
    exact fair_frameAdmit ord con (hMeasured fh payload hTurn)

end Connection

/-! ### Runs -/

/-- The event ends no request that lacks octets or has too many. -/
def HandlerEvent.Measured (f : Flow) : HandlerEvent → Prop
  | .flow (.recv _ buf) => ∀ fh payload, f.con.inTurn buf = some (fh, payload) →
      f.con.LetsIn fh.stream → (f.con.met fh).Measured fh payload
  | .flow (.sendHeaders sid _ ended) => f.con.Poised sid ∧
      (ended = true → f.con.standing sid = some .opened → f.con.BothComplete sid)
  | .flow (.sendData sid _ ended) => ended.or (f.con.get sid Stream.ended) = some true →
      f.con.standing sid = some .opened → f.con.Complete sid
  | .flow .dequeue | .onData _ | .ping _ => True

theorem fair_handle (f : Flow) (event : HandlerEvent) (hMeasured : event.Measured f) :
    Connection.Fair Set.univ f.con (f.handle event).con := by
  cases event with
  | flow event =>
    cases event with
    | recv ord buf =>
      have hFrame := Connection.fair_frameDecode ord f.con hMeasured
      rw [Flow.handle, Flow.step]
      exact hFrame
    | sendHeaders sid headers ended =>
      exact Connection.fair_sendHeaders f.con sid headers hMeasured.1 hMeasured.2
    | sendData sid chunk ended => exact Connection.fair_sendData f.con sid chunk hMeasured
    | dequeue => exact Connection.fair_of_streams rfl rfl rfl
  | onData sid =>
    exact Connection.fair_modifyStream_same f.con sid (fun _ => rfl) (fun _ => rfl) (fun _ => rfl)
      (fun _ => rfl) fun _ => rfl
  | ping payload => exact Connection.fair_sendPing f.con payload

/-- The requests dispatched so far came with their whole bodies. -/
structure Flow.Served (f : Flow) : Prop where
  registered : f.con.Registered
  complete : ∀ e ∈ f.con.events, e.Complete

theorem served_start (given : Settings) : (Flow.start given).Served :=
  ⟨⟨rfl, fun _ _ hs => nomatch hs⟩, fun _ hMem => nomatch hMem⟩

theorem served_handle (f : Flow) (event : HandlerEvent) (h : f.Served) (hMeasured : event.Measured f) :
    (f.handle event).Served := by
  have hFair := fair_handle f event hMeasured
  obtain ⟨new, hEvents, hNew⟩ := hFair.events h.registered
  refine ⟨hFair.registered h.registered, fun e hMem => ?_⟩
  rw [hEvents] at hMem
  exact (List.mem_append.mp hMem).elim (h.complete e) (hNew e)

/-- As long as no frame and no answer ends a request before its body has the length announced,
every request is dispatched with its whole body. -/
theorem requests_complete (given : Settings) (events : List HandlerEvent)
    (h : Meets Flow.handle (fun f event => event.Measured f) (Flow.start given) events) :
    ∀ e ∈ (runEvents Flow.handle (Flow.start given) events).con.events, e.Complete :=
  (h.invariant (served_start given) served_handle).complete

/-- The five octets that stream 1 has announced, and the end of the stream. -/
def wholeDataFrame : Octets := [0, 0, 5, 0, 1, 0, 0, 0, 1, 0x68, 0x65, 0x6C, 0x6C, 0x6F]

/-- The end of stream 1 in a DATA frame without data. -/
def emptyDataFrame : Octets := [0, 0, 0, 0, 1, 0, 0, 0, 1]

/-- A request whose body comes in the frame that ends it. -/
theorem requests_complete_upload :
    let con := (runEvents Flow.handle (Flow.start ∅) [.flow (.recv .kept lengthFrame),
      .flow (.recv .kept wholeDataFrame)]).con
    con.events.length = 1 ∧ ∀ e ∈ con.events, e.Complete := by
  refine ⟨by decide +kernel,
    requests_complete ∅ _ ⟨fun fh payload hTurn _ => ?_, fun fh payload hTurn _ => ?_, trivial⟩⟩
  · have hFrame : (Flow.start ∅).con.inTurn lengthFrame =
        some (⟨9, .headers, 4, 1⟩, lengthFrame.drop 9) := by decide +kernel
    rw [hFrame] at hTurn
    cases hTurn
    exact fun hEnd => absurd hEnd (by decide)
  · have hFrame : ((Flow.start ∅).handle (.flow (.recv .kept lengthFrame))).con.inTurn
        wholeDataFrame = some (⟨5, .data, 1, 1⟩, wholeDataFrame.drop 9) := by decide +kernel
    rw [hFrame] at hTurn
    cases hTurn
    intro _ _ _ _ s hs
    have hData : s.dataCb = false := Option.some.inj ((congrArg (Option.map Stream.dataCb) hs).symm.trans
      (by decide +kernel))
    have hLength : s.length = some [0x35] := (Connection.get_of_some hs _).symm.trans (by decide +kernel)
    have hHeaders : s.headers = some [(octets ":method", octets "POST"),
        (octets ":scheme", octets "http"), (octets ":path", octets "/"),
        (octets ":authority", octets "a"), (octets "content-length", octets "5")] :=
      (Connection.get_of_some hs _).symm.trans (by decide +kernel)
    rw [if_neg (by rw [hData]; decide)]
    intro h hSome _ v hMem
    rw [hHeaders] at hSome
    obtain rfl := Option.some.inj hSome
    rw [show contentLengths _ = [octets "5"] by decide +kernel, List.mem_singleton] at hMem
    rw [hLength, hMem]
    decide +kernel

/-- A request that announces five octets is dispatched without any when an empty DATA frame ends
it. -/
theorem requests_truncated :
    ¬ ∀ e ∈ (runEvents Flow.handle (Flow.start ∅) [.flow (.recv .kept lengthFrame),
      .flow (.recv .kept emptyDataFrame)]).con.events, e.Complete := by
  decide +kernel

end PageCamel.Http2
