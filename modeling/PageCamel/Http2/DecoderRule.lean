import PageCamel.Http2.Frame
import PageCamel.Http2.StateMachine

/-!
Rules for the decoders and for what is sent: a relation that has in it the elementary changes that
are made has in it what they do to the connection.
-/

namespace PageCamel.Http2.Connection
open PageCamel.Lib

theorem setHeaderBlock_self {con : Connection} {sid : Nat} {s : Stream}
    (hs : con.stream? sid = some s) (block : Octets) :
    (con.setHeaderBlock sid block).stream? sid = some (s.setHeaderBlock block) ∧
      (con.setHeaderBlock sid block).decodeCtx = con.decodeCtx := by
  rw [setHeaderBlock, stream?_modifyStream_self, hs]
  exact ⟨rfl, decodeCtx_modifyStream ..⟩

/-- A relation between a connection and what becomes of it in any number of changes. -/
structure Chains (R : Connection → Connection → Prop) : Prop where
  refl : ∀ con, R con con
  trans : ∀ {con con' con'' : Connection}, R con con' → R con' con'' → R con con''

/-- A relation that has in it a new dependency of a stream. -/
structure Rehangs (R : Connection → Connection → Prop) : Prop extends Chains R where
  setStreamDep : ∀ con sid dep, R con (setStreamDep con sid dep)

/-- A relation that has in it a new weight or dependency of a stream. -/
structure Reorders (R : Connection → Connection → Prop) : Prop extends Rehangs R where
  setWeight : ∀ con sid weight, R con (setWeight con sid weight)

section
variable {R : Connection → Connection → Prop} (h : Rehangs R)
include h

theorem Rehangs.changeDep (con : Connection) (sid dep : Nat) : R con (con.changeDep sid dep) := by
  rw [Connection.changeDep]
  split
  · exact h.refl con
  · split
    · exact h.trans (h.setStreamDep con dep _) (h.setStreamDep ..)
    · exact h.setStreamDep ..

theorem Rehangs.takeSiblings (con : Connection) (sid dep : Nat) :
    R con (con.takeSiblings sid dep) := by
  rw [Connection.takeSiblings]
  induction con.streams.keys generalizing con with
  | nil => exact h.refl con
  | cons other keys ih =>
      refine h.trans ?_ (ih _)
      dsimp only
      split
      · exact h.refl con
      · exact h.setStreamDep ..

theorem Rehangs.streamReprio (con : Connection) (sid : Nat) (exclusive : Bool) (dep : Nat) :
    R con (con.streamReprio sid exclusive dep).1 := by
  rw [Connection.streamReprio]
  split
  · exact h.refl con
  · cases exclusive with
    | false => exact h.changeDep ..
    | true => exact h.trans (h.changeDep con sid dep) (h.takeSiblings ..)

end

section
variable {R : Connection → Connection → Prop} (h : Reorders R)
include h

theorem Reorders.headersPriority (con : Connection) (fh : FrameHeader) (buf : Octets) :
    R con (con.headersPriority fh buf).1 := by
  rw [Connection.headersPriority]
  split
  · exact h.trans (h.setWeight con fh.stream _) (h.streamReprio ..)
  · exact h.refl con

theorem Reorders.priorityDecode (hError : ∀ con code, R con (setError con code)) (con : Connection)
    (fh : FrameHeader) (buf : Octets) : R con (con.priorityDecode fh buf).1 := by
  rw [Connection.priorityDecode]
  split
  · exact hError ..
  · split
    · exact hError ..
    · dsimp only
      have hReprio := h.trans (h.setWeight con fh.stream (unpack8 (buf.drop 4) + 1))
        (h.streamReprio _ fh.stream (unpack32 buf >>> 31 ≠ 0) (unpack32 buf &&& 0x7FFFFFFF))
      split
      · next hTrue =>
          rw [hTrue] at hReprio
          exact hReprio
      · next hFalse =>
          rw [hFalse] at hReprio
          exact h.trans hReprio (hError ..)

end

/-- A relation that has in it what the decoders of header blocks on a stream do besides. -/
structure Decodes (sid : Nat) (R : Connection → Connection → Prop) : Prop extends Reorders R where
  setError : ∀ con code, R con (setError con code)
  streamError : ∀ con code, R con (streamError con sid code)
  setHeaderBlock : ∀ con block, R con (setHeaderBlock con sid block)
  headersDecode : ∀ con block, R con (setDecodeCtx con (headersDecode con.decodeCtx block).1)
  headersDecoded : ∀ con, R con (headersDecoded con sid).1

section
variable {R : Connection → Connection → Prop} {fh : FrameHeader} (h : Decodes fh.stream R)
include h

theorem Decodes.streamHeadersDone (con : Connection) :
    R con (con.streamHeadersDone fh.stream).1 := by
  rw [Connection.streamHeadersDone]
  split
  · exact h.refl con
  · next s hs =>
      have hDecode := h.headersDecode con (s.headerBlock.getD [])
      rw [decodeBlock]
      generalize PageCamel.Http2.headersDecode con.decodeCtx (s.headerBlock.getD []) = r at hDecode ⊢
      obtain ⟨decodeCtx, result⟩ := r
      cases result with
      | done => exact h.trans hDecode (h.trans (h.setHeaderBlock ..) (h.headersDecoded _))
      | conError code => exact h.trans hDecode (h.setError ..)
      | streamError code => exact h.trans hDecode (h.streamError ..)

theorem Decodes.blockDecode (con : Connection) (block : Octets) :
    R con (con.blockDecode fh block).1 := by
  rw [Connection.blockDecode]
  refine h.trans (h.setHeaderBlock con block) ?_
  have hDone := h.streamHeadersDone (con.setHeaderBlock fh.stream block)
  split
  · split
    · next hTrue =>
        rw [hTrue] at hDone
        exact hDone
    · next hFalse =>
        rw [hFalse] at hDone
        exact hDone
  · exact h.refl _

theorem Decodes.headersFrameDecode (con : Connection) (buf : Octets) :
    R con (con.headersFrameDecode fh buf).1 := by
  have hPriority := h.headersPriority con fh buf
  rw [Connection.headersFrameDecode]
  split
  · exact h.setError ..
  · split
    · next hFalse =>
        rw [hFalse] at hPriority
        exact h.trans hPriority (h.setError ..)
    · next hTrue =>
        rw [hTrue] at hPriority
        split
        · exact h.trans hPriority (h.setError ..)
        · exact h.trans hPriority (h.blockDecode ..)

theorem Decodes.continuationDecode (con : Connection) (buf : Octets) :
    R con (con.continuationDecode fh buf).1 := by
  rw [Connection.continuationDecode]
  split
  · exact h.setError ..
  · exact h.blockDecode ..

theorem Decodes.rstStreamDecode
    (hReset : ∀ con code, R con (modifyStream con fh.stream (Stream.setReset code)))
    (con : Connection) (buf : Octets) : R con (con.rstStreamDecode fh buf).1 := by
  rw [Connection.rstStreamDecode]
  repeat' split
  · exact h.setError ..
  · exact h.setError ..
  · exact hReset ..

end

/-! ### SETTINGS, PING and GOAWAY -/

/-- A relation that has in it the answer to a PING frame, and what a GOAWAY frame changes. -/
structure Answers (R : Connection → Connection → Prop) : Prop extends Chains R where
  setError : ∀ con code, R con (setError con code)
  ackPing : ∀ con payload, R con (ackPing con payload)
  goaway : ∀ con : Connection, R con { con with goaway := true }

theorem Answers.pingDecode {R : Connection → Connection → Prop} (h : Answers R) (con : Connection)
    (fh : FrameHeader) (buf : Octets) : R con (con.pingDecode fh buf).1 := by
  rw [Connection.pingDecode]
  split
  · exact h.setError ..
  · split
    · exact h.setError ..
    · split
      · exact h.refl con
      · exact h.ackPing ..

theorem Answers.goawayDecode {R : Connection → Connection → Prop} (h : Answers R) (con : Connection)
    (fh : FrameHeader) : R con (con.goawayDecode fh).1 := by
  rw [Connection.goawayDecode]
  split
  · exact h.setError ..
  · exact h.goaway con

/-- A relation that has in it besides what the settings of the peer change, and that they are
accepted. -/
structure Manages (R : Connection → Connection → Prop) : Prop extends Answers R where
  addStreamFcwSend : ∀ con sid delta, R con (addStreamFcwSend con sid delta)
  setSettings : ∀ (con : Connection) settings,
    R con { con with encodeCtx := { con.encodeCtx with settings } }
  acceptSettings : ∀ con, R con (acceptSettings con)

section
variable {R : Connection → Connection → Prop} (h : Manages R)
include h

theorem Manages.fcwInitialChange (con : Connection) (size : Nat) : R con (con.fcwInitialChange size) := by
  rw [Connection.fcwInitialChange]
  generalize (size : Int) - (con.encSetting Setting.initialWindowSize : Int) = delta
  induction con.streams.keys generalizing con with
  | nil => exact h.refl con
  | cons sid keys ih =>
      refine h.trans ?_ (ih _)
      dsimp only
      split
      · exact h.refl con
      · exact h.addStreamFcwSend ..

theorem Manages.applySetting {con con' : Connection} {key value : Nat}
    (hApply : con.applySetting key value = .ok con') : R con con' := by
  rw [Connection.applySetting] at hApply
  split at hApply
  · cases hApply
    exact h.refl con
  · split at hApply
    · cases hApply
    · have hWindow : R con (if key = Setting.initialWindowSize then con.fcwInitialChange value else con) := by
        split
        · exact h.fcwInitialChange ..
        · exact h.refl con
      dsimp only at hApply
      split at hApply
      · cases hApply
        exact hWindow
      · cases hApply
        exact h.trans hWindow (h.setSettings ..)

theorem Manages.applySettings (settings : List (Nat × Nat)) :
    ∀ con : Connection, R con (con.applySettings settings).1 := by
  induction settings with
  | nil => exact h.refl
  | cons setting settings ih =>
      intro con
      rw [Connection.applySettings]
      split
      · next con' hApply => exact h.trans (h.applySetting hApply) (ih con')
      · exact h.setError ..

theorem Manages.settingsDecode (con : Connection) (fh : FrameHeader) (buf : Octets) :
    R con (con.settingsDecode fh buf).1 := by
  rw [Connection.settingsDecode]
  split
  · exact h.setError ..
  · split
    · split
      · exact h.setError ..
      · exact h.refl con
    · split
      · exact h.acceptSettings con
      · split
        · exact h.setError ..
        · have hApply := h.applySettings (settingsPairs (buf.take fh.length)) con
          split
          · next hTrue =>
              rw [hTrue] at hApply
              exact h.trans hApply (h.acceptSettings _)
          · next hFalse =>
              rw [hFalse] at hApply
              exact hApply

end

/-! ### DATA -/

/-- A relation that has in it what the decoder of DATA frames on a stream does, once it has taken
their length off the windows. -/
structure Collects (sid : Nat) (R : Connection → Connection → Prop) : Prop extends Chains R where
  setError : ∀ con code, R con (setError con code)
  streamError : ∀ con code, R con (streamError con sid code)
  fcwUpdate : ∀ con, R con (fcwUpdate con)
  streamFcwUpdate : sid ≠ 0 → ∀ con, R con (streamFcwUpdate con sid)
  streamData : ∀ con data, R con (streamData con sid data)

section
variable {R : Connection → Connection → Prop} {fh : FrameHeader} (h : Collects fh.stream R)
include h

theorem Collects.refillWindows (hStream : fh.stream ≠ 0) (con : Connection) (endStream : Bool) :
    R con (con.refillWindows fh.stream endStream) := by
  rw [Connection.refillWindows]
  have hFirst : R con (if con.fcwRecv < (con.decSetting Setting.maxFrameSize : Int)
      then con.fcwUpdate else con) := by
    split
    · exact h.fcwUpdate con
    · exact h.refl con
  refine h.trans hFirst ?_
  generalize (if con.fcwRecv < (con.decSetting Setting.maxFrameSize : Int)
    then con.fcwUpdate else con) = con₁
  split
  · exact h.streamFcwUpdate hStream con₁
  · exact h.refl con₁

theorem Collects.checkContentLength (con : Connection) : R con (con.checkContentLength fh.stream) := by
  rw [Connection.checkContentLength]
  split
  · split
    · exact h.streamError ..
    · exact h.refl con
  · exact h.refl con

theorem Collects.dataDecode_taken (con : Connection) (buf : Octets) :
    R con (con.dataDecode fh buf).1 ∨
      R ((con.addFcwRecv (-fh.length)).addStreamFcwRecv fh.stream (-fh.length))
        (con.dataDecode fh buf).1 := by
  rw [Connection.dataDecode]
  split
  · exact .inl (h.setError ..)
  · next hStream =>
      dsimp only
      split
      · exact .inl (h.setError ..)
      · refine .inr ?_
        generalize (con.addFcwRecv (-fh.length)).addStreamFcwRecv fh.stream (-fh.length) = con₁
        have hRefill := h.refillWindows hStream con₁ (hasFlag fh.flags Flag.endStream)
        split
        · exact h.streamError ..
        · split
          · exact hRefill
          · refine h.trans (h.trans hRefill (h.streamData _
              ((buf.drop (padOffset fh)).take (fh.length - padOffset fh - padSize fh buf)))) ?_
            dsimp only
            split
            · exact h.checkContentLength _
            · exact h.refl _

theorem Collects.dataDecode (hRecv : ∀ con delta, R con (addFcwRecv con delta))
    (hStream : ∀ con sid delta, R con (addStreamFcwRecv con sid delta)) (con : Connection)
    (buf : Octets) : R con (con.dataDecode fh buf).1 := by
  rcases h.dataDecode_taken con buf with hRefused | hTaken
  · exact hRefused
  · exact h.trans (h.trans (hRecv con _) (hStream ..)) hTaken

end

/-! ### Header lists -/

/-- What is done with a list that has been decoded. -/
theorem headersDecoded_rule {R : Connection → Connection → Prop}
    (hTrans : ∀ {con con' con'' : Connection}, R con con' → R con' con'' → R con con'') {sid : Nat}
    (hAnnounce : ∀ con c, R con (announce con sid c))
    (hError : ∀ con, R con (streamError con sid .protocolError))
    (hClear : ∀ con, R con (clearEmitted con)) (con : Connection)
    (hStore : ∀ con' isTrailer eh,
      R con' (storeHeaders con' sid (con.get sid Stream.promisedSid) isTrailer eh)) :
    R con (con.headersDecoded sid).1 := by
  have hValidate : R con
      (con.validateHeaders con.decodeCtx.emittedHeaders sid (con.isResponse sid)).1 := by
    rw [validateHeaders]
    split
    · exact hAnnounce ..
    · exact hTrans (hAnnounce con _) (hError _)
  rw [headersDecoded]
  split
  · next hFalse =>
      rw [hFalse] at hValidate
      exact hValidate
  · next hTrue =>
      rw [hTrue] at hValidate
      exact hTrans hValidate (hTrans (hStore ..) (hClear _))

/-! ### Header blocks that are sent -/

/-- A relation that has in it the frames that go on with a header block on a stream. -/
structure Fragments (sid : Nat) (R : Connection → Connection → Prop) : Prop extends Chains R where
  encode : ∀ (con : Connection) headers,
    R con { con with encodeCtx := (headersEncode con.encodeCtx headers).1 }
  continuation : ∀ con fragment flags, R con (enqueue con (.continuation fragment) flags sid)

section
variable {sid : Nat} {R : Connection → Connection → Prop} (h : Fragments sid R)
include h

theorem Fragments.sendContinuations (maxSize fuel : Nat) :
    ∀ (con : Connection) (block : Octets), R con (sendContinuations maxSize sid fuel con block) := by
  induction fuel with
  | zero => exact fun con _ => h.refl con
  | succ fuel ih =>
      intro con block
      rw [Connection.sendContinuations]
      split
      · exact h.trans (h.continuation ..) (ih _ _)
      · exact h.refl con

theorem Fragments.sendHeaders (hFirst : ∀ con fields flags, R con (enqueue con (.headers fields) flags sid))
    (con : Connection) (headers : List Header) (ended : Bool) :
    R con (con.sendHeaders sid headers ended) :=
  h.trans (h.encode con headers) (h.trans (hFirst ..) (h.sendContinuations ..))

theorem Fragments.sendPpHeaders {promised : Nat}
    (hFirst : ∀ con fragment flags, R con (enqueue con (.pushPromise promised fragment) flags sid))
    (con : Connection) (headers : List Header) : R con (con.sendPpHeaders sid promised headers) :=
  h.trans (h.encode con headers) (h.trans (hFirst ..) (h.sendContinuations ..))

end

/-! ### Data that is sent -/

/-- A relation that has in it what sends data on a stream. -/
structure Uploads (sid : Nat) (R : Connection → Connection → Prop) : Prop extends Chains R where
  addFcwSend : ∀ con delta, R con (addFcwSend con delta)
  addStreamFcwSend : ∀ con delta, R con (addStreamFcwSend con sid delta)
  data : ∀ con payload flags, R con (enqueue con (.data payload) flags sid)
  ended : ∀ con ended, R con (modifyStream con sid fun s => { s with ended })
  blocked : ∀ con rest, R con (modifyStream con sid fun s => { s with blockedData := some rest })

section
variable {sid : Nat} {R : Connection → Connection → Prop} (h : Uploads sid R)
include h

theorem Uploads.sendDataLoop (ended : Bool) (fuel : Nat) :
    ∀ (con : Connection) (data : Octets), R con (sendDataLoop sid ended fuel con data).1 := by
  induction fuel with
  | zero => exact fun con _ => h.refl con
  | succ fuel ih =>
      intro con data
      rw [Connection.sendDataLoop]
      dsimp only
      split
      · exact h.refl con
      · have hTurn (size : Int) (flags : UInt8) (payload : Octets) : R con
            (((con.addFcwSend (-size)).addStreamFcwSend sid (-size)).enqueue (.data payload) flags sid) :=
          h.trans (h.trans (h.addFcwSend con _) (h.addStreamFcwSend ..)) (h.data ..)
        split
        · exact hTurn ..
        · exact h.trans (hTurn ..) (ih _ _)

theorem Uploads.sendData (con : Connection) (chunk : Octets) (ended : Option Bool) :
    R con (con.sendData sid chunk ended) := by
  rw [Connection.sendData]
  dsimp only
  have hEnded : R con (if ended.isSome then con.modifyStream sid fun s => { s with ended } else con) := by
    split
    · exact h.ended con ended
    · exact h.refl con
  exact h.trans (h.trans hEnded (h.sendDataLoop ..)) (h.blocked ..)

theorem Uploads.streamSendBlocked (con : Connection) : R con (con.streamSendBlocked sid) := by
  rw [Connection.streamSendBlocked]
  split
  · exact h.refl con
  · split
    · exact h.sendData ..
    · exact h.refl con

end

end PageCamel.Http2.Connection
