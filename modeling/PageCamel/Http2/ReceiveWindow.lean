import PageCamel.Http2.FrameRule
import PageCamel.Http2.SendSteps

/-!
The books of the receive window of a connection. Whatever an endpoint does, its window and the
increments it has announced go up together; only a DATA frame takes something off the window.
-/

namespace PageCamel.Http2
open PageCamel.Lib

/-- What a frame adds to the send window of the connection. -/
def credit (fh : FrameHeader) (payload : Octets) : Nat :=
  if fh.type = .windowUpdate ∧ fh.stream = 0 then unpack32 payload &&& 0x7FFFFFFF else 0

/-- What a frame takes off the window of the connection. -/
def debit (fh : FrameHeader) : Nat := if fh.type = .data then fh.length else 0

def credits (frames : List (FrameHeader × Octets)) : Nat := (frames.map fun f => credit f.1 f.2).sum

def debits (frames : List (FrameHeader × Octets)) : Nat := (frames.map fun f => debit f.1).sum

/-- The frame as the peer will read it. The first bit of the stream id is not read. -/
def Frame.shown (f : Frame) : FrameHeader × Octets :=
  (⟨f.payload.length, f.type, f.flags, f.streamId % 2 ^ 31⟩, f.payload)

theorem credits_append (frames frames' : List (FrameHeader × Octets)) :
    credits (frames ++ frames') = credits frames + credits frames' := by
  rw [credits, List.map_append, List.sum_append, credits, credits]

theorem debits_append (frames frames' : List (FrameHeader × Octets)) :
    debits (frames ++ frames') = debits frames + debits frames' := by
  rw [debits, List.map_append, List.sum_append, debits, debits]

theorem debits_shown (frames : List Frame) :
    debits (frames.map Frame.shown) = dataOctets (fun _ => true) frames := by
  induction frames with
  | nil => rfl
  | cons f frames ih =>
    have hFirst : debits ([f].map Frame.shown) = dataOctets (fun _ => true) [f] := by
      by_cases hData : f.type = .data
      · simp [debits, debit, Frame.shown, dataOctets, dataFrames, hData]
      · simp [debits, debit, Frame.shown, dataOctets, dataFrames, hData]
    rw [← List.singleton_append, List.map_append, debits_append, dataOctets_append, hFirst, ih]

theorem unpack32_pack32_le (n : Nat) : unpack32 (pack32 n) ≤ n := by
  simp only [pack32, unpack32, UInt8.toNat_ofNat', Nat.shiftLeft_eq, Nat.shiftRight_eq_div_pow]
  omega

theorem stream_frameHeaderDecode_lt (buf : Octets) : (frameHeaderDecode buf).stream < 2 ^ 31 :=
  Nat.lt_of_le_of_lt Nat.and_le_right (by decide)

namespace Connection

/-- The receive window less the increments that are still in the queue. -/
def recvBook (con : Connection) : Int := con.fcwRecv - credits (con.queue.map Frame.shown)

theorem recvBook_addFcwRecv (con : Connection) (delta : Int) :
    (con.addFcwRecv delta).recvBook = con.recvBook + delta := by
  show con.fcwRecv + delta - _ = con.fcwRecv - _ + delta
  exact sub_add_eq_add_sub .. |>.symm

/-- From `con` to `con'` the book of the receive window loses at most what was spent. -/
def Accounts (spent : Nat) (con con' : Connection) : Prop := con.recvBook ≤ con'.recvBook + spent

variable {con con' con'' : Connection} {spent : Nat}

theorem Accounts.refl (con : Connection) : Accounts 0 con con := by simp [Accounts]

theorem Accounts.before (h : Accounts 0 con con') (h' : Accounts spent con' con'') :
    Accounts spent con con'' := by
  rw [Accounts] at h h' ⊢
  omega

theorem Accounts.after (h : Accounts spent con con') (h' : Accounts 0 con' con'') :
    Accounts spent con con'' := by
  rw [Accounts] at h h' ⊢
  omega

theorem Accounts.weaken (h : Accounts 0 con con') : Accounts spent con con' := by
  rw [Accounts] at h ⊢
  omega

theorem accounts_foldl {α : Type} {f : Connection → α → Connection}
    (hStep : ∀ con a, Accounts 0 con (f con a)) (l : List α) (con : Connection) :
    Accounts 0 con (l.foldl f con) := by
  induction l generalizing con with
  | nil => exact .refl con
  | cons a l ih => exact (hStep con a).after (ih (f con a))

/-! ### Elementary changes -/

/-- A change that the books know nothing of. -/
theorem accounts_same (hRecv : con'.fcwRecv = con.fcwRecv) (hQueue : con'.queue = con.queue) :
    Accounts 0 con con' := by
  rw [Accounts, recvBook, recvBook, hRecv, hQueue]
  omega

theorem accounts_setStream (con : Connection) (sid : Nat) (s : Stream) :
    Accounts 0 con (con.setStream sid s) := accounts_same rfl rfl

theorem accounts_modifyStream (con : Connection) (sid : Nat) (f : Stream → Stream) :
    Accounts 0 con (con.modifyStream sid f) := by
  rw [modifyStream]
  split
  · exact .refl con
  · exact accounts_setStream con sid _

theorem accounts_vivify (con : Connection) (sid : Nat) : Accounts 0 con (con.vivify sid) := by
  rw [vivify]
  split
  · exact .refl con
  · exact accounts_setStream con sid _

/-- A frame comes into the queue, somewhere. -/
theorem accounts_insert {f : Frame} {front back : List Frame} (hRecv : con'.fcwRecv = con.fcwRecv)
    (hSplit : con.queue = front ++ back) (hQueue : con'.queue = front ++ f :: back)
    (hSpent : credit f.shown.1 f.shown.2 ≤ spent) : Accounts spent con con' := by
  have hCredits : credits (con'.queue.map Frame.shown) =
      credits (con.queue.map Frame.shown) + credit f.shown.1 f.shown.2 := by
    rw [hQueue, hSplit, ← List.singleton_append, List.map_append, List.map_append, List.map_append,
      credits_append, credits_append, credits_append]
    simp only [credits, List.map_cons, List.map_nil, List.sum_singleton]
    omega
  rw [Accounts, recvBook, recvBook, hRecv, hCredits]
  push_cast
  omega

theorem accounts_push (con : Connection) {f : Frame} (hSpent : credit f.shown.1 f.shown.2 ≤ spent) :
    Accounts spent con (con.push f) :=
  accounts_insert rfl (List.append_nil _).symm rfl hSpent

theorem accounts_push_plain (con : Connection) {f : Frame} (hType : f.type ≠ .windowUpdate) :
    Accounts 0 con (con.push f) :=
  accounts_push con (if_neg fun hBoth => hType hBoth.1).le

theorem accounts_setError (con : Connection) (code : ErrorCode) :
    Accounts 0 con (con.setError code) := by
  rw [setError]
  split
  · exact .refl con
  · rw [finish]
    split
    · exact accounts_same rfl rfl
    · exact accounts_insert rfl (List.append_nil _).symm rfl (Nat.le_refl 0)

/-! ### The state machine -/

theorem accounts_runCallbacks (con : Connection) (sid : Nat) (new : StreamState)
    (cbs : List (StreamState × Callback)) : Accounts 0 con (con.runCallbacks sid new cbs) := by
  refine accounts_foldl (fun con cb => ?_) _ con
  unfold runCallback
  dsimp only
  split
  · split
    · exact accounts_same rfl rfl
    · exact .refl con
  · split
    · exact .refl con
    · exact accounts_same rfl rfl
  · exact accounts_same rfl rfl
  · exact .refl con

theorem accounts_countClosed (con : Connection) (sid : Nat) :
    Accounts 0 con (con.countClosed sid) := by
  rw [countClosed]
  split
  · exact accounts_same rfl rfl
  · exact .refl con

theorem accounts_setState (con : Connection) (sid : Nat) (new : StreamState) :
    Accounts 0 con (con.setState sid new) := by
  rw [setState]
  split
  · exact .refl con
  · next s hs =>
    have hEntered := (accounts_setStream con sid { s with state := some new }).after
      (accounts_runCallbacks (con.setStream sid { s with state := some new }) sid new s.cb)
    dsimp only
    split
    · exact (hEntered.after (accounts_countClosed _ sid)).after (accounts_modifyStream _ sid _)
    · exact hEntered

theorem accounts_setPendingState (con : Connection) (sid : Nat) (pending : Option StreamState) :
    Accounts 0 con (con.setPendingState sid pending) := by
  rw [setPendingState]
  split
  · exact .refl con
  · exact accounts_same rfl rfl

theorem respects_accounts : Respects (Accounts 0) where
  refl := .refl
  trans h h' := h.after h'
  vivify := accounts_vivify
  setState := accounts_setState
  setPendingState := accounts_setPendingState
  clearPromised con sid := accounts_modifyStream con sid _
  setError := accounts_setError

/-! ### Frames -/

theorem accounts_ack (con : Connection) (payload : Octets) :
    Accounts 0 con (con.insert ⟨.ping, Flag.ack, 0, payload⟩) := by
  rw [insert]
  generalize hHeld : con.queue.takeWhile _ = held
  have hSplit : con.queue = held ++ con.queue.drop held.length := by
    rw [← hHeld]
    exact (List.prefix_iff_eq_append.mp (List.takeWhile_prefix _)).symm
  exact accounts_insert rfl hSplit rfl (Nat.le_refl 0)

/-- Nothing but data that is received takes anything off the books. -/
theorem passesFree_accounts : PassesFree True (Accounts 0) where
  refl := .refl
  trans h h' := h.after h'
  stateMachine := respects_accounts.stateMachine
  setError := accounts_setError
  vivify := accounts_vivify
  modify con sid _ _ := accounts_modifyStream con sid _
  beside h hRecv := accounts_same hRecv h.queue
  push con _ hType := accounts_push_plain con hType.2
  ack := accounts_ack
  newPeer _ _ _ _ _ := accounts_same rfl rfl
  promise _ con sid _ := accounts_modifyStream con sid _

theorem accounts_newStream (con : Connection) : Accounts 0 con con.newStream.1 := by
  rw [newStream]
  split
  · exact .refl con
  · exact accounts_same rfl rfl

/-- `enqueue`, with what the frame grants. -/
theorem accounts_enqueue (con : Connection) (d : FrameData) (flags : UInt8) (sid : Nat)
    (hSpent : credit (Frame.shown ⟨d.type, (d.encode flags).1, sid, (d.encode flags).2⟩).1
      (d.encode flags).2 ≤ spent) : Accounts spent con (con.enqueue d flags sid) :=
  ((passesFree_accounts.encodeEffect con d sid).before (accounts_push _ hSpent)).after
    (respects_accounts.stateMachine ..)

theorem accounts_fcwUpdate (con : Connection) : Accounts 0 con con.fcwUpdate := by
  have hSize (n : Nat) : credit (Frame.shown ⟨.windowUpdate, 0, 0, pack32 n⟩).1 (pack32 n) ≤ n := by
    rw [credit, if_pos ⟨rfl, rfl⟩]
    exact Nat.and_le_left.trans (unpack32_pack32_le n)
  have hFilled : Accounts (con.decSetting Setting.initialWindowSize)
      (con.addFcwRecv (con.decSetting Setting.initialWindowSize)) con.fcwUpdate :=
    accounts_enqueue _ (.windowUpdate _) 0 0 (hSize _)
  rw [Accounts, recvBook_addFcwRecv] at hFilled
  rw [Accounts]
  omega

theorem accounts_streamFcwUpdate (con : Connection) {sid : Nat} (hSid : sid % 2 ^ 31 ≠ 0) :
    Accounts 0 con (con.streamFcwUpdate sid) :=
  (accounts_modifyStream con sid _).before
    (accounts_enqueue _ (.windowUpdate _) 0 sid (if_neg fun hBoth => hSid hBoth.2).le)

/-- A DATA frame takes its length off the window, or is refused. -/
theorem accounts_dataDecode (con : Connection) {fh : FrameHeader} (hStream : fh.stream < 2 ^ 31)
    (buf : Octets) : Accounts fh.length con (con.dataDecode fh buf).1 := by
  have hFilled (hSid : fh.stream ≠ 0) (con : Connection) : Accounts 0 con (con.streamFcwUpdate fh.stream) :=
    accounts_streamFcwUpdate con (by rwa [Nat.mod_eq_of_lt hStream])
  rcases passesFree_accounts.dataDecode accounts_fcwUpdate hFilled con buf with hRefused | hDecoded
  · exact hRefused.weaken
  · have hTaken : Accounts fh.length con (con.addFcwRecv (-fh.length)) := by
      rw [Accounts, recvBook_addFcwRecv]
      omega
    exact (hTaken.after (accounts_modifyStream _ fh.stream _)).after hDecoded

/-- A frame that is in turn. -/
theorem accounts_frameAdmit (ord : HashOrder) (con : Connection) {fh : FrameHeader}
    (hStream : fh.stream < 2 ^ 31) (buf : Octets) :
    Accounts (debit fh) con (con.frameAdmit ord fh buf).1 := by
  by_cases hType : fh.type = .data
  · have hReceive (con : Connection) : Accounts (debit fh) con (con.frameReceive ord fh buf).1 := by
      have hData := accounts_dataDecode con hStream buf
      rw [debit, if_pos hType, frameReceive, payloadDecode, hType]
      dsimp only
      generalize con.dataDecode fh buf = r at hData ⊢
      obtain ⟨con₁, taken⟩ := r
      cases taken with
      | none => exact hData
      | some n => exact hData.after (respects_accounts.stateMachine con₁ ..)
    have hMade := passesFree_accounts.newPeerStream con fh.stream (.inl trivial)
    rw [frameAdmit]
    split
    · generalize con.newPeerStream fh.stream = r at hMade ⊢
      obtain ⟨con₁, made⟩ := r
      cases made with
      | false => exact hMade.weaken
      | true => exact hMade.before (hReceive con₁)
    · exact hReceive con
  · exact (passesFree_accounts.frameAdmit ord con (fun hData => absurd hData hType)
      (.inl trivial)).weaken

end Connection
end PageCamel.Http2
