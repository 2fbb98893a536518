import PageCamel.Http2.FrameRule

/-!
What frames do to the connection as a whole: nothing, or they end it with an error.
An error comes once, and a connection that is shut down takes no other.
-/

namespace PageCamel.Http2
open PageCamel.Lib

namespace Connection

variable {con con' con'' : Connection}

/-- From `con` to `con'` the connection goes on as it was or is ended by an error. -/
structure Fate (con con' : Connection) : Prop where
  preface : con'.preface = con.preface
  outcome : (con'.shutdown = con.shutdown ∧ con'.error = con.error) ∨
    (con.shutdown = false ∧ con'.shutdown = true ∧ con'.error.isSome = true)
  goaway : con.goaway = true → con'.goaway = true
  closes : con.shutdown = false → con'.shutdown = true → con'.goaway = true

theorem fate_same (hPreface : con'.preface = con.preface) (hShutdown : con'.shutdown = con.shutdown)
    (hError : con'.error = con.error) (hGoaway : con.goaway = true → con'.goaway = true) :
    Fate con con' := by
  refine ⟨hPreface, .inl ⟨hShutdown, hError⟩, hGoaway, fun hUp hDown => ?_⟩
  rw [hShutdown, hUp] at hDown
  cases hDown

theorem Fate.refl (con : Connection) : Fate con con := fate_same rfl rfl rfl id

theorem Fate.trans (h : Fate con con') (h' : Fate con' con'') : Fate con con'' := by
  refine ⟨h'.preface.trans h.preface, ?_, fun hGone => h'.goaway (h.goaway hGone),
    fun hUp hDown => ?_⟩
  · rcases h.outcome with ⟨hDown, hError⟩ | ⟨hUp, hDown, hError⟩
    · rcases h'.outcome with ⟨hDown', hError'⟩ | ⟨hUp', hDown', hError'⟩
      · exact .inl ⟨hDown'.trans hDown, hError'.trans hError⟩
      · exact .inr ⟨hDown ▸ hUp', hDown', hError'⟩
    · rcases h'.outcome with ⟨hDown', hError'⟩ | ⟨hUp', _, _⟩
      · exact .inr ⟨hUp, hDown'.trans hDown, hError' ▸ hError⟩
      · rw [hDown] at hUp'
        cases hUp'
  · cases hBetween : con'.shutdown with
    | true => exact h'.goaway (h.closes hUp hBetween)
    | false => exact h'.closes hBetween hDown

theorem fate_modifyStream (con : Connection) (sid : Nat) (f : Stream → Stream) :
    Fate con (con.modifyStream sid f) :=
  fate_same (by simp) (by simp) (by simp) (by simp)

theorem fate_vivify (con : Connection) (sid : Nat) : Fate con (con.vivify sid) := by
  unfold vivify
  split
  · exact .refl con
  · exact fate_same rfl rfl rfl id

theorem fate_setError (con : Connection) (code : ErrorCode) : Fate con (con.setError code) := by
  cases hDown : con.shutdown with
  | true =>
      rw [setError, if_pos hDown]
      exact .refl con
  | false =>
      refine ⟨?_, .inr ⟨hDown, shutdown_setError con code, ?_⟩, fun _ => ?_, fun _ _ => ?_⟩
      all_goals simp [setError, finish, hDown]

theorem fate_runCallback (con : Connection) (sid : Nat) (cb : Callback) :
    Fate con (con.runCallback sid cb) := by
  unfold runCallback
  dsimp only
  repeat' split
  all_goals exact fate_same rfl rfl rfl id

theorem fate_runCallbacks (sid : Nat) (new : StreamState) (cbs : List (StreamState × Callback)) :
    Fate con (con.runCallbacks sid new cbs) := by
  unfold runCallbacks
  induction cbs.filter fun cb => cb.1 = new generalizing con with
  | nil => exact .refl con
  | cons cb cbs ih => exact (fate_runCallback con sid cb.2).trans ih

theorem fate_setState (con : Connection) (sid : Nat) (new : StreamState) :
    Fate con (con.setState sid new) := by
  have hCount (con : Connection) : Fate con (con.countClosed sid) := by
    unfold countClosed
    dsimp only
    split <;> exact fate_same rfl rfl rfl id
  unfold setState
  split
  · exact .refl con
  · next s hs =>
      have hSet : Fate con (con.setStream sid { s with state := some new }) :=
        fate_same rfl rfl rfl id
      dsimp only
      split
      · exact ((hSet.trans (fate_runCallbacks ..)).trans (hCount _)).trans (fate_modifyStream ..)
      · exact hSet.trans (fate_runCallbacks ..)

theorem respects_fate : Respects Fate where
  refl := .refl
  trans := .trans
  vivify := fate_vivify
  setState := fate_setState
  setPendingState con sid pending := by
    unfold setPendingState
    split
    · exact .refl con
    · exact fate_same rfl rfl rfl id
  clearPromised con sid := fate_modifyStream con sid _
  setError := fate_setError

theorem passes_fate : Passes True Fate where
  refl := .refl
  trans := .trans
  stateMachine := respects_fate.stateMachine
  setError := fate_setError
  vivify := fate_vivify
  modify con sid f _ := fate_modifyStream con sid f
  beside h := fate_same h.preface h.shutdown h.error h.goaway
  push _ _ _ := fate_same rfl rfl rfl id
  ack _ _ := fate_same rfl rfl rfl id
  newPeer _ _ _ _ _ := fate_same rfl rfl rfl id
  promise _ con sid _ := fate_modifyStream con sid _

theorem fate_payloadDecode (ord : HashOrder) (con : Connection) (fh : FrameHeader)
    (buf : Octets) : Fate con (con.payloadDecode ord fh buf).1 :=
  passes_fate.free.payloadDecode ord con (fun _ => passes_fate.dataDecode con fh buf)
    fun _ => passes_fate.free.pushPromiseDecode trivial con fh buf

/-- One frame received. -/
theorem fate_frameDecode (ord : HashOrder) (con : Connection) (buf : Octets) :
    Fate con (con.frameDecode ord buf).1 := passes_fate.frameDecode ord con buf (.inl trivial)

end Connection

/-- The frames of the input received. -/
theorem fate_feedLoop (ord : HashOrder) (fuel : Nat) (con : Connection) (buf : Octets) :
    Connection.Fate con (Server.feedLoop ord fuel con buf).1 :=
  Connection.passes_fate.feedLoop trivial ord fuel con buf

end PageCamel.Http2
