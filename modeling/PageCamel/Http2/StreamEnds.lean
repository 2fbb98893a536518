import PageCamel.Http2.FlowControl
import PageCamel.Http2.StreamViews

/-!
How the server ends a stream: `send_data` with END_STREAM queues a frame that ends it,
or records that the data that is still blocked does.
-/

namespace PageCamel.Http2
open PageCamel.Lib

/-- The frame ends the stream for the side that sends it. -/
def Frame.EndsStream (sid : Nat) (frame : Frame) : Prop :=
  frame.streamId = sid ∧ (frame.type = .headers ∨ frame.type = .data) ∧
    hasFlag frame.flags Flag.endStream = true

instance (sid : Nat) (frame : Frame) : Decidable (frame.EndsStream sid) :=
  inferInstanceAs (Decidable (_ ∧ _ ∧ _))

namespace Connection

variable {con : Connection} {sid : Nat}

/-- END_STREAM is recorded to follow the data that waits on the stream. -/
def EndsBlocked (con : Connection) (sid : Nat) : Prop :=
  con.get sid Stream.ended = some true ∧ (con.get sid Stream.blockedData).getD [] ≠ []

instance (con : Connection) (sid : Nat) : Decidable (con.EndsBlocked sid) :=
  inferInstanceAs (Decidable (_ ∧ _))

/-! ### `send_data` on a stream that is to end -/

/-- A DATA frame without END_STREAM leaves its stream as it is. -/
theorem stream?_send_data {s : Stream} (hs : con.stream? sid = some s) (on : Nat) :
    (con.stateMachine .send .data 0 on).stream? sid = some s := by
  obtain ⟨made, hMade, hSame⟩ :=
    stream?_stateMachine_unflagged con plain_data (by decide) (by decide : hasFlag 0 _ = false) .send on
  rw [hSame]
  rcases hMade with rfl | rfl
  · exact hs
  · exact stream?_vivify hs _

/-- One turn of the loop that does not end the stream. -/
theorem stream?_send_some {s : Stream} (hs : con.stream? sid = some s) (size : Int) (data : Octets) :
    let con' := ((con.addFcwSend (-size)).addStreamFcwSend sid (-size)).enqueue (.data data) 0 sid
    con'.stream? sid = some (shift (-size) s) ∧ con'.fcwSend = con.fcwSend - size := by
  have hShift : ((con.addFcwSend (-size)).addStreamFcwSend sid (-size)).stream? sid =
      some (shift (-size) s) := by
    rw [stream?_addStreamFcwSend, if_pos rfl]
    show (con.stream? sid).map _ = _
    rw [hs]
    rfl
  refine ⟨?_, ?_⟩
  · refine stream?_send_data (s := shift (-size) s) ?_ sid
    exact hShift
  · refine (quiet_stateMachine ..).fcwSend.trans ?_
    show (addStreamFcwSend (con.addFcwSend (-size)) sid (-size)).fcwSend = _
    rw [addStreamFcwSend, fcwSend_modifyStream]
    rfl

/-- The last turn queues a frame with END_STREAM. -/
theorem mem_queue_enqueue_data (con : Connection) (data : Octets) (sid : Nat) :
    ∃ frame ∈ (con.enqueue (.data data) Flag.endStream sid).queue, frame.EndsStream sid := by
  have hFlag : hasFlag Flag.endStream Flag.endStream = true := by decide
  refine ⟨⟨.data, Flag.endStream, sid, data⟩, ?_, rfl, .inr rfl, hFlag⟩
  refine (touches_stateMachine (Set.mem_univ sid) ..).queue ?_
  exact List.mem_append_right _ (List.mem_singleton.mpr rfl)

theorem sendSize_of_some {s : Stream} (hs : con.stream? sid = some s) (l : Nat) :
    con.sendSize sid l =
      min (min (min (con.encSetting Setting.maxFrameSize : Int) l) con.fcwSend) (s.fcwSend.getD 0) := by
  rw [sendSize]
  simp only [hs]

/-- Without data the loop sends END_STREAM once no window is negative, and that it
brings about with the first frame. -/
theorem sendDataLoop_nil (fuel : Nat) {s : Stream} (hs : con.stream? sid = some s) :
    ∃ frame ∈ (sendDataLoop sid true (fuel + 2) con []).1.queue, frame.EndsStream sid := by
  have hOpen {con : Connection} {s : Stream} (fuel : Nat) (hs : con.stream? sid = some s)
      (hSize : con.sendSize sid 0 = 0) :
      ∃ frame ∈ (sendDataLoop sid true (fuel + 1) con []).1.queue, frame.EndsStream sid := by
    rw [sendDataLoop]
    simp only [List.length_nil, hSize]
    exact mem_queue_enqueue_data ..
  by_cases hSize : con.sendSize sid 0 = 0
  · exact hOpen (fuel + 1) hs hSize
  · obtain ⟨hStream, hWindow⟩ := stream?_send_some hs (con.sendSize sid 0) []
    have hTurn : sendDataLoop sid true (fuel + 2) con [] = sendDataLoop sid true (fuel + 1)
        (((con.addFcwSend (-con.sendSize sid 0)).addStreamFcwSend sid (-con.sendSize sid 0)).enqueue
          (.data []) 0 sid) [] := by
      have hNot : ¬ (0 : Int) = con.sendSize sid 0 := fun hEq => hSize hEq.symm
      rw [sendDataLoop]
      simp [hNot]
    rw [hTurn]
    refine hOpen fuel hStream ?_
    rw [sendSize_of_some hStream, hWindow]
    rw [sendSize_of_some hs]
    simp only [shift, Option.getD_some]
    omega

theorem sendDataLoop_ends (fuel : Nat) : ∀ {con : Connection} {s : Stream} {data : Octets},
    con.stream? sid = some s → data ≠ [] → data.length ≤ fuel →
      let r := sendDataLoop sid true fuel con data
      (∃ frame ∈ r.1.queue, frame.EndsStream sid) ∨
        r.2 ≠ [] ∧ r.1.get sid Stream.ended = con.get sid Stream.ended := by
  induction fuel with
  | zero => exact fun _ hData hLe => absurd (List.length_eq_zero_iff.mp (Nat.le_zero.mp hLe)) hData
  | succ fuel ih =>
      intro con s data hs hData hLe
      rw [sendDataLoop]
      dsimp only
      have hSize : con.sendSize sid data.length ≤ data.length := by
        rw [sendSize_of_some hs]
        omega
      split
      · exact .inr ⟨hData, rfl⟩
      · next hGoes =>
          generalize con.sendSize sid data.length = size at hSize hGoes ⊢
          have hLength : data.length ≠ 0 := fun hZero => hData (List.length_eq_zero_iff.mp hZero)
          split
          · next hAll =>
              rw [if_pos ⟨rfl, hAll⟩]
              exact .inl (mem_queue_enqueue_data ..)
          · next hMore =>
              rw [if_neg fun hBoth => hMore hBoth.2]
              obtain ⟨hStream, -⟩ := stream?_send_some hs size (data.take size.toNat)
              have hRest : (data.drop size.toNat).length = data.length - size.toNat :=
                List.length_drop
              have hNonempty : data.drop size.toNat ≠ [] := by
                intro hNil
                rw [hNil, List.length_nil] at hRest
                omega
              refine (ih hStream hNonempty (by omega)).imp_right fun hLeft => ⟨hLeft.1, ?_⟩
              rw [hLeft.2, get_of_some hStream, get_of_some hs]
              rfl

/-- After `send_data` with END_STREAM the stream has ended, or will with its blocked data. -/
theorem sendData_ends (hSome : (con.stream? sid).isSome) (chunk : Octets) :
    (∃ frame ∈ (con.sendData sid chunk (some true)).queue, frame.EndsStream sid) ∨
      (con.sendData sid chunk (some true)).EndsBlocked sid := by
  obtain ⟨s, hs⟩ := Option.isSome_iff_exists.mp hSome
  have hEnded : (con.modifyStream sid fun s => { s with ended := some true }).stream? sid =
      some { s with ended := some true } := by
    rw [stream?_modifyStream_self, hs]
    rfl
  rw [sendData]
  simp only [Option.isSome_some, if_true]
  rw [get_of_some hEnded, show (some true).getD false = true from rfl]
  generalize (con.get sid Stream.blockedData).getD [] ++ chunk = data
  by_cases hData : data = []
  · rw [hData, queue_modifyStream]
    exact .inl (sendDataLoop_nil 1 hEnded)
  · rw [queue_modifyStream]
    refine (sendDataLoop_ends (data.length + 3) hEnded hData (by omega)).imp_right fun hLeft => ?_
    obtain ⟨hRest, hStays⟩ := hLeft
    rw [get_of_some hEnded] at hStays
    refine ⟨?_, ?_⟩
    · exact (get_modifyStream (by exact fun _ => rfl) ..).trans hStays
    · obtain ⟨t, ht, -⟩ := Option.bind_eq_some_iff.mp hStays
      rw [get, stream?_modifyStream_self, ht]
      exact hRest

end Connection
end PageCamel.Http2
