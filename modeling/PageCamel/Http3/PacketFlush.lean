import PageCamel.Lib.Octets

/-!
Sending packets (`h3_packet_flush` in `h3_packet.c`). What the two libraries
return during one call is an input of the model: a list of results for each loop,
which may be shorter than the loop would go on. The stream loop takes a result
without vectors for the end of all data, also when it names a stream.
-/

namespace PageCamel.Http3
open PageCamel.Lib

/-- The return value of a write function of ngtcp2. -/
inductive Written
  | more     -- NGTCP2_ERR_WRITE_MORE
  | error    -- any other negative value
  | nothing  -- zero
  | packet   -- the size of a packet
  deriving DecidableEq, Repr

/-- What `nghttp3_conn_writev_stream` returns and writes: an error, or a stream id,
which is still -1 when there is no stream, with a FIN flag and the vectors. -/
inductive StreamResult
  | error
  | ok (streamId : Int) (fin : Bool) (vec : List Octets)
  deriving DecidableEq

/-- A call made by the stream loop: `ngtcp2_conn_writev_stream` with the flag MORE
and maybe FIN, `nghttp3_conn_add_write_offset`, or the callback for a packet. -/
inductive FlushCall
  | writevStream (streamId : Int) (fin : Bool) (vec : List Octets)
  | addWriteOffset (streamId : Int) (ndatalen : Int)
  | sendPacket
  deriving DecidableEq

/-- One turn of the stream loop as the libraries determine it: the result of
nghttp3, and what ngtcp2 makes of it if it is called. -/
structure StreamTurn where
  result : StreamResult
  nwrite : Written
  ndatalen : Int
  deriving DecidableEq

/-- The safety limit. -/
def maxPackets : Nat := 100

inductive FlushReturn
  | wouldBlock
  | error
  | packets (count : Nat)
  deriving DecidableEq, Repr

/-- The first loop: `none` for the callback's value when there is no callback. -/
def handshakeLoop : Nat → List (Written × Option Int) → FlushReturn
  | count, [] => .packets count
  | count, (nwrite, sendRv) :: rest =>
      match nwrite with
      | .more => handshakeLoop count rest
      | .error | .nothing => .packets count
      | .packet =>
          if sendRv = some (-1) then .wouldBlock
          else if sendRv.any (· < -1) then .error
          else if count + 1 ≥ maxPackets then .packets (count + 1)
          else handshakeLoop (count + 1) rest

/-- The calls that follow a write: nghttp3 learns what was taken, and the packet is sent. -/
def afterWrite (callback : Bool) (streamId : Int) (nwrite : Written) (ndatalen : Int) :
    List FlushCall :=
  match nwrite with
  | .more => if ndatalen > 0 then [.addWriteOffset streamId ndatalen] else []
  | .error | .nothing => []
  | .packet =>
      (if ndatalen ≥ 0 then [.addWriteOffset streamId ndatalen] else []) ++
        if callback then [.sendPacket] else []

/-- The stream loop: the calls it makes and the packets counted in the end. -/
def streamLoop (callback : Bool) : Nat → List StreamTurn → List FlushCall × Nat
  | count, [] => ([], count)
  | count, turn :: turns =>
      match turn.result with
      | .error => ([], count)
      | .ok streamId fin vec =>
          if vec.length = 0 then ([], count)
          else
            let now := .writevStream streamId fin vec ::
              afterWrite callback streamId turn.nwrite turn.ndatalen
            match turn.nwrite with
            | .more =>
                let (calls, total) := streamLoop callback count turns
                (now ++ calls, total)
            | .error | .nothing => (now, count)
            | .packet =>
                if count + 1 ≥ maxPackets then (now, count + 1)
                else
                  let (calls, total) := streamLoop callback (count + 1) turns
                  (now ++ calls, total)

/-- The last loop. -/
def remainingLoop : Nat → List Written → Nat
  | count, .packet :: rest =>
      if count + 1 ≥ maxPackets then count + 1 else remainingLoop (count + 1) rest
  | count, _ => count

/-- The results of the libraries during one call of `h3_packet_flush`. -/
structure FlushInput where
  /-- There is a callback for packets. -/
  callback : Bool
  handshake : List (Written × Option Int)
  /-- `conn->http3 && conn->control_streams_bound` -/
  streamsBound : Bool
  streams : List StreamTurn
  remaining : List Written

/-- `h3_packet_flush`: the calls of the stream loop and the return value. -/
def packetFlush (input : FlushInput) : List FlushCall × FlushReturn :=
  match handshakeLoop 0 input.handshake with
  | .packets count =>
      let (calls, count) :=
        if input.streamsBound then streamLoop input.callback count input.streams else ([], count)
      (calls, .packets (remainingLoop count input.remaining))
  | early => ([], early)

/-! ### Passing results on -/

/-- The call a result asks for; none when it names no stream. -/
def StreamTurn.call? (turn : StreamTurn) : Option FlushCall :=
  match turn.result with
  | .error => none
  | .ok streamId fin vec => if 0 ≤ streamId then some (.writevStream streamId fin vec) else none

def FlushCall.isWritev : FlushCall → Bool
  | .writevStream _ _ _ => true
  | _ => false

/-- The results the loop has to take up: all of them until there is an error or no
stream, until ngtcp2 cannot write, or until the limit of packets is reached. -/
def dueTurns : Nat → List StreamTurn → List StreamTurn
  | _, [] => []
  | count, turn :: turns =>
      if turn.call?.isNone then [turn]
      else
        match turn.nwrite with
        | .more => turn :: dueTurns count turns
        | .error | .nothing => [turn]
        | .packet =>
            if count + 1 ≥ maxPackets then [turn] else turn :: dueTurns (count + 1) turns

/-- The result names a stream but has no data: at most the FIN of the stream. -/
def StreamTurn.finOnly (turn : StreamTurn) : Prop :=
  match turn.result with
  | .error => False
  | .ok streamId _ vec => 0 ≤ streamId ∧ vec = []

/-- The documented results: no stream and no vectors, or a stream. -/
def StreamTurn.Documented (turn : StreamTurn) : Prop :=
  ∀ streamId fin vec, turn.result = .ok streamId fin vec → 0 ≤ streamId ∨ vec = []

/-- Every result that is due and names a stream has been passed on, in order. -/
def PassesOn (count : Nat) (turns : List StreamTurn) (calls : List FlushCall) : Prop :=
  calls.filter FlushCall.isWritev = (dueTurns count turns).filterMap StreamTurn.call?

/-- The first result is always due. -/
theorem dueTurns_cons (count : Nat) (turn : StreamTurn) (turns : List StreamTurn) :
    ∃ rest, dueTurns count (turn :: turns) = turn :: rest := by
  simp only [dueTurns]
  repeat' split
  all_goals exact ⟨_, rfl⟩

theorem not_passesOn_nil (count : Nat) {turn : StreamTurn} (turns : List StreamTurn)
    (h : turn.call?.isSome) : ¬ PassesOn count (turn :: turns) [] := by
  obtain ⟨call, hCall⟩ := Option.isSome_iff_exists.mp h
  obtain ⟨rest, hDue⟩ := dueTurns_cons count turn turns
  simp [PassesOn, hDue, hCall]

/-- The calls that follow a write pass nothing on. -/
theorem filter_afterWrite (callback : Bool) (streamId : Int) (nwrite : Written) (ndatalen : Int) :
    (afterWrite callback streamId nwrite ndatalen).filter FlushCall.isWritev = [] := by
  unfold afterWrite
  repeat' split
  all_goals rfl

theorem streamLoop_passesOn_iff (callback : Bool) (count : Nat) (turns : List StreamTurn)
    (hDocumented : ∀ turn ∈ turns, turn.Documented) :
    PassesOn count turns (streamLoop callback count turns).1 ↔
      ∀ turn ∈ dueTurns count turns, ¬ turn.finOnly := by
  induction turns generalizing count with
  | nil => simp [PassesOn, streamLoop, dueTurns]
  | cons turn turns ih =>
      have hTurn := hDocumented turn List.mem_cons_self
      have hTurns : ∀ turn ∈ turns, turn.Documented :=
        fun turn h => hDocumented turn (List.mem_cons_of_mem _ h)
      rcases turn with ⟨_ | ⟨streamId, fin, vec⟩, nwrite, ndatalen⟩
      · simp [PassesOn, streamLoop, dueTurns, StreamTurn.call?, StreamTurn.finOnly]
      · have hAfter := filter_afterWrite callback streamId nwrite ndatalen
        cases vec with
        | nil =>
            by_cases hId : 0 ≤ streamId
            · -- the loop ends here without a call
              have hCall : (StreamTurn.call? ⟨.ok streamId fin [], nwrite, ndatalen⟩).isSome := by
                simp [StreamTurn.call?, hId]
              obtain ⟨rest, hDue⟩ := dueTurns_cons count
                ⟨.ok streamId fin [], nwrite, ndatalen⟩ turns
              have hNot := not_passesOn_nil count turns hCall
              simp only [streamLoop, List.length_nil, if_true]
              refine ⟨fun h => absurd h hNot, fun h => absurd ?_ (h _ (hDue ▸ List.mem_cons_self))⟩
              exact ⟨hId, rfl⟩
            · simp [PassesOn, streamLoop, dueTurns, StreamTurn.call?, StreamTurn.finOnly, hId]
        | cons v vec =>
            have hId : 0 ≤ streamId := by
              rcases hTurn streamId fin (v :: vec) rfl with h | h
              · exact h
              · cases h
            have hData : ¬ StreamTurn.finOnly ⟨.ok streamId fin (v :: vec), nwrite, ndatalen⟩ := by
              simp [StreamTurn.finOnly]
            have hWrite : FlushCall.isWritev (.writevStream streamId fin (v :: vec)) = true := rfl
            cases nwrite with
            | error | nothing =>
                simp [PassesOn, streamLoop, dueTurns, StreamTurn.call?, hId, hData, hAfter, hWrite]
            | more =>
                have hRest := ih count hTurns
                simp only [PassesOn] at hRest ⊢
                simp [streamLoop, dueTurns, StreamTurn.call?, hId, hData, hAfter, hWrite, hRest]
            | packet =>
                have hRest := ih (count + 1) hTurns
                simp only [PassesOn] at hRest ⊢
                by_cases hLimit : count + 1 ≥ maxPackets
                · simp [streamLoop, dueTurns, StreamTurn.call?, hId, hData, hAfter, hWrite, hLimit]
                · simp [streamLoop, dueTurns, StreamTurn.call?, hId, hData, hAfter, hWrite, hLimit,
                    hRest]

/-- The results due in one call of `h3_packet_flush`. -/
def FlushInput.due (input : FlushInput) : List StreamTurn :=
  match handshakeLoop 0 input.handshake with
  | .packets count => if input.streamsBound then dueTurns count input.streams else []
  | _ => []

/-- `h3_packet_flush` passes every result that names a stream on to ngtcp2, and goes
on to the results that follow, exactly when none of them is a stream without data. -/
theorem packetFlush_passesOn_iff (input : FlushInput)
    (hDocumented : ∀ turn ∈ input.streams, turn.Documented) :
    (packetFlush input).1.filter FlushCall.isWritev = input.due.filterMap StreamTurn.call? ↔
      ∀ turn ∈ input.due, ¬ turn.finOnly := by
  have hLoop := fun count => streamLoop_passesOn_iff input.callback count input.streams hDocumented
  simp only [PassesOn] at hLoop
  unfold packetFlush FlushInput.due
  cases handshakeLoop 0 input.handshake with
  | wouldBlock | error => simp
  | packets count =>
      cases input.streamsBound with
      | false => simp
      | true => simpa using hLoop count

/-- Stream 0 ends with its FIN alone, and data of stream 4 is queued behind it. -/
def finThenData : FlushInput where
  callback := true
  handshake := []
  streamsBound := true
  streams := [⟨.ok 0 true [], .more, 0⟩, ⟨.ok 4 false [[1, 2, 3]], .packet, 3⟩,
    ⟨.ok (-1) false [], .nothing, 0⟩]
  remaining := []

theorem packetFlush_passesOn_finThenData :
    (∀ turn ∈ finThenData.streams, turn.Documented) ∧
      ((packetFlush finThenData).1.filter FlushCall.isWritev =
          finThenData.due.filterMap StreamTurn.call? ↔
        ∀ turn ∈ finThenData.due, ¬ turn.finOnly) := by
  have hDocumented : ∀ turn ∈ finThenData.streams, turn.Documented := by
    intro turn hTurn streamId fin vec hResult
    simp only [finThenData, List.mem_cons, List.not_mem_nil, or_false] at hTurn
    rcases hTurn with rfl | rfl | rfl <;> cases hResult <;> simp
  exact ⟨hDocumented, packetFlush_passesOn_iff finThenData hDocumented⟩

/-- Neither of the two is passed on. -/
theorem packetFlush_finThenData :
    ¬ ((packetFlush finThenData).1.filter FlushCall.isWritev =
      finThenData.due.filterMap StreamTurn.call?) := by
  decide

end PageCamel.Http3
