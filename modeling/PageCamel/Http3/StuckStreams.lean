import PageCamel.Http3.PacketFlush

/-!
Results of ngtcp2 that concern one stream only. `h3_packet_flush` tells
`NGTCP2_ERR_WRITE_MORE` from the other negative results but not these from each other:
each of them ends the stream loop, and nghttp3 is not told that the stream cannot go on.
-/

namespace PageCamel.Http3
open PageCamel.Lib

/-- The return value of `ngtcp2_conn_writev_stream`. -/
inductive WritevResult
  | writeMore
  | streamDataBlocked
  | streamShutWr
  | streamNotFound
  | otherError
  | nothing
  | packet
  deriving DecidableEq, Repr

/-- What the source distinguishes. -/
def WritevResult.written : WritevResult → Written
  | .writeMore => .more
  | .streamDataBlocked | .streamShutWr | .streamNotFound | .otherError => .error
  | .nothing => .nothing
  | .packet => .packet

/-- The result concerns the stream it is about and no other. -/
def WritevResult.streamLevel : WritevResult → Bool
  | .streamDataBlocked | .streamShutWr | .streamNotFound => true
  | _ => false

/-- Queued data as nghttp3 hands it out, and what ngtcp2 returns when it is offered. -/
structure Offer where
  streamId : Int
  fin : Bool
  vec : List Octets
  result : WritevResult
  ndatalen : Int
  deriving DecidableEq

namespace Offer

def turn (offer : Offer) : StreamTurn :=
  ⟨.ok offer.streamId offer.fin offer.vec, offer.result.written, offer.ndatalen⟩

def call (offer : Offer) : FlushCall :=
  .writevStream offer.streamId offer.fin offer.vec

def stuck (offer : Offer) : Bool := offer.result.streamLevel

end Offer

/-- The offers to be made: until there is no data, until ngtcp2 cannot write for the
connection, or until the limit of packets. A result about one stream does not end them. -/
def dueOffers : Nat → List Offer → List Offer
  | _, [] => []
  | count, offer :: offers =>
      if offer.vec.length = 0 then []
      else
        match offer.result with
        | .writeMore | .streamDataBlocked | .streamShutWr | .streamNotFound =>
            offer :: dueOffers count offers
        | .otherError | .nothing => [offer]
        | .packet =>
            if count + 1 ≥ maxPackets then [offer] else offer :: dueOffers (count + 1) offers

/-- The offers up to the first with a result about its stream only. -/
def uptoStuck : List Offer → List Offer
  | [] => []
  | offer :: offers => if offer.stuck then [offer] else offer :: uptoStuck offers

/-- The stream loop makes the offers that are due up to that one. -/
theorem streamLoop_offers (callback : Bool) (count : Nat) (offers : List Offer) :
    (streamLoop callback count (offers.map Offer.turn)).1.filter FlushCall.isWritev =
      (uptoStuck (dueOffers count offers)).map Offer.call := by
  induction offers generalizing count with
  | nil => rfl
  | cons offer offers ih =>
      obtain ⟨streamId, fin, vec, result, ndatalen⟩ := offer
      have hAfter := filter_afterWrite callback streamId result.written ndatalen
      by_cases hVec : vec.length = 0
      · simp [streamLoop, dueOffers, uptoStuck, Offer.turn, hVec]
      · have hWrite : FlushCall.isWritev (.writevStream streamId fin vec) = true := rfl
        cases result with
        | writeMore =>
            simp only [WritevResult.written] at hAfter
            simp [streamLoop, dueOffers, uptoStuck, Offer.turn, Offer.call, Offer.stuck,
              WritevResult.written, WritevResult.streamLevel, hVec, hAfter, hWrite, ih]
        | streamDataBlocked | streamShutWr | streamNotFound | otherError | nothing =>
            simp only [WritevResult.written] at hAfter
            simp [streamLoop, dueOffers, uptoStuck, Offer.turn, Offer.call, Offer.stuck,
              WritevResult.written, WritevResult.streamLevel, hVec, hAfter, hWrite]
        | packet =>
            simp only [WritevResult.written] at hAfter
            by_cases hLimit : count + 1 ≥ maxPackets
            · simp [streamLoop, dueOffers, uptoStuck, Offer.turn, Offer.call, Offer.stuck,
                WritevResult.written, WritevResult.streamLevel, hVec, hAfter, hWrite, hLimit]
            · simp [streamLoop, dueOffers, uptoStuck, Offer.turn, Offer.call, Offer.stuck,
                WritevResult.written, WritevResult.streamLevel, hVec, hAfter, hWrite, hLimit, ih]

/-- The call offers data of a stream other than this one. -/
def FlushCall.offersOther (streamId : Int) : FlushCall → Bool
  | .writevStream other _ _ => other ≠ streamId
  | _ => false

/-- Whenever a result that is due concerns one stream only, the data due of the other
streams is offered all the same, before and behind it. -/
def OffersOthers (due : List Offer) (calls : List FlushCall) : Prop :=
  ∀ offer ∈ due, offer.stuck →
    calls.filter (FlushCall.offersOther offer.streamId) =
      (due.filter fun other => other.streamId ≠ offer.streamId).map Offer.call

/-- No result about one stream has data of another behind it. -/
def StuckLast (due : List Offer) : Prop :=
  due.Pairwise fun offer later => offer.stuck → later.streamId = offer.streamId

theorem filter_offersOther (streamId : Int) (calls : List FlushCall) :
    calls.filter (FlushCall.offersOther streamId) =
      (calls.filter FlushCall.isWritev).filter (FlushCall.offersOther streamId) := by
  rw [List.filter_filter]
  apply List.filter_congr
  intro call _
  cases call <;> simp [FlushCall.offersOther, FlushCall.isWritev]

theorem filter_map_call (streamId : Int) (offers : List Offer) :
    (offers.map Offer.call).filter (FlushCall.offersOther streamId) =
      (offers.filter fun other => other.streamId ≠ streamId).map Offer.call := by
  rw [List.filter_map]
  rfl

theorem offersOthers_uptoStuck_iff (due : List Offer) :
    (∀ offer ∈ due, offer.stuck →
      ((uptoStuck due).map Offer.call).filter (FlushCall.offersOther offer.streamId) =
        (due.filter fun other => other.streamId ≠ offer.streamId).map Offer.call) ↔
      StuckLast due := by
  simp only [filter_map_call]
  induction due with
  | nil => simp [StuckLast]
  | cons offer due ih =>
      simp only [StuckLast, List.pairwise_cons] at ih ⊢
      by_cases hStuck : offer.stuck
      · simp only [uptoStuck, hStuck, if_true, forall_const]
        constructor
        · intro h
          have hSame : ∀ later ∈ due, later.streamId = offer.streamId := by
            have hNone := h offer List.mem_cons_self hStuck
            simpa using hNone.symm
          refine ⟨hSame, List.pairwise_of_forall_mem_list ?_⟩
          intro stuck hMem later hLater _
          rw [hSame stuck hMem, hSame later hLater]
        · rintro ⟨hSame, -⟩ stuck hMem -
          have hId : stuck.streamId = offer.streamId := by
            rcases List.mem_cons.mp hMem with rfl | hMem
            · rfl
            · exact hSame stuck hMem
          simpa [hId] using hSame
      · rw [← ih]
        have hSkip : ∀ stuck : Offer,
            ((uptoStuck (offer :: due)).filter fun other => other.streamId ≠ stuck.streamId).map
                Offer.call =
              ((offer :: due).filter fun other => other.streamId ≠ stuck.streamId).map Offer.call ↔
            ((uptoStuck due).filter fun other => other.streamId ≠ stuck.streamId).map Offer.call =
              (due.filter fun other => other.streamId ≠ stuck.streamId).map Offer.call := by
          intro stuck
          by_cases hId : offer.streamId = stuck.streamId <;> simp [uptoStuck, hStuck, hId]
        simp only [hSkip, hStuck, List.forall_mem_cons, Bool.false_eq_true, false_implies,
          implies_true, true_and]

/-- A call of `h3_packet_flush` in which nghttp3 hands out these data. -/
def FlushInput.withOffers (input : FlushInput) (offers : List Offer) : FlushInput :=
  { input with streams := offers.map Offer.turn }

/-- The offers due in the call. -/
def FlushInput.dueOffers (input : FlushInput) (offers : List Offer) : List Offer :=
  match handshakeLoop 0 input.handshake with
  | .packets count => if input.streamsBound then Http3.dueOffers count offers else []
  | _ => []

theorem packetFlush_offers (input : FlushInput) (offers : List Offer) :
    (packetFlush (input.withOffers offers)).1.filter FlushCall.isWritev =
      (uptoStuck (input.dueOffers offers)).map Offer.call := by
  have hLoop := fun count => streamLoop_offers input.callback count offers
  unfold packetFlush FlushInput.dueOffers FlushInput.withOffers
  cases handshakeLoop 0 input.handshake with
  | wouldBlock | error => rfl
  | packets count =>
      cases input.streamsBound with
      | false => rfl
      | true => simpa using hLoop count

/-- `h3_packet_flush` offers the data of the other streams in spite of a result about
one stream exactly when there are none behind it. -/
theorem packetFlush_offersOthers_iff (input : FlushInput) (offers : List Offer) :
    OffersOthers (input.dueOffers offers) (packetFlush (input.withOffers offers)).1 ↔
      StuckLast (input.dueOffers offers) := by
  rw [← offersOthers_uptoStuck_iff]
  simp only [OffersOthers]
  simp only [filter_offersOther _ (packetFlush _).1, packetFlush_offers]

/-- Stream 0 is blocked by flow control, and data of stream 4 is queued behind it. -/
def blockedThenData : List Offer :=
  [⟨0, false, [[1]], .streamDataBlocked, -1⟩, ⟨4, false, [[2]], .packet, 1⟩]

/-- The data of stream 4 is not offered. -/
theorem packetFlush_blockedThenData :
    ¬ OffersOthers (FlushInput.dueOffers ⟨true, [], true, [], []⟩ blockedThenData)
      (packetFlush (FlushInput.withOffers ⟨true, [], true, [], []⟩ blockedThenData)).1 := by
  intro h
  have hBlocked := h ⟨0, false, [[1]], .streamDataBlocked, -1⟩ (by decide) rfl
  revert hBlocked
  decide

end PageCamel.Http3
