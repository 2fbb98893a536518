import PageCamel.Http2.StateMachine
import PageCamel.Lib.Forest
import PageCamel.Lib.Runs

/-!
The dependencies of the streams (`stream_reprio`). They are a forest below 0 in every state:
a stream is never hung below itself, so the loop that looks for it among the streams above
its new dependency comes to an end.
-/

namespace PageCamel.Http2
open PageCamel.Lib

namespace Connection

variable {con con' con'' : Connection} {sid dep : Nat}

/-- `$s->{$sid}->{stream_dep}`. -/
def parent (con : Connection) (sid : Nat) : Nat := (con.get sid Stream.streamDep).getD 0

/-- The loop `while ( $sid = $s->{$sid}->{stream_dep} )` ends, by its condition or by `last`. -/
inductive WalkEnds (con : Connection) (streamId : Nat) : Nat → Prop
  | top {sid : Nat} : con.parent sid = 0 → WalkEnds con streamId sid
  | found {sid : Nat} : con.parent sid = streamId → WalkEnds con streamId sid
  | next {sid : Nat} : WalkEnds con streamId (con.parent sid) → WalkEnds con streamId sid

/-- The streams are a forest, and each depends on one that exists. -/
structure Planted (con : Connection) : Prop where
  rooted : Forest.Rooted 0 con.parent
  within : ∀ sid, con.parent sid = 0 ∨ (con.stream? (con.parent sid)).isSome

theorem Planted.walkEnds (h : con.Planted) (streamId sid : Nat) : con.WalkEnds streamId sid := by
  have hUp (a : Nat) (ha : Forest.Climbs 0 con.parent a) :
      a = 0 ∨ con.WalkEnds streamId a := by
    induction ha with
    | root => exact .inl rfl
    | up _ ih =>
        rcases ih with hTop | hNext
        · exact .inr (.top hTop)
        · exact .inr (.next hNext)
  rcases hUp _ (h.rooted (con.parent sid)) with hTop | hNext
  · exact .top hTop
  · exact .next hNext

/-! ### The walk -/

theorem dependsOn_of_way {streamId : Nat} {nodes : List Nat}
    (h : Forest.Way 0 con.parent (con.parent sid) nodes) {fuel : Nat} (hFuel : nodes.length < fuel) :
    con.dependsOn streamId fuel sid = decide (streamId ∈ nodes) := by
  induction nodes generalizing sid fuel with
  | nil =>
      cases fuel with
      | zero => cases hFuel
      | succ fuel =>
          have hTop : (con.get sid Stream.streamDep).getD 0 = 0 := by
            cases h' : con.parent sid with
            | zero => exact h'
            | succ n => rw [h'] at h; cases h
          rw [dependsOn, hTop]
          rfl
  | cons node nodes ih =>
      cases fuel with
      | zero => cases hFuel
      | succ fuel =>
          generalize hParent : con.parent sid = up at h
          cases h with
          | up hRoot hWay =>
              have hRest := ih hWay (Nat.lt_of_succ_lt_succ hFuel)
              have hUp : (con.get sid Stream.streamDep).getD 0 = node := hParent
              rw [dependsOn, hUp]
              split
              · exact absurd rfl hRoot
              · rw [hRest]
                simp [eq_comm]

theorem dependsOn_zero (con : Connection) (fuel sid : Nat) : con.dependsOn 0 fuel sid = false := by
  induction fuel generalizing sid with
  | zero => rfl
  | succ fuel ih =>
      rw [dependsOn]
      split
      · rfl
      · next hRoot => rw [ih, Bool.or_false, decide_eq_false fun hZero => hRoot hZero]

/-- The streams on the way up are no more than there are streams. -/
theorem Planted.way_length (h : con.Planted) {nodes : List Nat}
    (hWay : Forest.Way 0 con.parent sid nodes) (hs : (con.stream? sid).isSome) :
    nodes.length ≤ con.streams.keys.length := by
  have hExist (a : Nat) (hAbove : Relation.ReflTransGen (Forest.IsParent 0 con.parent) a sid)
      (ha : a ≠ 0) : (con.stream? a).isSome := by
    induction hAbove using Relation.ReflTransGen.head_induction_on with
    | refl => exact hs
    | head hParent _ _ =>
        obtain ⟨-, rfl⟩ := hParent
        exact (h.within _).resolve_left ha
  have hSubset : nodes ⊆ con.streams.keys := fun a hMem => by
    obtain ⟨hNe, hAbove⟩ := hWay.mem_iff.mp hMem
    have hSome := hExist a hAbove hNe
    rw [stream?, AList.lookup_isSome] at hSome
    exact hSome
  exact (List.subperm_of_subset (hWay.nodup h.rooted) hSubset).length_le

/-- The walk meets the streams above the one it starts from, with any number of turns from
the number of streams on. -/
theorem Planted.dependsOn_iff (h : con.Planted) {streamId : Nat} (hStream : streamId ≠ 0)
    (hs : (con.stream? sid).isSome) (hSid : sid ≠ 0) {fuel : Nat}
    (hFuel : con.streams.keys.length ≤ fuel) :
    con.dependsOn streamId fuel sid = true ↔
      Relation.TransGen (Forest.IsParent 0 con.parent) streamId sid := by
  obtain ⟨nodes, hWay⟩ := (h.rooted (con.parent sid)).way
  have hLength := h.way_length (.up hSid hWay) hs
  rw [dependsOn_of_way hWay (hLength.trans hFuel), decide_eq_true_iff, hWay.mem_iff]
  constructor
  · exact fun ⟨_, hAbove⟩ => Relation.TransGen.tail' hAbove ⟨hSid, rfl⟩
  · intro hAbove
    obtain ⟨up, hUp, -, rfl⟩ := Relation.TransGen.tail'_iff.mp hAbove
    exact ⟨hStream, hUp⟩

/-! ### Changes -/

theorem parent_setStream (con : Connection) (sid : Nat) (s : Stream) :
    (con.setStream sid s).parent = Function.update con.parent sid (s.streamDep.getD 0) := by
  funext other
  rw [parent, get, stream?_setStream, Function.update_apply]
  split <;> rfl

theorem parent_setStreamDep (hs : (con.stream? sid).isSome) (dep : Nat) :
    (con.setStreamDep sid dep).parent = Function.update con.parent sid dep := by
  obtain ⟨s, hs⟩ := Option.isSome_iff_exists.mp hs
  rw [setStreamDep, modifyStream_of_some hs, parent_setStream]
  rfl

theorem isSome_setStreamDep (con : Connection) (sid dep other : Nat) :
    ((con.setStreamDep sid dep).stream? other).isSome = (con.stream? other).isSome :=
  isSome_stream?_modifyStream ..

/-- The dependencies and the streams are the same. -/
def SameTree (con con' : Connection) : Prop :=
  con'.parent = con.parent ∧ ∀ sid, (con.stream? sid).isSome → (con'.stream? sid).isSome

theorem SameTree.refl (con : Connection) : SameTree con con := ⟨rfl, fun _ => id⟩

theorem SameTree.trans (h : SameTree con con') (h' : SameTree con' con'') : SameTree con con'' :=
  ⟨h'.1.trans h.1, fun sid hs => h'.2 sid (h.2 sid hs)⟩

theorem SameTree.planted (h : SameTree con con') (hCon : con.Planted) : con'.Planted := by
  obtain ⟨hParent, hStreams⟩ := h
  refine ⟨hParent ▸ hCon.rooted, fun sid => ?_⟩
  rw [hParent]
  exact (hCon.within sid).imp_right (hStreams _)

theorem sameTree_of_stream? (h : ∀ sid, con'.stream? sid = con.stream? sid) : SameTree con con' := by
  refine ⟨funext fun sid => ?_, fun sid hs => ?_⟩
  · rw [parent, get, h, parent, get]
  · rwa [h]

theorem sameTree_modifyStream {f : Stream → Stream} (hDep : ∀ s, (f s).streamDep = s.streamDep)
    (con : Connection) (sid : Nat) : SameTree con (con.modifyStream sid f) := by
  refine ⟨funext fun other => ?_, fun other hs => ?_⟩
  · rw [parent, get_modifyStream hDep, parent]
  · rwa [isSome_stream?_modifyStream]

theorem sameTree_setState (con : Connection) (sid : Nat) (new : StreamState) :
    SameTree con (con.setState sid new) := by
  rw [setState]
  split
  · exact .refl con
  · next s hs =>
      have hState := sameTree_modifyStream (f := fun s => { s with state := some new })
        (fun _ => rfl) con sid
      rw [modifyStream_of_some hs] at hState
      have hCallbacks : SameTree (con.setStream sid { s with state := some new })
          ((con.setStream sid { s with state := some new }).runCallbacks sid new s.cb) :=
        sameTree_of_stream? fun other => stream?_runCallbacks ..
      refine (hState.trans hCallbacks).trans ?_
      dsimp only
      split
      · have hCount := sameTree_of_stream? (fun other => stream?_countClosed
          ((con.setStream sid { s with state := some new }).runCallbacks sid new s.cb) sid other)
        exact hCount.trans (sameTree_modifyStream (f := Stream.cleaned) (fun _ => rfl) _ sid)
      · exact .refl _

theorem sameTree_setPendingState (con : Connection) (sid : Nat) (pending : Option StreamState) :
    SameTree con (con.setPendingState sid pending) := by
  rw [setPendingState]
  split
  · exact .refl con
  · next s hs =>
      have hPending := sameTree_modifyStream (f := Stream.setPending pending) (fun _ => rfl) con sid
      rw [modifyStream_of_some hs] at hPending
      exact hPending.trans (sameTree_of_stream? fun _ => rfl)

theorem respects_sameTree : Respects SameTree where
  refl := .refl
  trans := .trans
  vivify con sid := by
    refine ⟨funext fun other => congrArg (·.getD 0) (get_vivify rfl con sid other), fun other hs => ?_⟩
    obtain ⟨s, hs⟩ := Option.isSome_iff_exists.mp hs
    rw [stream?_vivify hs]
    rfl
  setState := sameTree_setState
  setPendingState := sameTree_setPendingState
  clearPromised := sameTree_modifyStream (fun _ => rfl)
  setError con code := sameTree_of_stream? fun sid => stream?_setError con code sid

theorem sameTree_streamError (con : Connection) (sid : Nat) (code : ErrorCode) :
    SameTree con (con.streamError sid code) := by
  have hReset := sameTree_modifyStream (f := Stream.setReset code.code) (fun _ => rfl) con sid
  refine hReset.trans ?_
  have hPush : SameTree (con.modifyStream sid (Stream.setReset code.code))
      ((con.modifyStream sid (Stream.setReset code.code)).push
        ⟨.rstStream, 0, sid, pack32 code.code⟩) :=
    sameTree_of_stream? fun _ => rfl
  exact hPush.trans (respects_sameTree.stateMachine ..)

/-! ### Streams that are made -/

/-- A stream that is made depends on no other. -/
theorem Planted.setStream (h : con.Planted) (sid : Nat) {s : Stream} (hDep : s.streamDep.getD 0 = 0) :
    (con.setStream sid s).Planted := by
  constructor
  · rw [parent_setStream, hDep]
    exact h.rooted.detach sid
  · intro other
    rw [parent_setStream, hDep, Function.update_apply]
    split
    · exact .inl rfl
    · rw [stream?_setStream]
      refine (h.within other).imp_right fun hs => ?_
      split
      · rfl
      · exact hs

theorem Planted.newStream (h : con.Planted) : con.newStream.1.Planted := by
  rw [Connection.newStream]
  split
  · exact h
  · have hLast (lastStream : Nat) : Connection.Planted { con with lastStream } := ⟨h.rooted, h.within⟩
    exact (hLast _).setStream _ rfl

theorem Planted.newPeerStream (h : con.Planted) (sid : Nat) : (con.newPeerStream sid).1.Planted := by
  rw [Connection.newPeerStream]
  split
  · exact (respects_sameTree.setError con _).planted h
  · split
    · have hLast : SameTree con (con.setLastPeerStream sid) := sameTree_of_stream? fun _ => rfl
      exact (hLast.trans (sameTree_streamError ..)).planted h
    · have hMade := h.setStream sid
        (s := { con.newStreamEntry with cb := [(.opened, .opened), (.halfClosed, .halfClosed)] }) rfl
      exact ⟨hMade.rooted, hMade.within⟩

/-! ### New dependencies -/

theorem parent_changeDep (h : con.Planted) (hs : (con.stream? sid).isSome)
    (hDep : dep = 0 ∨ (con.stream? dep).isSome) (hSid : sid ≠ 0) (hNe : con.parent sid ≠ dep) :
    (con.changeDep sid dep).parent = Forest.hang 0 con.parent sid dep := by
  have hOld : ¬ (con.get sid Stream.streamDep).getD 0 = dep := hNe
  rw [changeDep]
  rw [if_neg hOld, Forest.hang]
  rcases eq_or_ne dep 0 with rfl | hPos
  · rw [if_neg (fun hWalk => hWalk.1 rfl), if_neg, parent_setStreamDep hs]
    intro hAbove
    obtain ⟨_, -, hParent⟩ := Relation.TransGen.tail'_iff.mp hAbove
    exact hParent.1 rfl
  · have hDep := hDep.resolve_left hPos
    have hWalk := h.dependsOn_iff hSid hDep hPos le_rfl
    by_cases hAbove : Relation.TransGen (Forest.IsParent 0 con.parent) sid dep
    · rw [if_pos ⟨hPos, hWalk.mpr hAbove⟩, if_pos hAbove, parent_setStreamDep,
        parent_setStreamDep hDep]
      · rfl
      · rwa [isSome_setStreamDep]
    · rw [if_neg (fun hBoth => hAbove (hWalk.mp hBoth.2)), if_neg hAbove, parent_setStreamDep hs]

theorem isSome_changeDep (con : Connection) (sid dep other : Nat) :
    ((con.changeDep sid dep).stream? other).isSome = (con.stream? other).isSome := by
  rw [changeDep]
  split
  · rfl
  · split
    · rw [isSome_setStreamDep, isSome_setStreamDep]
    · exact isSome_setStreamDep ..

theorem within_setStreamDep
    (h : ∀ other, con.parent other = 0 ∨ (con.stream? (con.parent other)).isSome)
    (hDep : dep = 0 ∨ (con.stream? dep).isSome) (sid other : Nat) :
    (con.setStreamDep sid dep).parent other = 0 ∨
      ((con.setStreamDep sid dep).stream? ((con.setStreamDep sid dep).parent other)).isSome := by
  rw [isSome_setStreamDep]
  cases hs : con.stream? sid with
  | none =>
      rw [setStreamDep, modifyStream_of_none hs]
      exact h other
  | some s =>
      rw [parent_setStreamDep (Option.isSome_iff_exists.mpr ⟨s, hs⟩), Function.update_apply]
      split
      · exact hDep
      · exact h other

theorem within_changeDep
    (h : ∀ other, con.parent other = 0 ∨ (con.stream? (con.parent other)).isSome)
    (hDep : dep = 0 ∨ (con.stream? dep).isSome) (sid other : Nat) :
    (con.changeDep sid dep).parent other = 0 ∨
      ((con.changeDep sid dep).stream? ((con.changeDep sid dep).parent other)).isSome := by
  rw [changeDep]
  split
  · exact h other
  · split
    · have hPlace := within_setStreamDep h (h sid) dep
      refine within_setStreamDep hPlace ?_ sid other
      rwa [isSome_setStreamDep]
    · exact within_setStreamDep h hDep sid other

/-- The entry of stream 0, if there is one, is no node of the forest. -/
theorem parent_changeDep_zero (con : Connection) (dep other : Nat) (hOther : other ≠ 0) :
    (con.changeDep 0 dep).parent other = con.parent other := by
  have hSet (dep : Nat) : (con.setStreamDep 0 dep).parent other = con.parent other := by
    cases hs : con.stream? 0 with
    | none => rw [setStreamDep, modifyStream_of_none hs]
    | some s =>
        rw [parent_setStreamDep (Option.isSome_iff_exists.mpr ⟨s, hs⟩), Function.update_of_ne hOther]
  rw [changeDep]
  split
  · rfl
  · split
    · next hBoth =>
        rw [dependsOn_zero] at hBoth
        exact absurd hBoth.2 Bool.false_ne_true
    · exact hSet dep

theorem parent_changeDep_self (hs : (con.stream? sid).isSome) :
    (con.changeDep sid dep).parent sid = dep := by
  rw [changeDep]
  split
  · next hSame => exact hSame
  · split
    · rw [parent_setStreamDep, Function.update_self]
      rwa [isSome_setStreamDep]
    · rw [parent_setStreamDep hs, Function.update_self]

theorem Planted.changeDep (h : con.Planted) (hs : (con.stream? sid).isSome)
    (hDep : dep = 0 ∨ (con.stream? dep).isSome) (hNe : sid ≠ dep) : (con.changeDep sid dep).Planted := by
  refine ⟨?_, within_changeDep h.within hDep sid⟩
  by_cases hOld : con.parent sid = dep
  · have hSame : con.changeDep sid dep = con := if_pos hOld
    rw [hSame]
    exact h.rooted
  · rcases eq_or_ne sid 0 with rfl | hSid
    · exact h.rooted.congr (parent_changeDep_zero con dep)
    · rw [parent_changeDep h hs hDep hSid hOld]
      exact h.rooted.hang hSid hNe

/-! ### Exclusive dependencies -/

/-- Some streams that depended on `dep` depend on `sid` now. -/
structure Adopts (sid dep : Nat) (con con' : Connection) : Prop where
  own : con'.parent sid = con.parent sid
  others : ∀ other, con'.parent other = con.parent other ∨
    con.parent other = dep ∧ con'.parent other = sid
  streams : ∀ other, (con'.stream? other).isSome = (con.stream? other).isSome

theorem Adopts.refl (sid dep : Nat) (con : Connection) : Adopts sid dep con con :=
  ⟨rfl, fun _ => .inl rfl, fun _ => rfl⟩

theorem Adopts.trans (h : Adopts sid dep con con') (h' : Adopts sid dep con' con'') :
    Adopts sid dep con con'' := by
  refine ⟨h'.own.trans h.own, fun other => ?_, fun other => (h'.streams other).trans (h.streams other)⟩
  rcases h.others other with hSame | ⟨hWas, hIs⟩
  · rw [← hSame]
    exact h'.others other
  · rcases h'.others other with hSame' | ⟨-, hIs'⟩
    · exact .inr ⟨hWas, hSame'.trans hIs⟩
    · exact .inr ⟨hWas, hIs'⟩

theorem adopts_setStreamDep {other : Nat} (hDep : con.parent other = dep) (hOther : other ≠ sid) :
    Adopts sid dep con (con.setStreamDep other sid) := by
  cases hs : con.stream? other with
  | none =>
      rw [setStreamDep, modifyStream_of_none hs]
      exact .refl sid dep con
  | some s =>
      have hParent := parent_setStreamDep (Option.isSome_iff_exists.mpr ⟨s, hs⟩) sid
      refine ⟨?_, fun node => ?_, isSome_setStreamDep con other sid⟩
      · rw [hParent, Function.update_of_ne hOther.symm]
      · rw [hParent, Function.update_apply]
        split
        · next hNode => exact .inr ⟨hNode ▸ hDep, rfl⟩
        · exact .inl rfl

theorem adopts_takeSiblings (con : Connection) (sid dep : Nat) :
    Adopts sid dep con (con.takeSiblings sid dep) := by
  rw [takeSiblings]
  generalize con.streams.keys = keys
  induction keys generalizing con with
  | nil => exact .refl sid dep con
  | cons other keys ih =>
      rw [List.foldl_cons]
      split
      · exact ih con
      · next hSibling =>
          obtain ⟨hDep, hOther⟩ := not_or.mp hSibling
          exact (adopts_setStreamDep (not_not.mp hDep) hOther).trans (ih _)

theorem Adopts.planted (h : Adopts sid dep con con') (hCon : con.Planted)
    (hs : (con.stream? sid).isSome) (hDep : con.parent sid = dep) : con'.Planted := by
  constructor
  · refine hCon.rooted.adopt h.own fun other => ?_
    rw [hDep]
    exact h.others other
  · intro other
    rw [h.streams]
    rcases h.others other with hSame | ⟨-, hIs⟩
    · rw [hSame]
      exact hCon.within other
    · rw [hIs]
      exact .inr hs

theorem Planted.streamReprio (h : con.Planted) (sid : Nat) (exclusive : Bool) (dep : Nat) :
    (con.streamReprio sid exclusive dep).1.Planted := by
  rw [Connection.streamReprio]
  split
  · exact h
  · next hGuard =>
      simp only [not_or, Option.isNone_iff_eq_none, not_and] at hGuard
      obtain ⟨hs, hDep, hNe⟩ := hGuard
      have hs : (con.stream? sid).isSome := Option.isSome_iff_ne_none.mpr hs
      have hDep : dep = 0 ∨ (con.stream? dep).isSome :=
        or_iff_not_imp_left.mpr fun hPos => Option.isSome_iff_ne_none.mpr (hDep hPos)
      have hChange := h.changeDep hs hDep hNe
      cases exclusive with
      | false => exact hChange
      | true =>
          refine (adopts_takeSiblings _ sid dep).planted hChange ?_ (parent_changeDep_self hs)
          rwa [isSome_changeDep]

end Connection

/-! ### Sequences of calls -/

/-- A stream is made, by the connection, for the peer, or by the state machine when it reads the
state of one that does not exist; or a stream gets a new dependency. -/
inductive TreeEvent
  | newStream
  | newPeerStream (sid : Nat)
  | vivify (sid : Nat)
  | streamReprio (sid : Nat) (exclusive : Bool) (streamDep : Nat)

namespace Connection

def treeStep (con : Connection) : TreeEvent → Connection
  | .newStream => con.newStream.1
  | .newPeerStream sid => (con.newPeerStream sid).1
  | .vivify sid => con.vivify sid
  | .streamReprio sid exclusive streamDep => (con.streamReprio sid exclusive streamDep).1

theorem Planted.treeStep {con : Connection} (h : con.Planted) (event : TreeEvent) :
    (con.treeStep event).Planted := by
  cases event with
  | newStream => exact h.newStream
  | newPeerStream sid => exact h.newPeerStream sid
  | vivify sid => exact (respects_sameTree.vivify con sid).planted h
  | streamReprio sid exclusive streamDep => exact h.streamReprio sid exclusive streamDep

theorem planted_new (type : Endpoint) (given : Settings) : (Connection.new type given).Planted := by
  have hNone (sid : Nat) : (Connection.new type given).parent sid = 0 := rfl
  exact ⟨fun sid => .up ((hNone sid).symm ▸ .root), fun sid => .inl (hNone sid)⟩

/-- Whatever streams are made and given new dependencies, in any order, no stream comes to
depend on itself, all ways up end at 0, and so does the loop in any call of `stream_reprio`. -/
theorem dependencies_acyclic (type : Endpoint) (given : Settings) (events : List TreeEvent) :
    let con := runEvents treeStep (Connection.new type given) events
    (∀ sid, ¬ Relation.TransGen (Forest.IsParent 0 con.parent) sid sid) ∧
      Forest.Rooted 0 con.parent ∧ ∀ streamId sid, con.WalkEnds streamId sid := by
  have hMeets : Meets treeStep (fun _ _ => True) (Connection.new type given) events :=
    .of_forall (fun _ _ => trivial) events _
  have hPlanted := hMeets.invariant (planted_new type given) fun con event h _ => h.treeStep event
  exact ⟨hPlanted.rooted.acyclic, hPlanted.rooted, hPlanted.walkEnds⟩

/-- A stream goes below one of its own descendants. -/
example :
    let con := runEvents treeStep (Connection.new .server ∅)
      [.newPeerStream 1, .newPeerStream 3, .newPeerStream 5, .streamReprio 1 true 0, .newPeerStream 7,
        .streamReprio 7 false 1, .newPeerStream 9, .streamReprio 9 false 7, .streamReprio 1 false 9]
    [1, 3, 5, 7, 9].map con.parent = [9, 1, 1, 1, 0] := by decide +kernel

end Connection
end PageCamel.Http2
