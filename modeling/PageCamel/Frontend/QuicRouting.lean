import Mathlib.Logic.Function.Basic
import PageCamel.Frontend.QuicPackets
import PageCamel.Lib.Runs

/-!
The table that routes QUIC datagrams to the handlers of their connections. A handler is
entered under the two IDs its client chose and under the one ID the front end chose, in one
table for all connections; the IDs that `ngtcp2` asks for later are never entered.
-/

namespace PageCamel.Frontend.Quic
open PageCamel.Lib

/-- A handler, with the IDs it is entered under. -/
structure Connection where
  client_dcid : Octets
  client_scid : Octets
  server_scid : Octets
  /-- It has not been cleaned up. -/
  live : Bool := true
  /-- The IDs the client may use: the first ones and those issued since, but for those it
  has retired. -/
  current : List Octets

/-- The handlers are numbered in the order they were made. -/
structure FrontEnd where
  quicConnections : Routes := fun _ => none
  handlers : List Connection := []

/-- The IDs of a connection, in the order in which they are stored. -/
def Connection.ids (c : Connection) : List Octets := [c.client_dcid, c.server_scid, c.client_scid]

/-- `get_connection_ids`: the same IDs, from the configuration of the handler. -/
def Connection.get_connection_ids (c : Connection) : List Octets :=
  [c.client_scid, c.server_scid, c.client_dcid]

def Routes.store (quicConnections : Routes) (ids : List Octets) (handler : Nat) : Routes :=
  ids.foldl (fun routes id => Function.update routes id (some handler)) quicConnections

def Routes.remove (quicConnections : Routes) (ids : List Octets) : Routes :=
  ids.foldl (fun routes id => Function.update routes id none) quicConnections

def Connection.made (client_dcid client_scid server_scid : Octets) : Connection :=
  { client_dcid, client_scid, server_scid, current := [client_dcid, server_scid, client_scid] }

/-- The end of `handleNewQUICConnection`, when the handler was made. -/
def FrontEnd.register (s : FrontEnd) (client_dcid client_scid server_scid : Octets) : FrontEnd :=
  let handler := Connection.made client_dcid client_scid server_scid
  { quicConnections := s.quicConnections.store handler.ids s.handlers.length
    handlers := s.handlers ++ [handler] }

def FrontEnd.cleanupQUICConnection (s : FrontEnd) (handler : Nat) : FrontEnd :=
  match s.handlers[handler]? with
  | none => s
  | some c =>
      { quicConnections := (s.quicConnections.remove c.ids).remove c.get_connection_ids
        handlers := s.handlers.set handler { c with live := false } }

/-- A datagram, and what the handler and the libraries make of it. -/
structure Arrival where
  packet : Octets
  random : Fin 8 → UInt8
  /-- The new handler could be initialised, and its connection is not closing. -/
  initialized : Bool
  /-- The handler failed or is closing, where the caller looks at that. -/
  closes : Bool

def FrontEnd.receive (config : ServerConfig) (s : FrontEnd) (a : Arrival) : FrontEnd :=
  match dispatch s.quicConnections a.packet with
  | .dropped => s
  | .existing handler => if a.closes then s.cleanupQUICConnection handler else s
  | .newConnection client_dcid client_scid =>
      match handleNewQUICConnection config a.random client_dcid client_scid with
      | none => s
      | some ids =>
          if a.initialized then s.register client_dcid client_scid ids.scid else s

/-- The loops of `handleQUICTimeouts` and `cleanupClosedQUICConnections` over the keys of the
table: every handler is looked at once, and what has gone is cleaned up. -/
def FrontEnd.sweep (gone : Nat → Bool) :
    FrontEnd → List Nat → List Octets → FrontEnd × List Octets
  | s, _, [] => (s, [])
  | s, seen, connId :: keys =>
      match s.quicConnections connId with
      | none => s.sweep gone seen keys
      | some handler =>
          if handler ∈ seen then s.sweep gone seen keys
          else if gone handler then
            let (s, toRemove) :=
              (s.cleanupQUICConnection handler).sweep gone (handler :: seen) keys
            (s, connId :: toRemove)
          else s.sweep gone (handler :: seen) keys

/-- A connection has gone when its time was up and it is closing now. -/
def FrontEnd.handleQUICTimeouts (s : FrontEnd) (gone : Nat → Bool) (keys : List Octets) :
    FrontEnd :=
  (s.sweep gone [] keys).1

def FrontEnd.cleanupClosedQUICConnections (s : FrontEnd) (is_closing : Nat → Bool)
    (keys : List Octets) : FrontEnd :=
  let (s, toRemove) := s.sweep is_closing [] keys
  { s with quicConnections := s.quicConnections.remove toRemove }

/-- `quic_get_new_connection_id_callback`: it makes up an ID, and nobody else is told. -/
def FrontEnd.issue (s : FrontEnd) (handler : Nat) (cid : Octets) : FrontEnd :=
  { s with handlers := s.handlers.modify handler fun c => { c with current := cid :: c.current } }

/-- The client has retired an ID; no callback is set for that. -/
def FrontEnd.retire (s : FrontEnd) (handler : Nat) (cid : Octets) : FrontEnd :=
  { s with
    handlers := s.handlers.modify handler fun c =>
      { c with current := c.current.filter (· ≠ cid) } }

inductive Event
  | datagram (a : Arrival)
  /-- One connection that has gone is found by one of its keys. -/
  | gone (connId : Octets)
  | newConnectionId (handler : Nat) (cid : Octets) (short : cid.length ≤ NGTCP2_MAX_CIDLEN)
  | retireConnectionId (handler : Nat) (cid : Octets)

def FrontEnd.step (config : ServerConfig) (s : FrontEnd) : Event → FrontEnd
  | .datagram a => s.receive config a
  | .gone connId =>
      match s.quicConnections connId with
      | none => s
      | some handler => s.cleanupQUICConnection handler
  | .newConnectionId handler cid _ => s.issue handler cid
  | .retireConnectionId handler cid => s.retire handler cid

/-- What a hash has after the same has been done for several keys. -/
theorem foldl_update (found : Option Nat) (quicConnections : Routes) (ids : List Octets) (id : Octets) :
    ids.foldl (fun routes id' => Function.update routes id' found) quicConnections id =
      if id ∈ ids then found else quicConnections id := by
  induction ids generalizing quicConnections with
  | nil => rfl
  | cons id' ids ih =>
      rw [List.foldl_cons, ih, Function.update_apply]
      by_cases hRest : id ∈ ids
      · rw [if_pos hRest, if_pos (List.mem_cons_of_mem _ hRest)]
      · rw [if_neg hRest]
        by_cases hSame : id = id'
        · rw [if_pos hSame, hSame, if_pos List.mem_cons_self]
        · rw [if_neg hSame, if_neg (by rw [List.mem_cons, not_or]; exact ⟨hSame, hRest⟩)]

theorem store_apply (quicConnections : Routes) (ids : List Octets) (handler : Nat) (id : Octets) :
    quicConnections.store ids handler id =
      if id ∈ ids then some handler else quicConnections id := foldl_update ..

theorem remove_apply (quicConnections : Routes) (ids : List Octets) (id : Octets) :
    quicConnections.remove ids id = if id ∈ ids then none else quicConnections id := foldl_update ..

theorem mem_get_connection_ids (c : Connection) (id : Octets) :
    id ∈ c.get_connection_ids ↔ id ∈ c.ids := by
  simp only [Connection.get_connection_ids, Connection.ids, List.mem_cons, List.not_mem_nil,
    or_false]
  tauto

theorem register_apply (s : FrontEnd) (client_dcid client_scid server_scid id : Octets) :
    (s.register client_dcid client_scid server_scid).quicConnections id =
      if id ∈ [client_dcid, server_scid, client_scid] then some s.handlers.length
      else s.quicConnections id :=
  store_apply _ _ _ _

theorem cleanup_apply {s : FrontEnd} {handler : Nat} {c : Connection}
    (h : s.handlers[handler]? = some c) (id : Octets) :
    (s.cleanupQUICConnection handler).quicConnections id =
      if id ∈ c.ids then none else s.quicConnections id := by
  rw [FrontEnd.cleanupQUICConnection, h]
  dsimp only
  rw [remove_apply, remove_apply]
  by_cases hId : id ∈ c.ids
  · rw [if_pos hId, if_pos ((mem_get_connection_ids c id).mpr hId)]
  · rw [if_neg hId, if_neg (hId ∘ (mem_get_connection_ids c id).mp)]

theorem cleanup_handlers {s : FrontEnd} {handler : Nat} {c : Connection}
    (h : s.handlers[handler]? = some c) (n : Nat) :
    (s.cleanupQUICConnection handler).handlers[n]? =
      if n = handler then some { c with live := false } else s.handlers[n]? := by
  rw [FrontEnd.cleanupQUICConnection, h]
  dsimp only
  have hLength := (List.getElem?_eq_some_iff.mp h).1
  by_cases hSame : n = handler
  · rw [if_pos hSame, hSame, List.getElem?_set_self hLength]
  · rw [if_neg hSame, List.getElem?_set_ne (Ne.symm hSame)]

/-! ### Entries of the live connections -/

section
variable (tracked : Connection → List Octets)

/-- The IDs of every live connection that are tracked lead to its handler. -/
def FrontEnd.Entered (s : FrontEnd) : Prop :=
  ∀ n c, s.handlers[n]? = some c → c.live = true → ∀ id ∈ tracked c,
    s.quicConnections id = some n

/-- None of these IDs is tracked for another live connection. -/
def FrontEnd.Spares (s : FrontEnd) (handler : Nat) (ids : List Octets) : Prop :=
  ∀ n c, n ≠ handler → s.handlers[n]? = some c → c.live = true → ∀ id ∈ tracked c, id ∉ ids

end

variable {tracked : Connection → List Octets}

theorem entered_register {s : FrontEnd} {client_dcid client_scid server_scid : Octets}
    (h : s.Entered tracked)
    (hOwn : tracked (.made client_dcid client_scid server_scid) ⊆
      [client_dcid, server_scid, client_scid]) :
    (s.register client_dcid client_scid server_scid).Entered tracked ↔
      s.Spares tracked s.handlers.length [client_dcid, server_scid, client_scid] := by
  constructor
  · intro hEntered n c hOther hAt hLive id hId hShared
    have hLength := (List.getElem?_eq_some_iff.mp hAt).1
    have hRoute := hEntered n c
      (by rw [FrontEnd.register, List.getElem?_append_left hLength]; exact hAt) hLive id hId
    rw [register_apply, if_pos hShared, Option.some.injEq] at hRoute
    exact hOther hRoute.symm
  · intro hSpares n c hAt hLive id hId
    rw [register_apply]
    by_cases hOther : n = s.handlers.length
    · rw [FrontEnd.register, hOther, List.getElem?_concat_length, Option.some.injEq] at hAt
      rw [← hAt] at hId
      rw [if_pos (hOwn hId), hOther]
    · have hOld : s.handlers[n]? = some c := by
        rw [FrontEnd.register] at hAt
        have hLength := (List.getElem?_eq_some_iff.mp hAt).1
        rw [List.length_append, List.length_singleton] at hLength
        rw [List.getElem?_append_left (by omega)] at hAt
        exact hAt
      rw [if_neg (hSpares n c hOther hOld hLive id hId)]
      exact h n c hOld hLive id hId

theorem entered_cleanup {s : FrontEnd} {handler : Nat} {c : Connection} (h : s.Entered tracked)
    (hHandler : s.handlers[handler]? = some c) :
    (s.cleanupQUICConnection handler).Entered tracked ↔ s.Spares tracked handler c.ids := by
  constructor
  · intro hEntered n c' hOther hAt hLive id hId hShared
    have hRoute := hEntered n c' (by rw [cleanup_handlers hHandler, if_neg hOther, hAt]) hLive id hId
    rw [cleanup_apply hHandler, if_pos hShared] at hRoute
    cases hRoute
  · intro hSpares n c' hAt hLive id hId
    rw [cleanup_handlers hHandler] at hAt
    by_cases hOther : n = handler
    · rw [if_pos hOther, Option.some.injEq] at hAt
      rw [← hAt] at hLive
      cases hLive
    · rw [if_neg hOther] at hAt
      rw [cleanup_apply hHandler, if_neg (hSpares n c' hOther hAt hLive id hId)]
      exact h n c' hAt hLive id hId

/-- What an event must leave alone: the entries of the connections it is not about, and for
IDs that are issued what `issuable` says. -/
def Apart (config : ServerConfig) (tracked : Connection → List Octets)
    (issuable : FrontEnd → Nat → Octets → Prop) (s : FrontEnd) : Event → Prop
  | .datagram a =>
      match dispatch s.quicConnections a.packet with
      | .dropped => True
      | .existing handler => a.closes = true →
          ∀ c, s.handlers[handler]? = some c → s.Spares tracked handler c.ids
      | .newConnection client_dcid client_scid =>
          (handleNewQUICConnection config a.random client_dcid client_scid).isSome = true →
            a.initialized = true → s.Spares tracked s.handlers.length
              [client_dcid, generateQUICConnectionId a.random, client_scid]
  | .gone connId => ∀ handler c, s.quicConnections connId = some handler →
      s.handlers[handler]? = some c → s.Spares tracked handler c.ids
  | .newConnectionId handler cid _ => issuable s handler cid
  | .retireConnectionId _ _ => True

theorem entered_cleanup_iff {s : FrontEnd} {handler : Nat} (h : s.Entered tracked) :
    (s.cleanupQUICConnection handler).Entered tracked ↔
      ∀ c, s.handlers[handler]? = some c → s.Spares tracked handler c.ids := by
  cases hHandler : s.handlers[handler]? with
  | none =>
      rw [FrontEnd.cleanupQUICConnection, hHandler]
      exact ⟨fun _ c hSome => (nomatch hSome), fun _ => h⟩
  | some c =>
      rw [entered_cleanup h hHandler]
      exact ⟨fun hSpares c' hSome => Option.some.inj hSome ▸ hSpares, fun hAll => hAll c rfl⟩

theorem handleNew_scid {config : ServerConfig} {random : Fin 8 → UInt8}
    {client_dcid client_scid : Octets} {ids : ServerIds}
    (h : handleNewQUICConnection config random client_dcid client_scid = some ids) :
    ids.scid = generateQUICConnectionId random := by
  rw [handleNewQUICConnection, new_server] at h
  split at h
  · cases h
  · split at h
    · cases h
    · cases h
      rfl

theorem entered_receive {config : ServerConfig} {issuable : FrontEnd → Nat → Octets → Prop}
    {s : FrontEnd} (h : s.Entered tracked)
    (hOwn : ∀ client_dcid client_scid server_scid,
      tracked (.made client_dcid client_scid server_scid) ⊆ [client_dcid, server_scid, client_scid])
    (a : Arrival) :
    (s.receive config a).Entered tracked ↔
      Apart config tracked issuable s (.datagram a) := by
  rw [FrontEnd.receive, Apart]
  cases dispatch s.quicConnections a.packet with
  | dropped => exact iff_of_true h trivial
  | existing handler =>
      dsimp only
      by_cases hCloses : a.closes = true
      · rw [if_pos hCloses, entered_cleanup_iff h]
        exact ⟨fun hSpares _ => hSpares, fun hSpares => hSpares hCloses⟩
      · rw [if_neg hCloses]
        exact iff_of_true h fun hNot => absurd hNot hCloses
  | newConnection client_dcid client_scid =>
      dsimp only
      cases hIds : handleNewQUICConnection config a.random client_dcid client_scid with
      | none => exact iff_of_true h fun hNot => (nomatch hNot)
      | some ids =>
          by_cases hInitialized : a.initialized = true
          · dsimp only
            rw [if_pos hInitialized, handleNew_scid hIds, entered_register h (hOwn _ _ _)]
            exact ⟨fun hSpares _ _ => hSpares, fun hSpares => hSpares rfl hInitialized⟩
          · dsimp only
            rw [if_neg hInitialized]
            exact iff_of_true h fun _ hNot => absurd hNot hInitialized

theorem entered_gone {config : ServerConfig} {issuable : FrontEnd → Nat → Octets → Prop}
    {s : FrontEnd} (h : s.Entered tracked) (connId : Octets) :
    (s.step config (.gone connId)).Entered tracked ↔
      Apart config tracked issuable s (.gone connId) := by
  rw [FrontEnd.step, Apart]
  cases hRoute : s.quicConnections connId with
  | none => exact iff_of_true h fun _ _ hNot => nomatch hNot
  | some handler =>
      dsimp only
      rw [entered_cleanup_iff h]
      exact ⟨fun hSpares _ c hSame => Option.some.inj hSame ▸ hSpares c,
        fun hSpares c => hSpares handler c rfl⟩

theorem issue_handlers (s : FrontEnd) (handler : Nat) (cid : Octets) (n : Nat) :
    (s.issue handler cid).handlers[n]? =
      (s.handlers[n]?).map fun c =>
        if handler = n then { c with current := cid :: c.current } else c :=
  List.getElem?_modify ..

theorem retire_handlers (s : FrontEnd) (handler : Nat) (cid : Octets) (n : Nat) :
    (s.retire handler cid).handlers[n]? =
      (s.handlers[n]?).map fun c =>
        if handler = n then { c with current := c.current.filter (· ≠ cid) } else c :=
  List.getElem?_modify ..

/-! ### The loops are sequences of cleanups -/

/-- Every entry leads to a live handler that has this ID. -/
def FrontEnd.Keyed (s : FrontEnd) : Prop :=
  ∀ id n, s.quicConnections id = some n →
    ∃ c, s.handlers[n]? = some c ∧ c.live = true ∧ id ∈ c.ids

theorem keyed_cleanup {s : FrontEnd} (h : s.Keyed) (handler : Nat) :
    (s.cleanupQUICConnection handler).Keyed := by
  cases hHandler : s.handlers[handler]? with
  | none =>
      rw [FrontEnd.cleanupQUICConnection, hHandler]
      exact h
  | some c =>
      intro id n hRoute
      rw [cleanup_apply hHandler] at hRoute
      split at hRoute
      · cases hRoute
      · next hShared =>
        obtain ⟨c', hAt, hId⟩ := h id n hRoute
        by_cases hSame : n = handler
        · rw [hSame, hHandler, Option.some.injEq] at hAt
          exact absurd (hAt ▸ hId.2) hShared
        · exact ⟨c', by rw [cleanup_handlers hHandler, if_neg hSame, hAt], hId⟩

theorem keyed_register {s : FrontEnd} (h : s.Keyed)
    (client_dcid client_scid server_scid : Octets) :
    (s.register client_dcid client_scid server_scid).Keyed := by
  intro id n hRoute
  rw [register_apply] at hRoute
  split at hRoute
  · next hNew =>
    rw [Option.some.injEq] at hRoute
    refine ⟨.made client_dcid client_scid server_scid, ?_, rfl, hNew⟩
    rw [FrontEnd.register, ← hRoute, List.getElem?_concat_length]
  · obtain ⟨c, hAt, hId⟩ := h id n hRoute
    have hLength := (List.getElem?_eq_some_iff.mp hAt).1
    exact ⟨c, by rw [FrontEnd.register, List.getElem?_append_left hLength, hAt], hId⟩

theorem keyed_step (config : ServerConfig) {s : FrontEnd} (h : s.Keyed) (e : Event) :
    (s.step config e).Keyed := by
  cases e with
  | datagram a =>
      rw [FrontEnd.step, FrontEnd.receive]
      cases dispatch s.quicConnections a.packet with
      | dropped => exact h
      | existing handler =>
          dsimp only
          split
          · exact keyed_cleanup h handler
          · exact h
      | newConnection client_dcid client_scid =>
          dsimp only
          cases handleNewQUICConnection config a.random client_dcid client_scid with
          | none => exact h
          | some ids =>
              dsimp only
              split
              · exact keyed_register h _ _ _
              · exact h
  | gone connId =>
      rw [FrontEnd.step]
      cases s.quicConnections connId with
      | none => exact h
      | some handler => exact keyed_cleanup h handler
  | newConnectionId handler cid =>
      intro id n hRoute
      obtain ⟨c, hAt, hId⟩ := h id n hRoute
      refine ⟨_, by rw [FrontEnd.step, issue_handlers, hAt]; rfl, ?_⟩
      split <;> exact hId
  | retireConnectionId handler cid =>
      intro id n hRoute
      obtain ⟨c, hAt, hId⟩ := h id n hRoute
      refine ⟨_, by rw [FrontEnd.step, retire_handlers, hAt]; rfl, ?_⟩
      split <;> exact hId

/-- A loop over the keys cleans up the connections it finds, one after the other. -/
theorem sweep_run (config : ServerConfig) (gone : Nat → Bool) (s : FrontEnd) (seen : List Nat)
    (keys : List Octets) :
    (s.sweep gone seen keys).1 =
      runEvents (FrontEnd.step config) s ((s.sweep gone seen keys).2.map .gone) := by
  induction keys generalizing s seen with
  | nil => rfl
  | cons connId keys ih =>
      rw [FrontEnd.sweep]
      cases hRoute : s.quicConnections connId with
      | none => exact ih s seen
      | some handler =>
          dsimp only
          split
          · exact ih s seen
          · split
            · rw [List.map_cons, runEvents, List.foldl_cons, ← runEvents, FrontEnd.step, hRoute]
              exact ih _ _
            · exact ih s _

theorem step_gone_none (config : ServerConfig) {s : FrontEnd} (h : s.Keyed) {connId id : Octets}
    (hNone : id = connId ∨ s.quicConnections id = none) :
    (s.step config (.gone connId)).quicConnections id = none := by
  rw [FrontEnd.step]
  cases hRoute : s.quicConnections connId with
  | none => exact hNone.elim (fun hSame => hSame ▸ hRoute) fun hNone => hNone
  | some handler =>
      obtain ⟨c, hAt, -, hId⟩ := h connId handler hRoute
      dsimp only
      rw [cleanup_apply hAt]
      split
      · rfl
      · next hOther => exact hNone.resolve_left fun hSame => hOther (hSame ▸ hId)

/-- The keys a loop has cleaned up lead nowhere afterwards. -/
theorem gone_none (config : ServerConfig) {s : FrontEnd} (h : s.Keyed) (removed : List Octets)
    {id : Octets} (hNone : id ∈ removed ∨ s.quicConnections id = none) :
    (runEvents (FrontEnd.step config) s (removed.map .gone)).quicConnections id = none := by
  induction removed generalizing s with
  | nil => exact hNone.resolve_left List.not_mem_nil
  | cons connId removed ih =>
      refine ih (keyed_step config h _) ?_
      rw [List.mem_cons, or_assoc, or_left_comm] at hNone
      exact hNone.imp_right (step_gone_none config h)

theorem handleQUICTimeouts_run (config : ServerConfig) (s : FrontEnd) (gone : Nat → Bool)
    (keys : List Octets) :
    s.handleQUICTimeouts gone keys =
      runEvents (FrontEnd.step config) s ((s.sweep gone [] keys).2.map .gone) :=
  sweep_run config gone s [] keys

theorem cleanupClosedQUICConnections_run (config : ServerConfig) {s : FrontEnd} (h : s.Keyed)
    (is_closing : Nat → Bool) (keys : List Octets) :
    s.cleanupClosedQUICConnections is_closing keys =
      runEvents (FrontEnd.step config) s ((s.sweep is_closing [] keys).2.map .gone) := by
  have hSame : (s.sweep is_closing [] keys).1.quicConnections.remove
      (s.sweep is_closing [] keys).2 = (s.sweep is_closing [] keys).1.quicConnections := by
    funext id
    rw [remove_apply]
    split
    · next hMem => rw [sweep_run config, gone_none config h _ (.inl hMem)]
    · rfl
  rw [← sweep_run, FrontEnd.cleanupClosedQUICConnections]
  dsimp only
  rw [hSame]

/-- In every run, a connection that is given a datagram has not been cleaned up and has the
destination ID; and both loops do the same, one cleanup after the other. -/
theorem dispatched_live (config : ServerConfig) (events : List Event) :
    let s := runEvents (FrontEnd.step config) {} events
    (∀ packet n, dispatch s.quicConnections packet = .existing n → ∃ c, s.handlers[n]? = some c ∧
      c.live = true ∧ ∃ id ∈ c.ids, extractQUICConnectionId packet = some id) ∧
    ∀ gone keys, s.cleanupClosedQUICConnections gone keys = s.handleQUICTimeouts gone keys ∧
      ∃ swept : List Octets, s.handleQUICTimeouts gone keys =
        runEvents (FrontEnd.step config) s (swept.map .gone) := by
  intro s
  have hKeyed : s.Keyed :=
    List.foldlRecOn events (FrontEnd.step config) (motive := FrontEnd.Keyed)
      (fun _ _ hNone => nomatch hNone) fun _ h e _ => keyed_step config h e
  refine ⟨fun packet n hTo => ?_, fun gone keys => ⟨?_, _, handleQUICTimeouts_run config s gone keys⟩⟩
  · rw [dispatch] at hTo
    split at hTo
    · cases hTo
    · split at hTo
      · next handler hRoute =>
          cases hTo
          obtain ⟨id, hId, hRoute⟩ := Option.bind_eq_some_iff.mp hRoute
          obtain ⟨c, hAt, hLive, hOwn⟩ := hKeyed id n hRoute
          exact ⟨c, hAt, hLive, id, hOwn, hId⟩
      · split at hTo
        · split at hTo <;> cases hTo
        · cases hTo
  · rw [cleanupClosedQUICConnections_run config hKeyed, ← handleQUICTimeouts_run]

/-! ### The IDs the front end chose -/

def serverChosen (c : Connection) : List Octets := [c.server_scid]

theorem entered_handlers {s s' : FrontEnd} (h : s.Entered serverChosen)
    (hRoutes : s'.quicConnections = s.quicConnections)
    (hHandlers : ∀ (n : Nat) (c' : Connection), s'.handlers[n]? = some c' → ∃ c, s.handlers[n]? = some c ∧
      c'.live = c.live ∧ c'.server_scid = c.server_scid) : s'.Entered serverChosen := by
  intro n c' hAt hLive id hId
  obtain ⟨c, hOld, hSameLive, hSameId⟩ := hHandlers n c' hAt
  rw [hRoutes]
  refine h n c hOld (hSameLive ▸ hLive) id ?_
  rw [serverChosen, ← hSameId]
  exact hId

/-- Creating a connection and cleaning one up leave the entries of the other server-chosen
IDs alone exactly while no ID of that connection is one of them. -/
theorem server_chosen_iff (config : ServerConfig) (events : List Event) :
    (∀ seen, seen <+: events →
      (runEvents (FrontEnd.step config) {} seen).Entered serverChosen) ↔
    Meets (FrontEnd.step config) (Apart config serverChosen fun _ _ _ => True) {} events := by
  refine Meets.iff_always (fun _ => True) (fun _ _ h => h) (fun s e _ h => ?_) events
    trivial fun n c hAt => nomatch hAt
  cases e with
  | datagram a =>
      refine entered_receive h (fun client_dcid client_scid server_scid id hId => ?_) a
      rw [serverChosen, Connection.made, List.mem_singleton] at hId
      rw [hId]
      exact List.mem_cons_of_mem _ List.mem_cons_self
  | gone connId => exact entered_gone h connId
  | newConnectionId handler cid =>
      refine iff_of_true (entered_handlers h rfl fun n c' hAt => ?_) trivial
      rw [FrontEnd.step, issue_handlers, Option.map_eq_some_iff] at hAt
      obtain ⟨c, hOld, rfl⟩ := hAt
      exact ⟨c, hOld, by split <;> rfl, by split <;> rfl⟩
  | retireConnectionId handler cid =>
      refine iff_of_true (entered_handlers h rfl fun n c' hAt => ?_) trivial
      rw [FrontEnd.step, retire_handlers, Option.map_eq_some_iff] at hAt
      obtain ⟨c, hOld, rfl⟩ := hAt
      exact ⟨c, hOld, by split <;> rfl, by split <;> rfl⟩

/-- The sockets of a front end with one domain. -/
def oneDomain : ServerConfig := ⟨1, Nat.one_pos⟩

/-- The first packet of a client, with the IDs it has chosen. -/
def initialPacket (dcid scid : Octets) : Octets :=
  [0xC0, 0, 0, 0, 1, UInt8.ofNat dcid.length] ++ dcid ++ UInt8.ofNat scid.length :: scid

def opens (dcid scid : Octets) (random : Fin 8 → UInt8) : Event :=
  .datagram { packet := initialPacket dcid scid, random, initialized := true, closes := false }

/-- The second client calls itself by the name the front end gave the first one, and gets its
datagrams. -/
theorem server_chosen_taken :
    ¬ ∀ (config : ServerConfig) (events seen : List Event), seen <+: events →
      (runEvents (FrontEnd.step config) {} seen).Entered serverChosen := by
  intro hAll
  have hEntered := hAll oneDomain
    [opens [1, 1, 1, 1, 1, 1, 1, 1] [2] fun _ => 7,
      opens [3, 3, 3, 3, 3, 3, 3, 3] [7, 7, 7, 7, 7, 7, 7, 7] fun _ => 8] _
    List.prefix_rfl 0 (.made [1, 1, 1, 1, 1, 1, 1, 1] [2] [7, 7, 7, 7, 7, 7, 7, 7]) rfl rfl
    [7, 7, 7, 7, 7, 7, 7, 7] List.mem_cons_self
  revert hEntered
  decide +kernel

end PageCamel.Frontend.Quic
