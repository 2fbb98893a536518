import PageCamel.Frontend.QuicRouting

/-!
The connection IDs a client may use are the first ones and those `ngtcp2` has issued. The
table of the front end has only the first ones.
-/

namespace PageCamel.Frontend.Quic
open PageCamel.Lib

/-- The datagrams with this destination ID; the IDs in a short header are those this front
end gives its connections, of eight octets. -/
inductive Carries : Octets → Octets → Prop
  | long {first : UInt8} {version id rest : Octets} : 0x80 ≤ first → version.length = 4 →
      id.length < 256 → Carries (first :: version ++ UInt8.ofNat id.length :: id ++ rest) id
  | short {first : UInt8} {id rest : Octets} : first < 0x80 → id.length = 8 →
      Carries (first :: id ++ rest) id

theorem Carries.extract {packet id : Octets} (h : Carries packet id) :
    extractQUICConnectionId packet = some id ∧ packet.isEmpty = false := by
  cases h with
  | @long first version _ rest hFirst hVersion hId =>
      have hBefore : (first :: version).length = 5 := by rw [List.length_cons, hVersion]
      refine ⟨?_, rfl⟩
      have hLen : octetAt (first :: version ++ UInt8.ofNat id.length :: id ++ rest) 5 =
          id.length := by
        rw [octetAt_split (first :: version) (UInt8.ofNat id.length)
          (id ++ rest) (by simp) hBefore, UInt8.toNat_ofNat_of_lt' hId]
      have hSubstr : substr (first :: version ++ UInt8.ofNat id.length :: id ++ rest) 6
          id.length = id := by
        refine substr_split (first :: version ++ [UInt8.ofNat id.length]) id rest
          (by simp) ?_
        rw [List.length_append, hBefore]
        rfl
      have hLength : (first :: version ++ UInt8.ofNat id.length :: id ++ rest).length =
          6 + id.length + rest.length := by
        simp only [List.length_append, List.length_cons, hVersion]
        omega
      have hLong : isLongHeader (first :: version ++ UInt8.ofNat id.length :: id ++ rest) = true :=
        (long_iff first _).mpr hFirst
      rw [extractQUICConnectionId, if_neg (by omega), if_pos hLong]
      dsimp only
      rw [hLen, if_neg (by omega), hSubstr]
  | @short first _ rest hFirst hId =>
      have hShort : ¬ isLongHeader (first :: id ++ rest) = true := by
        rw [List.cons_append, long_iff, UInt8.not_le]
        exact hFirst
      have hLength : (first :: id ++ rest).length = 9 + rest.length := by
        simp only [List.length_append, List.length_cons, hId]
      refine ⟨?_, rfl⟩
      have hSubstr : substr (first :: id ++ rest) 1 id.length = id :=
        substr_split [first] id rest (by simp) rfl
      rw [hId] at hSubstr
      rw [extractQUICConnectionId, if_neg (by omega), if_neg hShort, if_neg (by omega), hSubstr]

theorem Carries.dispatch {quicConnections : Routes} {packet id : Octets} (h : Carries packet id)
    (handler : Nat) :
    dispatch quicConnections packet = .existing handler ↔ quicConnections id = some handler := by
  rw [Quic.dispatch, h.extract.1, h.extract.2, if_neg Bool.false_ne_true, Option.bind_some]
  cases quicConnections id with
  | some n => exact ⟨fun hSame => by cases hSame; rfl, fun hSame => by cases hSame; rfl⟩
  | none =>
      refine ⟨fun hNot => ?_, fun hNot => by cases hNot⟩
      dsimp only at hNot
      split at hNot
      · split at hNot <;> cases hNot
      · cases hNot

/-- Datagrams with an ID that a client may use go to the handler of its connection. -/
def FrontEnd.Routed (s : FrontEnd) : Prop :=
  ∀ n c, s.handlers[n]? = some c → c.live = true → ∀ id ∈ c.current,
    ∀ packet, Carries packet id → dispatch s.quicConnections packet = .existing n

/-- The IDs fit behind a length octet. -/
def FrontEnd.Short (s : FrontEnd) : Prop :=
  ∀ (n : Nat) (c : Connection), s.handlers[n]? = some c → ∀ id ∈ c.current, id.length < 256

theorem routed_iff {s : FrontEnd} (h : s.Short) : s.Routed ↔ s.Entered Connection.current := by
  refine forall_congr' fun n => forall_congr' fun c => forall_congr' fun hAt =>
    forall_congr' fun _ => forall_congr' fun id => forall_congr' fun hId => ?_
  constructor
  · intro hAll
    have hCarries : Carries (0x80 :: [0, 0, 0, 1] ++ UInt8.ofNat id.length :: id ++ []) id :=
      .long (UInt8.le_refl _) rfl (h n c hAt id hId)
    exact (hCarries.dispatch n).mp (hAll _ hCarries)
  · exact fun hRoute packet hCarries => (hCarries.dispatch n).mpr hRoute

theorem short_cleanup {s : FrontEnd} (h : s.Short) (handler : Nat) :
    (s.cleanupQUICConnection handler).Short := by
  cases hHandler : s.handlers[handler]? with
  | none =>
      rw [FrontEnd.cleanupQUICConnection, hHandler]
      exact h
  | some c =>
      intro n c' hAt
      rw [cleanup_handlers hHandler] at hAt
      by_cases hSame : n = handler
      · rw [if_pos hSame, Option.some.injEq] at hAt
        rw [← hAt]
        exact h handler c hHandler
      · rw [if_neg hSame] at hAt
        exact h n c' hAt

theorem short_step (config : ServerConfig) {s : FrontEnd} (h : s.Short) (e : Event) :
    (s.step config e).Short := by
  cases e with
  | datagram a =>
      rw [FrontEnd.step, FrontEnd.receive]
      cases hDispatch : dispatch s.quicConnections a.packet with
      | dropped => exact h
      | existing handler =>
          dsimp only
          by_cases hCloses : a.closes = true
          · rw [if_pos hCloses]
            exact short_cleanup h handler
          · rw [if_neg hCloses]
            exact h
      | newConnection client_dcid client_scid =>
          dsimp only
          have hHeader := (dispatch_of_new hDispatch).1
          cases hIds : handleNewQUICConnection config a.random client_dcid client_scid with
          | none => exact h
          | some ids =>
              dsimp only
              by_cases hInitialized : a.initialized = true
              swap
              · rw [if_neg hInitialized]
                exact h
              rw [if_pos hInitialized]
              intro n c hAt id hId
              rw [FrontEnd.register] at hAt
              rcases List.mem_append.mp (List.mem_of_getElem? hAt) with hOld | hNew
              · obtain ⟨m, hOld⟩ := List.getElem?_of_mem hOld
                exact h m c hOld id hId
              · rw [List.mem_singleton] at hNew
                rw [hNew, Connection.made, handleNew_scid hIds] at hId
                simp only [List.mem_cons, List.not_mem_nil, or_false] at hId
                rcases hId with rfl | rfl | rfl
                · exact hHeader.dcid_fits
                · rw [generateQUICConnectionId, List.length_ofFn]
                  omega
                · exact hHeader.scid_fits
  | gone connId =>
      rw [FrontEnd.step]
      cases s.quicConnections connId with
      | none => exact h
      | some handler => exact short_cleanup h handler
  | newConnectionId handler cid hCid =>
      intro n c' hAt id hId
      rw [FrontEnd.step, issue_handlers, Option.map_eq_some_iff] at hAt
      obtain ⟨c, hOld, rfl⟩ := hAt
      by_cases hSame : handler = n
      · simp only [if_pos hSame] at hId
        rcases List.mem_cons.mp hId with rfl | hId
        · exact hCid.trans_lt (by decide)
        · exact h n c hOld id hId
      · simp only [if_neg hSame] at hId
        exact h n c hOld id hId
  | retireConnectionId handler cid =>
      intro n c' hAt id hId
      rw [FrontEnd.step, retire_handlers, Option.map_eq_some_iff] at hAt
      obtain ⟨c, hOld, rfl⟩ := hAt
      by_cases hSame : handler = n
      · simp only [if_pos hSame] at hId
        exact h n c hOld id (List.mem_of_mem_filter hId)
      · simp only [if_neg hSame] at hId
        exact h n c hOld id hId

/-- An ID can be issued to a live connection if the table has it for that connection. -/
def Issuable (s : FrontEnd) (handler : Nat) (cid : Octets) : Prop :=
  ∀ c, s.handlers[handler]? = some c → c.live = true → s.quicConnections cid = some handler

theorem entered_issue {s : FrontEnd} (h : s.Entered Connection.current) (handler : Nat)
    (cid : Octets) :
    (s.issue handler cid).Entered Connection.current ↔ Issuable s handler cid := by
  constructor
  · intro hEntered c hAt hLive
    refine hEntered handler { c with current := cid :: c.current } ?_ hLive cid
      List.mem_cons_self
    rw [issue_handlers, hAt, Option.map_some, if_pos rfl]
  · intro hIssuable n c' hAt hLive id hId
    rw [issue_handlers, Option.map_eq_some_iff] at hAt
    obtain ⟨c, hOld, rfl⟩ := hAt
    by_cases hSame : handler = n
    · simp only [if_pos hSame] at hId hLive
      rcases List.mem_cons.mp hId with rfl | hId
      · rw [← hSame]
        exact hIssuable c (hSame ▸ hOld) hLive
      · exact h n c hOld hLive id hId
    · simp only [if_neg hSame] at hId hLive
      exact h n c hOld hLive id hId

theorem entered_retire {s : FrontEnd} (h : s.Entered Connection.current) (handler : Nat)
    (cid : Octets) : (s.retire handler cid).Entered Connection.current := by
  intro n c' hAt hLive id hId
  rw [retire_handlers, Option.map_eq_some_iff] at hAt
  obtain ⟨c, hOld, rfl⟩ := hAt
  by_cases hSame : handler = n
  · simp only [if_pos hSame] at hId hLive
    exact h n c hOld hLive id (List.mem_of_mem_filter hId)
  · simp only [if_neg hSame] at hId hLive
    exact h n c hOld hLive id hId

/-- All IDs of the clients work exactly while connections keep off each other's IDs and no ID
is issued that the table does not have yet. -/
theorem routed_always_iff (config : ServerConfig) (events : List Event) :
    (∀ seen, seen <+: events → (runEvents (FrontEnd.step config) {} seen).Routed) ↔
    Meets (FrontEnd.step config) (Apart config Connection.current Issuable) {} events := by
  refine Meets.iff_always FrontEnd.Short (fun s e h => short_step config h e)
    (fun s e hShort h => ?_) events (fun n c hAt => nomatch hAt) fun n c hAt => nomatch hAt
  rw [routed_iff hShort] at h
  rw [routed_iff (short_step config hShort e)]
  cases e with
  | datagram a => exact entered_receive h (fun _ _ _ => List.Subset.refl _) a
  | gone connId => exact entered_gone h connId
  | newConnectionId handler cid => exact entered_issue h handler cid
  | retireConnectionId handler cid => exact iff_of_true (entered_retire h handler cid) trivial

/-- The client uses an ID it was given, and its datagram is dropped. -/
theorem issued_dropped :
    ¬ ∀ (config : ServerConfig) (events seen : List Event), seen <+: events →
      (runEvents (FrontEnd.step config) {} seen).Routed := by
  intro hAll
  have hDispatch := hAll oneDomain
    [opens [1, 1, 1, 1, 1, 1, 1, 1] [2] fun _ => 7,
      .newConnectionId 0 [9, 9, 9, 9, 9, 9, 9, 9] (by decide)] _
    List.prefix_rfl 0
    { Connection.made [1, 1, 1, 1, 1, 1, 1, 1] [2] [7, 7, 7, 7, 7, 7, 7, 7] with
      current := [[9, 9, 9, 9, 9, 9, 9, 9], [1, 1, 1, 1, 1, 1, 1, 1], [7, 7, 7, 7, 7, 7, 7, 7], [2]] }
    rfl rfl [9, 9, 9, 9, 9, 9, 9, 9] List.mem_cons_self
    (0x40 :: [9, 9, 9, 9, 9, 9, 9, 9] ++ [0]) (.short (by decide) rfl)
  rw [Carries.dispatch (.short (by decide) rfl)] at hDispatch
  revert hDispatch
  decide +kernel

end PageCamel.Frontend.Quic
