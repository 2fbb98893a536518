import PageCamel.Lib.Octets

/-!
The connection IDs in the header of a QUIC packet, and what becomes of a datagram: it goes
to the connection its destination ID belongs to, or a new connection is made with both of
its IDs.
-/

namespace PageCamel.Frontend.Quic
open PageCamel.Lib

/-- `ord(substr($packet, $i, 1))` inside the packet. -/
def octetAt (packet : Octets) (i : Nat) : Nat := (packet.getD i 0).toNat

def substr (packet : Octets) (offset length : Nat) : Octets := (packet.drop offset).take length

def isLongHeader (packet : Octets) : Bool := octetAt packet 0 &&& 0x80 ≠ 0

def extractQUICConnectionId (packet : Octets) : Option Octets :=
  if packet.length < 6 then none
  else if isLongHeader packet then
    let dcidLen := octetAt packet 5
    if packet.length < 6 + dcidLen then none else some (substr packet 6 dcidLen)
  else if packet.length < 9 then none
  else some (substr packet 1 8)

def extractQUICConnectionIds (packet : Octets) : Option (Octets × Octets) :=
  if packet.length < 7 then none
  else if !isLongHeader packet then none
  else
    let dcidLen := octetAt packet 5
    if packet.length < 7 + dcidLen then none
    else
      let scidLenOffset := 6 + dcidLen
      let scidLen := octetAt packet scidLenOffset
      if packet.length < scidLenOffset + 1 + scidLen then none
      else some (substr packet 6 dcidLen, substr packet (scidLenOffset + 1) scidLen)

/-- The table of the connections: their handlers by connection ID. -/
abbrev Routes := Octets → Option Nat

inductive Dispatch
  | dropped
  | existing (handler : Nat)
  | newConnection (client_dcid client_scid : Octets)

/-- What `handleQUICPacket` does with a datagram. -/
def dispatch (quicConnections : Routes) (packet : Octets) : Dispatch :=
  if packet.isEmpty then .dropped
  else
    match (extractQUICConnectionId packet).bind quicConnections with
    | some handler => .existing handler
    | none =>
        if isLongHeader packet then
          match extractQUICConnectionIds packet with
          | some (client_dcid, client_scid) => .newConnection client_dcid client_scid
          | none => .dropped
        else .dropped

def generateQUICConnectionId (random : Fin 8 → UInt8) : Octets := List.ofFn random

/-- What the front end is started with; it does not start without a domain. -/
structure ServerConfig where
  domain_count : Nat
  configured : 0 < domain_count

/-- The arguments of `h3_connection_new_server` that are connection IDs. -/
structure ServerIds where
  dcid : Octets
  scid : Octets
  original_dcid : Octets

/-- `new_server` of the XS module, up to its call of `h3_connection_new_server`. -/
def new_server (config : ServerConfig) (ids : ServerIds) : Option ServerIds :=
  if ids.dcid.isEmpty || ids.scid.isEmpty || ids.original_dcid.isEmpty then none
  else if config.domain_count = 0 then none
  else some ids

/-- The call of `h3_connection_new_server` that `handleNewQUICConnection` comes to. -/
def handleNewQUICConnection (config : ServerConfig) (random : Fin 8 → UInt8)
    (client_dcid client_scid : Octets) : Option ServerIds :=
  new_server config
    { dcid := client_scid
      scid := generateQUICConnectionId random
      original_dcid := client_dcid }

/-- The call that a datagram leads to. -/
def newServerCall (config : ServerConfig) (random : Fin 8 → UInt8) (quicConnections : Routes)
    (packet : Octets) : Option ServerIds :=
  match dispatch quicConnections packet with
  | .newConnection client_dcid client_scid =>
      handleNewQUICConnection config random client_dcid client_scid
  | _ => none

/-- The connection IDs that `h3_connection_new_server` passes to `ngtcp2_cid_init`, once the
memory and the TLS context are there. -/
def cidInits (allocated : Bool) : Option ServerIds → List Octets
  | some ids => if allocated then [ids.dcid, ids.scid, ids.original_dcid] else []
  | none => []

def NGTCP2_MAX_CIDLEN : Nat := 20

/-! ### Long headers -/

/-- The packet has a long header, and both of its connection IDs are in it. -/
structure LongHeader (packet dcid scid : Octets) : Prop where
  dcid_fits : dcid.length < 256
  scid_fits : scid.length < 256
  layout : ∃ first version rest, 0x80 ≤ first ∧ version.length = 4 ∧
    packet = first :: version ++ UInt8.ofNat dcid.length :: dcid ++
      UInt8.ofNat scid.length :: scid ++ rest

theorem long_iff (b : UInt8) (packet : Octets) :
    isLongHeader (b :: packet) = true ↔ 0x80 ≤ b := by
  have hAll : ∀ b : UInt8, (b.toNat &&& 0x80 ≠ 0) ↔ 0x80 ≤ b := by
    intro b
    have hBit : ∀ n : Fin 256, (n.val &&& 0x80 ≠ 0) ↔ 128 ≤ n.val := by decide +kernel
    rw [UInt8.le_iff_toNat_le]
    exact hBit ⟨b.toNat, b.toNat_lt⟩
  rw [isLongHeader, decide_eq_true_eq]
  exact hAll b

theorem octetAt_split {packet : Octets} (before : Octets) (b : UInt8) (after : Octets) {i : Nat}
    (h : packet = before ++ b :: after) (hAt : before.length = i) :
    octetAt packet i = b.toNat := by
  rw [octetAt, List.getD_eq_getElem?_getD, h, List.getElem?_append_right hAt.le, hAt, Nat.sub_self]
  rfl

theorem substr_split {packet : Octets} (before piece after : Octets) {i : Nat}
    (h : packet = before ++ (piece ++ after)) (hAt : before.length = i) :
    substr packet i piece.length = piece := by
  rw [substr, h, ← hAt, List.drop_left, List.take_left]

/-- A packet with a long header, cut at its two length octets. -/
theorem LongHeader.cut {packet dcid scid : Octets} (h : LongHeader packet dcid scid) :
    isLongHeader packet = true ∧ octetAt packet 5 = dcid.length ∧
      substr packet 6 dcid.length = dcid ∧ octetAt packet (6 + dcid.length) = scid.length ∧
        substr packet (6 + dcid.length + 1) scid.length = scid ∧
          7 + dcid.length + scid.length ≤ packet.length := by
  obtain ⟨hDcid, hScid, first, version, rest, hFirst, hVersion, hPacket⟩ := h
  have hBefore : (first :: version).length = 5 := by rw [List.length_cons, hVersion]
  refine ⟨?_, ?_, ?_, ?_, ?_, ?_⟩
  · rw [hPacket]
    exact (long_iff first _).mpr hFirst
  · rw [octetAt_split (first :: version) (UInt8.ofNat dcid.length)
      (dcid ++ UInt8.ofNat scid.length :: scid ++ rest) (by simp [hPacket]) hBefore,
      UInt8.toNat_ofNat_of_lt' hDcid]
  · refine substr_split (first :: version ++ [UInt8.ofNat dcid.length]) dcid
      (UInt8.ofNat scid.length :: scid ++ rest) (by simp [hPacket]) ?_
    rw [List.length_append, hBefore]
    rfl
  · rw [octetAt_split (first :: version ++ UInt8.ofNat dcid.length :: dcid)
      (UInt8.ofNat scid.length) (scid ++ rest) (by simp [hPacket]) ?_,
      UInt8.toNat_ofNat_of_lt' hScid]
    rw [List.length_append, hBefore, List.length_cons]
    omega
  · refine substr_split (first :: version ++ UInt8.ofNat dcid.length :: dcid ++
      [UInt8.ofNat scid.length]) scid rest (by simp [hPacket]) ?_
    rw [List.length_append, List.length_append, hBefore, List.length_cons, List.length_singleton]
    omega
  · rw [hPacket]
    simp only [List.length_append, List.length_cons, hVersion]
    omega

theorem drop_octet {packet : Octets} {i : Nat} (h : i < packet.length) :
    packet.drop i = UInt8.ofNat (octetAt packet i) :: packet.drop (i + 1) := by
  rw [List.drop_eq_getElem_cons h, octetAt, List.getD_eq_getElem?_getD,
    List.getElem?_eq_getElem h, Option.getD_some, UInt8.ofNat_toNat]

theorem drop_substr (packet : Octets) (i n : Nat) :
    packet.drop i = substr packet i n ++ packet.drop (i + n) := by
  rw [substr, ← List.drop_drop, List.take_append_drop]

theorem length_substr (packet : Octets) (i n : Nat) (h : i + n ≤ packet.length) :
    (substr packet i n).length = n := by
  rw [substr, List.length_take, List.length_drop]
  omega

theorem octetAt_lt (packet : Octets) (i : Nat) : octetAt packet i < 256 := UInt8.toNat_lt _

/-- The parser of both connection IDs accepts the packets with a long header that hold them,
and no others. -/
theorem extractQUICConnectionIds_iff (packet dcid scid : Octets) :
    extractQUICConnectionIds packet = some (dcid, scid) ↔ LongHeader packet dcid scid := by
  constructor
  · intro h
    rw [extractQUICConnectionIds] at h
    by_cases hShort : packet.length < 7
    · rw [if_pos hShort] at h; cases h
    rw [if_neg hShort] at h
    by_cases hLong : isLongHeader packet = true
    swap
    · rw [Bool.not_eq_true] at hLong
      rw [hLong, Bool.not_false, if_pos rfl] at h; cases h
    rw [hLong, Bool.not_true, if_neg Bool.false_ne_true] at h
    dsimp only at h
    by_cases hDcid : packet.length < 7 + octetAt packet 5
    · rw [if_pos hDcid] at h; cases h
    rw [if_neg hDcid] at h
    by_cases hScid : packet.length < 6 + octetAt packet 5 + 1 + octetAt packet (6 + octetAt packet 5)
    · rw [if_pos hScid] at h; cases h
    rw [if_neg hScid, Option.some.injEq, Prod.mk.injEq] at h
    obtain ⟨rfl, rfl⟩ := h
    have hDcidLen := length_substr packet 6 (octetAt packet 5) (by omega)
    have hScidLen := length_substr packet (6 + octetAt packet 5 + 1)
      (octetAt packet (6 + octetAt packet 5)) (by omega)
    refine ⟨hDcidLen.trans_lt (octetAt_lt packet 5), hScidLen.trans_lt (octetAt_lt packet _),
      UInt8.ofNat (octetAt packet 0), substr packet 1 4,
      packet.drop (6 + octetAt packet 5 + 1 + octetAt packet (6 + octetAt packet 5)), ?_,
      length_substr packet 1 4 (by omega), ?_⟩
    · rw [← long_iff _ (packet.drop 1), ← drop_octet (by omega), List.drop_zero]
      exact hLong
    · -- the packet from its start, one piece after the other
      rw [hDcidLen, hScidLen]
      calc packet = packet.drop 0 := List.drop_zero.symm
        _ = UInt8.ofNat (octetAt packet 0) :: packet.drop 1 := drop_octet (by omega)
        _ = _ := by
          rw [drop_substr packet 1 4, drop_octet (i := 1 + 4) (by omega),
            drop_substr packet (1 + 4 + 1) (octetAt packet 5),
            drop_octet (i := 1 + 4 + 1 + octetAt packet 5) (by omega),
            drop_substr packet (1 + 4 + 1 + octetAt packet 5 + 1)
              (octetAt packet (6 + octetAt packet 5))]
          simp
  · intro h
    obtain ⟨hLong, hDcidLen, hDcid, hScidLen, hScid, hLength⟩ := h.cut
    rw [extractQUICConnectionIds, if_neg (by omega), hLong, Bool.not_true,
      if_neg Bool.false_ne_true]
    dsimp only
    rw [hDcidLen, if_neg (by omega), hScidLen, if_neg (by omega), hDcid, hScid]

/-- The two parsers read the same destination ID. -/
theorem extractQUICConnectionId_of_long {packet dcid scid : Octets}
    (h : LongHeader packet dcid scid) : extractQUICConnectionId packet = some dcid := by
  obtain ⟨hLong, hDcidLen, hDcid, -, -, hLength⟩ := h.cut
  rw [extractQUICConnectionId, if_neg (by omega), hLong, if_pos rfl]
  dsimp only
  rw [hDcidLen, if_neg (by omega), hDcid]

/-! ### Datagrams of no connection yet -/

theorem dispatch_of_new {quicConnections : Routes} {packet client_dcid client_scid : Octets}
    (h : dispatch quicConnections packet = .newConnection client_dcid client_scid) :
    LongHeader packet client_dcid client_scid ∧ quicConnections client_dcid = none := by
  rw [dispatch] at h
  by_cases hEmpty : packet.isEmpty = true
  · rw [if_pos hEmpty] at h; cases h
  rw [if_neg hEmpty] at h
  cases hRoute : (extractQUICConnectionId packet).bind quicConnections with
  | some handler => rw [hRoute] at h; cases h
  | none =>
      rw [hRoute] at h
      dsimp only at h
      by_cases hLong : isLongHeader packet = true
      swap
      · rw [if_neg hLong] at h; cases h
      rw [if_pos hLong] at h
      cases hIds : extractQUICConnectionIds packet with
      | none => rw [hIds] at h; cases h
      | some ids =>
          rw [hIds] at h
          cases h
          have hHeader := (extractQUICConnectionIds_iff _ _ _).mp hIds
          rw [extractQUICConnectionId_of_long hHeader, Option.bind_some] at hRoute
          exact ⟨hHeader, hRoute⟩

theorem dispatch_new {quicConnections : Routes} {packet client_dcid client_scid : Octets}
    (hHeader : LongHeader packet client_dcid client_scid)
    (hUnknown : quicConnections client_dcid = none) :
    dispatch quicConnections packet = .newConnection client_dcid client_scid := by
  obtain ⟨hLong, -, -, -, -, hLength⟩ := hHeader.cut
  have hSome : packet.isEmpty = false := by
    rw [List.isEmpty_eq_false_iff, ← List.length_pos_iff]
    omega
  rw [dispatch, hSome, if_neg Bool.false_ne_true, extractQUICConnectionId_of_long hHeader,
    Option.bind_some, hUnknown]
  dsimp only
  rw [if_pos hLong, (extractQUICConnectionIds_iff _ _ _).mpr hHeader]

/-- Both IDs are in the packet and no longer than QUIC allows, and no connection has the
destination ID. -/
def Acceptable (quicConnections : Routes) (packet : Octets) : Prop :=
  ∃ dcid scid, LongHeader packet dcid scid ∧ quicConnections dcid = none ∧
    dcid.length ≤ NGTCP2_MAX_CIDLEN ∧ scid.length ≤ NGTCP2_MAX_CIDLEN

/-- The call is made for the acceptable packets and no others, no ID is too long for
`ngtcp2_cid_init`, and both parsers see the same destination ID. -/
structure Admits (config : ServerConfig) (random : Fin 8 → UInt8) (allocated : Bool)
    (quicConnections : Routes) (packet : Octets) : Prop where
  reached : (newServerCall config random quicConnections packet).isSome = true ↔
    Acceptable quicConnections packet
  bounded : ∀ id ∈ cidInits allocated (newServerCall config random quicConnections packet),
    id.length ≤ NGTCP2_MAX_CIDLEN
  agree : ∀ dcid scid, extractQUICConnectionIds packet = some (dcid, scid) →
    extractQUICConnectionId packet = some dcid

/-- In a packet for a new connection both IDs have a length from 1 to 20, or one is empty
and the other longer than 20. -/
def ProperLengths (quicConnections : Routes) (packet : Octets) : Prop :=
  ∀ dcid scid, LongHeader packet dcid scid → quicConnections dcid = none →
    ((dcid ≠ [] ∧ scid ≠ []) ↔
      (dcid.length ≤ NGTCP2_MAX_CIDLEN ∧ scid.length ≤ NGTCP2_MAX_CIDLEN))

theorem newServerCall_new {config : ServerConfig} {random : Fin 8 → UInt8}
    {quicConnections : Routes} {packet dcid scid : Octets} (hHeader : LongHeader packet dcid scid)
    (hUnknown : quicConnections dcid = none) :
    newServerCall config random quicConnections packet =
      if dcid ≠ [] ∧ scid ≠ [] then
        some { dcid := scid, scid := generateQUICConnectionId random, original_dcid := dcid }
      else none := by
  have hRandom : (generateQUICConnectionId random).isEmpty = false := rfl
  rw [newServerCall, dispatch_new hHeader hUnknown]
  simp only [handleNewQUICConnection, new_server, hRandom, Nat.ne_of_gt config.configured]
  cases dcid <;> cases scid <;> rfl

theorem newServerCall_isSome {config : ServerConfig} {random : Fin 8 → UInt8}
    {quicConnections : Routes} {packet : Octets}
    (h : (newServerCall config random quicConnections packet).isSome = true) :
    ∃ dcid scid, LongHeader packet dcid scid ∧ quicConnections dcid = none := by
  cases hDispatch : dispatch quicConnections packet with
  | dropped => rw [newServerCall, hDispatch] at h; cases h
  | existing handler => rw [newServerCall, hDispatch] at h; cases h
  | newConnection dcid scid => exact ⟨dcid, scid, dispatch_of_new hDispatch⟩

theorem acceptable_iff {quicConnections : Routes} {packet dcid scid : Octets}
    (hHeader : LongHeader packet dcid scid) (hUnknown : quicConnections dcid = none) :
    Acceptable quicConnections packet ↔
      dcid.length ≤ NGTCP2_MAX_CIDLEN ∧ scid.length ≤ NGTCP2_MAX_CIDLEN := by
  constructor
  · intro ⟨dcid', scid', hHeader', _, hLengths⟩
    have hSame := ((extractQUICConnectionIds_iff _ _ _).mpr hHeader').symm.trans
      ((extractQUICConnectionIds_iff _ _ _).mpr hHeader)
    rw [Option.some.injEq, Prod.mk.injEq] at hSame
    rw [← hSame.1, ← hSame.2]
    exact hLengths
  · exact fun hLengths => ⟨dcid, scid, hHeader, hUnknown, hLengths⟩

/-- The lengths of the connection IDs decide whether the front end admits what it should. -/
theorem admits_iff (config : ServerConfig) (random : Fin 8 → UInt8) (allocated : Bool)
    (quicConnections : Routes) (packet : Octets) :
    Admits config random allocated quicConnections packet ↔
      ProperLengths quicConnections packet := by
  constructor
  · intro h dcid scid hHeader hUnknown
    rw [← acceptable_iff hHeader hUnknown, ← h.reached, newServerCall_new hHeader hUnknown]
    by_cases hIds : dcid ≠ [] ∧ scid ≠ []
    · rw [if_pos hIds]
      exact ⟨fun _ => rfl, fun _ => hIds⟩
    · rw [if_neg hIds]
      exact ⟨fun hBoth => absurd hBoth hIds, fun hNone => nomatch hNone⟩
  · intro h
    refine ⟨⟨fun hCall => ?_, fun ⟨dcid, scid, hHeader, hUnknown, hLengths⟩ => ?_⟩, ?_, ?_⟩
    · obtain ⟨dcid, scid, hHeader, hUnknown⟩ := newServerCall_isSome hCall
      rw [newServerCall_new hHeader hUnknown] at hCall
      rw [acceptable_iff hHeader hUnknown, ← h dcid scid hHeader hUnknown]
      by_contra hIds
      rw [if_neg hIds] at hCall
      cases hCall
    · rw [newServerCall_new hHeader hUnknown,
        if_pos ((h dcid scid hHeader hUnknown).mpr hLengths)]
      rfl
    · intro id hId
      cases hCall : newServerCall config random quicConnections packet with
      | none => rw [hCall] at hId; cases hId
      | some ids =>
          obtain ⟨dcid, scid, hHeader, hUnknown⟩ :=
            newServerCall_isSome (Option.isSome_iff_exists.mpr ⟨ids, hCall⟩)
          rw [hCall] at hId
          rw [newServerCall_new hHeader hUnknown] at hCall
          by_cases hIds : dcid ≠ [] ∧ scid ≠ []
          swap
          · rw [if_neg hIds] at hCall
            cases hCall
          have hLengths := (h dcid scid hHeader hUnknown).mp hIds
          rw [if_pos hIds, Option.some.injEq] at hCall
          subst hCall
          rw [cidInits] at hId
          cases allocated
          · cases hId
          · rw [if_pos rfl, List.mem_cons, List.mem_cons, List.mem_singleton] at hId
            rcases hId with rfl | rfl | rfl
            · exact hLengths.2
            · rw [generateQUICConnectionId, List.length_ofFn, NGTCP2_MAX_CIDLEN]
              omega
            · exact hLengths.1
    · exact fun dcid scid hIds =>
        extractQUICConnectionId_of_long ((extractQUICConnectionIds_iff _ _ _).mp hIds)

/-- A first packet of a client whose own ID has 21 octets. -/
def longIdPacket : Octets :=
  [0xC0, 0, 0, 0, 1, 8, 1, 2, 3, 4, 5, 6, 7, 8, 21] ++ List.replicate 21 0xAA

/-- The front end passes the ID to `ngtcp2_cid_init`, too long as it is. -/
theorem long_id_passed :
    ¬ ∀ (config : ServerConfig) (random : Fin 8 → UInt8) (quicConnections : Routes)
      (packet : Octets), Admits config random true quicConnections packet := by
  intro hAll
  have hBounded := (hAll ⟨1, Nat.one_pos⟩ (fun _ => 0) (fun _ => none) longIdPacket).bounded
  revert hBounded
  decide +kernel

end PageCamel.Frontend.Quic
