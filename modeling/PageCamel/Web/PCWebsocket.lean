import PageCamel.Lib.Octets
import PageCamel.Lib.Runs
import Mathlib.Data.List.MinMax

/-!
The outbox of `PCWebsocket`: cached messages are rows of a table, sent in the order of ids
made from the clock and a random number, again and again until the server says that it has
received the id.
-/

namespace PageCamel.Web
open PageCamel.Lib

/-! ### Ids -/

/-- The number as a binary64 value: 53 significant bits, ties to even. -/
def binary64 (n : Nat) : Nat :=
  if n < 2 ^ 53 then n
  else
    let ulp := 2 ^ (n.log2 - 52)
    let q := n / ulp
    let r := n % ulp
    if 2 * r < ulp ∨ 2 * r = ulp ∧ q % 2 = 0 then q * ulp else (q + 1) * ulp

/-- `(timestamp * 10000) + randidx`. Its decimal text names the value again when the table
or the server gives it back. -/
def newDbid (timestamp : Nat) (randidx : Fin 10000) : Nat :=
  binary64 (binary64 (timestamp * 10000) + randidx)

/-! ### The object -/

/-- A row of `wsoutbox`; `serial` numbers the cached sends. -/
structure OutboxRow where
  dbid : Nat
  msg : Octets
  data : Octets
  serial : Nat
  deriving DecidableEq, Repr

/-- How `wstransmit` ends. -/
inductive Transmit where
  | sent
  | refused
  | throws
  deriving DecidableEq, Repr

/-- What an attempt to send a row finds: the clock when it is first asked and when the time
is noted, and how the transmission ends if there is one. -/
structure Attempt where
  now : Nat
  noted : Nat
  transmit : Transmit
  deriving DecidableEq, Repr

/-- `sends`, `transmitted` and `recieved` are the history: the number of cached sends, the
rows in the order of their transmissions, and the transmissions that were acknowledged. -/
structure PCWebsocket where
  outbox : List OutboxRow := []
  isconnected : Bool := false
  lastCacheSent : Nat := 0
  sends : Nat := 0
  transmitted : List OutboxRow := []
  recieved : List Nat := []
  deriving DecidableEq, Repr

/-- `_sendmsg` for the row with the least id, and the time of it. -/
def PCWebsocket.sendFirst (s : PCWebsocket) (attempt : Attempt) : PCWebsocket :=
  match s.outbox.argmin OutboxRow.dbid with
  | none => s
  | some row =>
      if s.isconnected then
        match attempt.transmit with
        | .sent =>
            { s with transmitted := s.transmitted ++ [row], lastCacheSent := attempt.noted }
        | .refused => { s with lastCacheSent := attempt.noted }
        | .throws => s
      else { s with lastCacheSent := attempt.noted }

/-- `_send_cached`. -/
def PCWebsocket.sendCached (s : PCWebsocket) (attempt : Attempt) : PCWebsocket :=
  if s.lastCacheSent + 1000 ≤ attempt.now then s.sendFirst attempt else s

/-- The insertion of `send`; the name is in upper case. -/
def PCWebsocket.insert (s : PCWebsocket) (dbid : Nat) (msgname mdata : Octets) : PCWebsocket :=
  { s with outbox := s.outbox ++ [⟨dbid, msgname, mdata, s.sends⟩], sends := s.sends + 1 }

/-- `_delete_cached`. The message it sends when the table is empty is not a cached one. -/
def PCWebsocket.deleteCached (s : PCWebsocket) (msgid : Nat) : PCWebsocket :=
  { s with outbox := s.outbox.filter fun row => row.dbid ≠ msgid, lastCacheSent := 0 }

inductive WebsocketEvent where
  /-- `send` with caching. -/
  | send (msgname mdata : Octets) (timestamp : Nat) (randidx : Fin 10000) (attempt : Attempt)
  | timer (attempt : Attempt)
  | flushOutbox (attempt : Attempt)
  | isconnected (val : Bool)
  /-- A `RECIEVED` for the transmission of this number. -/
  | recieved (transmission : Nat) (attempt : Attempt)
  deriving DecidableEq, Repr

def PCWebsocket.step (s : PCWebsocket) : WebsocketEvent → PCWebsocket
  | .send msgname mdata timestamp randidx attempt =>
      (s.insert (newDbid timestamp randidx) msgname mdata).sendCached attempt
  | .timer attempt => s.sendCached attempt
  | .flushOutbox attempt => if s.isconnected then s.sendFirst attempt else s
  | .isconnected val => { s with isconnected := val }
  | .recieved transmission attempt =>
      match s.transmitted[transmission]? with
      | none => s
      | some row =>
          ({ s with recieved := s.recieved ++ [transmission] }.deleteCached row.dbid).sendCached
            attempt

/-! ### Order and delivery -/

def PCWebsocket.Transmitted (s : PCWebsocket) (serial : Nat) : Prop :=
  ∃ row ∈ s.transmitted, row.serial = serial

/-- Messages are transmitted for the first time in the order of their sends. -/
def PCWebsocket.InOrder (s : PCWebsocket) : Prop :=
  ∀ before row after, s.transmitted = before ++ row :: after →
    (∀ earlier ∈ before, earlier.serial ≠ row.serial) →
      ∀ earlier ∈ before, earlier.serial < row.serial

/-- A transmission of the message was acknowledged. -/
def PCWebsocket.Acknowledged (s : PCWebsocket) (serial : Nat) : Prop :=
  ∃ transmission ∈ s.recieved, ∃ row, s.transmitted[transmission]? = some row ∧
    row.serial = serial

/-- A message that was sent is in the outbox, or a transmission of it was acknowledged. -/
def PCWebsocket.Kept (s : PCWebsocket) : Prop :=
  ∀ serial < s.sends, (∃ row ∈ s.outbox, row.serial = serial) ∨ s.Acknowledged serial

/-- A new id is above those of all messages that wait for their first transmission; an
acknowledged id is that of no other message in the outbox. -/
def WebsocketEvent.OwnId (s : PCWebsocket) : WebsocketEvent → Prop
  | .send _ _ timestamp randidx _ =>
      ∀ row ∈ s.outbox, ¬ s.Transmitted row.serial → row.dbid < newDbid timestamp randidx
  | .recieved transmission _ =>
      ∀ row ∈ s.transmitted[transmission]?,
        ∀ other ∈ s.outbox, other.dbid = row.dbid → other.serial = row.serial
  | _ => True

instance (s : PCWebsocket) (serial : Nat) : Decidable (s.Transmitted serial) :=
  inferInstanceAs (Decidable (∃ row ∈ s.transmitted, row.serial = serial))

instance (s : PCWebsocket) (event : WebsocketEvent) : Decidable (event.OwnId s) :=
  match event with
  | .send _ _ timestamp randidx _ =>
      inferInstanceAs (Decidable (∀ row ∈ s.outbox, ¬ s.Transmitted row.serial →
        row.dbid < newDbid timestamp randidx))
  | .recieved transmission _ =>
      inferInstanceAs (Decidable (∀ row ∈ s.transmitted[transmission]?,
        ∀ other ∈ s.outbox, other.dbid = row.dbid → other.serial = row.serial))
  | .timer _ | .flushOutbox _ | .isconnected _ => instDecidableTrue

structure PCWebsocket.Inv (s : PCWebsocket) : Prop where
  serials : ∀ row ∈ s.outbox, row.serial < s.sends
  distinct : ∀ row ∈ s.outbox, ∀ other ∈ s.outbox, row.serial = other.serial → row = other
  sorted : ∀ row ∈ s.outbox, ∀ other ∈ s.outbox, ¬ s.Transmitted row.serial →
    ¬ s.Transmitted other.serial → row.serial < other.serial → row.dbid < other.dbid
  /-- What waits for its first transmission comes after what was transmitted. -/
  waits : ∀ row ∈ s.outbox, ¬ s.Transmitted row.serial →
    ∀ earlier ∈ s.transmitted, earlier.serial < row.serial
  issued : ∀ row ∈ s.transmitted, row.serial < s.sends
  inOrder : s.InOrder
  kept : s.Kept

theorem transmitted_append {s : PCWebsocket} {row : OutboxRow} {noted serial : Nat} :
    PCWebsocket.Transmitted
        { s with transmitted := s.transmitted ++ [row], lastCacheSent := noted } serial ↔
      s.Transmitted serial ∨ row.serial = serial := by
  simp only [PCWebsocket.Transmitted, List.mem_append, List.mem_singleton]
  grind

/-- A row at the end of the transmissions is in order when it was transmitted before, or when
all that were transmitted have smaller numbers. -/
theorem PCWebsocket.InOrder.append {s : PCWebsocket} (hOrder : s.InOrder) {row : OutboxRow}
    {noted : Nat} (hRow : ¬ s.Transmitted row.serial →
      ∀ earlier ∈ s.transmitted, earlier.serial < row.serial) :
    PCWebsocket.InOrder
      { s with transmitted := s.transmitted ++ [row], lastCacheSent := noted } := by
  intro before other after hSplit hFirst
  cases after using List.reverseRec with
  | nil =>
      obtain ⟨rfl, hOther⟩ := List.append_inj' hSplit rfl
      obtain rfl : row = other := by simpa using hOther
      exact hRow fun ⟨earlier, hMem, hSame⟩ => hFirst earlier hMem hSame
  | append_singleton after last _ =>
      have hInit : s.transmitted ++ [row] = (before ++ other :: after) ++ [last] := by
        simpa using hSplit
      exact hOrder before other after (List.append_inj' hInit rfl).1 hFirst

/-- The row with the least id: when it is new, nothing that waits was sent before it. -/
theorem PCWebsocket.Inv.transmit {s : PCWebsocket} (hInv : s.Inv) {row : OutboxRow}
    (hFirst : row ∈ s.outbox.argmin OutboxRow.dbid) (noted : Nat) :
    PCWebsocket.Inv
      { s with transmitted := s.transmitted ++ [row], lastCacheSent := noted } := by
  have hRow : row ∈ s.outbox := List.argmin_mem hFirst
  refine ⟨hInv.serials, hInv.distinct, ?_, ?_, ?_, ?_, ?_⟩
  · intro a hA b hB hNotA hNotB
    rw [transmitted_append, not_or] at hNotA hNotB
    exact hInv.sorted a hA b hB hNotA.1 hNotB.1
  · intro a hA hNotA earlier hEarlier
    rw [transmitted_append, not_or] at hNotA
    rcases List.mem_append.mp hEarlier with hOld | hNew
    · exact hInv.waits a hA hNotA.1 earlier hOld
    · obtain rfl := List.mem_singleton.mp hNew
      by_cases hAgain : s.Transmitted earlier.serial
      · obtain ⟨same, hSame, hEq⟩ := hAgain
        exact hEq ▸ hInv.waits a hA hNotA.1 same hSame
      · refine (Nat.lt_or_gt_of_ne hNotA.2).resolve_right fun hBefore => ?_
        have hLess := hInv.sorted a hA earlier hRow hNotA.1 hAgain hBefore
        exact absurd hLess (Nat.not_lt.mpr (List.le_of_mem_argmin hA hFirst))
  · intro a hA
    rcases List.mem_append.mp hA with hOld | hNew
    · exact hInv.issued a hOld
    · exact List.mem_singleton.mp hNew ▸ hInv.serials row hRow
  · exact hInv.inOrder.append (hInv.waits row hRow)
  · intro serial hSerial
    refine (hInv.kept serial hSerial).imp_right ?_
    rintro ⟨transmission, hReceived, sent, hSent, hSame⟩
    refine ⟨transmission, hReceived, sent, ?_, hSame⟩
    have hLength := (List.getElem?_eq_some_iff.mp hSent).1
    exact (List.getElem?_append_left hLength).trans hSent

theorem PCWebsocket.Inv.sendFirst {s : PCWebsocket} (hInv : s.Inv) (attempt : Attempt) :
    (s.sendFirst attempt).Inv := by
  rw [PCWebsocket.sendFirst]
  have hTime : PCWebsocket.Inv { s with lastCacheSent := attempt.noted } :=
    ⟨hInv.serials, hInv.distinct, hInv.sorted, hInv.waits, hInv.issued, hInv.inOrder, hInv.kept⟩
  split
  · exact hInv
  · next row hFirst =>
      split
      · split
        · exact hInv.transmit hFirst attempt.noted
        · exact hTime
        · exact hInv
      · exact hTime

theorem PCWebsocket.Inv.sendCached {s : PCWebsocket} (hInv : s.Inv) (attempt : Attempt) :
    (s.sendCached attempt).Inv := by
  rw [PCWebsocket.sendCached]
  split
  · exact hInv.sendFirst attempt
  · exact hInv

theorem PCWebsocket.Inv.insert {s : PCWebsocket} (hInv : s.Inv) {dbid : Nat}
    (hAbove : ∀ row ∈ s.outbox, ¬ s.Transmitted row.serial → row.dbid < dbid)
    (msgname mdata : Octets) : (s.insert dbid msgname mdata).Inv := by
  have hMem {row : OutboxRow} : row ∈ (s.insert dbid msgname mdata).outbox ↔
      row ∈ s.outbox ∨ row = ⟨dbid, msgname, mdata, s.sends⟩ := by
    simp [PCWebsocket.insert]
  have hSends : (s.insert dbid msgname mdata).sends = s.sends + 1 := rfl
  refine ⟨?_, ?_, ?_, ?_, ?_, hInv.inOrder, ?_⟩
  · intro row hRow
    rcases hMem.mp hRow with hOld | rfl
    · exact Nat.lt_succ_of_lt (hInv.serials row hOld)
    · exact Nat.lt_succ_self s.sends
  · intro row hRow other hOther hSame
    rcases hMem.mp hRow with hOld | rfl <;> rcases hMem.mp hOther with hOld' | rfl
    · exact hInv.distinct row hOld other hOld' hSame
    · exact absurd hSame (Nat.ne_of_lt (hInv.serials row hOld))
    · exact absurd hSame.symm (Nat.ne_of_lt (hInv.serials other hOld'))
    · rfl
  · intro row hRow other hOther hNot hNot' hLess
    rcases hMem.mp hRow with hOld | rfl <;> rcases hMem.mp hOther with hOld' | rfl
    · exact hInv.sorted row hOld other hOld' hNot hNot' hLess
    · exact hAbove row hOld hNot
    · exact absurd hLess (Nat.lt_asymm (hInv.serials other hOld'))
    · exact absurd hLess (Nat.lt_irrefl _)
  · intro row hRow hNot earlier hEarlier
    rcases hMem.mp hRow with hOld | rfl
    · exact hInv.waits row hOld hNot earlier hEarlier
    · exact hInv.issued earlier hEarlier
  · exact fun row hRow => Nat.lt_succ_of_lt (hInv.issued row hRow)
  · intro serial hSerial
    rcases Nat.lt_succ_iff_lt_or_eq.mp hSerial with hOld | rfl
    · refine (hInv.kept serial hOld).imp_left ?_
      exact fun ⟨row, hRow, hSame⟩ => ⟨row, hMem.mpr (.inl hRow), hSame⟩
    · exact .inl ⟨_, hMem.mpr (.inr rfl), rfl⟩

/-- What is deleted for an acknowledged transmission is the message that was transmitted. -/
theorem PCWebsocket.Inv.recieved {s : PCWebsocket} (hInv : s.Inv) {transmission : Nat}
    {row : OutboxRow} (hRow : s.transmitted[transmission]? = some row)
    (hOwn : ∀ other ∈ s.outbox, other.dbid = row.dbid → other.serial = row.serial) :
    ({ s with recieved := s.recieved ++ [transmission] }.deleteCached row.dbid).Inv := by
  have hOld {other : OutboxRow} (hMem : other ∈
      ({ s with recieved := s.recieved ++ [transmission] }.deleteCached row.dbid).outbox) :
      other ∈ s.outbox := (List.mem_filter.mp hMem).1
  refine ⟨fun a hA => hInv.serials a (hOld hA),
    fun a hA b hB => hInv.distinct a (hOld hA) b (hOld hB),
    fun a hA b hB => hInv.sorted a (hOld hA) b (hOld hB),
    fun a hA => hInv.waits a (hOld hA), hInv.issued, hInv.inOrder, ?_⟩
  intro serial hSerial
  rcases hInv.kept serial hSerial with ⟨a, hA, hSame⟩ | ⟨k, hReceived, sent, hSent, hSame⟩
  · by_cases hDeleted : a.dbid = row.dbid
    · refine .inr ⟨transmission, List.mem_append_right _ (List.mem_singleton.mpr rfl), row, hRow, ?_⟩
      exact (hOwn a hA hDeleted).symm.trans hSame
    · exact .inl ⟨a, List.mem_filter.mpr ⟨hA, by simpa using hDeleted⟩, hSame⟩
  · exact .inr ⟨k, List.mem_append_left _ hReceived, sent, hSent, hSame⟩

theorem PCWebsocket.Inv.step {s : PCWebsocket} (hInv : s.Inv) (event : WebsocketEvent)
    (hOwn : event.OwnId s) : (s.step event).Inv := by
  cases event with
  | send msgname mdata timestamp randidx attempt =>
      exact (hInv.insert hOwn msgname mdata).sendCached attempt
  | timer attempt => exact hInv.sendCached attempt
  | flushOutbox attempt =>
      rw [PCWebsocket.step]
      split
      · exact hInv.sendFirst attempt
      · exact hInv
  | isconnected val =>
      exact ⟨hInv.serials, hInv.distinct, hInv.sorted, hInv.waits, hInv.issued, hInv.inOrder,
        hInv.kept⟩
  | recieved transmission attempt =>
      rw [PCWebsocket.step]
      split
      · exact hInv
      · next row hRow => exact (hInv.recieved hRow (hOwn row hRow)).sendCached attempt

/-- In every run whose steps meet the condition: first transmissions are in the order of the
sends, what has left the outbox was transmitted and acknowledged, and so was everything when
the outbox is empty. -/
theorem outbox_delivers {s : PCWebsocket}
    (hRun : Reached PCWebsocket.step (fun s event => event.OwnId s) {} s) :
    s.InOrder ∧ s.Kept ∧ (s.outbox = [] → ∀ serial < s.sends, s.Acknowledged serial) := by
  have hStart : PCWebsocket.Inv {} := by
    refine ⟨by simp, by simp, by simp, by simp, by simp, ?_, fun serial hSerial => ?_⟩
    · intro before row after hSplit
      exact absurd hSplit (by simp)
    · exact absurd hSerial (Nat.not_lt_zero serial)
  have hInv := hRun.invariant hStart fun _ event hInv hOwn => hInv.step event hOwn
  refine ⟨hInv.inOrder, hInv.kept, fun hEmpty serial hSerial => ?_⟩
  refine (hInv.kept serial hSerial).resolve_left ?_
  simp [hEmpty]

/-- An attempt at this time that succeeds. -/
def attemptAt (now : Nat) : Attempt := ⟨now, now, .sent⟩

/-- A message that is sent and acknowledged, and then another one. -/
def oneAfterAnother : List WebsocketEvent :=
  [.isconnected true, .send (octets "A") [] 1700000000000 7 (attemptAt 1700000000000),
    .recieved 0 (attemptAt 1700000000100),
    .send (octets "B") [] 1700000000200 5 (attemptAt 1700000000200),
    .recieved 1 (attemptAt 1700000000300)]

theorem outbox_delivers_oneAfterAnother :
    (runEvents PCWebsocket.step {} oneAfterAnother).sends = 2 ∧
    ∀ serial < 2, (runEvents PCWebsocket.step {} oneAfterAnother).Acknowledged serial := by
  refine ⟨by decide +kernel, (outbox_delivers (s := runEvents PCWebsocket.step {} oneAfterAnother)
    (Reached.run _ _ .start ?_)).2.2 (by decide +kernel)⟩
  exact ⟨trivial, by decide +kernel, by decide +kernel, by decide +kernel, by decide +kernel,
    trivial⟩

/-- Two sends in one millisecond while there is no connection. -/
def twoSends (first second : Fin 10000) (connected : Bool) : List WebsocketEvent :=
  [.isconnected connected,
    .send (octets "A") [] 1700000000000 first (attemptAt 1700000000000),
    .send (octets "B") [] 1700000000000 second (attemptAt 1700000000000),
    .isconnected true, .timer (attemptAt 1700000002000), .recieved 0 (attemptAt 1700000002100)]

/-- The second message goes first, or goes never: it is deleted with the first one. -/
theorem outbox_swaps_and_loses :
    ¬ (runEvents PCWebsocket.step {} (twoSends 9000 2 false)).InOrder ∧
    (runEvents PCWebsocket.step {} (twoSends 5 5 true)).outbox = [] ∧
    ¬ (runEvents PCWebsocket.step {} (twoSends 5 5 true)).Transmitted 1 ∧
    ¬ (runEvents PCWebsocket.step {} (twoSends 5 5 true)).Kept := by
  have hEmpty : (runEvents PCWebsocket.step {} (twoSends 5 5 true)).outbox = [] := by decide +kernel
  have hNever : ¬ (runEvents PCWebsocket.step {} (twoSends 5 5 true)).Transmitted 1 := by
    decide +kernel
  refine ⟨fun hOrder => ?_, hEmpty, hNever, fun hKept => ?_⟩
  · have hBoth : (runEvents PCWebsocket.step {} (twoSends 9000 2 false)).transmitted =
        [⟨newDbid 1700000000000 2, octets "B", [], 1⟩] ++
          ⟨newDbid 1700000000000 9000, octets "A", [], 0⟩ :: [] := by decide +kernel
    have hBefore := hOrder _ _ _ hBoth (by decide) _ (List.mem_singleton.mpr rfl)
    exact absurd hBefore (by decide)
  · obtain ⟨row, hRow, _⟩ | ⟨k, _, row, hRow, hSame⟩ := hKept 1 (by decide +kernel)
    · exact absurd (hEmpty ▸ hRow) List.not_mem_nil
    · exact hNever ⟨row, List.mem_of_getElem? hRow, hSame⟩

end PageCamel.Web
