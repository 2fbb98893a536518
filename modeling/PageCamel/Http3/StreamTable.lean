import Mathlib.Data.Finset.Card
import Mathlib.Logic.Function.Basic
import PageCamel.Http3.ChunkBuffer
import PageCamel.Lib.Linked

/-!
The table of the streams of an HTTP/3 connection (`h3_connection.c`): 256 buckets of
linked streams in memory. A loop that follows pointers is given a number of turns; it has
no result when they run out, or when it would follow a pointer to freed memory. Ids are not
negative.
-/

namespace PageCamel.Http3
open PageCamel.Lib

/-- What is sent on a stream, of `h3_stream_t`. -/
structure StreamState where
  bodyBuffer : ChunkBuffer := {}
  responseHeadersSent : Bool := false
  responseEof : Bool := false
  deriving DecidableEq, Repr

/-- `h3_stream_t`. -/
structure H3Stream where
  streamId : Nat
  state : StreamState := {}
  next : Option Nat := none
  deriving DecidableEq, Repr

/-- `H3_STREAM_HASH_SIZE`. -/
abbrev streamHashSize : Nat := 256

def streamHash (streamId : Nat) : Fin streamHashSize :=
  ⟨streamId % streamHashSize, Nat.mod_lt _ (by decide)⟩

/-- `h3_stream_table_t`, with the memory its streams lie in. The counter cannot wrap: each
stream has an address of its own. -/
structure StreamTable where
  heap : Nat → Option H3Stream := fun _ => none
  buckets : Fin streamHashSize → Option Nat := fun _ => none
  count : Nat := 0

/-- `calloc`: an address where no stream lies, or none. -/
structure Calloc where
  calloc : (Nat → Option H3Stream) → Option Nat
  fresh : ∀ heap address, calloc heap = some address → heap address = none

namespace StreamTable

def findFrom (heap : Nat → Option H3Stream) (streamId : Nat) : Nat → Option Nat → Option (Option Nat)
  | 0, _ => none
  | _ + 1, none => some none
  | turns + 1, some address =>
      match heap address with
      | none => none
      | some stream =>
          if stream.streamId = streamId then some (some address)
          else findFrom heap streamId turns stream.next

/-- `h3_stream_find`. -/
def find (t : StreamTable) (streamId : Nat) : Option (Option Nat) :=
  findFrom t.heap streamId (t.count + 1) (t.buckets (streamHash streamId))

/-- The new stream goes to the head of its bucket. -/
def insert (t : StreamTable) (address streamId : Nat) : StreamTable :=
  { heap := Function.update t.heap address
      (some { streamId, next := t.buckets (streamHash streamId) })
    buckets := Function.update t.buckets (streamHash streamId) (some address)
    count := t.count + 1 }

/-- `h3_stream_create`. -/
def create (calloc : Calloc) (t : StreamTable) (streamId : Nat) :
    Option (StreamTable × Option Nat) :=
  (t.find streamId).map fun existing =>
    match existing with
    | some address => (t, some address)
    | none =>
        match calloc.calloc t.heap with
        | none => (t, none)
        | some address => (t.insert address streamId, some address)

/-- What `pp` points to. -/
inductive Slot where
  | bucket (i : Fin streamHashSize)
  | next (address : Nat)

def read (t : StreamTable) : Slot → Option Nat
  | .bucket i => t.buckets i
  | .next address => (t.heap address).bind (·.next)

def write (t : StreamTable) (pp : Slot) (pointer : Option Nat) : StreamTable :=
  match pp with
  | .bucket i => { t with buckets := Function.update t.buckets i pointer }
  | .next address =>
      { t with
        heap := Function.update t.heap address
          ((t.heap address).map fun stream => { stream with next := pointer }) }

/-- `h3_stream_free`, and the counter. -/
def free (t : StreamTable) (address : Nat) : StreamTable :=
  { t with heap := Function.update t.heap address none, count := t.count - 1 }

def removeFrom (t : StreamTable) (streamId : Nat) : Nat → Slot → Option StreamTable
  | 0, _ => none
  | turns + 1, pp =>
      match t.read pp with
      | none => some t
      | some address =>
          match t.heap address with
          | none => none
          | some stream =>
              if stream.streamId = streamId then some ((t.write pp stream.next).free address)
              else removeFrom t streamId turns (.next address)

/-- `h3_stream_remove`. -/
def remove (t : StreamTable) (streamId : Nat) : Option StreamTable :=
  t.removeFrom streamId (t.count + 1) (.bucket (streamHash streamId))

def freeChain : Nat → (Nat → Option H3Stream) → Option Nat → Option (Nat → Option H3Stream)
  | 0, _, _ => none
  | _ + 1, heap, none => some heap
  | turns + 1, heap, some address =>
      match heap address with
      | none => none
      | some stream => freeChain turns (Function.update heap address none) stream.next

/-- The loop over the buckets. -/
def cleanupFrom : List (Fin streamHashSize) → StreamTable → Option StreamTable
  | [], t => some { t with count := 0 }
  | i :: is, t =>
      (freeChain (t.count + 1) t.heap (t.buckets i)).bind fun heap =>
        cleanupFrom is { t with heap, buckets := Function.update t.buckets i none }

/-- `h3_stream_table_cleanup`. -/
def cleanup (t : StreamTable) : Option StreamTable := cleanupFrom (List.finRange _) t

/-- A caller changes a stream that it has found. -/
def modify (t : StreamTable) (address : Nat) (change : StreamState → StreamState) : StreamTable :=
  { t with
    heap := Function.update t.heap address
      ((t.heap address).map fun stream => { stream with state := change stream.state }) }

end StreamTable

/-! ### What the table is for -/

/-- A finite map: under an id lies the stream created last, and what is in it. -/
abbrev StreamMap := Nat → Option (Nat × StreamState)

/-- The table holds the map: every stream hangs in the bucket of its id, once, no memory is
lost, and the counter is the number of streams. Ids are unique, as the map has one stream for
an id. -/
structure StreamTable.HoldsIn (t : StreamTable) (m : StreamMap)
    (chains : Fin streamHashSize → List Nat) : Prop where
  chain : ∀ i, Linked H3Stream.next t.heap (t.buckets i) (chains i)
  nodup : ∀ i, (chains i).Nodup
  placed : ∀ i, ∀ a ∈ chains i, ∀ stream, t.heap a = some stream → streamHash stream.streamId = i
  reached : ∀ a stream, t.heap a = some stream → a ∈ chains (streamHash stream.streamId)
  maps : ∀ id a state, m id = some (a, state) ↔
    ∃ stream, t.heap a = some stream ∧ stream.streamId = id ∧ stream.state = state
  count : ∃ entries : Finset Nat,
    (∀ a, a ∈ entries ↔ ∃ stream, t.heap a = some stream) ∧ t.count = entries.card

def StreamTable.Holds (t : StreamTable) (m : StreamMap) : Prop := ∃ chains, t.HoldsIn m chains

namespace StreamTable

theorem Holds.start : Holds {} fun _ => none :=
  ⟨fun _ => [], fun _ => .nil, fun _ => List.nodup_nil, fun _ _ hMem => (by cases hMem),
    fun _ _ hSome => (by cases hSome), fun _ _ _ => ⟨fun h => (by cases h), fun ⟨_, h, _⟩ => (by cases h)⟩,
    ∅, fun _ => ⟨fun h => absurd h (Finset.notMem_empty _), fun ⟨_, h⟩ => (by cases h)⟩, rfl⟩

variable {t : StreamTable} {m : StreamMap} {chains : Fin streamHashSize → List Nat}

/-- No loop over a bucket runs out of turns. -/
theorem HoldsIn.length_le (h : t.HoldsIn m chains) (i : Fin streamHashSize) :
    (chains i).length ≤ t.count := by
  obtain ⟨entries, hEntries, hCount⟩ := h.count
  rw [hCount, ← List.toFinset_card_of_nodup (h.nodup i)]
  refine Finset.card_le_card fun a hMem => ?_
  exact (hEntries a).mpr ((h.chain i).alive (List.mem_toFinset.mp hMem))

/-- Two streams with one id are the same stream. -/
theorem HoldsIn.id_unique (h : t.HoldsIn m chains) {a b : Nat} {s s' : H3Stream}
    (hA : t.heap a = some s) (hB : t.heap b = some s') (hId : s.streamId = s'.streamId) :
    a = b := by
  have hFirst := (h.maps s.streamId a s.state).mpr ⟨s, hA, rfl, rfl⟩
  have hSecond := (h.maps s.streamId b s'.state).mpr ⟨s', hB, hId.symm, rfl⟩
  exact congrArg Prod.fst (Option.some.inj (hFirst.symm.trans hSecond))

theorem findFrom_spec {heap : Nat → Option H3Stream} {streamId turns : Nat} {p : Option Nat}
    {as : List Nat} (h : Linked H3Stream.next heap p as) (hTurns : as.length < turns) :
    findFrom heap streamId turns p =
      some (as.find? fun a => (heap a).any (·.streamId = streamId)) := by
  induction h generalizing turns with
  | nil =>
      obtain ⟨turns, rfl⟩ := Nat.exists_eq_succ_of_ne_zero (Nat.ne_zero_of_lt hTurns)
      rfl
  | @cons a stream rest hCell _ ih =>
      obtain ⟨turns, rfl⟩ := Nat.exists_eq_succ_of_ne_zero (Nat.ne_zero_of_lt hTurns)
      rw [findFrom, hCell, List.find?_cons, hCell]
      by_cases hId : stream.streamId = streamId
      · simp [hId]
      · simp [hId, ih (Nat.lt_of_succ_lt_succ hTurns)]

/-- `h3_stream_find` finds the stream of the map. -/
theorem HoldsIn.find (h : t.HoldsIn m chains) (streamId : Nat) :
    t.find streamId = some ((m streamId).map (·.1)) := by
  rw [StreamTable.find,
    findFrom_spec (h.chain _) (Nat.lt_succ_of_le (h.length_le (streamHash streamId)))]
  congr 1
  cases hMap : m streamId with
  | none =>
      rw [Option.map_none, List.find?_eq_none]
      intro a hMem hFound
      obtain ⟨stream, hCell⟩ := (h.chain _).alive hMem
      rw [hCell, Option.any_some, decide_eq_true_eq] at hFound
      have := (h.maps streamId a stream.state).mpr ⟨stream, hCell, hFound, rfl⟩
      rw [hMap] at this
      cases this
  | some entry =>
      obtain ⟨a, state⟩ := entry
      obtain ⟨stream, hCell, rfl, -⟩ := (h.maps _ _ _).mp hMap
      rw [Option.map_some]
      cases hFind : (chains (streamHash stream.streamId)).find?
          fun a => (t.heap a).any (·.streamId = stream.streamId) with
      | none =>
          have := List.find?_eq_none.mp hFind a (h.reached a stream hCell)
          simp [hCell] at this
      | some b =>
          have hFound := List.find?_some hFind
          obtain ⟨other, hOther⟩ := (h.chain _).alive (List.mem_of_find?_eq_some hFind)
          rw [hOther, Option.any_some, decide_eq_true_eq] at hFound
          rw [h.id_unique hOther hCell hFound]

/-! ### Creating -/

theorem update_some_iff {heap : Nat → Option H3Stream} {a : Nat} {stream : H3Stream} (b : Nat)
    (other : H3Stream) :
    Function.update heap a (some stream) b = some other ↔
      b = a ∧ other = stream ∨ b ≠ a ∧ heap b = some other := by
  by_cases hSame : b = a
  · subst hSame
    simp [eq_comm]
  · simp [hSame]

/-- A new stream at the head of its bucket. -/
theorem HoldsIn.insert (h : t.HoldsIn m chains) {address streamId : Nat}
    (hFresh : t.heap address = none) (hAbsent : m streamId = none) :
    (t.insert address streamId).HoldsIn (Function.update m streamId (some (address, {})))
      (Function.update chains (streamHash streamId) (address :: chains (streamHash streamId))) := by
  have hOutside (i : Fin streamHashSize) : address ∉ chains i := by
    intro hMem
    obtain ⟨stream, hCell⟩ := (h.chain i).alive hMem
    rw [hFresh] at hCell
    cases hCell
  have hSame (i : Fin streamHashSize) : ∀ a ∈ chains i,
      ((t.insert address streamId).heap a).map H3Stream.next = (t.heap a).map H3Stream.next := by
    intro a hMem
    rw [StreamTable.insert]
    dsimp only
    rw [Function.update_of_ne]
    rintro rfl
    exact hOutside i hMem
  constructor
  case chain =>
    intro i
    by_cases hBucket : i = streamHash streamId
    · subst hBucket
      simp only [StreamTable.insert, Function.update_self]
      refine .cons (Function.update_self ..) ?_
      exact (h.chain _).congr (hSame _)
    · simp only [StreamTable.insert, Function.update_of_ne hBucket]
      exact (h.chain i).congr (hSame i)
  case nodup =>
    intro i
    by_cases hBucket : i = streamHash streamId
    · subst hBucket
      rw [Function.update_self]
      exact List.nodup_cons.mpr ⟨hOutside _, h.nodup _⟩
    · rw [Function.update_of_ne hBucket]
      exact h.nodup i
  case placed =>
    intro i a hMem stream hCell
    rcases (update_some_iff a stream).mp hCell with ⟨rfl, rfl⟩ | ⟨hOther, hCell⟩
    · by_cases hBucket : i = streamHash streamId
      · exact hBucket.symm
      · rw [Function.update_of_ne hBucket] at hMem
        exact absurd hMem (hOutside i)
    · by_cases hBucket : i = streamHash streamId
      · subst hBucket
        rw [Function.update_self] at hMem
        exact h.placed _ a ((List.mem_cons.mp hMem).resolve_left hOther) stream hCell
      · rw [Function.update_of_ne hBucket] at hMem
        exact h.placed i a hMem stream hCell
  case reached =>
    intro a stream hCell
    rcases (update_some_iff a stream).mp hCell with ⟨rfl, rfl⟩ | ⟨-, hCell⟩
    · rw [Function.update_self]
      exact List.mem_cons_self
    · have hMem := h.reached a stream hCell
      by_cases hBucket : streamHash stream.streamId = streamHash streamId
      · rw [hBucket, Function.update_self]
        exact List.mem_cons_of_mem _ (hBucket ▸ hMem)
      · rw [Function.update_of_ne hBucket]
        exact hMem
  case maps =>
    intro id a state
    simp only [StreamTable.insert, update_some_iff]
    by_cases hId : id = streamId
    · subst hId
      rw [Function.update_self]
      constructor
      · intro hEntry
        cases hEntry
        exact ⟨_, .inl ⟨rfl, rfl⟩, rfl, rfl⟩
      · rintro ⟨stream, ⟨rfl, rfl⟩ | ⟨-, hCell⟩, hSameId, rfl⟩
        · rfl
        · have := (h.maps id a stream.state).mpr ⟨stream, hCell, hSameId, rfl⟩
          rw [hAbsent] at this
          cases this
    · rw [Function.update_of_ne hId, h.maps]
      constructor
      · rintro ⟨stream, hCell, hSameId, hState⟩
        refine ⟨stream, .inr ⟨?_, hCell⟩, hSameId, hState⟩
        rintro rfl
        rw [hFresh] at hCell
        cases hCell
      · rintro ⟨stream, ⟨rfl, rfl⟩ | ⟨-, hCell⟩, hSameId, hState⟩
        · exact absurd hSameId.symm hId
        · exact ⟨stream, hCell, hSameId, hState⟩
  case count =>
    obtain ⟨entries, hEntries, hCount⟩ := h.count
    refine ⟨Insert.insert address entries, fun a => ?_, ?_⟩
    · rw [Finset.mem_insert, hEntries]
      simp only [StreamTable.insert, update_some_iff]
      constructor
      · rintro (rfl | ⟨stream, hCell⟩)
        · exact ⟨_, .inl ⟨rfl, rfl⟩⟩
        · by_cases hSameAddress : a = address
          · exact ⟨_, .inl ⟨hSameAddress, rfl⟩⟩
          · exact ⟨stream, .inr ⟨hSameAddress, hCell⟩⟩
      · rintro ⟨stream, ⟨rfl, -⟩ | ⟨-, hCell⟩⟩
        · exact .inl rfl
        · exact .inr ⟨stream, hCell⟩
    · rw [Finset.card_insert_of_notMem, ← hCount]
      · rfl
      · rw [hEntries, hFresh]
        rintro ⟨_, hNone⟩
        cases hNone

/-! ### Removing -/

/-- What `pp` points to behind these streams. -/
def lastSlot (pp : Slot) : List Nat → Slot
  | [] => pp
  | a :: front => lastSlot (.next a) front

theorem lastSlot_concat (pp : Slot) (front : List Nat) (a : Nat) :
    lastSlot pp (front ++ [a]) = .next a := by
  induction front generalizing pp with
  | nil => rfl
  | cons b front ih => exact ih _

theorem removeFrom_absent {streamId turns : Nat} {pp : Slot} {as : List Nat}
    (h : Linked H3Stream.next t.heap (t.read pp) as) (hTurns : as.length < turns)
    (hAbsent : ∀ a ∈ as, ∀ stream, t.heap a = some stream → stream.streamId ≠ streamId) :
    t.removeFrom streamId turns pp = some t := by
  induction as generalizing turns pp with
  | nil =>
      obtain ⟨turns, rfl⟩ := Nat.exists_eq_succ_of_ne_zero (Nat.ne_zero_of_lt hTurns)
      generalize hRead : t.read pp = p at h
      cases h with
      | nil => rw [removeFrom, hRead]
  | cons a as ih =>
      obtain ⟨turns, rfl⟩ := Nat.exists_eq_succ_of_ne_zero (Nat.ne_zero_of_lt hTurns)
      generalize hRead : t.read pp = p at h
      cases h with
      | @cons _ stream _ hCell hRest =>
          have hNext : t.read (.next a) = stream.next := by rw [read, hCell, Option.bind_some]
          simp only [removeFrom, hRead, hCell, if_neg (hAbsent a List.mem_cons_self stream hCell)]
          exact ih (hNext ▸ hRest) (Nat.lt_of_succ_lt_succ hTurns)
            fun b hMem => hAbsent b (List.mem_cons_of_mem _ hMem)

theorem removeFrom_found {streamId turns : Nat} {pp : Slot} {front back : List Nat} {a : Nat}
    {stream : H3Stream} (h : Linked H3Stream.next t.heap (t.read pp) (front ++ a :: back))
    (hCell : t.heap a = some stream) (hId : stream.streamId = streamId)
    (hFront : ∀ b ∈ front, ∀ other, t.heap b = some other → other.streamId ≠ streamId)
    (hTurns : front.length < turns) :
    t.removeFrom streamId turns pp =
      some ((t.write (lastSlot pp front) stream.next).free a) := by
  induction front generalizing turns pp with
  | nil =>
      obtain ⟨turns, rfl⟩ := Nat.exists_eq_succ_of_ne_zero (Nat.ne_zero_of_lt hTurns)
      generalize hRead : t.read pp = p at h
      cases h with
      | cons _ _ => simp only [removeFrom, hRead, hCell, if_pos hId, lastSlot]
  | cons b front ih =>
      obtain ⟨turns, rfl⟩ := Nat.exists_eq_succ_of_ne_zero (Nat.ne_zero_of_lt hTurns)
      generalize hRead : t.read pp = p at h
      cases h with
      | @cons _ other _ hOther hRest =>
          have hNext : t.read (.next b) = other.next := by rw [read, hOther, Option.bind_some]
          simp only [removeFrom, hRead, hOther, if_neg (hFront b List.mem_cons_self other hOther),
            lastSlot]
          exact ih (hNext ▸ hRest) (fun c hMem => hFront c (List.mem_cons_of_mem _ hMem))
            (Nat.lt_of_succ_lt_succ hTurns)

/-- What remains of a stream when its pointer is left out. -/
def core (stream : H3Stream) : Nat × StreamState := (stream.streamId, stream.state)

/-- The streams but one, each as it was but for its pointer. -/
structure Without (t t' : StreamTable) (address : Nat) : Prop where
  gone : t'.heap address = none
  others : ∀ b, b ≠ address → (t'.heap b).map core = (t.heap b).map core
  count : t'.count = t.count - 1

theorem Without.some_iff {t' : StreamTable} {address : Nat} (h : Without t t' address) (b : Nat)
    (id : Nat) (state : StreamState) :
    (∃ stream, t'.heap b = some stream ∧ stream.streamId = id ∧ stream.state = state) ↔
      b ≠ address ∧ ∃ stream, t.heap b = some stream ∧ stream.streamId = id ∧ stream.state = state := by
  have hCore (heap : Nat → Option H3Stream) :
      (∃ stream, heap b = some stream ∧ stream.streamId = id ∧ stream.state = state) ↔
        (heap b).map core = some (id, state) := by
    simp [core, Option.map_eq_some_iff]
  by_cases hSame : b = address
  · subst hSame
    simp [h.gone]
  · rw [hCore, hCore, h.others b hSame]
    exact (and_iff_right hSame).symm

theorem without_unlink {pp : Slot} {address : Nat} {pointer : Option Nat}
    (hOther : pp ≠ .next address) : Without t ((t.write pp pointer).free address) address := by
  constructor
  case gone => exact Function.update_self ..
  case others =>
    intro b hb
    simp only [free, Function.update_of_ne hb]
    cases pp with
    | bucket i => rfl
    | next a =>
        by_cases hSame : b = a
        · subst hSame
          simp only [write, Function.update_self, Option.map_map]
          rfl
        · simp only [write, Function.update_of_ne hSame]
  case count => cases pp <;> rfl

/-- The streams without one, linked without it, hold the map without it. -/
theorem HoldsIn.without (h : t.HoldsIn m chains) {t' : StreamTable} {address streamId : Nat}
    {stream : H3Stream} (hCell : t.heap address = some stream) (hId : stream.streamId = streamId)
    {front back : List Nat} (hSplit : chains (streamHash streamId) = front ++ address :: back)
    (hWithout : Without t t' address)
    (hChain : ∀ i, Linked H3Stream.next t'.heap (t'.buckets i)
      (Function.update chains (streamHash streamId) (front ++ back) i)) :
    t'.HoldsIn (Function.update m streamId none)
      (Function.update chains (streamHash streamId) (front ++ back)) := by
  have hNodup := h.nodup (streamHash streamId)
  rw [hSplit] at hNodup
  have hCellOf (b : Nat) (other : H3Stream) (hOther : t'.heap b = some other) :
      b ≠ address ∧ ∃ old, t.heap b = some old ∧ old.streamId = other.streamId ∧
        old.state = other.state :=
    (hWithout.some_iff b _ _).mp ⟨other, hOther, rfl, rfl⟩
  -- what remains is what was there, but the one stream
  have hRemains (i : Fin streamHashSize) (b : Nat) :
      b ∈ Function.update chains (streamHash streamId) (front ++ back) i ↔
        b ≠ address ∧ b ∈ chains i := by
    by_cases hBucket : i = streamHash streamId
    · subst hBucket
      rw [Function.update_self, hSplit, List.mem_append, List.mem_append, List.mem_cons]
      rw [List.nodup_append, List.nodup_cons] at hNodup
      constructor
      · rintro (hMem | hMem)
        · exact ⟨fun hSame => hNodup.2.2 b hMem address List.mem_cons_self hSame, .inl hMem⟩
        · exact ⟨fun hSame => hNodup.2.1.1 (hSame ▸ hMem), .inr (.inr hMem)⟩
      · rintro ⟨hOther, hMem | hSame | hMem⟩
        · exact .inl hMem
        · exact absurd hSame hOther
        · exact .inr hMem
    · rw [Function.update_of_ne hBucket]
      refine (and_iff_right_of_imp fun hMem hSame => hBucket ?_).symm
      subst hSame
      rw [← h.placed i b hMem stream hCell, hId]
  constructor
  case chain => exact hChain
  case nodup =>
    intro i
    by_cases hBucket : i = streamHash streamId
    · subst hBucket
      rw [Function.update_self]
      exact hNodup.sublist ((List.sublist_cons_self address back).append_left front)
    · rw [Function.update_of_ne hBucket]
      exact h.nodup i
  case placed =>
    intro i b hMem other hOther
    obtain ⟨-, old, hOld, hSameId, -⟩ := hCellOf b other hOther
    rw [← hSameId]
    exact h.placed i b ((hRemains i b).mp hMem).2 old hOld
  case reached =>
    intro b other hOther
    obtain ⟨hNe, old, hOld, hSameId, -⟩ := hCellOf b other hOther
    rw [hRemains, ← hSameId]
    exact ⟨hNe, h.reached b old hOld⟩
  case maps =>
    intro id b state
    rw [hWithout.some_iff]
    by_cases hSame : id = streamId
    · subst hSame
      rw [Function.update_self]
      refine ⟨fun hNone => (by cases hNone), ?_⟩
      rintro ⟨hNe, old, hOld, hSameId, -⟩
      exact absurd (h.id_unique hOld hCell (hSameId.trans hId.symm)) hNe
    · rw [Function.update_of_ne hSame, h.maps]
      refine (and_iff_right_of_imp ?_).symm
      rintro ⟨old, hOld, hOldId, -⟩ rfl
      rw [hCell] at hOld
      cases hOld
      exact hSame (hOldId.symm.trans hId)
  case count =>
    obtain ⟨entries, hEntries, hCount⟩ := h.count
    refine ⟨entries.erase address, fun b => ?_, ?_⟩
    · rw [Finset.mem_erase, hEntries]
      constructor
      · rintro ⟨hNe, old, hOld⟩
        obtain ⟨other, hOther, -⟩ := (hWithout.some_iff b _ _).mpr ⟨hNe, old, hOld, rfl, rfl⟩
        exact ⟨other, hOther⟩
      · rintro ⟨other, hOther⟩
        obtain ⟨hNe, old, hOld, -⟩ := hCellOf b other hOther
        exact ⟨hNe, old, hOld⟩
    · rw [hWithout.count, hCount, Finset.card_erase_of_mem]
      exact (hEntries address).mpr ⟨stream, hCell⟩

/-- No other bucket has a stream of this one. -/
theorem HoldsIn.not_mem (h : t.HoldsIn m chains) {i k : Fin streamHashSize} (hOther : i ≠ k) {b : Nat}
    (hMem : b ∈ chains k) : b ∉ chains i := by
  intro hIn
  obtain ⟨stream, hCell⟩ := (h.chain k).alive hMem
  exact hOther ((h.placed i b hIn stream hCell).symm.trans (h.placed k b hMem stream hCell))

/-- The bucket is linked without the stream, and the other buckets as before. -/
theorem HoldsIn.chain_unlink (h : t.HoldsIn m chains) {k : Fin streamHashSize} {a : Nat}
    {stream : H3Stream} (hCell : t.heap a = some stream) {front back : List Nat}
    (hSplit : chains k = front ++ a :: back) (i : Fin streamHashSize) :
    let t' := (t.write (lastSlot (.bucket k) front) stream.next).free a
    Linked H3Stream.next t'.heap (t'.buckets i) (Function.update chains k (front ++ back) i) := by
  have hChain := h.chain k
  have hNodup := h.nodup k
  have hOutside (hBucket : i ≠ k) {b : Nat} (hIn : b ∈ front ++ a :: back) : ∀ c ∈ chains i, c ≠ b :=
    fun c hMem hSame => h.not_mem hBucket (hSplit ▸ hIn) (hSame ▸ hMem)
  rw [hSplit] at hChain hNodup
  dsimp only
  rcases List.eq_nil_or_concat front with rfl | ⟨front, b, rfl⟩
  · -- the stream is at the head of its bucket
    have hHeap : ((t.write (.bucket k) stream.next).free a).heap = Function.update t.heap a none := rfl
    rw [lastSlot, hHeap]
    by_cases hBucket : i = k
    · subst hBucket
      simp only [free, write, Function.update_self]
      refine (hChain.tail hCell).congr fun c hMem => ?_
      rw [Function.update_of_ne]
      exact fun hSame => (List.nodup_cons.mp hNodup).1 (hSame ▸ hMem)
    · simp only [free, write, Function.update_of_ne hBucket]
      refine (h.chain i).congr fun c hMem => ?_
      rw [Function.update_of_ne (hOutside hBucket List.mem_cons_self c hMem)]
  · -- the stream before it gets its pointer
    rw [List.concat_eq_append] at *
    rw [List.append_assoc, List.singleton_append] at hChain hNodup hOutside
    rw [lastSlot_concat]
    obtain ⟨before, hBefore⟩ := hChain.alive (by simp : b ∈ front ++ b :: a :: back)
    have hApart : b ≠ a ∧ ∀ c ∈ front ++ back, c ≠ a ∧ c ≠ b := by
      rw [List.nodup_append, List.nodup_cons, List.nodup_cons] at hNodup
      obtain ⟨-, ⟨hB, hA, -⟩, hFront⟩ := hNodup
      refine ⟨fun hSame => hB (hSame ▸ List.mem_cons_self), fun c hMem => ?_⟩
      rcases List.mem_append.mp hMem with hMem | hMem
      · exact ⟨hFront c hMem a (by simp), hFront c hMem b (by simp)⟩
      · exact ⟨fun hSame => hA (hSame ▸ hMem),
          fun hSame => hB (hSame ▸ List.mem_cons_of_mem _ hMem)⟩
    have hHeap (c : Nat) (hA : c ≠ a) (hB : c ≠ b) :
        ((t.write (.next b) stream.next).free a).heap c = t.heap c := by
      simp only [free, write, Function.update_of_ne hA, Function.update_of_ne hB]
    have hBuckets : ((t.write (.next b) stream.next).free a).buckets = t.buckets := rfl
    rw [hBuckets]
    by_cases hBucket : i = k
    · subst hBucket
      rw [Function.update_self, List.append_assoc, List.singleton_append]
      have hWritten : ((t.write (.next b) stream.next).free a).heap b =
          some { before with next := stream.next } := by
        simp only [free, write, Function.update_of_ne hApart.1, Function.update_self, hBefore,
          Option.map_some]
      exact hChain.unlink hCell hWritten rfl fun c hMem => by
        rw [hHeap c (hApart.2 c hMem).1 (hApart.2 c hMem).2]
    · rw [Function.update_of_ne hBucket]
      refine (h.chain i).congr fun c hMem => ?_
      rw [hHeap c (hOutside hBucket (by simp) c hMem) (hOutside hBucket (by simp) c hMem)]

/-- `h3_stream_remove` takes out the stream with the id, if there is one. -/
theorem HoldsIn.remove (h : t.HoldsIn m chains) (streamId : Nat) :
    ∃ t', t.remove streamId = some t' ∧ t'.Holds (Function.update m streamId none) := by
  have hChain := h.chain (streamHash streamId)
  have hLength := Nat.lt_succ_of_le (h.length_le (streamHash streamId))
  cases hMap : m streamId with
  | none =>
      refine ⟨t, removeFrom_absent hChain hLength ?_, chains, ?_⟩
      · intro a _ stream hCell hId
        have := (h.maps streamId a stream.state).mpr ⟨stream, hCell, hId, rfl⟩
        rw [hMap] at this
        cases this
      · rw [← hMap, Function.update_eq_self]
        exact h
  | some entry =>
      obtain ⟨a, state⟩ := entry
      obtain ⟨stream, hCell, hId, -⟩ := (h.maps _ _ _).mp hMap
      have hMem := h.reached a stream hCell
      rw [hId] at hMem
      obtain ⟨front, back, hSplit⟩ := List.append_of_mem hMem
      have hNodup := h.nodup (streamHash streamId)
      rw [hSplit] at hChain hLength hNodup
      have hFront : ∀ b ∈ front, b ≠ a := by
        rw [List.nodup_append] at hNodup
        exact fun b hb => hNodup.2.2 b hb a List.mem_cons_self
      have hFound : t.remove streamId =
          some ((t.write (lastSlot (.bucket (streamHash streamId)) front) stream.next).free a) := by
        rw [List.length_append] at hLength
        refine removeFrom_found hChain hCell hId (fun b hb other hOther hSame => ?_) (by omega)
        exact hFront b hb (h.id_unique hOther hCell (hSame.trans hId.symm))
      refine ⟨_, hFound, _, h.without hCell hId hSplit (without_unlink ?_) (h.chain_unlink hCell hSplit)⟩
      rcases List.eq_nil_or_concat front with rfl | ⟨front, b, rfl⟩
      · exact fun hSlot => by cases hSlot
      · rw [List.concat_eq_append, lastSlot_concat]
        rintro ⟨⟩
        exact hFront _ (by simp) rfl

/-! ### Removing all -/

theorem freeChain_spec {heap : Nat → Option H3Stream} {p : Option Nat} {as : List Nat}
    {turns : Nat} (h : Linked H3Stream.next heap p as) (hNodup : as.Nodup)
    (hTurns : as.length < turns) :
    freeChain turns heap p = some fun a => if a ∈ as then none else heap a := by
  induction as generalizing turns heap p with
  | nil =>
      obtain ⟨turns, rfl⟩ := Nat.exists_eq_succ_of_ne_zero (Nat.ne_zero_of_lt hTurns)
      cases h
      simp [freeChain]
  | cons a as ih =>
      obtain ⟨turns, rfl⟩ := Nat.exists_eq_succ_of_ne_zero (Nat.ne_zero_of_lt hTurns)
      cases h with
      | cons hCell hRest =>
          rw [List.nodup_cons] at hNodup
          simp only [freeChain, hCell]
          rw [ih (hRest.congr fun b hMem => ?_) hNodup.2 (Nat.lt_of_succ_lt_succ hTurns)]
          · congr 1
            funext b
            by_cases hSame : b = a
            · subst hSame
              simp
            · simp [hSame]
          · rw [Function.update_of_ne]
            rintro rfl
            exact hNodup.1 hMem

/-- The buckets that are left hold all streams, and the others are empty. -/
theorem cleanupFrom_spec {is : List (Fin streamHashSize)} :
    ∀ {t : StreamTable}, is.Nodup →
      (∀ i ∈ is, Linked H3Stream.next t.heap (t.buckets i) (chains i) ∧ (chains i).Nodup ∧
        (chains i).length ≤ t.count) →
      (∀ i k, i ≠ k → ∀ a ∈ chains k, a ∉ chains i) → (∀ i, i ∉ is → t.buckets i = none) →
      (∀ a stream, t.heap a = some stream → ∃ i ∈ is, a ∈ chains i) →
      cleanupFrom is t = some {} := by
  induction is with
  | nil =>
      intro t _ _ _ hBuckets hAll
      have hHeap : t.heap = fun _ => none := by
        funext a
        cases hCell : t.heap a with
        | none => rfl
        | some stream =>
            obtain ⟨i, hMem, -⟩ := hAll a stream hCell
            cases hMem
      have hNone : t.buckets = fun _ => none := funext fun i => hBuckets i List.not_mem_nil
      rw [cleanupFrom, hHeap, hNone]
  | cons i is ih =>
      intro t hNodup hChains hApart hBuckets hAll
      obtain ⟨hChain, hDistinct, hLength⟩ := hChains i List.mem_cons_self
      rw [List.nodup_cons] at hNodup
      rw [cleanupFrom, freeChain_spec hChain hDistinct (Nat.lt_succ_of_le hLength), Option.bind_some]
      refine ih hNodup.2 (fun k hMem => ?_) hApart (fun k hMem => ?_) fun a stream hCell => ?_
      · have hOther : k ≠ i := fun hSame => hNodup.1 (hSame ▸ hMem)
        obtain ⟨hChain', hDistinct', hLength'⟩ := hChains k (List.mem_cons_of_mem _ hMem)
        refine ⟨?_, hDistinct', hLength'⟩
        dsimp only
        rw [Function.update_of_ne hOther]
        refine hChain'.congr fun a hIn => ?_
        rw [if_neg (hApart i k hOther.symm a hIn)]
      · dsimp only
        by_cases hSame : k = i
        · rw [hSame, Function.update_self]
        · rw [Function.update_of_ne hSame]
          exact hBuckets k fun hIn => hMem ((List.mem_cons.mp hIn).resolve_left hSame)
      · dsimp only at hCell
        split at hCell
        · cases hCell
        · next hKept =>
            obtain ⟨k, hMem, hIn⟩ := hAll a stream hCell
            rcases List.mem_cons.mp hMem with rfl | hMem
            · exact absurd hIn hKept
            · exact ⟨k, hMem, hIn⟩

/-- `h3_stream_table_cleanup` leaves an empty table. -/
theorem HoldsIn.cleanup (h : t.HoldsIn m chains) : t.cleanup = some {} :=
  cleanupFrom_spec (List.nodup_finRange _) (fun i _ => ⟨h.chain i, h.nodup i, h.length_le i⟩)
    (fun _ _ hOther _ hMem => h.not_mem hOther hMem)
    (fun i hMem => absurd (List.mem_finRange i) hMem)
    fun a stream hCell => ⟨_, List.mem_finRange _, h.reached a stream hCell⟩

/-! ### Changing a stream -/

/-- A change of one stream leaves the table as it is, and the other streams. -/
theorem HoldsIn.modify (h : t.HoldsIn m chains) {a streamId : Nat} {state : StreamState}
    (hMap : m streamId = some (a, state)) (change : StreamState → StreamState) :
    (t.modify a change).HoldsIn (Function.update m streamId (some (a, change state))) chains := by
  obtain ⟨stream, hCell, rfl, rfl⟩ := (h.maps _ _ _).mp hMap
  have hHeap (b : Nat) (other : H3Stream) : (t.modify a change).heap b = some other ↔
      b = a ∧ other = { stream with state := change stream.state } ∨ b ≠ a ∧ t.heap b = some other := by
    rw [StreamTable.modify, hCell]
    exact update_some_iff b other
  -- the old stream at the address of a new one
  have hOld (b : Nat) (other : H3Stream) (hOther : (t.modify a change).heap b = some other) :
      ∃ old, t.heap b = some old ∧ old.streamId = other.streamId := by
    rcases (hHeap b other).mp hOther with ⟨rfl, rfl⟩ | ⟨-, hCell'⟩
    · exact ⟨stream, hCell, rfl⟩
    · exact ⟨other, hCell', rfl⟩
  constructor
  case chain =>
    intro i
    refine (h.chain i).congr fun b _ => ?_
    by_cases hSame : b = a
    · subst hSame
      simp only [StreamTable.modify, Function.update_self, Option.map_map]
      rfl
    · simp only [StreamTable.modify, Function.update_of_ne hSame]
  case nodup => exact h.nodup
  case placed =>
    intro i b hMem other hOther
    obtain ⟨old, hOldCell, hId⟩ := hOld b other hOther
    rw [← hId]
    exact h.placed i b hMem old hOldCell
  case reached =>
    intro b other hOther
    obtain ⟨old, hOldCell, hId⟩ := hOld b other hOther
    rw [← hId]
    exact h.reached b old hOldCell
  case maps =>
    intro id b state
    simp only [hHeap]
    by_cases hId : id = stream.streamId
    · subst hId
      rw [Function.update_self]
      constructor
      · rintro ⟨⟩
        exact ⟨_, .inl ⟨rfl, rfl⟩, rfl, rfl⟩
      · rintro ⟨other, ⟨rfl, rfl⟩ | ⟨hNe, hOther⟩, hSameId, rfl⟩
        · rfl
        · exact absurd (h.id_unique hOther hCell hSameId) hNe
    · rw [Function.update_of_ne hId, h.maps]
      constructor
      · rintro ⟨other, hOther, hSameId, hState⟩
        refine ⟨other, .inr ⟨?_, hOther⟩, hSameId, hState⟩
        rintro rfl
        cases hCell.symm.trans hOther
        exact hId hSameId.symm
      · rintro ⟨other, ⟨rfl, rfl⟩ | ⟨-, hOther⟩, hSameId, hState⟩
        · exact absurd hSameId.symm hId
        · exact ⟨other, hOther, hSameId, hState⟩
  case count =>
    obtain ⟨entries, hEntries, hCount⟩ := h.count
    refine ⟨entries, fun b => ?_, hCount⟩
    rw [hEntries]
    constructor
    · rintro ⟨old, hOldCell⟩
      by_cases hSame : b = a
      · exact ⟨_, (hHeap b _).mpr (.inl ⟨hSame, rfl⟩)⟩
      · exact ⟨old, (hHeap b _).mpr (.inr ⟨hSame, hOldCell⟩)⟩
    · rintro ⟨other, hOther⟩
      obtain ⟨old, hOldCell, -⟩ := hOld b other hOther
      exact ⟨old, hOldCell⟩

end StreamTable

/-! ### Any sequence of operations -/

inductive TableOp where
  | create (calloc : Calloc) (streamId : Nat)
  | find (streamId : Nat)
  | remove (streamId : Nat)
  | cleanup
  /-- What is found is changed. -/
  | modify (streamId : Nat) (change : StreamState → StreamState)

namespace TableOp

/-- The table after the call, and the pointer it returned. -/
def apply (t : StreamTable) : TableOp → Option (StreamTable × Option Nat)
  | .create calloc streamId => t.create calloc streamId
  | .find streamId => (t.find streamId).map fun found => (t, found)
  | .remove streamId => (t.remove streamId).map fun t' => (t', none)
  | .cleanup => t.cleanup.map fun t' => (t', none)
  | .modify streamId change =>
      (t.find streamId).map fun found =>
        match found with
        | none => (t, none)
        | some address => (t.modify address change, some address)

def run : StreamTable → List TableOp → Option (StreamTable × List (Option Nat))
  | t, [] => some (t, [])
  | t, op :: ops =>
      (op.apply t).bind fun called =>
        (run called.1 ops).map fun rest => (rest.1, called.2 :: rest.2)

/-- What an operation does to a map. A new stream is where `calloc` has put it, is none of those
there are, and is empty; it is refused where `calloc` has no memory. -/
inductive MapStep (heap : Nat → Option H3Stream) (m : StreamMap) :
    TableOp → Option Nat → StreamMap → Prop
  | existing {calloc : Calloc} {streamId address : Nat} {state : StreamState}
      (hThere : m streamId = some (address, state)) :
      MapStep heap m (.create calloc streamId) (some address) m
  | created {calloc : Calloc} {streamId address : Nat} (hAbsent : m streamId = none)
      (hCalloc : calloc.calloc heap = some address)
      (hNew : ∀ other state, m other ≠ some (address, state)) :
      MapStep heap m (.create calloc streamId) (some address)
        (Function.update m streamId (some (address, {})))
  | refused {calloc : Calloc} {streamId : Nat} (hAbsent : m streamId = none)
      (hCalloc : calloc.calloc heap = none) :
      MapStep heap m (.create calloc streamId) none m
  | find (streamId : Nat) : MapStep heap m (.find streamId) ((m streamId).map (·.1)) m
  | remove (streamId : Nat) :
      MapStep heap m (.remove streamId) none (Function.update m streamId none)
  | cleanup : MapStep heap m .cleanup none fun _ => none
  | modify (streamId : Nat) (change : StreamState → StreamState) :
      MapStep heap m (.modify streamId change) ((m streamId).map (·.1))
        (Function.update m streamId ((m streamId).map fun entry => (entry.1, change entry.2)))

/-- The calls on the table next to those on the map. The table only tells `calloc` what is taken. -/
inductive MapRun : StreamTable → StreamMap → List TableOp → List (Option Nat) →
    StreamTable → StreamMap → Prop
  | nil (t : StreamTable) (m : StreamMap) : MapRun t m [] [] t m
  | cons {t t' t'' : StreamTable} {m m' m'' : StreamMap} {op : TableOp} {ops : List TableOp}
      {result : Option Nat} {results : List (Option Nat)}
      (hApply : op.apply t = some (t', result)) (hStep : MapStep t.heap m op result m')
      (hRest : MapRun t' m' ops results t'' m'') :
      MapRun t m (op :: ops) (result :: results) t'' m''

theorem apply_spec {t : StreamTable} {m : StreamMap} (h : t.Holds m) (op : TableOp) :
    ∃ t' result m', op.apply t = some (t', result) ∧ MapStep t.heap m op result m' ∧
      t'.Holds m' := by
  obtain ⟨chains, h⟩ := h
  cases op with
  | create calloc streamId =>
      rw [apply, StreamTable.create, h.find]
      cases hMap : m streamId with
      | some entry => exact ⟨t, _, m, rfl, .existing hMap, chains, h⟩
      | none =>
          cases hCalloc : calloc.calloc t.heap with
          | none =>
              refine ⟨t, none, m, ?_, .refused hMap hCalloc, chains, h⟩
              simp only [Option.map_none, Option.map_some]
          | some address =>
              have hFresh := calloc.fresh _ _ hCalloc
              refine ⟨_, some address, _, ?_, .created hMap hCalloc fun other state hThere => ?_,
                _, h.insert hFresh hMap⟩
              · simp only [Option.map_none, Option.map_some]
              · obtain ⟨stream, hCell, -⟩ := (h.maps _ _ _).mp hThere
                rw [hFresh] at hCell
                cases hCell
  | find streamId =>
      refine ⟨t, _, m, ?_, .find streamId, chains, h⟩
      rw [apply, h.find, Option.map_some]
  | remove streamId =>
      obtain ⟨t', hRemove, hHolds⟩ := h.remove streamId
      refine ⟨t', none, _, ?_, .remove streamId, hHolds⟩
      rw [apply, hRemove, Option.map_some]
  | cleanup =>
      refine ⟨{}, none, _, ?_, .cleanup, .start⟩
      rw [apply, h.cleanup, Option.map_some]
  | modify streamId change =>
      have hStep := @MapStep.modify t.heap m streamId change
      cases hMap : m streamId with
      | none =>
          rw [hMap, Option.map_none, Option.map_none, ← hMap, Function.update_eq_self] at hStep
          refine ⟨t, _, m, ?_, hStep, chains, h⟩
          rw [apply, h.find, hMap]
          rfl
      | some entry =>
          rw [hMap] at hStep
          refine ⟨_, _, _, ?_, hStep, chains, h.modify hMap change⟩
          rw [apply, h.find, hMap]
          rfl

theorem run_spec (ops : List TableOp) : ∀ {t : StreamTable} {m : StreamMap}, t.Holds m →
    ∃ t' results m', run t ops = some (t', results) ∧ MapRun t m ops results t' m' ∧
      t'.Holds m' := by
  induction ops with
  | nil => exact fun h => ⟨_, [], _, rfl, .nil _ _, h⟩
  | cons op ops ih =>
      intro t m h
      obtain ⟨t', result, m', hApply, hStep, h'⟩ := apply_spec h op
      obtain ⟨t'', results, m'', hRun, hRest, h''⟩ := ih h'
      refine ⟨t'', _, m'', ?_, .cons hApply hStep hRest, h''⟩
      rw [run, hApply, Option.bind_some, hRun, Option.map_some]

/-- The table is a finite map, whatever is done with it: every call comes to an end with the
result that the map has, and the buckets, the ids and the counter are right. -/
theorem table_refines_map (ops : List TableOp) :
    ∃ t results m, run {} ops = some (t, results) ∧
      MapRun {} (fun _ => none) ops results t m ∧ t.Holds m :=
  run_spec ops .start

end TableOp

end PageCamel.Http3
