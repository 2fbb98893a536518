import PageCamel.Lib.Octets
import PageCamel.Lib.Runs
import Mathlib.Data.List.AList

/-!
The connections to the backend that `BaseHTTPHandler.pm` keeps: those assigned to
streams, in a table and its reverse, those in the pool, and the requests that wait
for one.
-/

namespace PageCamel.Frontend
open PageCamel.Lib

/-! ### The operations -/

/-- What the sockets answer during an operation: the outcome of each liveness probe,
and that of a connection attempt while the given sockets are in use. -/
structure Sockets where
  alive : Nat → Bool
  connect : List Nat → Option Nat
  fresh : ∀ inUse b, connect inUse = some b → b ∉ inUse

/-- An entry `[$streamId, $request, $state]` of the queue. -/
structure WaitingStream (σ : Type) where
  streamId : Nat
  request : Octets
  state : σ
  deriving DecidableEq, Repr

/-- The state `initPooling` sets up. The end of the array `backendPool` comes first. -/
structure BackendPool (σ : Type) where
  streamBackends : AList fun _ : Nat => Nat := ∅
  backendToStream : AList fun _ : Nat => Nat := ∅
  backendPool : List Nat := []
  waitingForBackend : List (WaitingStream σ) := []

def maxPoolSize : Nat := 32

variable {σ : Type}

/-- The sockets in use. -/
def BackendPool.connections (p : BackendPool σ) : List Nat :=
  p.streamBackends.entries.map (·.2) ++ p.backendPool

def BackendPool.activeBackends (p : BackendPool σ) : Nat := p.streamBackends.keys.length

def BackendPool.setPool (p : BackendPool σ) (pool : List Nat) : BackendPool σ :=
  { p with backendPool := pool }

def BackendPool.assign (p : BackendPool σ) (streamId backend : Nat) : BackendPool σ :=
  { p with
    streamBackends := p.streamBackends.insert streamId backend
    backendToStream := p.backendToStream.insert backend streamId }

/-- Pops until a connection is alive. -/
def popAlive (alive : Nat → Bool) : List Nat → Option Nat × List Nat
  | [] => (none, [])
  | b :: pool => if alive b then (some b, pool) else popAlive alive pool

def BackendPool.acquireBackend (p : BackendPool σ) (s : Sockets) (streamId : Nat) :
    BackendPool σ × Option Nat :=
  match popAlive s.alive p.backendPool with
  | (some b, pool) => ((p.setPool pool).assign streamId b, some b)
  | (none, pool) =>
      let p := p.setPool pool
      if maxPoolSize ≤ p.activeBackends then (p, none)
      else match s.connect p.connections with
        | none => (p, none)
        | some b => (p.assign streamId b, some b)

/-- The mappings of a stream are deleted. -/
def BackendPool.unassign (p : BackendPool σ) (streamId backend : Nat) : BackendPool σ :=
  { p with
    streamBackends := p.streamBackends.erase streamId
    backendToStream := p.backendToStream.erase backend }

def BackendPool.releaseBackend (p : BackendPool σ) (s : Sockets) (streamId : Nat)
    (reusable : Bool) : BackendPool σ :=
  match p.streamBackends.lookup streamId with
  | none => p
  | some b =>
      let p := p.unassign streamId b
      if reusable ∧ s.alive b ∧ p.backendPool.length < maxPoolSize then
        p.setPool (b :: p.backendPool)
      else p

/-- The handlers' `push @{$self->{waitingForBackend}}, ...`. -/
def BackendPool.enqueue (p : BackendPool σ) (w : WaitingStream σ) : BackendPool σ :=
  { p with waitingForBackend := p.waitingForBackend ++ [w] }

/-- The loop of `processWaitingStreams`: the entries that got a backend and those put
back. -/
def BackendPool.serve (s : Sockets) :
    BackendPool σ → List (WaitingStream σ) →
      BackendPool σ × List (WaitingStream σ) × List (WaitingStream σ)
  | p, [] => (p, [], [])
  | p, w :: waiting =>
      match p.acquireBackend s w.streamId with
      | (p', none) => (p', [], w :: waiting)
      | (p', some _) =>
          let (p'', served, stillWaiting) := serve s p' waiting
          (p'', w :: served, stillWaiting)

/-- `processWaitingStreams`, with the entries that are served, in order. -/
def BackendPool.processWaitingStreams (p : BackendPool σ) (s : Sockets) :
    BackendPool σ × List (WaitingStream σ) :=
  let (p', served, stillWaiting) := p.serve s p.waitingForBackend
  ({ p' with waitingForBackend := stillWaiting }, served)

/-! ### What an operation does -/

theorem popAlive_some {alive : Nat → Bool} {pool rest : List Nat} {b : Nat}
    (h : popAlive alive pool = (some b, rest)) : b :: rest <:+ pool ∧ alive b = true := by
  induction pool with
  | nil => cases h
  | cons c pool ih =>
      rw [popAlive] at h
      split at h
      · next hAlive =>
          cases h
          exact ⟨List.suffix_rfl, hAlive⟩
      · exact ⟨(ih h).1.trans (List.suffix_cons ..), (ih h).2⟩

theorem popAlive_none {alive : Nat → Bool} {pool rest : List Nat}
    (h : popAlive alive pool = (none, rest)) : rest = [] := by
  induction pool with
  | nil => cases h; rfl
  | cons c pool ih =>
      rw [popAlive] at h
      split at h
      · cases h
      · exact ih h

theorem mem_connections {p : BackendPool σ} {b : Nat} :
    b ∈ p.connections ↔
      (∃ streamId, p.streamBackends.lookup streamId = some b) ∨ b ∈ p.backendPool := by
  rw [BackendPool.connections, List.mem_append, List.mem_map]
  refine or_congr_left ⟨?_, ?_⟩
  · rintro ⟨⟨streamId, c⟩, hMem, rfl⟩
    exact ⟨streamId, AList.mem_lookup_iff.mpr hMem⟩
  · rintro ⟨streamId, hLookup⟩
    exact ⟨⟨streamId, b⟩, AList.mem_lookup_iff.mp hLookup, rfl⟩

/-- Where `acquireBackend` finds the backend it assigns: in the pool, or by connecting
once the pool is empty and the limit is not reached. -/
inductive BackendPool.Found (p : BackendPool σ) (b : Nat) : List Nat → Prop
  | pooled {pool : List Nat} (hPool : b :: pool <:+ p.backendPool) : p.Found b pool
  | connected (hActive : p.activeBackends < maxPoolSize)
      (hFresh : b ∉ (p.setPool []).connections) : p.Found b []

/-- All that `acquireBackend` can do. -/
theorem acquireBackend_cases (p : BackendPool σ) (s : Sockets) (streamId : Nat) :
    p.acquireBackend s streamId = (p.setPool [], none) ∨
    ∃ b pool, p.Found b pool ∧
      p.acquireBackend s streamId = ((p.setPool pool).assign streamId b, some b) := by
  rw [BackendPool.acquireBackend]
  cases hPop : popAlive s.alive p.backendPool with
  | mk found pool =>
      cases found with
      | some b => exact .inr ⟨b, pool, .pooled (popAlive_some hPop).1, rfl⟩
      | none =>
          obtain rfl := popAlive_none hPop
          dsimp only
          split
          · exact .inl rfl
          · next hActive =>
              cases hConnect : s.connect (p.setPool []).connections with
              | none => exact .inl rfl
              | some b =>
                  exact .inr ⟨b, [], .connected (Nat.lt_of_not_le hActive)
                    (s.fresh _ b hConnect), rfl⟩

theorem acquireBackend_waiting (p : BackendPool σ) (s : Sockets) (streamId : Nat) :
    (p.acquireBackend s streamId).1.waitingForBackend = p.waitingForBackend := by
  rcases acquireBackend_cases p s streamId with h | ⟨b, pool, _, h⟩ <;> rw [h] <;> rfl

theorem releaseBackend_waiting (p : BackendPool σ) (s : Sockets) (streamId : Nat)
    (reusable : Bool) :
    (p.releaseBackend s streamId reusable).waitingForBackend = p.waitingForBackend := by
  rw [BackendPool.releaseBackend]
  cases p.streamBackends.lookup streamId with
  | none => rfl
  | some b =>
      dsimp only
      split <;> rfl

/-- The streams that wait for a backend. -/
def BackendPool.waitingIds (p : BackendPool σ) : List Nat := p.waitingForBackend.map (·.streamId)

/-- Whether a stream holds a backend. -/
def BackendPool.holds (p : BackendPool σ) (streamId : Nat) : Bool :=
  (p.streamBackends.lookup streamId).isSome

theorem holds_assign (p : BackendPool σ) (streamId b id : Nat) :
    (p.assign streamId b).holds id = (decide (id = streamId) || p.holds id) := by
  simp only [BackendPool.holds, BackendPool.assign]
  by_cases hId : id = streamId
  · subst hId
    rw [AList.lookup_insert]
    simp
  · rw [AList.lookup_insert_ne hId]
    simp [hId]

theorem holds_acquireBackend (p : BackendPool σ) (s : Sockets) (streamId id : Nat) :
    (p.acquireBackend s streamId).1.holds id =
      (decide (id = streamId ∧ (p.acquireBackend s streamId).2.isSome) || p.holds id) := by
  rcases acquireBackend_cases p s streamId with h | ⟨b, pool, _, h⟩
  · rw [h]
    simp [BackendPool.holds, BackendPool.setPool]
  · rw [h, holds_assign]
    simp [BackendPool.holds, BackendPool.setPool]

theorem lookup_releaseBackend {p : BackendPool σ} (s : Sockets) {streamId : Nat} (reusable : Bool)
    (id : Nat) :
    (p.releaseBackend s streamId reusable).streamBackends.lookup id =
      if id = streamId then none else p.streamBackends.lookup id := by
  rw [BackendPool.releaseBackend]
  cases hHeld : p.streamBackends.lookup streamId with
  | none =>
      dsimp only
      split
      · next hId =>
          subst hId
          exact hHeld
      · rfl
  | some b =>
      have hErase : (p.unassign streamId b).streamBackends.lookup id =
          if id = streamId then none else p.streamBackends.lookup id := by
        simp only [BackendPool.unassign]
        split
        · next hId =>
            subst hId
            exact AList.lookup_erase ..
        · next hId => exact AList.lookup_erase_ne hId
      dsimp only
      split
      · exact hErase
      · exact hErase

theorem holds_releaseBackend (p : BackendPool σ) (s : Sockets) (streamId id : Nat)
    (reusable : Bool) :
    (p.releaseBackend s streamId reusable).holds id = (decide (id ≠ streamId) && p.holds id) := by
  rw [BackendPool.holds, lookup_releaseBackend, BackendPool.holds]
  by_cases hId : id = streamId <;> simp [hId]

/-! ### The invariant -/

structure BackendPool.Sound (p : BackendPool σ) : Prop where
  inverse : ∀ streamId b,
    p.streamBackends.lookup streamId = some b ↔ p.backendToStream.lookup b = some streamId
  disjoint : ∀ streamId b, p.streamBackends.lookup streamId = some b → b ∉ p.backendPool
  nodup : p.backendPool.Nodup
  bounded : p.activeBackends + p.backendPool.length ≤ maxPoolSize

theorem sound_empty : ({} : BackendPool σ).Sound where
  inverse streamId b := by simp [AList.lookup_empty]
  disjoint streamId b h := by cases h
  nodup := List.nodup_nil
  bounded := Nat.zero_le _

theorem BackendPool.Sound.setWaiting {p : BackendPool σ} (h : p.Sound)
    (waiting : List (WaitingStream σ)) : ({ p with waitingForBackend := waiting }).Sound :=
  ⟨h.inverse, h.disjoint, h.nodup, h.bounded⟩

theorem BackendPool.Sound.setPool {p : BackendPool σ} (h : p.Sound) {pool : List Nat}
    (hPool : pool <:+ p.backendPool) : (p.setPool pool).Sound where
  inverse := h.inverse
  disjoint streamId b hLookup hMem := h.disjoint streamId b hLookup (hPool.subset hMem)
  nodup := h.nodup.sublist hPool.sublist
  bounded := Nat.le_trans (Nat.add_le_add_left hPool.length_le _) h.bounded

/-- A backend that no stream holds is assigned to a stream that holds none. -/
theorem BackendPool.Sound.assign {p : BackendPool σ} (h : p.Sound) {streamId b : Nat}
    (hStream : p.streamBackends.lookup streamId = none) (hFree : b ∉ p.connections)
    (hBound : p.activeBackends + p.backendPool.length < maxPoolSize) :
    (p.assign streamId b).Sound := by
  rw [mem_connections, not_or, not_exists] at hFree
  obtain ⟨hUnheld, hUnpooled⟩ := hFree
  refine ⟨fun id c => ?_, fun id c hLookup => ?_, h.nodup, ?_⟩
  · simp only [BackendPool.assign]
    by_cases hId : id = streamId <;> by_cases hc : c = b
    · subst hId hc
      simp
    · subst hId
      have hOther : p.backendToStream.lookup c ≠ some id := by
        rw [Ne, ← h.inverse, hStream]
        exact fun hEq => by cases hEq
      rw [AList.lookup_insert, AList.lookup_insert_ne hc]
      exact ⟨fun hEq => absurd (Option.some.inj hEq).symm hc, fun hEq => absurd hEq hOther⟩
    · subst hc
      rw [AList.lookup_insert_ne hId, AList.lookup_insert]
      exact ⟨fun hEq => absurd hEq (hUnheld id),
        fun hEq => absurd (Option.some.inj hEq).symm hId⟩
    · rw [AList.lookup_insert_ne hId, AList.lookup_insert_ne hc]
      exact h.inverse id c
  · simp only [BackendPool.assign] at hLookup ⊢
    by_cases hId : id = streamId
    · subst hId
      rw [AList.lookup_insert] at hLookup
      cases hLookup
      exact hUnpooled
    · rw [AList.lookup_insert_ne hId] at hLookup
      exact h.disjoint id c hLookup
  · have hKeys : (p.assign streamId b).activeBackends ≤ p.activeBackends + 1 := by
      simp only [BackendPool.activeBackends, BackendPool.assign, AList.keys_insert,
        List.length_cons]
      exact Nat.succ_le_succ (List.length_erase_le)
    have hPool : (p.assign streamId b).backendPool = p.backendPool := rfl
    rw [hPool]
    omega

theorem BackendPool.Sound.found {p : BackendPool σ} (h : p.Sound) {b : Nat} {pool : List Nat}
    (hFound : p.Found b pool) :
    pool <:+ p.backendPool ∧ b ∉ (p.setPool pool).connections ∧
      p.activeBackends + pool.length < maxPoolSize := by
  cases hFound with
  | pooled hPool =>
      have hSuffix : pool <:+ p.backendPool := (List.suffix_cons b pool).trans hPool
      have hNodup := List.nodup_cons.mp (h.nodup.sublist hPool.sublist)
      have hLength := hPool.length_le
      have hBound := h.bounded
      rw [List.length_cons] at hLength
      refine ⟨hSuffix, ?_, by omega⟩
      rw [mem_connections]
      rintro (⟨streamId, hLookup⟩ | hMem)
      · exact h.disjoint streamId b hLookup (hPool.subset (List.mem_cons_self ..))
      · exact hNodup.1 hMem
  | connected hActive hFresh => exact ⟨List.nil_suffix, hFresh, hActive⟩

theorem BackendPool.Sound.acquireBackend {p : BackendPool σ} (h : p.Sound) (s : Sockets)
    {streamId : Nat} (hStream : p.streamBackends.lookup streamId = none) :
    (p.acquireBackend s streamId).1.Sound := by
  rcases acquireBackend_cases p s streamId with hEq | ⟨b, pool, hFound, hEq⟩
  · rw [hEq]
    exact h.setPool List.nil_suffix
  · rw [hEq]
    obtain ⟨hSuffix, hFree, hBound⟩ := h.found hFound
    exact (h.setPool hSuffix).assign hStream hFree hBound

theorem lookup_unassign {p : BackendPool σ} (h : p.Sound) {streamId b : Nat}
    (hHeld : p.streamBackends.lookup streamId = some b) (id c : Nat) :
    (p.unassign streamId b).streamBackends.lookup id = some c ↔
      p.streamBackends.lookup id = some c ∧ c ≠ b := by
  simp only [BackendPool.unassign]
  by_cases hId : id = streamId
  · subst hId
    rw [AList.lookup_erase, hHeld]
    simp [eq_comm]
  · rw [AList.lookup_erase_ne hId]
    refine ⟨fun hLookup => ⟨hLookup, ?_⟩, And.left⟩
    rintro rfl
    have hBack := (h.inverse id c).mp hLookup
    rw [(h.inverse streamId c).mp hHeld] at hBack
    exact hId (Option.some.inj hBack).symm

theorem BackendPool.Sound.unassign {p : BackendPool σ} (h : p.Sound) {streamId b : Nat}
    (hHeld : p.streamBackends.lookup streamId = some b) : (p.unassign streamId b).Sound := by
  refine ⟨fun id c => ?_, fun id c hLookup => ?_, h.nodup, ?_⟩
  · rw [lookup_unassign h hHeld, h.inverse]
    simp only [BackendPool.unassign]
    by_cases hc : c = b
    · subst hc
      simp
    · rw [AList.lookup_erase_ne hc]
      simp [hc]
  · exact h.disjoint id c ((lookup_unassign h hHeld id c).mp hLookup).1
  · have hKeys : (p.unassign streamId b).activeBackends ≤ p.activeBackends := by
      simp only [BackendPool.activeBackends, BackendPool.unassign, AList.keys_erase]
      exact List.length_erase_le
    exact Nat.le_trans (Nat.add_le_add_right hKeys _) h.bounded

theorem activeBackends_unassign {p : BackendPool σ} {streamId b : Nat}
    (hHeld : p.streamBackends.lookup streamId = some b) :
    (p.unassign streamId b).activeBackends + 1 = p.activeBackends := by
  have hMem : streamId ∈ p.streamBackends.keys := by
    rw [← AList.mem_keys, ← AList.lookup_isSome, hHeld]
    rfl
  simp only [BackendPool.activeBackends, BackendPool.unassign, AList.keys_erase,
    List.length_erase_of_mem hMem]
  exact Nat.sub_add_cancel (List.length_pos_of_mem hMem)

theorem BackendPool.Sound.releaseBackend {p : BackendPool σ} (h : p.Sound) (s : Sockets)
    (streamId : Nat) (reusable : Bool) : (p.releaseBackend s streamId reusable).Sound := by
  rw [BackendPool.releaseBackend]
  cases hHeld : p.streamBackends.lookup streamId with
  | none => exact h
  | some b =>
      dsimp only
      have hUnassigned := h.unassign hHeld
      split
      · refine ⟨hUnassigned.inverse, fun id c hLookup => ?_, ?_, ?_⟩
        · have hOther := (lookup_unassign h hHeld id c).mp hLookup
          exact List.not_mem_cons_of_ne_of_not_mem hOther.2 (h.disjoint id c hOther.1)
        · exact List.nodup_cons.mpr ⟨h.disjoint streamId b hHeld, h.nodup⟩
        · have hActive := activeBackends_unassign hHeld
          have hBound := h.bounded
          simp only [BackendPool.setPool, BackendPool.activeBackends, BackendPool.unassign,
            List.length_cons] at hActive hBound ⊢
          omega
      · exact hUnassigned

/-! ### The loop over the queue -/

/-- No call of `acquireBackend` in the loop is for a stream that holds a backend. -/
def BackendPool.servesUnheld (s : Sockets) : BackendPool σ → List (WaitingStream σ) → Bool
  | _, [] => true
  | p, w :: waiting =>
      (p.streamBackends.lookup w.streamId).isNone &&
        match p.acquireBackend s w.streamId with
        | (_, none) => true
        | (p', some _) => servesUnheld s p' waiting

/-- The queue is served from its front, and what is not served stays in order. -/
theorem serve_waiting (s : Sockets) (waiting : List (WaitingStream σ)) :
    ∀ p : BackendPool σ, (p.serve s waiting).2.1 ++ (p.serve s waiting).2.2 = waiting := by
  induction waiting with
  | nil => exact fun _ => rfl
  | cons w waiting ih =>
      intro p
      rw [BackendPool.serve]
      rcases p.acquireBackend s w.streamId with ⟨p', _ | b⟩
      · rfl
      · exact congrArg (w :: ·) (ih p')

theorem holds_serve (s : Sockets) (waiting : List (WaitingStream σ)) :
    ∀ (p : BackendPool σ) (id : Nat),
      (p.serve s waiting).1.holds id =
        ((p.serve s waiting).2.1.any (fun w => w.streamId = id) || p.holds id) := by
  induction waiting with
  | nil => exact fun _ _ => rfl
  | cons w waiting ih =>
      intro p id
      have hHolds := holds_acquireBackend p s w.streamId id
      rw [BackendPool.serve]
      revert hHolds
      rcases p.acquireBackend s w.streamId with ⟨p', _ | b⟩
      · intro hHolds
        simpa using hHolds
      · intro hHolds
        dsimp only
        rw [ih p' id, hHolds]
        simp only [Option.isSome_some, and_true, List.any_cons, eq_comm (a := id)]
        cases List.any _ _ <;> simp

theorem BackendPool.Sound.serve (s : Sockets) (waiting : List (WaitingStream σ)) :
    ∀ p : BackendPool σ, p.Sound → p.servesUnheld s waiting = true →
      (p.serve s waiting).1.Sound := by
  induction waiting with
  | nil => exact fun _ h _ => h
  | cons w waiting ih =>
      intro p h hUnheld
      rw [BackendPool.servesUnheld, Bool.and_eq_true, Option.isNone_iff_eq_none] at hUnheld
      obtain ⟨hStream, hRest⟩ := hUnheld
      have hSound := h.acquireBackend s hStream
      rw [BackendPool.serve]
      revert hSound hRest
      rcases p.acquireBackend s w.streamId with ⟨p', _ | b⟩
      · exact fun _ hSound => hSound
      · exact fun hRest hSound => ih p' hSound hRest

/-! ### Runs -/

inductive PoolEvent (σ : Type) where
  | acquire (s : Sockets) (streamId : Nat)
  | release (s : Sockets) (streamId : Nat) (reusable : Bool)
  | enqueue (w : WaitingStream σ)
  | processWaiting (s : Sockets)

/-- The pool, with all entries ever queued and all served, in order. -/
structure PoolRun (σ : Type) where
  pool : BackendPool σ := {}
  queued : List (WaitingStream σ) := []
  served : List (WaitingStream σ) := []

def PoolRun.setPool (r : PoolRun σ) (pool : BackendPool σ) : PoolRun σ := { r with pool }

def PoolRun.step (r : PoolRun σ) : PoolEvent σ → PoolRun σ
  | .acquire s streamId => r.setPool (r.pool.acquireBackend s streamId).1
  | .release s streamId reusable => r.setPool (r.pool.releaseBackend s streamId reusable)
  | .enqueue w => { r with pool := r.pool.enqueue w, queued := r.queued ++ [w] }
  | .processWaiting s =>
      let (pool, served) := r.pool.processWaitingStreams s
      { r with pool, served := r.served ++ served }

/-- `acquireBackend` is called only for streams that hold no backend. -/
def PoolRun.AcquiresUnheld (r : PoolRun σ) : PoolEvent σ → Prop
  | .acquire _ streamId => r.pool.streamBackends.lookup streamId = none
  | .processWaiting s => r.pool.servesUnheld s r.pool.waitingForBackend = true
  | _ => True

/-- The pool is sound, and what was queued is what was served and then what waits. -/
structure PoolRun.Inv (r : PoolRun σ) : Prop where
  pool : r.pool.Sound
  queue : r.queued = r.served ++ r.pool.waitingForBackend

theorem PoolRun.Inv.step {r : PoolRun σ} (h : r.Inv) (e : PoolEvent σ) (hOk : r.AcquiresUnheld e) :
    (r.step e).Inv := by
  cases e with
  | acquire s streamId =>
      refine ⟨h.pool.acquireBackend s hOk, ?_⟩
      simp only [PoolRun.step, PoolRun.setPool, acquireBackend_waiting]
      exact h.queue
  | release s streamId reusable =>
      refine ⟨h.pool.releaseBackend s streamId reusable, ?_⟩
      simp only [PoolRun.step, PoolRun.setPool, releaseBackend_waiting]
      exact h.queue
  | enqueue w =>
      refine ⟨h.pool.setWaiting _, ?_⟩
      simp only [PoolRun.step, BackendPool.enqueue, h.queue, List.append_assoc]
  | processWaiting s =>
      have hSound := BackendPool.Sound.serve s _ _ h.pool hOk
      have hWaiting := serve_waiting s r.pool.waitingForBackend r.pool
      refine ⟨hSound.setWaiting _, ?_⟩
      simp only [PoolRun.step, BackendPool.processWaitingStreams, List.append_assoc, hWaiting]
      exact h.queue

/-- In every run the tables are inverse to each other and apart from the pool, the
limit holds, and the queue is served in order. -/
theorem pooling_sound {r : PoolRun σ}
    (h : Reached PoolRun.step PoolRun.AcquiresUnheld ({} : PoolRun σ) r) :
    r.pool.Sound ∧ r.queued = r.served ++ r.pool.waitingForBackend := by
  have hInv : r.Inv := h.invariant ⟨sound_empty, rfl⟩ fun _ e hInv hOk => hInv.step e hOk
  exact ⟨hInv.pool, hInv.queue⟩

/-- Every probe succeeds, and connecting gives a number that is not in use. -/
def Sockets.steady : Sockets where
  alive _ := true
  connect inUse := some (inUse.max?.getD 0 + 1)
  fresh inUse b h hMem := by
    cases h
    have := List.le_max?_getD_of_mem (k := 0) hMem
    omega

theorem pooling_sound_served :
    let r := runEvents PoolRun.step ({} : PoolRun Unit)
      [.acquire .steady 1, .enqueue ⟨2, [], ()⟩, .release .steady 1 true, .processWaiting .steady]
    r.pool.Sound ∧ r.queued = r.served ++ r.pool.waitingForBackend :=
  pooling_sound (Reached.run _ _ .start ⟨rfl, trivial, trivial, rfl, trivial⟩)

end PageCamel.Frontend
