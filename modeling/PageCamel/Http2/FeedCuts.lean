import PageCamel.Http2.RepeatedFrames
import PageCamel.Lib.Runs

/-!
Input that arrives in pieces. A frame that is taken off the input is decoded from its
own octets alone, so it does not matter with how much of the input it is met. It matters
where the loop of `feed` stops with `undef`: that frame is decoded again by every later
call. And it matters to the preface, which is searched for in all of the input.
-/

namespace PageCamel.Http2
open PageCamel.Lib Connection

namespace Connection
variable {con con' : Connection} {buf buf' : Octets}

/-- The frame a part of the input starts with is the one the whole input starts with. -/
theorem frameDecode_start (ord : HashOrder) (con : Connection) (hPrefix : buf' <+: buf)
    (hHeader : frameHeaderSize ≤ buf'.length) : con.frameDecode ord buf' =
      if (frameHeaderDecode buf).length > con.decSetting Setting.maxFrameSize then
        (con.setError .frameSizeError, none)
      else if buf'.length < frameHeaderSize + (frameHeaderDecode buf).length then (con, some 0)
      else con.frameApply ord (frameHeaderDecode buf) (buf'.drop frameHeaderSize) := by
  have hSame : frameHeaderDecode buf' = frameHeaderDecode buf :=
    frameHeaderDecode_congr (n := buf'.length)
      (by rw [List.take_length]; exact List.prefix_iff_eq_take.mp hPrefix) hHeader
  rw [frameDecode, if_neg (Nat.not_lt.mpr hHeader)]
  dsimp only
  rw [hSame]

theorem payload_start {len : Nat} (hPrefix : buf' <+: buf)
    (hFits : ¬ buf'.length < frameHeaderSize + len) :
    (buf'.drop frameHeaderSize).take len = (buf.drop frameHeaderSize).take len :=
  drop_take_congr (n := buf'.length)
    (by rw [List.take_length]; exact List.prefix_iff_eq_take.mp hPrefix) (Nat.not_lt.mp hFits)

theorem frameDecode_short (ord : HashOrder) (con : Connection) (h : buf.length < frameHeaderSize) :
    con.frameDecode ord buf = (con, some 0) := if_pos h

/-- A frame that is taken off the input is taken off every part of the input that
holds it, and waited for in every other. -/
theorem frameDecode_prefix {ord : HashOrder} {len : Nat}
    (hDecode : con.frameDecode ord buf = (con', some len)) (hLen : len ≠ 0)
    (hPrefix : buf' <+: buf) :
    con.frameDecode ord buf' = if len ≤ buf'.length then (con', some len) else (con, some 0) := by
  obtain ⟨hSize, hTaken⟩ := frameDecode_taken hDecode hLen
  have hHeaderSize : frameHeaderSize = 9 := rfl
  rcases Nat.lt_or_ge buf'.length frameHeaderSize with hShort | hHeader
  · rw [if_neg (by omega), frameDecode_short ord con hShort]
  · rw [frameDecode_start ord con (List.prefix_refl _) (by omega)] at hDecode
    rw [frameDecode_start ord con hPrefix hHeader]
    split at hDecode
    · cases hDecode
    · next hLarge =>
        rw [if_neg hLarge]
        rw [if_neg (by omega)] at hDecode
        by_cases hAll : len ≤ buf'.length
        · have hFits : ¬ buf'.length < frameHeaderSize + (frameHeaderDecode buf).length := by omega
          rw [if_neg hFits, if_pos hAll, frameApply_congr ord (payload_start hPrefix hFits)
            fun hNone => (by rw [hDecode] at hNone; cases hNone), hDecode]
        · rw [if_pos (by omega), if_neg hAll]

theorem frameDecode_prefix_zero {ord : HashOrder} (hDecode : con.frameDecode ord buf = (con', some 0))
    (hPrefix : buf' <+: buf) : con.frameDecode ord buf' = (con, some 0) := by
  have hLe := hPrefix.length_le
  rcases Nat.lt_or_ge buf'.length frameHeaderSize with hShort | hHeader
  · exact frameDecode_short ord con hShort
  · rcases frameDecode_some hDecode with ⟨-, -, hIncomplete⟩ | ⟨hZero, -⟩
    · rw [frameDecode_start ord con (List.prefix_refl _) (by omega)] at hDecode
      rw [frameDecode_start ord con hPrefix hHeader]
      split at hDecode
      · cases hDecode
      · next hLarge =>
          have hMore := hIncomplete.resolve_left (by omega)
          rw [if_neg hLarge, if_pos (by omega)]
    · rw [frameHeaderSize] at hZero
      omega

/-- A frame that fails, and fails the next time as well, fails with every part of the input that
holds it. -/
theorem frameDecode_part {ord : HashOrder} (hNone : con.frameDecode ord buf = (con', none))
    (hNot : ¬ con.Wavers buf) (hPrefix : buf' <+: buf) :
    con.frameDecode ord buf' = (con', none) ∨ con.frameDecode ord buf' = (con, some 0) := by
  have hLe := hPrefix.length_le
  rcases Nat.lt_or_ge buf'.length frameHeaderSize with hShort | hHeader
  · exact .inr (frameDecode_short ord con hShort)
  · rw [frameDecode_start ord con (List.prefix_refl _) (by omega)] at hNone
    rw [frameDecode_start ord con hPrefix hHeader]
    split at hNone
    · next hLarge => exact .inl (by rw [if_pos hLarge, hNone])
    · next hLarge =>
        rw [if_neg hLarge]
        by_cases hAll : buf'.length < frameHeaderSize + (frameHeaderDecode buf).length
        · exact .inr (by rw [if_pos hAll])
        · rw [if_neg (by omega)] at hNone
          have hFrame : ¬ con.FrameWavers (frameHeaderDecode buf) (buf.drop frameHeaderSize) := fun h =>
            hNot ⟨fun hPart => hPart.elim (by omega) (by omega), Nat.not_lt.mp hLarge, h⟩
          rw [if_neg hAll, frameApply_congr ord (payload_start hPrefix hAll) fun _ => hFrame, hNone]
          exact .inl rfl

/-- What failed once fails again, with every part of the input that holds it. -/
theorem frameDecode_again {ord : HashOrder} (hSound : con.Sound)
    (hNone : con.frameDecode ord buf = (con', none)) (hNot : ¬ con.Wavers buf) (hPrefix : buf' <+: buf)
    (hTried : (con.frameDecode ord buf').2 = none) : Again con' fun c => c.frameDecode ord buf' := by
  intro c hView hDown
  have hLe := hPrefix.length_le
  have hClosed := closed_of_frameDecode hSound hNone hNot
  rcases Nat.lt_or_ge buf'.length frameHeaderSize with hShort | hHeader
  · rw [frameDecode_short ord con hShort] at hTried
    cases hTried
  rw [frameDecode_start ord con (List.prefix_refl _) (by omega)] at hNone
  rw [frameDecode_start ord con hPrefix hHeader] at hTried
  dsimp only
  rw [frameDecode_start ord c hPrefix hHeader]
  by_cases hLarge' : (frameHeaderDecode buf).length > c.decSetting Setting.maxFrameSize
  · exact ⟨c, by rw [if_pos hLarge', setError_of_shutdown hDown], hView⟩
  rw [if_neg hLarge']
  split at hNone
  · next hLarge =>
      obtain ⟨rfl, -⟩ := Prod.mk.inj hNone
      have hCtx : c.decodeCtx = con.decodeCtx :=
        (congrArg (fun v => v.1.decodeCtx) hView).trans (decodeCtx_setError ..)
      rw [decSetting, hCtx] at hLarge'
      exact absurd hLarge hLarge'
  · next hLarge =>
      rw [if_neg hLarge] at hTried
      split at hTried
      · cases hTried
      · next hAll =>
          rw [if_neg (by omega)] at hNone
          rw [if_neg hAll]
          have hFrame : ¬ con.FrameWavers (frameHeaderDecode buf) (buf.drop frameHeaderSize) := fun h =>
            hNot ⟨fun hPart => hPart.elim (by omega) (by omega), Nat.not_lt.mp hLarge, h⟩
          exact frameApply_again ord hSound (payload_start hPrefix hAll) hNone hFrame hClosed.1
            hClosed.2.1 hClosed.2.2 c hView hDown

theorem frameDecode_nil (ord : HashOrder) (con : Connection) :
    con.frameDecode ord [] = (con, some 0) := rfl

end Connection

/-! ### The loop of `feed` on a part of the input -/

open Server

theorem feedLoop_none {ord : HashOrder} {con con' : Connection} {buf : Octets}
    (hDecode : con.frameDecode ord buf = (con', none)) (fuel : Nat) :
    feedLoop ord (fuel + 1) con buf = (con', buf) := by
  rw [feedLoop, hDecode]

theorem feedLoop_zero {ord : HashOrder} {con con' : Connection} {buf : Octets}
    (hDecode : con.frameDecode ord buf = (con', some 0)) (fuel : Nat) :
    feedLoop ord (fuel + 1) con buf = (con', buf) := by
  rw [feedLoop, hDecode]
  rfl

theorem feedLoop_some {ord : HashOrder} {con con' : Connection} {buf : Octets} {len : Nat}
    (hDecode : con.frameDecode ord buf = (con', some len)) (hLen : len ≠ 0) (fuel : Nat) :
    feedLoop ord (fuel + 1) con buf = feedLoop ord fuel con' (buf.drop len) := by
  obtain ⟨n, rfl⟩ := Nat.exists_eq_succ_of_ne_zero hLen
  rw [feedLoop, hDecode]
  rfl

theorem FramesConsumed.trans {ord : HashOrder} {con con' con'' : Connection}
    {input rest rest' : Octets} (h : FramesConsumed ord con input con' rest)
    (h' : FramesConsumed ord con' rest con'' rest') : FramesConsumed ord con input con'' rest' := by
  induction h with
  | refl con buf => exact h'
  | frame hDecode hLen _ ih => exact .frame hDecode hLen (ih h')

theorem FramesConsumed.sound {ord : HashOrder} {con con' : Connection} {input rest : Octets}
    (h : FramesConsumed ord con input con' rest) (hSound : con.Sound) : con'.Sound := by
  induction h with
  | refl con buf => exact hSound
  | @frame con mid con' buf rest len hDecode hLen hRest ih =>
      have hFate := fate_frameDecode ord con buf
      rw [hDecode] at hFate
      exact ih (hSound.fate hFate)

/-! ### Frames that are decoded again -/

/-- What is seen of a server, whatever the order of its hashes. -/
def Server.unordered (server : Server) :
    (Connection × (Nat → Option Stream) × (Nat → Option Nat)) × Octets :=
  (server.con.unordered, server.input)

/-- No frame that the loop over the input comes to wavers. -/
def FailsAlike (ord : HashOrder) (con : Connection) (input : Octets) : Prop :=
  ∀ con' rest, FramesConsumed ord con input con' rest → ¬ con'.Wavers rest

/-- How far the server is when all but `remaining` of the input `all` has been fed to it:
it waits for the rest of a frame, or it has tried a frame that fails. -/
inductive Fed (ord : HashOrder) (con₀ : Connection) (all remaining : Octets) : Server → Prop
  | waits {con : Connection} {input : Octets}
      (hConsumed : FramesConsumed ord con₀ all con (input ++ remaining))
      (hWaits : con.frameDecode ord input = (con, some 0)) :
      Fed ord con₀ all remaining { con, input }
  | tried {con con' c : Connection} {input : Octets}
      (hConsumed : FramesConsumed ord con₀ all con (input ++ remaining))
      (hFails : con.frameDecode ord (input ++ remaining) = (con', none))
      (hTried : (con.frameDecode ord input).2 = none) (hSame : c.unordered = con'.unordered) :
      Fed ord con₀ all remaining { con := c, input }

/-- The loop of `feed` from the point where it waits. -/
theorem fed_feedLoop {ord : HashOrder} {con₀ : Connection} {all : Octets}
    (hAlike : FailsAlike ord con₀ all) (fuel : Nat) :
    ∀ {con : Connection} {input remaining : Octets}, input.length < fuel →
      FramesConsumed ord con₀ all con (input ++ remaining) →
      let after := feedLoop ord fuel con input
      Fed ord con₀ all remaining { con := after.1, input := after.2 } := by
  induction fuel with
  | zero => exact fun hFuel => absurd hFuel (Nat.not_lt_zero _)
  | succ fuel ih =>
      intro con input remaining hFuel hConsumed
      have hPrefix : input <+: input ++ remaining := List.prefix_append ..
      rcases hDecode : con.frameDecode ord (input ++ remaining) with ⟨con', _ | len⟩
      · have hNot := hAlike con _ hConsumed
        rcases frameDecode_part hDecode hNot hPrefix with hPart | hPart
        · rw [feedLoop_none hPart]
          exact .tried hConsumed hDecode (by rw [hPart]) rfl
        · rw [feedLoop_zero hPart]
          exact .waits hConsumed hPart
      · by_cases hLen : len = 0
        · rw [hLen] at hDecode
          have hPart := frameDecode_prefix_zero hDecode hPrefix
          rw [feedLoop_zero hPart]
          exact .waits hConsumed hPart
        · have hPart := frameDecode_prefix hDecode hLen hPrefix
          have hTaken := (frameDecode_taken hDecode hLen).2
          split at hPart
          · next hFits =>
              rw [feedLoop_some hPart hLen]
              refine ih (by rw [List.length_drop]; omega) (hConsumed.trans (.frame hDecode hLen ?_))
              rw [List.drop_append_of_le_length hFits]
              exact .refl ..
          · rw [feedLoop_zero hPart]
            exact .waits hConsumed hPart

theorem Fed.feed {ord : HashOrder} {con₀ : Connection} {all remaining chunk : Octets}
    {server : Server} (hSound : con₀.Sound) (hAlike : FailsAlike ord con₀ all)
    (h : Fed ord con₀ all (chunk ++ remaining) server) :
    Fed ord con₀ all remaining (feedFrames ord server.con (server.input ++ chunk)) := by
  cases h with
  | @waits con input hConsumed hWaits =>
      rw [← List.append_assoc] at hConsumed
      exact fed_feedLoop hAlike _ (Nat.lt_succ_self _) hConsumed
  | @tried con con' c input hConsumed hFails hTried hSame =>
      rw [← List.append_assoc] at hConsumed hFails
      have hNot := hAlike con _ hConsumed
      have hPrefix : input ++ chunk <+: input ++ chunk ++ remaining := List.prefix_append ..
      have hStill : (con.frameDecode ord (input ++ chunk)).2 = none := by
        rcases frameDecode_part hFails hNot hPrefix with hPart | hPart
        · rw [hPart]
        · rw [frameDecode_prefix_zero hPart (List.prefix_append ..)] at hTried
          cases hTried
      have hDown : c.shutdown = true := (congrArg (fun v => v.1.shutdown) hSame).trans
        (closed_of_frameDecode (hConsumed.sound hSound) hFails hNot).1
      obtain ⟨c', hAgain, hSame'⟩ := frameDecode_again (hConsumed.sound hSound) hFails hNot
        hPrefix hStill c hSame hDown
      rw [feedFrames, feedLoop_none hAgain]
      exact .tried hConsumed hFails hStill hSame'

/-- All of the input has been fed: it does not matter how. -/
theorem Fed.result {ord : HashOrder} {con₀ : Connection} {all : Octets} {server : Server}
    (h : Fed ord con₀ all [] server) : server.unordered = (feedFrames ord con₀ all).unordered := by
  cases h with
  | @waits con input hConsumed hWaits =>
      rw [List.append_nil] at hConsumed
      have hStops : Stops ord con input := .inr (by rw [hWaits])
      rw [feedFrames, feedLoop_of_consumed hConsumed hStops (Nat.lt_succ_self _), hWaits]
  | @tried con con' c input hConsumed hFails hTried hSame =>
      rw [List.append_nil] at hConsumed hFails
      have hStops : Stops ord con input := .inl (by rw [hFails])
      rw [feedFrames, feedLoop_of_consumed hConsumed hStops (Nat.lt_succ_self _), hFails]
      exact congrArg (·, input) hSame

/-! ### The frames, behind the preface -/

theorem preface_feedFrames (ord : HashOrder) (con : Connection) (input : Octets) :
    (feedFrames ord con input).con.preface = con.preface :=
  (fate_feedLoop ord (input.length + 1) con input).preface

theorem feed_started (ord : HashOrder) {server : Server} (hPreface : server.con.preface = true)
    (chunk : Octets) :
    server.feed ord chunk = feedFrames ord server.con (server.input ++ chunk) := by
  rw [feed, if_pos hPreface]

theorem fed_run {ord : HashOrder} {con₀ : Connection} {all : Octets}
    (hSound : con₀.Sound) (hAlike : FailsAlike ord con₀ all) (chunks : List Octets) :
    ∀ {server : Server}, server.con.preface = true → Fed ord con₀ all chunks.flatten server →
      Fed ord con₀ all [] (runEvents (feed ord) server chunks) := by
  induction chunks with
  | nil => exact fun _ h => h
  | cons chunk chunks ih =>
      intro server hPreface h
      rw [List.flatten_cons] at h
      have hFeed := feed_started ord hPreface chunk
      refine ih ?_ ?_
      · rw [hFeed, preface_feedFrames]
        exact hPreface
      · rw [hFeed]
        exact h.feed hSound hAlike

/-- All cuts of the frames lead to one server if none of them fails in another way the next time. -/
theorem frames_cut {ord : HashOrder} {con₀ : Connection} (hPreface : con₀.preface = true)
    (hSound : con₀.Sound) {all : Octets} (hAlike : FailsAlike ord con₀ all) {chunks : List Octets}
    (hFlatten : chunks.flatten = all) :
    (runEvents (feed ord) { con := con₀ } chunks).unordered = (feedFrames ord con₀ all).unordered := by
  subst hFlatten
  have hStart : Fed ord con₀ chunks.flatten chunks.flatten { con := con₀ } :=
    .waits (.refl ..) (frameDecode_nil ord con₀)
  exact (fed_run hSound hAlike chunks hPreface hStart).result

/-! ### The preface -/

/-- `index` finds a string exactly when it is there. -/
theorem isSome_indexOf_iff (needle : Octets) (hay : Octets) :
    (indexOf needle hay).isSome ↔ needle <:+: hay := by
  induction hay with
  | nil =>
      rw [indexOf, List.infix_nil]
      split <;> simp [*]
  | cons b hay ih =>
      rw [indexOf, List.infix_cons_iff, ← ih, ← List.isPrefixOf_iff_prefix]
      split <;> simp [*]

/-- A server that has not got any input yet. -/
structure Server.Fresh (server : Server) : Prop where
  input : server.input = []
  preface : server.con.preface = false
  up : server.con.shutdown = false
  error : server.con.error = none

theorem fresh_new (given : Settings) : (Server.new given).Fresh := ⟨rfl, rfl, rfl, rfl⟩

/-- The pieces of an input without its first `n` octets. -/
def dropOctets : Nat → List Octets → List Octets
  | _, [] => []
  | n, chunk :: chunks => chunk.drop n :: dropOctets (n - chunk.length) chunks

theorem dropOctets_zero (chunks : List Octets) : dropOctets 0 chunks = chunks := by
  induction chunks with
  | nil => rfl
  | cons chunk chunks ih => rw [dropOctets, Nat.zero_sub, ih, List.drop_zero]

theorem flatten_dropOctets (n : Nat) (chunks : List Octets) :
    (dropOctets n chunks).flatten = chunks.flatten.drop n := by
  induction chunks generalizing n with
  | nil => rw [dropOctets, List.flatten_nil, List.drop_nil]
  | cons chunk chunks ih => rw [dropOctets, List.flatten_cons, ih, List.flatten_cons, List.drop_append]

def withPreface (con : Connection) : Connection := { con with preface := true }

def withShutdown (con : Connection) : Connection := { con with shutdown := true }

section
variable (ord : HashOrder) {con : Connection} (hPreface : con.preface = false)
include hPreface

theorem feed_short {input chunk : Octets} (h : (input ++ chunk).length < preface.length) :
    feed ord { con, input } chunk = { con, input := input ++ chunk } := by
  have hResult : prefaceDecode (input ++ chunk) = some 0 := by rw [prefaceDecode, if_pos h]
  simp only [feed, hPreface, Bool.false_eq_true, if_false, hResult]

theorem feed_wrong {input chunk : Octets} (hLong : preface.length ≤ (input ++ chunk).length)
    (hWrong : ¬ preface <:+: input ++ chunk) :
    feed ord { con, input } chunk = { con := withShutdown con, input := input ++ chunk } := by
  rw [← isSome_indexOf_iff, Bool.not_eq_true, Option.isSome_eq_false_iff] at hWrong
  have hResult : prefaceDecode (input ++ chunk) = none := by
    rw [prefaceDecode, if_neg (Nat.not_lt.mpr hLong), if_pos hWrong]
  simp only [feed, hPreface, Bool.false_eq_true, if_false, hResult, withShutdown]

theorem feed_right {input chunk : Octets} (hLong : preface.length ≤ (input ++ chunk).length)
    (hRight : preface <:+: input ++ chunk) :
    feed ord { con, input } chunk =
      feedFrames ord (withPreface con) ((input ++ chunk).drop preface.length) := by
  rw [← isSome_indexOf_iff, ← Bool.not_eq_false, Option.isSome_eq_false_iff] at hRight
  have hLength : preface.length = 24 := by decide
  have hResult : prefaceDecode (input ++ chunk) = some 24 := by
    rw [prefaceDecode, if_neg (Nat.not_lt.mpr hLong), if_neg hRight, hLength]
  simp only [feed, hPreface, Bool.false_eq_true, if_false, hResult, withPreface, hLength]

/-- Too little input for the preface. -/
theorem run_short (chunks : List Octets) :
    ∀ {input : Octets}, (input ++ chunks.flatten).length < preface.length →
      runEvents (feed ord) { con, input } chunks = { con, input := input ++ chunks.flatten } := by
  induction chunks with
  | nil => exact fun {input} _ => by rw [List.flatten_nil, List.append_nil]; rfl
  | cons chunk chunks ih =>
      intro input h
      rw [List.flatten_cons, ← List.append_assoc] at h ⊢
      have hShort : (input ++ chunk).length < preface.length :=
        Nat.lt_of_le_of_lt (List.prefix_append _ _).length_le h
      rw [← List.singleton_append, runEvents_append, runEvents_singleton,
        feed_short ord hPreface hShort, ih h]

/-- The preface comes first: what follows it is fed to a server that has got it. -/
theorem run_right (chunks : List Octets) :
    ∀ {input : Octets}, input.length < preface.length → preface <+: input ++ chunks.flatten →
      runEvents (feed ord) { con, input } chunks =
        runEvents (feed ord) { con := withPreface con }
          (dropOctets (preface.length - input.length) chunks) := by
  induction chunks with
  | nil =>
      intro input hShort hFirst
      have hLe := hFirst.length_le
      rw [List.flatten_nil, List.append_nil] at hLe
      omega
  | cons chunk chunks ih =>
      intro input hShort hFirst
      rw [List.flatten_cons, ← List.append_assoc] at hFirst
      have hStart := @feed_started ord { con := withPreface con } rfl
        (chunk.drop (preface.length - input.length))
      show runEvents (feed ord) (feed ord { con, input } chunk) chunks =
        runEvents (feed ord) (feed ord { con := withPreface con } _) (dropOctets _ chunks)
      rw [hStart, List.nil_append]
      by_cases hLong : preface.length ≤ (input ++ chunk).length
      · have hRight : preface <+: input ++ chunk :=
          List.prefix_of_prefix_length_le hFirst (List.prefix_append _ _) hLong
        have hDrop : (input ++ chunk).drop preface.length =
            chunk.drop (preface.length - input.length) := by
          rw [List.drop_append, List.drop_eq_nil_of_le hShort.le, List.nil_append]
        have hRest : preface.length - input.length - chunk.length = 0 := by
          rw [List.length_append] at hLong
          omega
        rw [feed_right ord hPreface hLong hRight.isInfix, hDrop, hRest, dropOctets_zero]
      · have hMore := Nat.lt_of_not_le hLong
        have hAll : chunk.drop (preface.length - input.length) = [] := by
          rw [List.length_append] at hMore
          exact List.drop_eq_nil_of_le (by omega)
        have hIdle : feedFrames ord (withPreface con) [] = { con := withPreface con } := by
          rw [feedFrames, feedLoop_zero (frameDecode_nil ord _)]
        rw [feed_short ord hPreface hMore, ih hMore hFirst, hAll, hIdle, List.length_append,
          Nat.sub_sub]

/-- The preface does not come: the server has been shut down and collects the input. -/
theorem run_down (chunks : List Octets) :
    ∀ {input : Octets}, preface.length ≤ input.length → ¬ preface <:+: input ++ chunks.flatten →
      runEvents (feed ord) { con := withShutdown con, input } chunks =
        { con := withShutdown con, input := input ++ chunks.flatten } := by
  induction chunks with
  | nil => exact fun {input} _ _ => by rw [List.flatten_nil, List.append_nil]; rfl
  | cons chunk chunks ih =>
      intro input hLong hWrong
      rw [List.flatten_cons, ← List.append_assoc] at hWrong ⊢
      have hMore : preface.length ≤ (input ++ chunk).length := by
        rw [List.length_append]
        exact hLong.trans (Nat.le_add_right ..)
      have hStill : ¬ preface <:+: input ++ chunk := fun h => hWrong (h.trans (List.infix_append' [] _ _))
      have hFeed := @feed_wrong ord (withShutdown con) hPreface input chunk hMore hStill
      rw [← List.singleton_append, runEvents_append, runEvents_singleton, hFeed]
      exact ih hMore hWrong

theorem run_wrong (chunks : List Octets) :
    ∀ {input : Octets}, input.length < preface.length →
      preface.length ≤ (input ++ chunks.flatten).length → ¬ preface <:+: input ++ chunks.flatten →
      runEvents (feed ord) { con, input } chunks =
        { con := withShutdown con, input := input ++ chunks.flatten } := by
  induction chunks with
  | nil =>
      intro input hShort hLong
      rw [List.flatten_nil, List.append_nil] at hLong
      omega
  | cons chunk chunks ih =>
      intro input hShort hLong hWrong
      rw [List.flatten_cons, ← List.append_assoc] at hLong hWrong ⊢
      rw [← List.singleton_append, runEvents_append, runEvents_singleton]
      by_cases hMore : preface.length ≤ (input ++ chunk).length
      · have hStill : ¬ preface <:+: input ++ chunk :=
          fun h => hWrong (h.trans (List.infix_append' [] _ _))
        rw [feed_wrong ord hPreface hMore hStill]
        exact run_down ord hPreface chunks hMore hWrong
      · rw [feed_short ord hPreface (Nat.lt_of_not_le hMore)]
        exact ih (Nat.lt_of_not_le hMore) hLong hWrong

/-- The preface comes, but not first: whether the connection has been shut down before
depends on the first cut. -/
theorem run_late (hUp : con.shutdown = false) (hError : con.error = none) {input : Octets}
    (hFirst : ¬ preface <+: input) (hLate : preface <:+: input) :
    (runEvents (feed ord) { con } [input]).unordered ≠ (runEvents (feed ord) { con }
      [input.take preface.length, input.drop preface.length]).unordered := by
  have hLong : preface.length ≤ input.length := hLate.length_le
  have hStart : (input.take preface.length).length = preface.length :=
    List.length_take_of_le hLong
  have hWrong : ¬ preface <:+: input.take preface.length := by
    intro h
    have hSame := h.eq_of_length hStart.symm
    exact hFirst (hSame ▸ List.take_prefix ..)
  have hOne : runEvents (feed ord) { con } [input] =
      feedFrames ord (withPreface con) (input.drop preface.length) :=
    feed_right ord hPreface hLong hLate
  have hDown : feed ord { con } (input.take preface.length) =
      { con := withShutdown con, input := input.take preface.length } :=
    feed_wrong ord hPreface hStart.ge hWrong
  have hTwo : runEvents (feed ord) { con }
      [input.take preface.length, input.drop preface.length] =
      feedFrames ord (withPreface (withShutdown con)) (input.drop preface.length) := by
    have hRight := @feed_right ord (withShutdown con) hPreface (input.take preface.length)
      (input.drop preface.length)
    rw [List.take_append_drop] at hRight
    rw [← List.singleton_append, runEvents_append, runEvents_singleton, runEvents_singleton, hDown]
    exact hRight hLong hLate
  rw [hOne, hTwo]
  intro hSame
  have hFate := fate_feedLoop ord ((input.drop preface.length).length + 1) (withPreface con)
    (input.drop preface.length)
  have hFate' := fate_feedLoop ord ((input.drop preface.length).length + 1)
    (withPreface (withShutdown con)) (input.drop preface.length)
  -- an error is raised before the second call, or never
  have hShutdown := congrArg (fun view => view.1.1.shutdown) hSame
  have hErrors := congrArg (fun view => view.1.1.error) hSame
  rcases hFate'.outcome with ⟨hStays, hNone⟩ | ⟨hImpossible, _, _⟩
  · rcases hFate.outcome with ⟨hStays', _⟩ | ⟨_, _, hSome⟩
    · exact Bool.false_ne_true (hUp.symm.trans (hStays'.symm.trans (hShutdown.trans hStays)))
    · have hNo : con.error.isSome = true :=
        (congrArg Option.isSome (hErrors.trans hNone)).symm.trans hSome
      rw [hError] at hNo
      cases hNo
  · cases hImpossible

end

/-- All cuts of the input lead to the same server. -/
def CutsAgree (ord : HashOrder) (start : Server) (input : Octets) : Prop :=
  ∀ chunks chunks' : List Octets, chunks.flatten = input → chunks'.flatten = input →
    (runEvents (feed ord) start chunks).unordered = (runEvents (feed ord) start chunks').unordered

/-- The input does not depend on its cuts: it is too short for a preface, or there is no
preface in it, or it starts with the preface and no frame behind it wavers. -/
def CutFree (ord : HashOrder) (con : Connection) (input : Octets) : Prop :=
  input.length < preface.length ∨ ¬ preface <:+: input ∨
    (preface <+: input ∧ FailsAlike ord (withPreface con) (input.drop preface.length))

/-- The cuts of such an input do not matter. Those of one in which the preface comes later do. -/
theorem feed_cuts_agree (ord : HashOrder) {start : Server} (hFresh : start.Fresh) (input : Octets) :
    (CutFree ord start.con input → CutsAgree ord start input) ∧
      (preface <:+: input → ¬ preface <+: input → ¬ CutsAgree ord start input) := by
  obtain ⟨con, startInput⟩ := start
  obtain ⟨hEmpty, hPreface, hUp, hError⟩ := hFresh
  dsimp only at hEmpty hPreface hUp hError
  subst hEmpty
  have hShortStart : ([] : Octets).length < preface.length := by decide
  constructor
  · rintro (hShort | hWrong | ⟨hFirst, hAlike⟩) chunks chunks' hFlatten hFlatten'
    · rw [run_short ord hPreface chunks (by rwa [List.nil_append, hFlatten]),
        run_short ord hPreface chunks' (by rwa [List.nil_append, hFlatten']), hFlatten, hFlatten']
    · rcases Nat.lt_or_ge input.length preface.length with hShort | hLong
      · rw [run_short ord hPreface chunks (by rwa [List.nil_append, hFlatten]),
          run_short ord hPreface chunks' (by rwa [List.nil_append, hFlatten']), hFlatten, hFlatten']
      · rw [run_wrong ord hPreface chunks hShortStart (by rwa [List.nil_append, hFlatten])
            (by rwa [List.nil_append, hFlatten]),
          run_wrong ord hPreface chunks' hShortStart (by rwa [List.nil_append, hFlatten'])
            (by rwa [List.nil_append, hFlatten']), hFlatten, hFlatten']
    · have hSound : (withPreface con).Sound :=
        ⟨by rw [withPreface, hError, hUp]; rfl, fun hDown => absurd (hUp.symm.trans hDown) (by decide)⟩
      have hAll {chunks : List Octets} (hFlatten : chunks.flatten = input) :
          (runEvents (feed ord) { con, input := [] } chunks).unordered =
            (feedFrames ord (withPreface con) (input.drop preface.length)).unordered := by
        rw [run_right ord hPreface chunks hShortStart (by rwa [List.nil_append, hFlatten])]
        exact frames_cut rfl hSound hAlike (hFlatten ▸ flatten_dropOctets _ chunks)
      rw [hAll hFlatten, hAll hFlatten']
  · intro hLate hFirst hCuts
    exact run_late ord hPreface hUp hError hFirst hLate
      (hCuts _ _ (List.flatten_singleton ..) (by simp))

/-- A request whose block fails at its first octet. -/
def failingRequest : Octets := [0, 0, 1, 1, 4, 0, 0, 0, 1, 0x80]

theorem feed_cuts_agree_failingRequest :
    (Server.new ∅).Fresh ∧ CutFree .kept (Server.new ∅).con (preface ++ failingRequest) ∧
      CutsAgree .kept (Server.new ∅) (preface ++ failingRequest) := by
  have hFree : CutFree .kept (Server.new ∅).con (preface ++ failingRequest) := by
    refine .inr (.inr ⟨List.prefix_append .., ?_⟩)
    rw [List.drop_left]
    intro con rest hConsumed
    cases hConsumed with
    | refl =>
        rintro ⟨-, -, -, hFrame⟩
        rw [if_pos (by decide)] at hFrame
        obtain ⟨-, -, -, hShort | ⟨-, -, -, hBlock⟩⟩ := hFrame
        · exact absurd hShort.1 (by decide)
        · exact hBlock rfl
    | frame hDecode =>
        have hNone : ((withPreface (Server.new ∅).con).frameDecode .kept failingRequest).2 = none := by
          decide +kernel
        rw [hDecode] at hNone
        cases hNone
  exact ⟨fresh_new ∅, hFree, (feed_cuts_agree .kept (fresh_new ∅) _).1 hFree⟩

/-- A refused request is answered by one RST_STREAM frame more when one more octet comes later. -/
theorem feed_cuts_differ : ¬ ∀ input : Octets, CutsAgree .kept (Server.new ∅) input := by
  intro hCuts
  have hSame := hCuts (preface ++ refusedRequest ++ [0]) [preface ++ refusedRequest ++ [0]]
    [preface ++ refusedRequest, [0]] (by simp) (by simp)
  have hQueue := congrArg (fun view => view.1.1.queue.length) hSame
  revert hQueue
  decide +kernel

end PageCamel.Http2
