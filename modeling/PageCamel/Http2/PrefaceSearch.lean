import PageCamel.Http2.FeedCuts

/-!
The connection preface (`preface_decode`). It is searched in all the input there is, while as
many octets as it has are taken off the front.
-/

namespace PageCamel.Http2.Server
open PageCamel.Lib

/-- The first octets of the input are the preface: then these are taken off and the rest is
input for frames. Otherwise the connection is shut down and all input stays as it is. As long as
there are too few octets the server waits. -/
def PrefaceStrict (ord : HashOrder) (start : Server) (chunks : List Octets) : Prop :=
  let input := chunks.flatten
  runEvents (feed ord) start chunks =
    if input.length < preface.length then { start with input }
    else if input.take preface.length = preface then
      runEvents (feed ord) { con := withPreface start.con } (dropOctets preface.length chunks)
    else { con := withShutdown start.con, input }

theorem preface_run (ord : HashOrder) (chunks : List Octets) :
    ∀ {server : Server}, server.con.preface = true →
      (runEvents (feed ord) server chunks).con.preface = true := by
  induction chunks with
  | nil => exact fun h => h
  | cons chunk chunks ih =>
      intro server h
      refine ih ?_
      rw [feed_started ord h, preface_feedFrames, h]

/-- Wherever the preface comes in the input, it is accepted. -/
theorem run_found (ord : HashOrder) (chunks : List Octets) :
    ∀ {con : Connection} {input : Octets}, con.preface = false → ¬ preface <:+: input →
      preface <:+: input ++ chunks.flatten →
      (runEvents (feed ord) { con, input } chunks).con.preface = true := by
  induction chunks with
  | nil =>
      intro con input _ hBefore hFound
      rw [List.flatten_nil, List.append_nil] at hFound
      exact absurd hFound hBefore
  | cons chunk chunks ih =>
      intro con input hPreface hBefore hFound
      rw [List.flatten_cons, ← List.append_assoc] at hFound
      rw [← List.singleton_append, runEvents_append, runEvents_singleton]
      by_cases hHere : preface <:+: input ++ chunk
      · rw [feed_right ord hPreface hHere.length_le hHere]
        refine preface_run ord chunks ?_
        rw [preface_feedFrames]
        rfl
      · rcases Nat.lt_or_ge (input ++ chunk).length preface.length with hShort | hLong
        · rw [feed_short ord hPreface hShort]
          exact ih hPreface hHere hFound
        · rw [feed_wrong ord hPreface hLong hHere]
          exact @ih (withShutdown con) _ hPreface hHere hFound

/-- The preface is told from other input exactly when the input starts with it or does not have
it anywhere. -/
theorem prefaceStrict_iff (ord : HashOrder) (start : Server) (hFresh : start.Fresh)
    (chunks : List Octets) :
    PrefaceStrict ord start chunks ↔ preface <+: chunks.flatten ∨ ¬ preface <:+: chunks.flatten := by
  obtain ⟨con, startInput⟩ := start
  obtain ⟨hEmpty, hPreface, -, -⟩ := hFresh
  dsimp only at hEmpty hPreface
  subst hEmpty
  have hShortStart : ([] : Octets).length < preface.length := by decide
  rw [PrefaceStrict]
  dsimp only
  constructor
  · intro hStrict
    by_contra hLate
    obtain ⟨hFirst, hFound⟩ := not_or.mp hLate
    have hFound := not_not.mp hFound
    have hNone : ¬ preface <:+: [] := by decide
    have hAccepted := run_found ord chunks hPreface hNone hFound
    rw [hStrict, if_neg (Nat.not_lt.mpr hFound.length_le), if_neg] at hAccepted
    · exact Bool.false_ne_true (hPreface.symm.trans hAccepted)
    · exact fun hTake => hFirst (hTake ▸ List.take_prefix ..)
  · intro hCondition
    split
    · next hShort => exact run_short ord hPreface chunks hShort
    · next hLong =>
        have hLong := Nat.not_lt.mp hLong
        split
        · next hTake =>
            have hFirst : preface <+: chunks.flatten := hTake ▸ List.take_prefix ..
            exact run_right ord hPreface chunks hShortStart hFirst
        · next hTake =>
            have hFirst : ¬ preface <+: chunks.flatten := fun h =>
              hTake (List.prefix_iff_eq_take.mp h).symm
            exact run_wrong ord hPreface chunks hShortStart hLong (hCondition.resolve_left hFirst)

/-- A request of HTTP/1.1 that has the preface in its body. -/
def plainRequest : Octets := octets "POST / HTTP/1.1\r\nContent-Length: 24\r\n\r\n" ++ preface

theorem prefaceStrict_iff_plainRequest :
    (Server.new ∅).Fresh ∧
      (PrefaceStrict .kept (Server.new ∅) [plainRequest] ↔
        preface <+: [plainRequest].flatten ∨ ¬ preface <:+: [plainRequest].flatten) :=
  ⟨fresh_new ∅, prefaceStrict_iff .kept (Server.new ∅) (fresh_new ∅) [plainRequest]⟩

/-- It is taken for a client of HTTP/2. -/
theorem not_prefaceStrict_plainRequest : ¬ PrefaceStrict .kept (Server.new ∅) [plainRequest] := by
  intro hStrict
  have hPreface := congrArg (fun server => server.con.preface) hStrict
  revert hPreface
  decide +kernel

end PageCamel.Http2.Server
