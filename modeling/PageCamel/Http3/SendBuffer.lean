import PageCamel.Lib.Octets

/-!
The buffer for the response body of an HTTP/3 stream and the two functions that
fill it (`h3_send_response_body` and `h3_send_response` in `h3_api.c`). How the
octets lie in chunks of memory is left out; that memory is freed is an event.
-/

namespace PageCamel.Http3
open PageCamel.Lib

/-- `H3_MAX_BUFFER_SIZE`. -/
def maxBufferSize : Nat := 10 * 1024 * 1024

/-- `h3_stream_buffer_t`: all that has been written, how much of it has been freed,
and the end mark. -/
structure StreamBuffer where
  data : Octets := []
  freed : Nat := 0
  eof : Bool := false
  deriving DecidableEq, Repr

/-- `h3_buffer_memory_usage`. -/
def StreamBuffer.memoryUsage (b : StreamBuffer) : Nat := b.data.length - b.freed

/-- `h3_buffer_can_write`. -/
def StreamBuffer.canWrite (b : StreamBuffer) (len : Nat) : Bool :=
  b.memoryUsage + len ≤ maxBufferSize

/-- Acknowledged memory is freed. -/
def StreamBuffer.free (b : StreamBuffer) (n : Nat) : StreamBuffer :=
  { b with freed := min (b.freed + n) b.data.length }

inductive H3Result where
  | ok
  | wouldBlock
  | errorStream
  deriving DecidableEq, Repr

/-- `h3_send_response_body` on a stream's buffer, `none` when there is no such stream. -/
def h3SendResponseBody (stream : Option StreamBuffer) (data : Octets) (eof : Bool) :
    Option StreamBuffer × H3Result :=
  match stream with
  | none => (none, .errorStream)
  | some b =>
      if data ≠ [] ∧ ¬ b.canWrite data.length then (some b, .wouldBlock)
      else (some { b with data := b.data ++ data, eof := b.eof || eof }, .ok)

/-- `h3_send_response` once the headers have been submitted: they create the stream,
and without a body nothing follows them. -/
def h3SendResponse (stream : Option StreamBuffer) (body : Octets) : Option StreamBuffer × H3Result :=
  let stream := some (stream.getD {})
  if body ≠ [] then h3SendResponseBody stream body true else (stream, .ok)

/-- A send adds all of its data or nothing. -/
theorem h3SendResponseBody_data (b : StreamBuffer) (data : Octets) (eof : Bool) :
    h3SendResponseBody (some b) data eof = (some b, .wouldBlock) ∨
    h3SendResponseBody (some b) data eof =
      (some { b with data := b.data ++ data, eof := b.eof || eof }, .ok) := by
  rw [h3SendResponseBody]
  split
  · exact .inl rfl
  · exact .inr rfl

/-- A body above the limit is refused by every buffer. -/
theorem h3SendResponse_refuses (stream : Option StreamBuffer) {body : Octets}
    (hBody : maxBufferSize < body.length) : (h3SendResponse stream body).2 = .wouldBlock := by
  have hNonempty : body ≠ [] := by
    rintro rfl
    exact absurd hBody (Nat.not_lt_zero _)
  rw [h3SendResponse, if_pos hNonempty, h3SendResponseBody, if_pos]
  refine ⟨hNonempty, ?_⟩
  simp only [StreamBuffer.canWrite, decide_eq_true_eq, Nat.not_le]
  omega

end PageCamel.Http3
