import PageCamel.Lib.Http1

/-!
Reading a chunked request body from the socket of a client, whole or in blocks for a
handler. Both readers do their work inside `eval` and leave only the `eval` when something
is wrong.
-/

namespace PageCamel.WebBase
open PageCamel.Lib PageCamel.Lib.Http1

/-- What a reader meets: the next octet, or the end of its time. After the last signal there
is nothing any more, by the end of the stream or by silence. -/
inductive Signal
  | octet (b : UInt8)
  | timeUp
deriving DecidableEq, Repr

abbrev Arrivals := List Signal

def arriving (s : Octets) : Arrivals := s.map .octet

def blocksize : Nat := 65536

/-- A line up to its line feed, without carriage returns; nothing if it does not come. -/
def read_chunk_size_line : Arrivals → Octets → Option Octets × Arrivals
  | [], _ => (none, [])
  | .timeUp :: socket, _ => (none, socket)
  | .octet b :: socket, line =>
      if b = 13 then read_chunk_size_line socket line
      else if b = 10 then (some line, socket)
      else read_chunk_size_line socket (line ++ [b])

/-- `sysread` when there is something to read. -/
def sysread : Nat → Arrivals → Octets × Arrivals
  | n + 1, .octet b :: socket =>
      let (buf, socket) := sysread n socket
      (b :: buf, socket)
  | _, socket => ([], socket)

/-- A reader of chunks: how many octets the next reads get (all they ask for, when that is
not said), what is left on the socket, the blocks read so far and what of them was taken. -/
structure Reader where
  cuts : List Nat
  socket : Arrivals
  blocks : List Octets := []
  total_size : Nat := 0

/-- The size of the next read. -/
def readSize (cuts : List Nat) (remaining : Nat) : Nat :=
  let want := if remaining > blocksize then blocksize else remaining
  max 1 (min (cuts.headD want) want)

section
variable (accepts : List Octets → Octets → Bool)

/-- The data of a chunk, given to the handler block by block; `accepts` says what the handler
returns for a block after those before it. The first component tells whether all of the chunk
was read, the second what was. -/
def readChunk : Nat → Nat → Reader → Bool × Octets × Reader
  | 0, _, r => (true, [], r)
  | fuel + 1, remaining, r =>
      if remaining = 0 then (true, [], r)
      else
        match r.socket with
        | [] => (false, [], r)
        | .timeUp :: socket => (false, [], { r with socket })
        | .octet _ :: _ =>
            let (buf, socket) := sysread (readSize r.cuts remaining) r.socket
            let given := { r with cuts := r.cuts.tail, socket, blocks := r.blocks ++ [buf] }
            if accepts r.blocks buf then
              let (complete, data, r) := readChunk fuel (remaining - buf.length)
                { given with total_size := r.total_size + buf.length }
              (complete, buf ++ data, r)
            else (false, buf, given)

/-- `s/;.*$//` -/
def withoutExtension (sizeline : Octets) : Octets := sizeline.takeWhile (· ≠ 0x3B)

/-- `/^[0-9a-fA-F]+$/` -/
def isHexNumber (s : Octets) : Bool := s ≠ [] ∧ s.all fun b => (hexDigit? b).isSome

/-- The first loop of both readers: whether it ends at the terminal chunk, and the data of the
complete chunks. -/
def readChunks : Nat → Reader → Bool × List Octets × Reader
  | 0, r => (false, [], r)
  | fuel + 1, r =>
      match read_chunk_size_line r.socket [] with
      | (none, socket) => (false, [], { r with socket })
      | (some sizeline, socket) =>
          let r := { r with socket }
          let size := withoutExtension sizeline
          if !isHexNumber size then (false, [], r)
          else if hexValue size = 0 then (true, [], r)
          else
            match readChunk accepts (hexValue size) (hexValue size) r with
            | (false, _, r) => (false, [], r)
            | (true, data, r) =>
                -- whatever comes up to the next line feed passes for the CRLF
                let (_, socket) := read_chunk_size_line r.socket []
                let (complete, chunks, r) := readChunks fuel { r with socket }
                (complete, data :: chunks, r)

end

/-- The second loop: trailers up to an empty line, or until nothing more comes. -/
def readTrailers : Nat → Arrivals → List Octets × Arrivals
  | 0, socket => ([], socket)
  | fuel + 1, socket =>
      match read_chunk_size_line socket [] with
      | (none, socket) => ([], socket)
      | (some [], socket) => ([], socket)
      | (some (b :: trailer), socket) =>
          let (trailers, socket) := readTrailers fuel socket
          ((b :: trailer) :: trailers, socket)

/-- What a reader leaves: its return value, the body in `$ua` if it puts one there, the lines
that were parsed as headers, the blocks that were read and the socket. -/
structure Outcome where
  returned : Bool
  postdata : Option Octets
  content_length : Nat
  trailers : List Octets
  blocks : List Octets
  socket : Arrivals

/-- The `eval` block of both readers; it ends early where they have `return 0`. -/
def evalBlock (accepts : List Octets → Octets → Bool) (cuts : List Nat) (socket : Arrivals) :
    Bool × List Octets × List Octets × Reader :=
  match readChunks accepts (socket.length + 1) { cuts, socket } with
  | (false, chunks, r) => (false, chunks, [], r)
  | (true, chunks, r) =>
      let (trailers, socket) := readTrailers (r.socket.length + 1) r.socket
      (true, chunks, trailers, { r with socket })

def get_request_body_chunked (cuts : List Nat) (socket : Arrivals) : Outcome :=
  let (_, chunks, trailers, r) := evalBlock (fun _ _ => true) cuts socket
  { returned := true
    postdata := some chunks.flatten
    content_length := (chunks.map List.length).sum
    trailers
    blocks := r.blocks
    socket := r.socket }

def stream_request_body_chunked (accepts : List Octets → Octets → Bool) (cuts : List Nat)
    (socket : Arrivals) : Outcome :=
  let (_, _, trailers, r) := evalBlock accepts cuts socket
  { returned := true
    postdata := none
    content_length := r.total_size
    trailers
    blocks := r.blocks
    socket := r.socket }

end PageCamel.WebBase
