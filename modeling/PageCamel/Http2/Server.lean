import PageCamel.Http2.Frame

/-!
The server (`Server.pm`): the connection it builds, the input it buffers, and
`feed`. Both request callbacks are registered, as the front end registers them.
-/

namespace PageCamel.Http2
open PageCamel.Lib

structure Server where
  con : Connection
  input : Octets := []
  deriving DecidableEq

namespace Server

/-- The settings of `new`: the given ones over the default number of streams. -/
def settings (given : Settings) : Settings :=
  given ∪ List.toAList [⟨Setting.maxConcurrentStreams, defaultMaxConcurrentStreams⟩]

def new (given : Settings) : Server :=
  { con := (Connection.new .server (settings given)).enqueue (.settings (settings given)) 0 0 }

/-- `preface_decode`: `some 0` when there is too little input. -/
def prefaceDecode (buf : Octets) : Option Nat :=
  if buf.length < preface.length then some 0
  else if (indexOf preface buf).isNone then none
  else some preface.length

/-- The loop of `feed` over the frames of the input: the connection and what is
left of the input. -/
def feedLoop (ord : HashOrder) : Nat → Connection → Octets → Connection × Octets
  | 0, con, input => (con, input)
  | fuel + 1, con, input =>
      match con.frameDecode ord input with
      | (con, none) => (con, input)
      | (con, some 0) => (con, input)
      | (con, some len) => feedLoop ord fuel con (input.drop len)

/-- The part of `feed` that follows the preface. Every frame takes octets, so the
length of the input bounds the number of turns. -/
def feedFrames (ord : HashOrder) (con : Connection) (input : Octets) : Server :=
  let (con, input) := feedLoop ord (input.length + 1) con input
  { con, input }

def feed (ord : HashOrder) (server : Server) (chunk : Octets) : Server :=
  let input := server.input ++ chunk
  if server.con.preface then feedFrames ord server.con input
  else
    match prefaceDecode input with
    | none => { con := { server.con with shutdown := true }, input }
    | some 0 => { server with input }
    | some len => feedFrames ord { server.con with preface := true } (input.drop len)

/-! ### Responses -/

/-- The fields `response` and its siblings send, the status first. -/
def responseFields (status : Octets) (headers : List Header) : List Header :=
  (octets ":status", status) :: headers

/-- `response` with a body, which may be empty. -/
def response (con : Connection) (sid : Nat) (status : Octets) (headers : List Header)
    (data : Octets) : Connection :=
  (con.sendHeaders sid (responseFields status headers) false).sendData sid data (some true)

/-- `response_stream`: the headers alone; the body follows through the stream object. -/
def responseStream (con : Connection) (sid : Nat) (status : Octets) (headers : List Header) :
    Connection :=
  con.sendHeaders sid (responseFields status headers) false

/-- `tunnel_response`: the headers, and a callback for the DATA frames that come in. -/
def tunnelResponse (con : Connection) (sid : Nat) (status : Octets) (headers : List Header) :
    Connection :=
  (con.sendHeaders sid (responseFields status headers) false).modifyStream sid fun s =>
    { s with dataCb := true }

end Server
end PageCamel.Http2
