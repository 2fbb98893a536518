import PageCamel.Lib.Octets

/-!
The static table of HPACK (`StaticTable.pm`) and the reverse table the encoder
looks fields up in.
-/

namespace PageCamel.Http2
open PageCamel.Lib

/-- A header field: name and value. -/
abbrev Header := Octets × Octets

def stable : List Header := [
  (octets ":authority", octets ""),
  (octets ":method", octets "GET"),
  (octets ":method", octets "POST"),
  (octets ":path", octets "/"),
  (octets ":path", octets "/index.html"),
  (octets ":scheme", octets "http"),
  (octets ":scheme", octets "https"),
  (octets ":status", octets "200"),
  (octets ":status", octets "204"),
  (octets ":status", octets "206"),
  (octets ":status", octets "304"),
  (octets ":status", octets "400"),
  (octets ":status", octets "404"),
  (octets ":status", octets "500"),
  (octets "accept-charset", octets ""),
  (octets "accept-encoding", octets "gzip, deflate"),
  (octets "accept-language", octets ""),
  (octets "accept-ranges", octets ""),
  (octets "accept", octets ""),
  (octets "access-control-allow-origin", octets ""),
  (octets "age", octets ""),
  (octets "allow", octets ""),
  (octets "authorization", octets ""),
  (octets "cache-control", octets ""),
  (octets "content-disposition", octets ""),
  (octets "content-encoding", octets ""),
  (octets "content-language", octets ""),
  (octets "content-length", octets ""),
  (octets "content-location", octets ""),
  (octets "content-range", octets ""),
  (octets "content-type", octets ""),
  (octets "cookie", octets ""),
  (octets "date", octets ""),
  (octets "etag", octets ""),
  (octets "expect", octets ""),
  (octets "expires", octets ""),
  (octets "from", octets ""),
  (octets "host", octets ""),
  (octets "if-match", octets ""),
  (octets "if-modified-since", octets ""),
  (octets "if-none-match", octets ""),
  (octets "if-range", octets ""),
  (octets "if-unmodified-since", octets ""),
  (octets "last-modified", octets ""),
  (octets "link", octets ""),
  (octets "location", octets ""),
  (octets "max-forwards", octets ""),
  (octets "proxy-authenticate", octets ""),
  (octets "proxy-authorization", octets ""),
  (octets "range", octets ""),
  (octets "referer", octets ""),
  (octets "refresh", octets ""),
  (octets "retry-after", octets ""),
  (octets "server", octets ""),
  (octets "set-cookie", octets ""),
  (octets "strict-transport-security", octets ""),
  (octets "transfer-encoding", octets ""),
  (octets "user-agent", octets ""),
  (octets "vary", octets ""),
  (octets "via", octets ""),
  (octets "www-authenticate", octets "")]

/-- `join ' ', $name, $value`. -/
def rstableKey (name value : Octets) : Octets := name ++ octets " " ++ value

/-- One step of the loop that fills `%rstable`: the whole field, and for the
first field of a name with a non-empty value, the name alone. -/
def rstableStep (table : List (Octets × Nat)) (entry : Header × Nat) : List (Octets × Nat) :=
  let ((name, value), k) := entry
  let table := (rstableKey name value, k + 1) :: table
  if value ≠ [] ∧ (table.lookup (rstableKey name [])).isNone then
    (rstableKey name [], k + 1) :: table
  else table

def rstable : List (Octets × Nat) := stable.zipIdx.foldl rstableStep []

end PageCamel.Http2
