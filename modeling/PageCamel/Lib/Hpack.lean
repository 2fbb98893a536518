import Mathlib.Tactic.Ring
import PageCamel.Lib.Octets

/-!
Header compression as RFC 7541 has it: how the instructions of a header block are
spelled, and what they do to the dynamic table. The static table, the code of compressed
strings and the bound on the table are parameters.
-/

namespace PageCamel.Lib.Hpack

abbrev Field := Octets × Octets

/-! ### The dynamic table -/

def fieldSize (field : Field) : Nat := field.1.length + field.2.length + 32

def size (entries : List Field) : Nat := (entries.map fieldSize).sum

@[simp] theorem size_nil : size [] = 0 := rfl

@[simp] theorem size_cons (field : Field) (entries : List Field) :
    size (field :: entries) = fieldSize field + size entries := rfl

@[simp] theorem size_append (entries entries' : List Field) :
    size (entries ++ entries') = size entries + size entries' := by
  simp [size]

@[simp] theorem size_reverse (entries : List Field) : size entries.reverse = size entries := by
  simp [size]

/-- Eviction down to a limit: the newest entries stay, as many as it has room for. -/
def keep (limit : Nat) : List Field → List Field
  | [] => []
  | field :: entries =>
      if fieldSize field ≤ limit then field :: keep (limit - fieldSize field) entries else []

theorem size_keep (limit : Nat) (entries : List Field) : size (keep limit entries) ≤ limit := by
  induction entries generalizing limit with
  | nil => exact Nat.zero_le limit
  | cons field entries ih =>
      rw [keep]
      split
      · have hRest := ih (limit - fieldSize field)
        rw [size_cons]
        omega
      · exact Nat.zero_le limit

/-- Nothing goes when all entries have room. -/
theorem keep_of_fits {limit : Nat} {entries : List Field} (h : size entries ≤ limit) :
    keep limit entries = entries := by
  induction entries generalizing limit with
  | nil => rfl
  | cons field entries ih =>
      rw [size_cons] at h
      rw [keep, if_pos (by omega), ih (by omega)]

/-- Otherwise the oldest entry goes first. -/
theorem keep_append_singleton {limit : Nat} {entries : List Field} {oldest : Field}
    (h : limit < size (entries ++ [oldest])) : keep limit (entries ++ [oldest]) = keep limit entries := by
  induction entries generalizing limit with
  | nil =>
      simp only [List.nil_append, size_cons, size_nil, Nat.add_zero] at h
      simp [keep, Nat.not_le.mpr h]
  | cons field entries ih =>
      rw [List.cons_append, size_cons] at h
      rw [List.cons_append, keep, keep]
      split
      · rw [ih (by omega)]
      · rfl

/-- A new entry comes first, once the entries there have made room for it; one that is larger
than the limit leaves nothing. -/
def insert (limit : Nat) (field : Field) (entries : List Field) : List Field :=
  if fieldSize field ≤ limit then field :: keep (limit - fieldSize field) entries else []

theorem size_insert (limit : Nat) (field : Field) (entries : List Field) :
    size (insert limit field entries) ≤ limit := by
  rw [insert]
  split
  · have hRest := size_keep (limit - fieldSize field) entries
    rw [size_cons]
    omega
  · exact Nat.zero_le limit

theorem insert_of_large {limit : Nat} {field : Field} (h : limit < fieldSize field)
    (entries : List Field) : insert limit field entries = [] :=
  if_neg (Nat.not_le.mpr h)

/-- A dynamic table, the newest entry first. -/
structure Table where
  entries : List Field
  maxSize : Nat
  fits : size entries ≤ maxSize

namespace Table

def empty (maxSize : Nat) : Table := ⟨[], maxSize, Nat.zero_le maxSize⟩

def add (table : Table) (field : Field) : Table :=
  ⟨insert table.maxSize field table.entries, table.maxSize, size_insert ..⟩

def resize (table : Table) (maxSize : Nat) : Table :=
  ⟨keep maxSize table.entries, maxSize, size_keep ..⟩

/-- The entry of an index: the static table comes first. -/
def entry? (table : Table) (static : List Field) (index : Nat) : Option Field :=
  if index = 0 then none
  else if index ≤ static.length then static[index - 1]?
  else table.entries[index - static.length - 1]?

end Table

/-! ### Instructions -/

inductive Name
  | index (index : Nat)
  | new (name : Octets)

inductive Instruction
  | indexed (index : Nat)
  | literal (name : Name) (value : Octets) (added : Bool)
  | sizeUpdate (maxSize : Nat)

/-- The table and the fields of the block so far. -/
structure Decoder where
  table : Table
  fields : List Field := []

namespace Decoder

def emit (decoder : Decoder) (field : Field) : Decoder :=
  { decoder with fields := decoder.fields ++ [field] }

def emitLiteral (decoder : Decoder) (field : Field) (added : Bool) : Decoder :=
  { table := if added then decoder.table.add field else decoder.table
    fields := decoder.fields ++ [field] }

variable (static : List Field) (limit : Nat)

/-- One instruction. The size of the table changes within the limit, and before the first
field of the block. -/
def step (decoder : Decoder) : Instruction → Option Decoder
  | .indexed index => (decoder.table.entry? static index).map decoder.emit
  | .literal (.new name) value added => some (decoder.emitLiteral (name, value) added)
  | .literal (.index index) value added =>
      (decoder.table.entry? static index).map fun field =>
        decoder.emitLiteral (field.1, value) added
  | .sizeUpdate maxSize =>
      if maxSize ≤ limit ∧ decoder.fields = [] then
        some { decoder with table := decoder.table.resize maxSize }
      else none

def run (decoder : Decoder) : List Instruction → Option Decoder
  | [] => some decoder
  | instruction :: instructions =>
      (decoder.step static limit instruction).bind fun decoder => decoder.run instructions

end Decoder

/-! ### How instructions are spelled -/

/-- The continuation octets of an integer: seven bits each, the lowest first. -/
def readRest : Octets → Option (Nat × Octets)
  | [] => none
  | b :: buf =>
      if b.toNat < 128 then some (b.toNat, buf)
      else (readRest buf).map fun (value, rest) => (b.toNat % 128 + 128 * value, rest)

/-- An integer on a prefix of `n` bits. -/
def readInt (n : Nat) : Octets → Option (Nat × Octets)
  | [] => none
  | b :: buf =>
      if b.toNat % 2 ^ n < 2 ^ n - 1 then some (b.toNat % 2 ^ n, buf)
      else (readRest buf).map fun (value, rest) => (2 ^ n - 1 + value, rest)

variable (huffman : Octets → Option Octets)

/-- A string, compressed when its first bit is set. -/
def readString (buf : Octets) : Option (Octets × Octets) :=
  (readInt 7 buf).bind fun (length, rest) =>
    if rest.length < length then none
    else
      let raw := rest.take length
      (if 128 ≤ (buf.headD 0).toNat then huffman raw else some raw).map fun string =>
        (string, rest.drop length)

/-- A literal: a name, which has an index unless that is zero, and a value. -/
def readLiteral (n : Nat) (added : Bool) (buf : Octets) : Option (Instruction × Octets) :=
  (readInt n buf).bind fun (index, rest) =>
    if index = 0 then
      (readString huffman rest).bind fun (name, rest) =>
        (readString huffman rest).map fun (value, rest) => (.literal (.new name) value added, rest)
    else
      (readString huffman rest).map fun (value, rest) => (.literal (.index index) value added, rest)

/-- The leading bits tell the instructions apart. -/
def readInstruction (buf : Octets) : Option (Instruction × Octets) :=
  let first := (buf.headD 0).toNat
  if 128 ≤ first then (readInt 7 buf).map fun (index, rest) => (.indexed index, rest)
  else if 64 ≤ first then readLiteral huffman 6 true buf
  else if 32 ≤ first then (readInt 5 buf).map fun (maxSize, rest) => (.sizeUpdate maxSize, rest)
  else readLiteral huffman 4 false buf

/-- The instructions of a block; every one takes an octet. -/
def readInstructions : Nat → Octets → Option (List Instruction)
  | 0, buf => if buf = [] then some [] else none
  | fuel + 1, buf =>
      if buf = [] then some []
      else
        (readInstruction huffman buf).bind fun (instruction, rest) =>
          (readInstructions fuel rest).map (instruction :: ·)

def readBlock (block : Octets) : Option (List Instruction) :=
  readInstructions huffman block.length block

/-! ### Blocks -/

/-- The sizes a block gives the table before its first field. -/
def updates : List Instruction → List Nat
  | .sizeUpdate maxSize :: instructions => maxSize :: updates instructions
  | _ => []

/-- After the limit was reduced, a block has to bring the table down to the lowest limit
there was. -/
def announces (lowest : Nat) (table : Table) (instructions : List Instruction) : Bool :=
  table.maxSize ≤ lowest || (updates instructions).any (· ≤ lowest)

/-- A header block, with the limit there is now and the lowest one since the last block. -/
def decodeBlock (static : List Field) (limit lowest : Nat) (table : Table) (block : Octets) :
    Option Decoder :=
  (readBlock huffman block).bind fun instructions =>
    if announces lowest table instructions then
      ({ table } : Decoder).run static limit instructions
    else none

end PageCamel.Lib.Hpack
