import PageCamel.Lib.Fields
import Mathlib.Tactic.Common

/-!
The ranges that a download is asked for (`get_download` of `Web/DynamicFiles/External.pm`): how
they are read, and how several of them are merged in one pass. Numbers are texts of digits; what
else Perl reads as a number cannot stand in a byte range.
-/

namespace PageCamel.Web.ByteRanges

open Lib.Fields

abbrev Text := List Char

def isSpace (c : Char) : Bool := c = ' ' || 9 ≤ c.toNat && c.toNat ≤ 13

/-- A text in a place for a number. -/
def num (text : Text) : Nat :=
  Nat.ofDigitChars 10 ((text.dropWhile isSpace).takeWhile Char.isDigit) 0

def decimal (n : Nat) : Text := Nat.toDigits 10 n

/-- `$range =~ s/.*\=//`. -/
def withoutUnit (range : Text) : Text := (range.reverse.takeWhile (· ≠ '=')).reverse

/-- `$contentlength - 1`, put behind a text. -/
def lastPosition (contentlength : Nat) : Text :=
  if contentlength = 0 then ['-', '1'] else decimal (contentlength - 1)

/-- "Add missing args for shorthand ranges". -/
def shorthand (contentlength : Nat) (range : Text) : Text :=
  let range := if range.head? = some '-' then '0' :: range else range
  if range.getLast? = some '-' then range ++ lastPosition contentlength else range

/-- Split at the dashes; what is missing counts as zero. -/
def startEnd (contentlength : Nat) (range : Text) : Text × Text :=
  let parts := fields '-' (shorthand contentlength range)
  (column parts 0, column parts 1)

/-- "Validate Range"; no text of digits is below zero. -/
def invalid (contentlength : Nat) (start stop : Text) : Bool :=
  contentlength ≤ num stop || num stop < num start

structure OkRange where
  start : Text
  stop : Text
  rangeid : Nat
  deriving DecidableEq, Repr

namespace OkRange

/-- The three comparisons with an accepted range, each with what the ones before left of it, and
whether one of them was met. -/
def absorb (start stop : Text) (ok : OkRange) : OkRange × Bool :=
  let (ok, touched) :=
    if num ok.start ≤ num start ∧ num start ≤ num ok.stop then
      (if num ok.stop < num stop then { ok with stop := stop } else ok, true)
    else (ok, false)
  let (ok, touched) :=
    if num ok.start ≤ num stop ∧ num stop ≤ num ok.stop then
      (if num start < num ok.start then { ok with start := start } else ok, true)
    else (ok, touched)
  if num start ≤ num ok.start ∧ num ok.stop ≤ num stop then
    ({ ok with start := start, stop := stop }, true)
  else (ok, touched)

/-- The checks for "trickery" of one range against another. -/
def tricks (ok chk : OkRange) : Bool :=
  ok.rangeid ≠ chk.rangeid &&
    (num ok.start ≤ num chk.start && num chk.start ≤ num ok.stop ||
      num ok.start ≤ num chk.stop && num chk.stop ≤ num ok.stop ||
      num chk.start < num ok.start && num ok.stop < num chk.stop)

end OkRange

/-- A range that no accepted one touches gets the next number. -/
def accept (okranges : List OkRange) (start stop : Text) : List OkRange :=
  let merged := okranges.map fun ok => ok.absorb start stop
  let okranges := merged.map fun ok => ok.1
  if merged.any fun ok => ok.2 then okranges
  else okranges ++ [{ start, stop, rangeid := okranges.length }]

/-- One part of the header; the error is a status. -/
def addPart (contentlength : Nat) (okranges : List OkRange) (rpart : Text) :
    Except Nat (List OkRange) :=
  let (start, stop) := startEnd contentlength rpart
  if invalid contentlength start stop then throw 416 else return accept okranges start stop

def rparts (range : Text) : List Text := fields ',' (range.filter (· ≠ ' '))

def okRanges (contentlength : Nat) (range : Text) : Except Nat (List OkRange) :=
  (rparts range).foldlM (addPart contentlength) []

def hasTrickery (okranges : List OkRange) : Bool :=
  okranges.any fun ok => okranges.any fun chk => ok.tricks chk

end PageCamel.Web.ByteRanges
