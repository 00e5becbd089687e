import CeriosCluster.MCPacket.Buffer

/-!
# The header of a session-server response

`readHTTPHeader` reads lines up to one that is a lone carriage return. A line with a colon is a
header field, a line without one that contains `HTTP` is searched for a status code, and every other
line is skipped.
-/

namespace CeriosCluster.ClientGateway

open CeriosCluster.Lib CeriosCluster.MCPacket

/-- `std::isspace` in the C locale. -/
def isSpace (b : Byte) : Bool := b == 0x20 || (0x09 ≤ b && b ≤ 0x0d)

def isDigit (b : Byte) : Bool := 0x30 ≤ b && b ≤ 0x39

def decimal (digits : Bytes) : Nat := digits.foldl (fun acc b => 10 * acc + (b.toNat - 0x30)) 0

/-- `std::stoi` of decimal digits. -/
def stoi (digits : Bytes) : Except Exn Nat :=
  if decimal digits < 2 ^ 31 then .ok (decimal digits) else .error .outOfRange

/-- `std::stoul`: leading white space, a sign, then as many digits as there are; a minus sign negates
modulo `2 ^ 64`. -/
def stoul (text : Bytes) : Except Exn Nat :=
  let text := text.dropWhile isSpace
  let negative := text.head? == some 0x2d
  let digits := (if negative || text.head? == some 0x2b then text.drop 1 else text).takeWhile isDigit
  if digits = [] then .error .invalidArgument
  else if 2 ^ 64 ≤ decimal digits then .error .outOfRange
  else .ok (if negative then (2 ^ 64 - decimal digits) % 2 ^ 64 else decimal digits)

def trim (text : Bytes) : Bytes := ((text.dropWhile (· == 0x20)).reverse.dropWhile (· == 0x20)).reverse

/-- One `std::getline`: a line, without its newline, and what follows; `none` at the end of the stream. -/
def getline : Bytes → Option (Bytes × Bytes)
  | [] => none
  | stream => some (stream.takeWhile (· != 0x0a), (stream.dropWhile (· != 0x0a)).drop 1)

/-- `text.find(part) finds something. -/
def findText (part : Bytes) : Bytes → Bool
  | [] => part.isEmpty
  | b :: text => part.isPrefixOf (b :: text) || findText part text

/-- `(\S+) (\d+) ([\S| ]+)` matched at the front of `text`: its second group. -/
def matchStatus (text : Bytes) : Option Bytes :=
  let word := text.takeWhile (!isSpace ·)
  match text.drop word.length with
  | 0x20 :: afterWord =>
    let digits := afterWord.takeWhile isDigit
    match afterWord.drop digits.length with
    | 0x20 :: reason :: _ =>
      if word ≠ [] ∧ digits ≠ [] ∧ (!isSpace reason || reason == 0x20) then some digits else none
    | _ => none
  | _ => none

/-- `std::regex_search` for it: the leftmost match. -/
def searchStatus : Bytes → Option Bytes
  | [] => none
  | b :: text => (matchStatus (b :: text)).orElse fun _ => searchStatus text

/-- How the loop over the header lines ends: with the fields, the last one set first, and what is left of
the stream; with a status code other than 200; or with an exception. -/
inductive HeaderLines
  | fields (httpKVPairs : List (Bytes × Bytes)) (rest : Bytes)
  | notOk
  | threw (e : Exn)

/-- The loop over the lines of the header, for at most `fuel` lines. -/
def headerLinesLoop : Nat → List (Bytes × Bytes) → Bytes → HeaderLines
  | 0, httpKVPairs, stream => .fields httpKVPairs stream
  | fuel + 1, httpKVPairs, stream =>
    match getline stream with
    | none => .fields httpKVPairs []
    | some (line, rest) =>
      if line = [0x0d] then .fields httpKVPairs rest
      else if line.contains 0x3a then
        let index := line.idxOf 0x3a
        headerLinesLoop fuel ((trim (line.take index), trim (line.drop (index + 1))) :: httpKVPairs) rest
      else if findText (ascii "HTTP") line then
        match searchStatus line with
        | none => headerLinesLoop fuel httpKVPairs rest
        | some digits =>
          match stoi digits with
          | .error e => .threw e
          | .ok code => if code ≠ 200 then .notOk else headerLinesLoop fuel httpKVPairs rest
      else headerLinesLoop fuel httpKVPairs rest

/-- Every line takes a byte off the stream, so its length and one more is fuel enough. -/
def headerLines (stream : Bytes) : HeaderLines := headerLinesLoop (stream.length + 1) [] stream

def headerField (key : Bytes) (httpKVPairs : List (Bytes × Bytes)) : Bytes := (httpKVPairs.lookup key).getD []

end CeriosCluster.ClientGateway
