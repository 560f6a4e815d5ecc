import PathStudio.Text.Digit
import PathStudio.Text.Surrogate

/-!
# UTF-8

Bytes as characters. A run of bytes that encodes none is reported with its
length and the reason; reading strictly stops at the first such run, reading
leniently puts the replacement character for each. In the other direction, a
text with unpaired surrogates has no bytes.
-/

namespace PathStudio.Text.Utf8

/-- Why bytes encode no character. -/
inductive Reason where
  | badStart
  | badContinuation
  | truncated
  deriving DecidableEq, Repr

def Reason.phrase : Reason → String
  | .badStart => "invalid start byte"
  | .badContinuation => "invalid continuation byte"
  | .truncated => "unexpected end of data"

/-- What the front of a run of bytes is: a character, or bytes that encode none. -/
inductive Piece where
  | char (c : Char) (length : Nat)
  | bad (reason : Reason) (length : Nat)

def Piece.length : Piece → Nat
  | .char _ length | .bad _ length => length

def isContinuation (b : Nat) : Bool := 0x80 ≤ b && b < 0xC0

/-- The least second byte after a lead byte. -/
def leastSecond (lead : Nat) : Nat :=
  if lead = 0xE0 then 0xA0 else if lead = 0xF0 then 0x90 else 0x80

/-- The bound of the second byte after a lead byte. -/
def secondBound (lead : Nat) : Nat :=
  if lead = 0xED then 0xA0 else if lead = 0xF4 then 0x90 else 0xC0

/-- Reads the bytes after a lead byte: `missing` of them are still expected, `taken` have been
read. -/
def readTail (value taken : Nat) : (missing : Nat) → List Nat → Piece
  | 0, _ => .char (Char.ofNat value) taken
  | _ + 1, [] => .bad .truncated taken
  | missing + 1, b :: rest =>
    if isContinuation b then readTail (value * 64 + b % 64) (taken + 1) missing rest
    else .bad .badContinuation taken

/-- Reads the second byte, whose range hangs on the lead byte, and the bytes after it. -/
def readSecond (lead value missing : Nat) : List Nat → Piece
  | [] => .bad .truncated 1
  | b :: rest =>
    if leastSecond lead ≤ b && b < secondBound lead then readTail (value * 64 + b % 64) 2 missing rest
    else .bad .badContinuation 1

/-- Reads the front of a run of bytes that begins with a lead byte. -/
def readPiece (lead : Nat) (rest : List Nat) : Piece :=
  if lead < 0x80 then .char (Char.ofNat lead) 1
  else if lead < 0xC2 then .bad .badStart 1
  else if lead < 0xE0 then readSecond lead (lead % 32) 0 rest
  else if lead < 0xF0 then readSecond lead (lead % 16) 1 rest
  else if lead < 0xF5 then readSecond lead (lead % 8) 2 rest
  else .bad .badStart 1

/-- The pieces of a run of bytes; `taken` bytes belong to the piece before. -/
def piecesFrom : (taken : Nat) → List Nat → List Piece
  | _, [] => []
  | taken + 1, _ :: rest => piecesFrom taken rest
  | 0, b :: rest =>
    let piece := readPiece b rest
    piece :: piecesFrom (piece.length - 1) rest

/-- The pieces of bytes. -/
def pieces (bytes : List UInt8) : List Piece := piecesFrom 0 (bytes.map UInt8.toNat)

/-- The characters of bytes, with a replacement for each bad piece. -/
def decodeLenient (bytes : List UInt8) : List Char :=
  (pieces bytes).map fun
    | .char c _ => c
    | .bad _ _ => Char.ofNat 0xFFFD

/-- The first bad piece of bytes: where it begins, its length and its reason. -/
def firstBad? (at_ : Nat) : List Piece → Option (Nat × Nat × Reason)
  | [] => none
  | .char _ length :: rest => firstBad? (at_ + length) rest
  | .bad reason length :: _ => some (at_, length, reason)

/-- The characters of bytes, or what is wrong with them. -/
def decode (bytes : List UInt8) : Except String (List Char) :=
  match firstBad? 0 (pieces bytes) with
  | none => .ok (decodeLenient bytes)
  | some (at_, length, reason) =>
    let place :=
      if length = 1 then
        "byte 0x" ++ String.ofList (hexDigits 2 (bytes[at_]?.getD 0).toNat)
          ++ " in position " ++ toString at_
      else "bytes in position " ++ toString at_ ++ "-" ++ toString (at_ + length - 1)
    .error ("'utf-8' codec can't decode " ++ place ++ ": " ++ reason.phrase)

/-- How many bytes encode a character; a carried surrogate counts as the byte that it may stand
for. -/
def charSize (c : Char) : Nat := if isSurrogate c then 1 else c.utf8Size

/-- How many bytes encode a text. -/
def size (s : List Char) : Nat := s.foldl (fun bytes c => bytes + charSize c) 0

/-- What keeps a text from being encoded, if anything: a surrogate that is not allowed. -/
def unencodable? (allowed : Nat → Bool) (s : List Char) : Option String :=
  (surrogateRun? allowed 0 s).map fun (at_, length) =>
    let place :=
      if length = 1 then
        let unit := (s[at_]?.bind surrogate?).getD 0
        "character '\\u" ++ String.ofList (hexDigits 4 unit) ++ "' in position " ++ toString at_
      else "characters in position " ++ toString at_ ++ "-" ++ toString (at_ + length - 1)
    "'utf-8' codec can't encode " ++ place ++ ": surrogates not allowed"

end PathStudio.Text.Utf8
