import Retouch.Text.Quoted

/-!
# UTF-8

Files and the output of the engine are bytes; their text is read as UTF-8. Where the bytes are not
well formed, the longest part that begins some character is taken together as one fault: a strict
reader reports the first fault, and a tolerant one puts the replacement character in its place.
-/

namespace Retouch

abbrev Bytes := List UInt8

namespace Utf8

/-- What is wrong with a part of the bytes. -/
inductive Fault where
  /-- No character begins with this byte. -/
  | start
  /-- A character begins, and the byte after the part does not continue it. -/
  | continuation
  /-- A character begins, and the bytes end before it does. -/
  | ending
  deriving DecidableEq

/-- What the bytes begin with: a character of some length, or a faulty part of some length. -/
inductive Piece where
  | char (c : Char) (size : Nat)
  | fault (kind : Fault) (size : Nat)

/-- The number of bytes that follow a first byte, the range of the second byte, and the bits that
the first byte gives; nothing for a byte that begins no character. -/
def lead? (byte : Nat) : Option (Nat × Nat × Nat × Nat) :=
  if byte < 0x80 then some (0, 0x80, 0xBF, byte)
  else if 0xC2 ≤ byte ∧ byte ≤ 0xDF then some (1, 0x80, 0xBF, byte - 0xC0)
  -- no shorter form of a character, no half of a pair and nothing past the last character
  else if byte = 0xE0 then some (2, 0xA0, 0xBF, 0)
  else if byte = 0xED then some (2, 0x80, 0x9F, 0xD)
  else if 0xE1 ≤ byte ∧ byte ≤ 0xEF then some (2, 0x80, 0xBF, byte - 0xE0)
  else if byte = 0xF0 then some (3, 0x90, 0xBF, 0)
  else if byte = 0xF4 then some (3, 0x80, 0x8F, 4)
  else if 0xF1 ≤ byte ∧ byte ≤ 0xF3 then some (3, 0x80, 0xBF, byte - 0xF0)
  else none

/-- Reads the bytes that continue a character: how many are still due, the range of the next one,
the bits and the number of bytes read so far. -/
def continuePiece (low high bits size : Nat) : Nat → Bytes → Piece
  | 0, _ => .char (Char.ofNat bits) size
  | _ + 1, [] => .fault .ending size
  | due + 1, byte :: rest =>
      if low ≤ byte.toNat ∧ byte.toNat ≤ high then
        continuePiece 0x80 0xBF (bits * 64 + (byte.toNat - 0x80)) (size + 1) due rest
      else
        .fault .continuation size

def piece (first : UInt8) (rest : Bytes) : Piece :=
  match lead? first.toNat with
  | some (due, low, high, bits) => continuePiece low high bits 1 due rest
  | none => .fault .start 1

/-- Where and why bytes are not UTF-8. -/
structure DecodeError where
  fault : Fault
  position : Nat
  size : Nat
  byte : UInt8
  deriving DecidableEq

/-- The message of an error: the faulty bytes, their positions and the fault. -/
def DecodeError.message (error : DecodeError) : Text :=
  let reason : Text := match error.fault with
    | .start => "invalid start byte"
    | .continuation => "invalid continuation byte"
    | .ending => "unexpected end of data"
  let position := Nat.toDigits 10 error.position
  let place : Text :=
    if error.size = 1 then
      "byte 0x" ++ Text.hexDigits 2 error.byte.toNat ++ " in position " ++ position
    else
      "bytes in position " ++ position ++ "-" ++
        Nat.toDigits 10 (error.position + error.size - 1)
  "'utf-8' codec can't decode " ++ place ++ ": " ++ reason

/-- The text of bytes that stand at some position, or the first fault. -/
def decodeFrom (position : Nat) : Bytes → Except DecodeError Text
  | [] => .ok []
  | first :: rest =>
      match piece first rest with
      | .char c size => (decodeFrom (position + size) (rest.drop (size - 1))).map (c :: ·)
      | .fault fault size => .error ⟨fault, position, size, first⟩
termination_by bytes => bytes.length
decreasing_by simp only [List.length_drop, List.length_cons]; omega

def decode (bytes : Bytes) : Except DecodeError Text :=
  decodeFrom 0 bytes

/-- The text of bytes, with the replacement character for each faulty part. -/
def decodeTolerant : Bytes → Text
  | [] => []
  | first :: rest =>
      match piece first rest with
      | .char c size => c :: decodeTolerant (rest.drop (size - 1))
      | .fault _ size => Char.ofNat 0xFFFD :: decodeTolerant (rest.drop (size - 1))
termination_by bytes => bytes.length
decreasing_by all_goals simp only [List.length_drop, List.length_cons]; omega

def encode (text : Text) : Bytes :=
  text.flatMap String.utf8EncodeChar

end Utf8

end Retouch
