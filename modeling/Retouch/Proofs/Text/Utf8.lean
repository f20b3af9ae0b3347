import Retouch.Text.Utf8

/-!
# Reading UTF-8 back

The first byte of a character tells how many bytes follow and gives the leading bits, and each byte
that follows gives six more. The bytes of a character are therefore read as that character, whatever
is behind them, and every text is read from its own bytes.
-/

namespace Retouch.Utf8

variable {value : Nat}

theorem encode_append (front back : Text) : encode (front ++ back) = encode front ++ encode back :=
  List.flatMap_append

theorem toNat_ofNat {byte : Nat} (small : byte < 256) : (UInt8.ofNat byte).toNat = byte := by
  rw [UInt8.toNat_ofNat']
  omega

/-! ## First bytes -/

theorem lead?_one (high : value ≤ 0x7F) : lead? value = some (0, 0x80, 0xBF, value) :=
  if_pos (by omega)

theorem lead?_two (low : 0x7F < value) (high : value ≤ 0x7FF) :
    lead? (value / 64 % 32 + 192) = some (1, 0x80, 0xBF, value / 64) := by
  have bits : value / 64 % 32 + 192 - 0xC0 = value / 64 := by omega
  rw [lead?, if_neg (by omega), if_pos (by omega), bits]

/-- The first of three bytes leaves out second ones that would make a shorter character or half of a
pair. -/
theorem exists_lead?_three (low : 0x7FF < value) (high : value ≤ 0xFFFF)
    (single : value < 0xD800 ∨ 0xDFFF < value) :
    ∃ least greatest, lead? (value / 4096 % 16 + 224) =
      some (2, least, greatest, value / 64 / 64) ∧
      least ≤ value / 64 % 64 + 128 ∧ value / 64 % 64 + 128 ≤ greatest := by
  by_cases first : value / 4096 = 0
  · refine ⟨0xA0, 0xBF, ?_, by omega, by omega⟩
    have bits : value / 64 / 64 = 0 := by omega
    rw [first, bits]
    rfl
  by_cases last : value / 4096 = 0xD
  · refine ⟨0x80, 0x9F, ?_, by omega, by omega⟩
    have bits : value / 64 / 64 = 0xD := by omega
    rw [last, bits]
    rfl
  · refine ⟨0x80, 0xBF, ?_, by omega, by omega⟩
    have bits : value / 4096 % 16 + 224 - 0xE0 = value / 64 / 64 := by omega
    rw [lead?, if_neg (by omega), if_neg (by omega), if_neg (by omega), if_neg (by omega),
      if_pos (by omega), bits]

/-- The first of four bytes leaves out second ones that would make a shorter character or one beyond
the last. -/
theorem exists_lead?_four (low : 0xFFFF < value) (high : value < 0x110000) :
    ∃ least greatest, lead? (value / 262144 % 8 + 240) =
      some (3, least, greatest, value / 64 / 64 / 64) ∧
      least ≤ value / 4096 % 64 + 128 ∧ value / 4096 % 64 + 128 ≤ greatest := by
  by_cases first : value / 262144 = 0
  · refine ⟨0x90, 0xBF, ?_, by omega, by omega⟩
    have bits : value / 64 / 64 / 64 = 0 := by omega
    rw [first, bits]
    rfl
  by_cases last : value / 262144 = 4
  · refine ⟨0x80, 0x8F, ?_, by omega, by omega⟩
    have bits : value / 64 / 64 / 64 = 4 := by omega
    rw [last, bits]
    rfl
  · refine ⟨0x80, 0xBF, ?_, by omega, by omega⟩
    have bits : value / 262144 % 8 + 240 - 0xF0 = value / 64 / 64 / 64 := by omega
    rw [lead?, if_neg (by omega), if_neg (by omega), if_neg (by omega), if_neg (by omega),
      if_neg (by omega), if_neg (by omega), if_neg (by omega), if_pos (by omega), bits]

/-! ## Bytes that follow -/

theorem continuePiece_cons {low high size due : Nat} (above : low ≤ value % 64 + 128)
    (below : value % 64 + 128 ≤ high) (rest : Bytes) :
    continuePiece low high (value / 64) size (due + 1) (UInt8.ofNat (value % 64 + 128) :: rest) =
      continuePiece 0x80 0xBF value (size + 1) due rest := by
  have byte : (UInt8.ofNat (value % 64 + 128)).toNat = value % 64 + 128 := toNat_ofNat (by omega)
  have bits : value / 64 * 64 + (value % 64 + 128 - 0x80) = value := by omega
  rw [continuePiece, byte, if_pos ⟨above, below⟩, bits]

theorem continuePiece_next {size due : Nat} (rest : Bytes) :
    continuePiece 0x80 0xBF (value / 64) size (due + 1) (UInt8.ofNat (value % 64 + 128) :: rest) =
      continuePiece 0x80 0xBF value (size + 1) due rest :=
  continuePiece_cons (by omega) (by omega) rest

theorem piece_of_lead? {byte due low high bits : Nat} (small : byte < 256)
    (lead : lead? byte = some (due, low, high, bits)) (rest : Bytes) :
    piece (UInt8.ofNat byte) rest = continuePiece low high bits 1 due rest := by
  rw [piece, toNat_ofNat small, lead]

/-! ## Characters and texts -/

/-- The bytes of a character are read as the character, whatever is behind them. -/
theorem exists_bytes (c : Char) : ∃ first more, String.utf8EncodeChar c = first :: more ∧
    ∀ rest, piece first (more ++ rest) = .char c (more.length + 1) := by
  have isScalar : c.val.toNat < 0xD800 ∨ 0xDFFF < c.val.toNat ∧
      c.val.toNat < 0x110000 := c.valid
  have isChar : Char.ofNat c.val.toNat = c := Char.ofNat_toNat c
  unfold String.utf8EncodeChar
  generalize c.val.toNat = value at isScalar isChar ⊢
  -- One case for each number of bytes. With three or four of them, the first one bounds the second
  -- one.
  by_cases one : value ≤ 0x7F
  · rw [if_pos one]
    refine ⟨_, _, rfl, fun rest => ?_⟩
    rw [piece_of_lead? (by omega) (lead?_one one), continuePiece, isChar]
    rfl
  rw [if_neg one]
  by_cases two : value ≤ 0x7FF
  · rw [if_pos two]
    refine ⟨_, _, rfl, fun rest => ?_⟩
    rw [piece_of_lead? (by omega) (lead?_two (by omega) two), List.singleton_append,
      continuePiece_next, continuePiece, isChar]
    rfl
  rw [if_neg two]
  by_cases three : value ≤ 0xFFFF
  · rw [if_pos three]
    refine ⟨_, _, rfl, fun rest => ?_⟩
    rcases exists_lead?_three (by omega) three (by omega) with
      ⟨least, greatest, lead, above, below⟩
    rw [piece_of_lead? (by omega) lead, List.cons_append, continuePiece_cons above below,
      List.singleton_append, continuePiece_next, continuePiece, isChar]
    rfl
  · rw [if_neg three]
    refine ⟨_, _, rfl, fun rest => ?_⟩
    have four : 0xFFFF < value := by omega
    rcases exists_lead?_four four (by omega) with ⟨least, greatest, lead, above, below⟩
    have middle : value / 4096 = value / 64 / 64 := by omega
    rw [middle] at above below ⊢
    rw [piece_of_lead? (by omega) lead, List.cons_append, continuePiece_cons above below,
      List.cons_append, continuePiece_next, List.singleton_append, continuePiece_next,
      continuePiece, isChar]
    rfl

/-- A text is read from its bytes. -/
theorem decode_encode (text : Text) : decode (encode text) = .ok text := by
  have from_position (position : Nat) : decodeFrom position (encode text) = .ok text := by
    induction text generalizing position with
    | nil =>
        change decodeFrom position [] = _
        rw [decodeFrom]
    | cons c text ih =>
        rcases exists_bytes c with ⟨first, more, bytes, isRead⟩
        have parts : encode (c :: text) = first :: (more ++ encode text) := by
          rw [encode, List.flatMap_cons, bytes]
          rfl
        rw [parts, decodeFrom, isRead]
        simp only [Nat.add_sub_cancel, List.drop_left, ih]
        rfl
  exact from_position 0

end Retouch.Utf8
