import LiveTables.Text.Quoted

namespace LiveTables.Text

/-- What bytes are read as, piece by piece: the character that some bytes encode, or bytes that
begin no encoding, or begin one that does not go on. -/
inductive Stretch where
  | whole (c : Char)
  | broken (bytes : List UInt8)
deriving DecidableEq

namespace Stretch

def bytes : Stretch → List UInt8
  | whole c => String.utf8EncodeChar c
  | broken bytes => bytes

/-- One replacement character stands for a broken stretch, however long it is. -/
def shown : Stretch → Char
  | whole c => c
  | broken _ => '\ufffd'

def byteEscape (b : UInt8) : List Char :=
  '\\' :: 'x' :: (Nat.toDigits 16 b.toNat).map Char.toUpper

/-- A stretch as it stands inside double quotes. -/
def quoted : Stretch → List Char
  | whole c => escape '"' c
  | broken bytes => bytes.flatMap byteEscape

end Stretch

/-- The ranges of the bytes that are due after the first byte of an encoding. Those of the second
byte leave out what is longer than need be, surrogates, and what is above the last character. -/
def dueAfter (first : UInt8) : List (UInt8 × UInt8) :=
  let later := (0x80, 0xbf)
  if first < 0xc2 then []
  else if first < 0xe0 then [later]
  else if first = 0xe0 then [(0xa0, 0xbf), later]
  else if first = 0xed then [(0x80, 0x9f), later]
  else if first < 0xf0 then [later, later]
  else if first = 0xf0 then [(0x90, 0xbf), later, later]
  else if first < 0xf4 then [later, later, later]
  else if first = 0xf4 then [(0x80, 0x8f), later, later]
  else []

/-- How many bytes are in the ranges that are due, up to the first one that is not. -/
def countDue : List (UInt8 × UInt8) → List UInt8 → Nat
  | (low, high) :: due, b :: rest => if low ≤ b ∧ b ≤ high then countDue due rest + 1 else 0
  | _, _ => 0

/-- Reads bytes as characters as far as they are such. -/
def stretches (bytes : List UInt8) : List Stretch :=
  match bytes with
  | [] => []
  | first :: rest =>
    match bytes.toByteArray.utf8DecodeChar? 0 with
    | some c => .whole c :: stretches (rest.drop (c.utf8Size - 1))
    | none =>
      let due := countDue (dueAfter first) rest
      .broken (first :: rest.take due) :: stretches (rest.drop due)
termination_by bytes.length

theorem drop_encode {first : UInt8} {rest later : List UInt8} {c : Char}
    (encoded : first :: rest = String.utf8EncodeChar c ++ later) :
    rest.drop (c.utf8Size - 1) = later :=
  calc rest.drop (c.utf8Size - 1)
    _ = (first :: rest).drop (c.utf8Size - 1 + 1) := rfl
    _ = later := by
      rw [Nat.sub_add_cancel c.utf8Size_pos, encoded, ← String.length_utf8EncodeChar,
        List.drop_left]

theorem stretches_encode (c : Char) (rest : List UInt8) :
    stretches (String.utf8EncodeChar c ++ rest) = .whole c :: stretches rest := by
  have decoded : (String.utf8EncodeChar c ++ rest).toByteArray.utf8DecodeChar? 0 = some c := by
    rw [List.toByteArray_append]
    exact ByteArray.utf8DecodeChar?_utf8EncodeChar_append
  cases encoded : String.utf8EncodeChar c ++ rest with
  | nil =>
    have size := congrArg List.length encoded
    rw [List.length_append, String.length_utf8EncodeChar, List.length_nil] at size
    exact absurd (Nat.eq_zero_of_add_eq_zero_right size) (Nat.ne_of_gt c.utf8Size_pos)
  | cons first later =>
    rw [encoded] at decoded
    rw [stretches]
    simp only [decoded, drop_encode encoded.symm]

/-- Text is read back whole. -/
theorem stretches_text (cs : List Char) :
    stretches (cs.flatMap String.utf8EncodeChar) = cs.map .whole := by
  induction cs with
  | nil => rw [List.flatMap_nil, stretches, List.map_nil]
  | cons c rest ih => rw [List.flatMap_cons, stretches_encode, ih, List.map_cons]

/-- No byte is lost. -/
theorem flatMap_bytes_stretches (bytes : List UInt8) :
    (stretches bytes).flatMap Stretch.bytes = bytes := by
  induction bytes using stretches.induct with
  | case1 => rw [stretches, List.flatMap_nil]
  | case2 first rest c decoded ih =>
    obtain ⟨later, whole⟩ := ByteArray.exists_of_utf8DecodeChar?_eq_some decoded
    have encoded := congrArg (·.data.toList) whole
    simp only [ByteArray.toList_data_append, List.toList_data_toByteArray] at encoded
    rw [drop_encode encoded] at ih
    rw [encoded, stretches_encode, List.flatMap_cons, ih, Stretch.bytes]
  | case3 first rest due undecoded ih =>
    rw [stretches]
    simp only [undecoded, List.flatMap_cons, Stretch.bytes, List.cons_append]
    rw [ih, List.take_append_drop]

example : stretches [0x61, 0xff, 0xe2, 0x82, 0x62] =
    [.whole 'a', .broken [0xff], .broken [0xe2, 0x82], .whole 'b'] := by cbv

end LiveTables.Text
