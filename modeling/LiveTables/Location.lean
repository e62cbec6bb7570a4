import LiveTables.Text.Stretch

namespace LiveTables

-- Names are compared by this instance whatever libraries are imported.
local instance decEqName : DecidableEq ByteArray := ByteArray.instDecidableEq

/-- The name of a place that loaders read from. A host may name a place by bytes that spell no text:
`raw` holds bytes that are not the encoding of any. -/
inductive Location where
  | text (name : String)
  | raw (bytes : ByteArray)
deriving DecidableEq, Inhabited

namespace Location

/-- The place that a host names by the given bytes. -/
def ofBytes (bytes : ByteArray) : Location :=
  match String.fromUTF8? bytes with
  | some name => text name
  | none => raw bytes

def isEmpty : Location → Bool
  | text name => name.isEmpty
  | raw _ => false

/-- The name as text. Of bytes that spell no text, those that encode characters are kept, and a mark
stands for each broken stretch between them. -/
def display : Location → String
  | text name => name
  | raw bytes => String.ofList ((Text.stretches bytes.data.toList).map Text.Stretch.shown)

/-- The name in quotes, with the broken stretches byte by byte. -/
def describe : Location → String
  | text name => Text.quote name
  | raw bytes =>
    "\"" ++ String.ofList ((Text.stretches bytes.data.toList).flatMap Text.Stretch.quoted) ++ "\""

theorem stretches_toUTF8 (name : String) :
    Text.stretches name.toUTF8.data.toList = name.toList.map .whole := by
  rw [String.toUTF8_eq_toByteArray, ← String.utf8Encode_toList, List.utf8Encode,
    List.toList_data_toByteArray, Text.stretches_text]

/-- Bytes are shown as the text that they spell, if they spell one. -/
theorem display_toUTF8 (name : String) : (raw name.toUTF8).display = name := by
  rw [display, stretches_toUTF8, List.map_map]
  simp [Function.comp_def, Text.Stretch.shown]

theorem describe_toUTF8 (name : String) :
    (raw name.toUTF8).describe = (text name).describe := by
  rw [describe, describe, Text.quote, stretches_toUTF8, List.flatMap_map]
  rfl

example : (raw ⟨#[0x61, 0xff, 0xe2, 0x82, 0x62]⟩).display = "a\ufffd\ufffdb" := by cbv

example : (raw ⟨#[0xff, 0xe2, 0x82]⟩).describe = "\"\\xFF\\xE2\\x82\"" := by cbv

end Location

end LiveTables
