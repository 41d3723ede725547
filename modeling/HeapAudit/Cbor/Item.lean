/-!
# CBOR data items

The data model of the concise binary object representation: integers, byte and
text strings, arrays, maps, tags, simple values and floats.  Collections and byte
strings of indefinite length are kept in their assembled form; text keeps its chunks,
since each of them has to be well-formed on its own.
-/

namespace HeapAudit.Cbor

set_option autoImplicit false

/-- A data item. -/
inductive Item where
  | unsigned (value : UInt64)
  /-- The integer `-1 - value`. -/
  | negative (value : UInt64)
  | bytes (content : List UInt8)
  /-- A text string, by the bytes of the chunks it is written in, one unless its length is
  indefinite.  They need not be well-formed text. -/
  | text (chunks : List (List UInt8))
  | array (items : List Item)
  | map (entries : List (Item × Item))
  | tag (number : UInt64) (content : Item)
  /-- A simple value; 20 to 23 are false, true, null and undefined. -/
  | simple (value : UInt64)
  /-- A float, by its bits. -/
  | float (bits : UInt64)

instance : Inhabited Item := ⟨.simple 22⟩

namespace Item

/-- Whether an item is null or undefined. -/
def isNull : Item → Bool
  | simple value => value = 22 || value = 23
  | _ => false

/-- Whether the content of a tag is of a type that the tag allows: text for a date, a number for a
time, bytes for a big number. -/
def isTagged (number : UInt64) (content : Item) : Bool :=
  if number = 0 then content matches text _
  else if number = 1 then content matches unsigned _ | negative _ | float _
  else if number = 2 || number = 3 then content matches bytes _
  else true

/-- The content under all tags other than those of big numbers; fails if a tag does not allow its
content. -/
def untagged? : Item → Option Item
  | tag number content =>
    if isTagged number content then
      if number = 2 || number = 3 then some (tag number content) else untagged? content
    else none
  | item => some item

end Item

end HeapAudit.Cbor
