/-!
# Hexadecimal text

Addresses are written in hexadecimal with the mark `0x`, in lower case and without
leading zeros.  Identifiers and byte strings are written byte by byte, two digits each.
-/

namespace HeapAudit.Hex

set_option autoImplicit false

/-- The lower-case digit of a number below sixteen. -/
def digit (value : UInt8) : Char := Nat.digitChar (value.toNat % 16)

/-- A byte as two digits, the high one first. -/
def ofByte (byte : UInt8) : List Char := [digit (byte >>> 4), digit (byte &&& 0x0f)]

/-- A byte string, two digits a byte. -/
def ofBytes (bytes : List UInt8) : String := String.ofList (bytes.flatMap ofByte)

/-- A word with its mark, as in `0x1f`; zero is `0x0`. -/
def ofWord (word : UInt64) : String := "0x" ++ String.ofList (Nat.toDigits 16 word.toNat)

end HeapAudit.Hex
