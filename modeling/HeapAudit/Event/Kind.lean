/-!
# Kinds of heap events

Every recorded event has a kind.  The kinds have consecutive codes, which are
part of the recorded form; codes beyond the last kind can be read back from a log
and are kept as they are.
-/

namespace HeapAudit

set_option autoImplicit false

/-- The kind of a heap event. -/
inductive Kind where
  /-- A reference is stored in a field. -/
  | fieldSet
  /-- An instance is allocated. -/
  | newObject
  /-- An array of references is allocated. -/
  | newArray
  /-- A reference is stored in an array element. -/
  | arrayElemSet
  /-- The fields of an instance are copied. -/
  | copyObject
  /-- Elements are copied between two addresses. -/
  | copyArray
  /-- The offsets of an array copy; stands alone in no valid log. -/
  | copyArrayOffsets
  /-- The length of an array copy; stands alone in no valid log. -/
  | copyArrayLength
  /-- An object changes its address. -/
  | moveObject
  /-- The objects in an address range disappear. -/
  | clearContiguousSpace
  /-- An array without references is allocated. -/
  | newPrimitiveArray
  /-- Elements are copied inside one array. -/
  | copySameArray
  /-- An instance is allocated and its size is given in bits. -/
  | newObjectSizeInBits
  /-- A field receives a newly allocated instance. -/
  | fieldSetWithNewObject
  /-- An instance is allocated as a copy. -/
  | copyNewObject
  /-- An array is allocated as a copy of a part of another one. -/
  | copyNewArray
  /-- An array is allocated as a copy of another one. -/
  | copyNewArrayOfSameLength
  /-- Nothing happened. -/
  | noEvent
  /-- A place holder. -/
  | dummy
  /-- A code beyond the last kind. -/
  | unknown (code : UInt64) (beyond : 19 ≤ code)
  deriving DecidableEq

namespace Kind

instance : Inhabited Kind := ⟨fieldSet⟩

/-- The code of a kind. -/
def code : Kind → UInt64
  | fieldSet => 0
  | newObject => 1
  | newArray => 2
  | arrayElemSet => 3
  | copyObject => 4
  | copyArray => 5
  | copyArrayOffsets => 6
  | copyArrayLength => 7
  | moveObject => 8
  | clearContiguousSpace => 9
  | newPrimitiveArray => 10
  | copySameArray => 11
  | newObjectSizeInBits => 12
  | fieldSetWithNewObject => 13
  | copyNewObject => 14
  | copyNewArray => 15
  | copyNewArrayOfSameLength => 16
  | noEvent => 17
  | dummy => 18
  | unknown code _ => code

/-- The kinds with a name, by increasing code. -/
def named : List Kind :=
  [fieldSet, newObject, newArray, arrayElemSet, copyObject, copyArray, copyArrayOffsets,
    copyArrayLength, moveObject, clearContiguousSpace, newPrimitiveArray, copySameArray,
    newObjectSizeInBits, fieldSetWithNewObject, copyNewObject, copyNewArray,
    copyNewArrayOfSameLength, noEvent, dummy]

/-- The kind with a code. -/
def ofCode (code : UInt64) : Kind :=
  if beyond : 19 ≤ code then unknown code beyond else named.getD code.toNat dummy

/-- The name of a kind. -/
def name : Kind → String
  | fieldSet => "FieldSet"
  | newObject => "NewObject"
  | newArray => "NewArray"
  | arrayElemSet => "ArrayElemSet"
  | copyObject => "CopyObject"
  | copyArray => "CopyArray"
  | copyArrayOffsets => "CopyArrayOffsets"
  | copyArrayLength => "CopyArrayLength"
  | moveObject => "MoveObject"
  | clearContiguousSpace => "ClearContiguousSpace"
  | newPrimitiveArray => "NewPrimitiveArray"
  | copySameArray => "CopySameArray"
  | newObjectSizeInBits => "NewObjectSizeInBits"
  | fieldSetWithNewObject => "FieldSetWithNewObject"
  | copyNewObject => "CopyNewObject"
  | copyNewArray => "CopyNewArray"
  | copyNewArrayOfSameLength => "CopyNewArrayOfSameLength"
  | noEvent => "None"
  | dummy => "Dummy"
  | unknown code _ => s!"Kind({code.toNat})"

/-- Whether events of the kind create an object. -/
def isAllocation : Kind → Bool
  | newObject | newArray | newPrimitiveArray | newObjectSizeInBits | fieldSetWithNewObject
  | copyNewObject | copyNewArray | copyNewArrayOfSameLength => true
  | _ => false

/-- Whether events of the kind are followed by an operand slot. -/
def isPaired : Kind → Bool
  | fieldSetWithNewObject | copyArray | copySameArray | copyNewArray => true
  | _ => false

/-- A kind is known by its code. -/
theorem ofCode_code (kind : Kind) : ofCode kind.code = kind := by
  cases kind with
  | unknown code beyond => exact dif_pos beyond
  | _ => rfl

theorem code_getD_named : ∀ index < 19, (named.getD index dummy).code = UInt64.ofNat index := by
  decide

/-- Every code is the code of one kind. -/
theorem code_ofCode (code : UInt64) : (ofCode code).code = code := by
  by_cases beyond : 19 ≤ code
  · rw [ofCode, dif_pos beyond]; rfl
  · have small : code.toNat < 19 := UInt64.lt_iff_toNat_lt.mp (UInt64.not_le.mp beyond)
    rw [ofCode, dif_neg beyond, code_getD_named _ small, UInt64.ofNat_toNat]

end Kind

end HeapAudit
