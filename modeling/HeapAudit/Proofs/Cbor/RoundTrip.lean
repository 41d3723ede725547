import HeapAudit.Dump.Header
import HeapAudit.Proofs.Foundations

/-!
# Headers read back

A written header is a well-formed item, and reading it gives the header back
(`DumpHeader.readsBack_of_length_le`), as long as it has no more logs than a collection
may have elements.  The statement is assembled from the parts of an item: heads, scalars,
strings, arrays and maps each read back whatever follows them.
-/

namespace HeapAudit

set_option autoImplicit false

namespace Cbor

/-! ## Heads -/

theorem length_argumentBytes (word : UInt64) (count : Nat) :
    (argumentBytes word count).length = count := by
  induction count with
  | zero => rfl
  | succ count shorter => rw [argumentBytes, List.length_cons, shorter]

theorem foldl_bigEndian (bytes : List UInt8) (start : Nat) :
    bytes.foldl (fun value byte => value * 256 + byte.toNat) start
      = start * 256 ^ bytes.length + bigEndian bytes := by
  induction bytes generalizing start with
  | nil => simp [bigEndian]
  | cons byte rest onward =>
    rw [bigEndian, List.foldl_cons, List.foldl_cons, onward, onward (0 * 256 + byte.toNat),
      List.length_cons, Nat.pow_succ]
    grind

theorem bigEndian_cons (byte : UInt8) (rest : List UInt8) :
    bigEndian (byte :: rest) = byte.toNat * 256 ^ rest.length + bigEndian rest := by
  rw [bigEndian, List.foldl_cons, foldl_bigEndian, Nat.zero_mul, Nat.zero_add]

/-- The low bytes of a word are the number they stand for. -/
theorem bigEndian_argumentBytes (word : UInt64) {count : Nat} (few : count ≤ 8) :
    bigEndian (argumentBytes word count) = word.toNat % 256 ^ count := by
  induction count with
  | zero => simp [argumentBytes, bigEndian, Nat.mod_one]
  | succ count shorter =>
    have shift : (8 * count).toUInt64.toNat % 64 = 8 * count := by
      rw [toNat_toUInt64_of_lt (by omega)]
      omega
    have power : 2 ^ (8 * count) = 256 ^ count := by rw [Nat.pow_mul]
    have split : word.toNat % 256 ^ (count + 1)
        = word.toNat % 256 ^ count + 256 ^ count * (word.toNat / 256 ^ count % 256) :=
      Nat.mod_pow_succ
    rw [argumentBytes, bigEndian_cons, length_argumentBytes, shorter (by omega),
      UInt64.toNat_toUInt8, UInt64.toNat_shiftRight, shift, Nat.shiftRight_eq_div_pow, power, split,
      Nat.add_comm, Nat.mul_comm]

theorem splitBytes_append {count : Nat} {start : List UInt8} (length : start.length = count)
    (rest : List UInt8) : splitBytes count (start ++ rest) = some (start, rest) := by
  subst length
  simp [splitBytes]

/-- An argument in a number of bytes reads back. -/
theorem splitBytes_argumentBytes (argument : UInt64) {count : Nat} (few : count ≤ 8)
    (fits : argument.toNat < 256 ^ count) (rest : List UInt8) :
    (splitBytes count (argumentBytes argument count ++ rest)).map
        (fun (bytes, rest) => (UInt64.ofNat (bigEndian bytes), rest))
      = some (argument, rest) := by
  rw [splitBytes_append (length_argumentBytes argument count), Option.map_some]
  dsimp only
  rw [bigEndian_argumentBytes argument few, Nat.mod_eq_of_lt fits, UInt64.ofNat_toNat]

/-- The initial byte of a head tells its type and its information. -/
theorem initial_parts : ∀ major info : Fin 32, major.val < 8 →
    majorOf ((UInt8.ofNat major <<< 5) ||| UInt8.ofNat info) = major.val
      ∧ infoOf ((UInt8.ofNat major <<< 5) ||| UInt8.ofNat info) = info.val := by
  decide +kernel

/-- Bytes start with the head of an item of a type and definite length, with an argument. -/
def Heads (bytes : List UInt8) (major : Nat) (argument : UInt64) : Prop :=
  ∃ initial tail, bytes = initial :: tail ∧ majorOf initial = major ∧ infoOf initial ≠ 31
    ∧ ∀ rest, readArgument (infoOf initial) (tail ++ rest) = some (argument, rest)

/-- A head whose argument follows in bytes of its own. -/
theorem heads_wide {major info count : Nat} {argument : UInt64} (small : major < 8)
    (definite : info < 31) (few : count ≤ 8) (fits : argument.toNat < 256 ^ count)
    (wide : ∀ input, readArgument info input = (splitBytes count input).map
      fun (bytes, rest) => (UInt64.ofNat (bigEndian bytes), rest)) :
    Heads (((UInt8.ofNat major <<< 5) ||| UInt8.ofNat info) :: argumentBytes argument count)
      major argument := by
  obtain ⟨type, information⟩ := initial_parts ⟨major, by omega⟩ ⟨info, by omega⟩ small
  refine ⟨_, _, rfl, type, by rw [information]; exact Nat.ne_of_lt definite, ?_⟩
  intro rest
  rw [information, wide]
  exact splitBytes_argumentBytes argument few fits rest

/-- **Heads read back.** -/
theorem heads_head {major : Nat} (small : major < 8) (argument : UInt64) :
    Heads (head (UInt8.ofNat major) argument) major argument := by
  have bound := argument.toNat_lt
  simp only [head, UInt64.lt_iff_toNat_lt, UInt64.reduceToNat]
  split
  · rename_i below
    obtain ⟨type, information⟩ :=
      initial_parts ⟨major, by omega⟩ ⟨argument.toNat, by omega⟩ small
    have word : argument.toUInt8 = UInt8.ofNat argument.toNat := UInt8.toNat_inj.mp (by simp)
    refine ⟨_, [], by rw [word], type, ?_, ?_⟩
    · rw [information]
      show argument.toNat ≠ 31
      omega
    · intro rest
      rw [information]
      simp [readArgument, below]
  · split
    · exact heads_wide small (show 24 < 31 by omega) (by omega) (by omega) fun _ => rfl
    · split
      · exact heads_wide small (show 25 < 31 by omega) (by omega) (by omega) fun _ => rfl
      · split
        · exact heads_wide small (show 26 < 31 by omega) (by omega) (by omega) fun _ => rfl
        · exact heads_wide small (show 27 < 31 by omega) (by omega) (by omega) fun _ => rfl

/-! ## Items -/

section Items

variable (fuel depth : Nat) (rest : List UInt8)

theorem readItem_unsigned (value : UInt64) :
    readItem (fuel + 1) depth (writeUnsigned value ++ rest) = some (.unsigned value, rest) := by
  obtain ⟨initial, tail, written, major, -, argument⟩ := heads_head (show 0 < 8 by omega) value
  rw [writeUnsigned, show (0 : UInt8) = UInt8.ofNat 0 from rfl, written, List.cons_append, readItem]
  simp [major, argument rest, scalar]

theorem readItem_bytes (content : List UInt8) (short : content.length < 18446744073709551616) :
    readItem (fuel + 1) depth (writeBytes content ++ rest) = some (.bytes content, rest) := by
  obtain ⟨initial, tail, written, major, definite, argument⟩ :=
    heads_head (show 2 < 8 by omega) content.length.toUInt64
  rw [writeBytes, show (2 : UInt8) = UInt8.ofNat 2 from rfl, written, List.cons_append,
    List.cons_append, List.append_assoc, readItem]
  have split := splitBytes_append (toNat_toUInt64_of_lt short).symm rest
  simp only [major, definite, argument (content ++ rest), Option.bind_eq_bind, Option.bind_some, split]
  simp

/-- A collection that is not too large is read by reading its items. -/
theorem readItem_collection_eq {major : Nat} (collection : major = 4 ∨ major = 5)
    (shallow : depth < maxDepth) {count : Nat} (few : count ≤ maxElements) (input : List UInt8) :
    readItem (fuel + 1) depth (head (UInt8.ofNat major) count.toUInt64 ++ input)
      = (readItems fuel (depth + 1) (if major = 4 then count else 2 * count) input).bind
        fun read => (collect major read.1).map fun item => (item, read.2) := by
  have small : count.toUInt64.toNat = count :=
    toNat_toUInt64_of_lt (Nat.lt_of_le_of_lt few (by decide))
  obtain ⟨initial, tail, written, type, definite, argument⟩ :=
    heads_head (show major < 8 by omega) count.toUInt64
  rw [written, List.cons_append, readItem]
  have kind : (decide (major = 4) || decide (major = 5)) = true := by
    simpa using collection
  have reached : ¬ maxDepth ≤ depth := Nat.not_le.mpr shallow
  have allowed : ¬ maxElements < count := Nat.not_lt.mpr few
  simp only [type, argument input, Option.bind_eq_bind, Option.bind_some, small]
  rw [if_pos kind, if_neg reached, if_neg definite, if_neg allowed]
  congr 1
  funext read
  cases collect major read.1 <;> rfl

/-- A collection reads back if its items do. -/
theorem readItem_collection {major : Nat} (collection : major = 4 ∨ major = 5)
    (shallow : depth < maxDepth) {count : Nat} (few : count ≤ maxElements) {input : List UInt8}
    {items : List Item}
    (read : readItems fuel (depth + 1) (if major = 4 then count else 2 * count) input
      = some (items, rest)) :
    readItem (fuel + 1) depth (head (UInt8.ofNat major) count.toUInt64 ++ input)
      = (collect major items).map fun item => (item, rest) := by
  rw [readItem_collection_eq fuel depth collection shallow few, read, Option.bind_some]

end Items

theorem readItems_cons {fuel depth count : Nat} {input between rest : List UInt8} {item : Item}
    {items : List Item} (first : readItem fuel depth input = some (item, between))
    (others : readItems fuel depth count between = some (items, rest)) :
    readItems (fuel + 1) depth (count + 1) input = some (item :: items, rest) := by
  rw [readItems, first]
  simp [others]

/-- A map of two entries whose keys are numbers reads back if the values do. -/
theorem readItem_pair (fuel depth : Nat) (shallow : depth < maxDepth) (key other : UInt64)
    {input between rest : List UInt8} {first second : Item}
    (left : readItem (fuel + 3) (depth + 1) input
      = some (first, writeUnsigned other ++ between))
    (right : readItem (fuel + 1) (depth + 1) between = some (second, rest)) :
    readItem (fuel + 6) depth (writeMap 2 ++ (writeUnsigned key ++ input))
      = some (.map [(.unsigned key, first), (.unsigned other, second)], rest) := by
  have read : readItems (fuel + 5) (depth + 1) 4 (writeUnsigned key ++ input)
      = some ([.unsigned key, first, .unsigned other, second], rest) := by
    refine readItems_cons (readItem_unsigned ..) (readItems_cons left ?_)
    refine readItems_cons (readItem_unsigned ..) (readItems_cons right ?_)
    exact readItems.eq_1 ..
  have few : 2 ≤ maxElements := by decide
  exact readItem_collection (fuel + 5) depth rest (.inr rfl) shallow few read

/-- An array of too many items is not read, whatever it holds. -/
theorem readItem_array_of_many (fuel depth : Nat) {count : Nat} (many : maxElements < count)
    (word : count < 18446744073709551616) (input : List UInt8) :
    readItem (fuel + 1) depth (writeArray count ++ input) = none := by
  have small : count.toUInt64.toNat = count := toNat_toUInt64_of_lt word
  obtain ⟨initial, tail, written, type, definite, argument⟩ :=
    heads_head (show 4 < 8 by omega) count.toUInt64
  rw [writeArray, show (4 : UInt8) = UInt8.ofNat 4 from rfl, written, List.cons_append, readItem]
  simp only [type, argument input, Option.bind_eq_bind, Option.bind_some, small]
  rw [if_pos (by rfl), if_neg definite, if_pos many]
  exact ite_self none

/-- A map of two entries is not read if its second value is not. -/
theorem readItem_pair_of_none (fuel depth : Nat) (shallow : depth < maxDepth) (key other : UInt64)
    {input between : List UInt8} {first : Item}
    (left : readItem (fuel + 3) (depth + 1) input = some (first, writeUnsigned other ++ between))
    (right : readItem (fuel + 1) (depth + 1) between = none) :
    readItem (fuel + 6) depth (writeMap 2 ++ (writeUnsigned key ++ input)) = none := by
  have unread : readItems (fuel + 5) (depth + 1) 4 (writeUnsigned key ++ input) = none := by
    simp [readItems, readItem_unsigned, left, right]
  have few : 2 ≤ maxElements := by decide
  have read := readItem_collection_eq (fuel + 5) depth (.inr rfl) shallow few
    (writeUnsigned key ++ input)
  rw [if_neg (by decide), unread] at read
  exact read

end Cbor

/-! ## Headers -/

/-- The item that a log header is written as. -/
def LogHeader.item (log : LogHeader) : Cbor.Item :=
  .map [(.unsigned 1, .bytes log.id.bytes), (.unsigned 2, .unsigned log.events)]

/-- The item that a header is written as. -/
def DumpHeader.item (header : DumpHeader) : Cbor.Item :=
  .map [(.unsigned 1, .bytes header.session.bytes),
    (.unsigned 2, .array (header.logs.map LogHeader.item))]

theorem Uuid.length_bytes_lt (id : Uuid) : id.bytes.length < 18446744073709551616 := by
  rw [id.length_bytes]
  decide

theorem Uuid.ofBytes?_bytes (id : Uuid) : Uuid.ofBytes? id.bytes = some id := by
  rw [ofBytes?, dif_pos id.length_bytes]

namespace LogHeader

theorem readItem_write (fuel depth : Nat) (shallow : depth < Cbor.maxDepth) (log : LogHeader)
    (rest : List UInt8) :
    Cbor.readItem (fuel + 6) depth (log.write ++ rest) = some (log.item, rest) := by
  simp only [write, List.append_assoc]
  exact Cbor.readItem_pair fuel depth shallow 1 2
    (Cbor.readItem_bytes _ _ _ _ log.id.length_bytes_lt) (Cbor.readItem_unsigned ..)

theorem readItems_write (fuel depth : Nat) (shallow : depth < Cbor.maxDepth)
    (logs : List LogHeader) (rest : List UInt8) :
    Cbor.readItems (fuel + logs.length + 6) depth logs.length (logs.flatMap write ++ rest)
      = some (logs.map item, rest) := by
  induction logs with
  | nil => exact Cbor.readItems.eq_1 ..
  | cons log others onward =>
    rw [List.flatMap_cons, List.append_assoc]
    exact Cbor.readItems_cons (readItem_write _ depth shallow log _) onward

theorem ofItem?_item (log : LogHeader) : ofItem? log.item = some log := by
  simp [ofItem?, item, Cbor.Item.entries?, Cbor.Item.untagged?, Cbor.Item.isKey, Cbor.Item.entry,
    Cbor.Item.names, Cbor.Item.uuid?, Cbor.Item.count?, Uuid.ofBytes?_bytes]

theorem mapM_ofItem?_item (logs : List LogHeader) : (logs.map item).mapM ofItem? = some logs := by
  induction logs with
  | nil => rfl
  | cons log others onward =>
    rw [List.map_cons, List.mapM_cons, ofItem?_item, onward]
    rfl

/-- A log header takes at least one byte. -/
theorem length_le_flatMap_write (logs : List LogHeader) :
    logs.length ≤ (logs.flatMap write).length := by
  induction logs with
  | nil => exact Nat.le_refl 0
  | cons log others onward =>
    have written : 0 < log.write.length := by
      simp only [write, Cbor.writeBytes, List.length_append, log.id.length_bytes]
      omega
    rw [List.flatMap_cons, List.length_append, List.length_cons]
    omega

end LogHeader

namespace DumpHeader

/-- A header that reading gives back. -/
def ReadsBack (header : DumpHeader) : Prop := read? header.write = some header

theorem ofItem?_item (header : DumpHeader) : ofItem? header.item = some header := by
  simp [ofItem?, item, Cbor.Item.entries?, Cbor.Item.untagged?, Cbor.Item.isKey, Cbor.Item.entry,
    Cbor.Item.names, Cbor.Item.uuid?, Cbor.Item.elements?, Uuid.ofBytes?_bytes,
    LogHeader.mapM_ofItem?_item, -List.mapM_map]

/-- A header with more logs than a collection may have elements is not read. -/
theorem read?_write_of_many {header : DumpHeader} (many : Cbor.maxElements < header.logs.length)
    (word : header.logs.length < 18446744073709551616) : read? header.write = none := by
  have fuel : ∃ fuel, 2 * header.write.length + 2 = fuel + 6 := by
    refine ⟨2 * header.write.length + 2 - 6, ?_⟩
    simp only [write, Cbor.writeBytes, List.length_append, header.session.length_bytes]
    omega
  obtain ⟨fuel, enough⟩ := fuel
  have unread : Cbor.readItem (2 * header.write.length + 2) 0 header.write = none := by
    rw [enough]
    simp only [write, List.append_assoc]
    exact Cbor.readItem_pair_of_none _ 0 (by decide) 1 2
      (Cbor.readItem_bytes _ _ _ _ header.session.length_bytes_lt)
      (Cbor.readItem_array_of_many _ _ many word _)
  rw [read?, Cbor.read?, unread]
  rfl

/-- **Headers read back**, unless they have more logs than a collection may have elements. -/
theorem readsBack_of_length_le {header : DumpHeader}
    (few : header.logs.length ≤ Cbor.maxElements) : header.ReadsBack := by
  have fuel : ∃ fuel, 2 * header.write.length + 2 = fuel + header.logs.length + 6 + 6 := by
    have logs := LogHeader.length_le_flatMap_write header.logs
    refine ⟨2 * header.write.length + 2 - (header.logs.length + 6 + 6), ?_⟩
    simp only [write, Cbor.writeBytes, List.length_append, header.session.length_bytes]
    omega
  obtain ⟨fuel, enough⟩ := fuel
  have read : Cbor.readItem (2 * header.write.length + 2) 0 header.write
      = some (header.item, []) := by
    have logs := LogHeader.readItems_write fuel 2 (by decide) header.logs []
    rw [List.append_nil] at logs
    have array := Cbor.readItem_collection _ 1 [] (.inl rfl) (by decide) few logs
    rw [Cbor.collect, if_pos rfl, if_pos (by simpa using few)] at array
    rw [enough]
    simp only [write, List.append_assoc]
    exact Cbor.readItem_pair _ 0 (by decide) 1 2
      (Cbor.readItem_bytes _ _ _ _ header.session.length_bytes_lt) array
  rw [ReadsBack, read?, Cbor.read?, read]
  exact header.ofItem?_item

end DumpHeader

end HeapAudit
