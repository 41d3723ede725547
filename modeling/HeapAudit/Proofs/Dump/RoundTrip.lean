import HeapAudit.Dump.Format
import HeapAudit.Proofs.Cbor.RoundTrip

/-!
# Dumps read back

A dump that was written is the mark, the header, some padding and the events of its logs,
one after another (`Dump.Image`).  The writer and the reader compute independently where
the events start; both agree with the image, and so the reader finds every log where the
writer put it, a log without events included.

Identifiers are written in a fixed number of bytes.  The size of a dump therefore depends
on the logs alone (`Dump.size_encode`): a store made for one drawing of identifiers has the
size that another drawing needs.

All this holds up to dumps of `2 ^ 64` bytes.
-/

namespace HeapAudit

set_option autoImplicit false

/-! ## Events -/

namespace Event

theorem bytes_cons (event : Event) (events : List Event) :
    bytes (event :: events)
      = LittleEndian.encode event.src ++ (LittleEndian.encode event.dst ++ bytes events) := by
  simp [bytes]

theorem length_bytes (events : List Event) : (bytes events).length = events.length * 16 := by
  induction events with
  | nil => rfl
  | cons event events onward =>
    rw [bytes_cons, List.length_append, List.length_append, onward, LittleEndian.length_encode,
      LittleEndian.length_encode, List.length_cons]
    omega

theorem length_flatMap_bytes (logs : List (List Event)) :
    (logs.flatMap bytes).length = logs.flatten.length * 16 := by
  induction logs with
  | nil => rfl
  | cons events rest onward =>
    rw [List.flatMap_cons, List.length_append, onward, length_bytes, List.flatten_cons,
      List.length_append, Nat.add_mul]

end Event

theorem LogHeader.length_write (log : LogHeader) :
    log.write.length = 20 + (Cbor.writeUnsigned log.events).length := by
  simp only [LogHeader.write, Cbor.writeBytes, List.length_append, log.id.length_bytes]
  have map : (Cbor.writeMap 2).length = 1 := rfl
  have one : (Cbor.writeUnsigned 1).length = 1 := rfl
  have two : (Cbor.writeUnsigned 2).length = 1 := rfl
  have head : (Cbor.head 2 (16 : Nat).toUInt64).length = 1 := rfl
  omega

namespace Dump

/-- Written events read back, whatever follows them. -/
theorem readEvents_bytes (events : List Event) (rest : List UInt8) :
    readEvents events.length (Event.bytes events ++ rest) = events := by
  induction events with
  | nil => rfl
  | cons event events onward =>
    rw [Event.bytes_cons, List.append_assoc, List.append_assoc]
    show (⟨LittleEndian.decode (LittleEndian.encode event.src),
      LittleEndian.decode (LittleEndian.encode event.dst)⟩ : Event)
        :: readEvents events.length (Event.bytes events ++ rest) = _
    rw [LittleEndian.decode_encode, LittleEndian.decode_encode, onward]

/-! ## Sizes -/

/-- The number of bytes of a header, which does not depend on its identifiers. -/
def headerLength (logs : List (List Event)) : Nat :=
  20 + (Cbor.writeArray logs.length).length
    + (logs.map fun events => 20 + (Cbor.writeUnsigned events.length.toUInt64).length).sum

/-- Where the events start behind a header of the given size, counted without wrapping around. -/
def eventsStart (headerSize : Nat) : Nat := (headerSize + 31) / 16 * 16

/-- The number of bytes of a dump, counted without wrapping around. -/
def extent (logs : List (List Event)) : Nat :=
  eventsStart (headerLength logs) + logs.flatten.length * 16

theorem length_flatMap_write {ids : List Uuid} {logs : List (List Event)}
    (same : ids.length = logs.length) :
    (((ids.zip logs).map fun (id, events) => (⟨id, events.length.toUInt64⟩ : LogHeader)).flatMap
        LogHeader.write).length
      = (logs.map fun events => 20 + (Cbor.writeUnsigned events.length.toUInt64).length).sum := by
  induction ids generalizing logs with
  | nil =>
    obtain rfl := List.length_eq_zero_iff.mp same.symm
    rfl
  | cons id ids onward =>
    cases logs with
    | nil => exact absurd same (Nat.succ_ne_zero _)
    | cons events rest =>
      simp only [List.zip_cons_cons, List.map_cons, List.flatMap_cons, List.length_append,
        List.sum_cons, LogHeader.length_write]
      rw [onward (Nat.succ.inj same)]

theorem length_write_headerFor (session : Uuid) {ids : List Uuid} {logs : List (List Event)}
    (same : ids.length = logs.length) :
    (headerFor session ids logs).write.length = headerLength logs := by
  have count : (headerFor session ids logs).logs.length = logs.length := by
    simp [headerFor, same]
  have map : (Cbor.writeMap 2).length = 1 := rfl
  have one : (Cbor.writeUnsigned 1).length = 1 := rfl
  have two : (Cbor.writeUnsigned 2).length = 1 := rfl
  have head : (Cbor.head 2 (16 : Nat).toUInt64).length = 1 := rfl
  simp only [DumpHeader.write, Cbor.writeBytes, List.length_append, Uuid.length_bytes, count,
    headerLength]
  rw [headerFor, length_flatMap_write same]
  omega

theorem toNat_eventsOffset {headerSize : Nat} (small : headerSize + 31 < 18446744073709551616) :
    (eventsOffset headerSize.toUInt64).toNat = eventsStart headerSize := by
  have word := toNat_toUInt64_of_lt (show headerSize < 18446744073709551616 by omega)
  simp only [eventsOffset, preambleSize, Event.byteSize, UInt64.toNat_mul, UInt64.toNat_div,
    UInt64.toNat_sub, UInt64.toNat_add, UInt64.reduceToNat, word, eventsStart]
  omega

theorem toNat_sizeFor {logs : List (List Event)} (small : extent logs < 18446744073709551616) :
    (sizeFor (headerLength logs) logs).toNat = extent logs := by
  have start : headerLength logs + 31 < 18446744073709551616 := by
    simp only [extent, eventsStart] at small
    omega
  simp only [extent] at small
  have total := toNat_toUInt64_of_lt (show logs.flatten.length < 18446744073709551616 by omega)
  simp only [sizeFor, UInt64.toNat_add, UInt64.toNat_mul, toNat_eventsOffset start, total,
    Event.byteSize, UInt64.reduceToNat, extent]
  omega

/-- The size of a dump depends on the logs alone. -/
theorem size_encode (session : Uuid) (logs : List (List Event)) (random : RandomSource) :
    (encode session logs random).1.2 = sizeFor (headerLength logs) logs := by
  show sizeFor (headerFor session (random.drawMany logs.length).1 logs).write.length logs = _
  rw [length_write_headerFor session (random.length_drawMany _)]

end Dump

/-! ## Writing -/

/-- A list of a length that is a sum is a list of parts. -/
theorem exists_append_of_length {α : Type} {list : List α} {first second : Nat}
    (length : list.length = first + second) :
    ∃ front back, front.length = first ∧ back.length = second ∧ list = front ++ back := by
  refine ⟨list.take first, list.drop first, ?_, ?_, (List.take_append_drop ..).symm⟩
  · rw [List.length_take, length]
    omega
  · rw [List.length_drop, length]
    omega

/-- A store is created with zeros. -/
theorem Store.create_eq_ok {memory size : UInt64} {store : Store}
    (created : Store.create memory size = .ok store) :
    store = ⟨List.replicate size.toNat 0⟩ := by
  unfold Store.create Memory.grant at created
  split at created
  · cases created
  · split at created
    · cases created
    · cases created
      rfl

/-- A write inside a store replaces the bytes there. -/
theorem Store.write_append {front old back data : List UInt8} {offset : UInt64}
    (place : front.length = offset.toNat) (length : data.length = old.length)
    (small : (front ++ (old ++ back)).length < 18446744073709551616) :
    Store.write ⟨front ++ (old ++ back)⟩ offset data = .ok ⟨front ++ (data ++ back)⟩ := by
  simp only [List.length_append] at small
  have size : (Store.size ⟨front ++ (old ++ back)⟩).toNat
      = front.length + (old.length + back.length) := by
    rw [Store.size, toNat_toUInt64_of_lt (by simpa using small)]
    simp
  have word := toNat_toUInt64_of_lt (show data.length < 18446744073709551616 by omega)
  have stop : (offset + data.length.toUInt64).toNat = front.length + old.length := by
    rw [toNat_add_of_lt (by omega), word, place, length]
  have fits : ¬ Store.size ⟨front ++ (old ++ back)⟩ < offset + data.length.toUInt64 := by
    rw [UInt64.lt_iff_toNat_lt, size, stop]
    omega
  have starts : ¬ Store.size ⟨front ++ (old ++ back)⟩ < offset := by
    rw [UInt64.lt_iff_toNat_lt, size, ← place]
    omega
  have behind : (front ++ (old ++ back)).drop (front.length + data.length) = back := by
    rw [length, ← List.append_assoc]
    exact List.drop_left' (List.length_append ..)
  simp only [Store.write, fits, starts, if_false, ← place, behind, List.take_left]
  rw [List.append_assoc]

namespace Dump

/-- The events of logs replace as many bytes. -/
theorem writeEvents_append (logs : List (List Event)) {front old : List UInt8} {offset : UInt64}
    (place : front.length = offset.toNat) (length : old.length = logs.flatten.length * 16)
    (small : (front ++ old).length < 18446744073709551616) :
    writeEvents ⟨front ++ old⟩ offset logs = (.ok (), ⟨front ++ logs.flatMap Event.bytes⟩) := by
  induction logs generalizing front old offset with
  | nil =>
    obtain rfl := List.length_eq_zero_iff.mp length
    rfl
  | cons events rest onward =>
    rw [List.flatten_cons, List.length_append, Nat.add_mul] at length
    cases events with
    | nil => exact onward place (by simpa using length) small
    | cons event more =>
      generalize nonempty : event :: more = events at length ⊢
      rw [← Event.length_bytes] at length
      obtain ⟨here, behind, replaced, left, rfl⟩ := exists_append_of_length length
      have written := Store.write_append place replaced.symm small
      simp only [List.length_append, replaced, Event.length_bytes] at small
      have word := toNat_toUInt64_of_lt (show events.length < 18446744073709551616 by omega)
      have next : (front ++ Event.bytes events).length
          = (offset + events.length.toUInt64 * Event.byteSize).toNat := by
        rw [List.length_append, Event.length_bytes, UInt64.toNat_add, UInt64.toNat_mul, word, place]
        simp only [Event.byteSize, UInt64.reduceToNat]
        omega
      have rest := onward next left (by
        simp only [List.length_append, Event.length_bytes]
        omega)
      rw [writeEvents, if_neg (by simp [← nonempty]), written]
      simp only [List.flatMap_cons, ← List.append_assoc] at rest ⊢
      exact rest

/-- The bytes of a dump: the preamble, the header, padding up to the events, and the events. -/
def Image (header : List UInt8) (logs : List (List Event)) (bytes : List UInt8) : Prop :=
  ∃ padding : List UInt8, 16 + header.length + padding.length = eventsStart header.length
    ∧ bytes = preamble header.length ++ (header ++ (padding ++ logs.flatMap Event.bytes))

@[simp] theorem length_preamble (headerSize : Nat) : (preamble headerSize).length = 16 := rfl

/-- A store of the size of a dump takes the dump. -/
theorem writeParts_image {store : Store} {header : List UInt8} {logs : List (List Event)}
    (length : store.bytes.length = eventsStart header.length + logs.flatten.length * 16)
    (small : store.bytes.length < 18446744073709551616) :
    ∃ written, writeParts store header logs = (.ok (), written)
      ∧ Image header logs written.bytes := by
  have starts : eventsStart header.length
      = 16 + (header.length + (eventsStart header.length - 16 - header.length)) := by
    simp only [eventsStart]
    omega
  rw [starts, Nat.add_assoc, Nat.add_assoc] at length
  obtain ⟨bytes⟩ := store
  obtain ⟨front, body, sixteen, bodyLength, rfl⟩ := exists_append_of_length length
  obtain ⟨named, tail, sized, tailLength, rfl⟩ := exists_append_of_length bodyLength
  obtain ⟨padding, old, padded, counted, rfl⟩ := exists_append_of_length tailLength
  have offset : (eventsOffset header.length.toUInt64).toNat = eventsStart header.length := by
    refine toNat_eventsOffset ?_
    simp only [List.length_append, sixteen, sized, padded, eventsStart] at small
    omega
  have first : Store.write ⟨[] ++ (front ++ (named ++ (padding ++ old)))⟩ 0
      (preamble header.length) = _ := Store.write_append rfl (by rw [sixteen]; rfl) small
  have second : Store.write ⟨preamble header.length ++ (named ++ (padding ++ old))⟩ preambleSize
      header = _ := Store.write_append rfl sized.symm (by simpa [sixteen] using small)
  refine ⟨⟨preamble header.length ++ (header ++ (padding ++ logs.flatMap Event.bytes))⟩, ?_,
    padding, by rw [padded]; omega, rfl⟩
  have third : writeEvents ⟨(preamble header.length ++ (header ++ padding)) ++ old⟩
      (eventsOffset header.length.toUInt64) logs = _ :=
    writeEvents_append logs
      (by simp only [List.length_append, length_preamble, padded, offset]; omega) counted
      (by simp only [List.length_append, length_preamble, sixteen, sized] at small ⊢; omega)
  rw [List.nil_append] at first
  rw [writeParts, first]
  simp only [List.nil_append]
  rw [second]
  simp only [List.append_assoc] at third ⊢
  exact third

/-! ## Reading -/

/-- A log reads back where it was written. -/
theorem readLog_append (id : Uuid) {front rest : List UInt8} {events : List Event}
    {offset : UInt64} (place : front.length = offset.toNat)
    (small : (front ++ (Event.bytes events ++ rest)).length < 18446744073709551616) :
    readLog (front ++ (Event.bytes events ++ rest)) offset ⟨id, events.length.toUInt64⟩
      = .ok ⟨id, events⟩ := by
  have word := toNat_toUInt64_of_lt small
  simp only [List.length_append, Event.length_bytes] at small word
  have count := toNat_toUInt64_of_lt (show events.length < 18446744073709551616 by omega)
  have stop : (offset + events.length.toUInt64 * Event.byteSize).toNat
      = front.length + events.length * 16 := by
    rw [UInt64.toNat_add, UInt64.toNat_mul, count, place]
    simp only [Event.byteSize, UInt64.reduceToNat]
    omega
  have covered : ¬ (front ++ (Event.bytes events ++ rest)).length.toUInt64
      < offset + events.length.toUInt64 * Event.byteSize := by
    rw [UInt64.lt_iff_toNat_lt, stop]
    simp only [List.length_append, Event.length_bytes, word]
    omega
  simp only [readLog, covered, if_false]
  split
  · rename_i none
    have empty : events.length = 0 := by rw [← count, none, UInt64.toNat_zero]
    rw [List.length_eq_zero_iff.mp empty]
  · rename_i some
    have positive : events.length ≠ 0 := fun zero => some (by rw [zero]; rfl)
    have inside : ¬ (front ++ (Event.bytes events ++ rest)).length.toUInt64 ≤ offset := by
      rw [UInt64.le_iff_toNat_le, ← place]
      simp only [List.length_append, Event.length_bytes, word]
      omega
    have whole : ¬ (front ++ (Event.bytes events ++ rest)).length
        < offset.toNat + events.length.toUInt64.toNat * 16 := by
      simp only [List.length_append, Event.length_bytes, count, place]
      omega
    simp only [inside, whole, if_false]
    rw [← place, List.drop_left, count, readEvents_bytes]

/-- Logs read back where they were written, one after another. -/
theorem readLogs_append {ids : List Uuid} {logs : List (List Event)} {front rest : List UInt8}
    {offset : UInt64} (same : ids.length = logs.length) (place : front.length = offset.toNat)
    (small : (front ++ (logs.flatMap Event.bytes ++ rest)).length < 18446744073709551616) :
    readLogs (front ++ (logs.flatMap Event.bytes ++ rest)) offset
        ((ids.zip logs).map fun (id, events) => ⟨id, events.length.toUInt64⟩)
      = .ok (List.zipWith DumpLog.mk ids logs) := by
  induction ids generalizing logs front offset with
  | nil => rfl
  | cons id ids onward =>
    cases logs with
    | nil => rfl
    | cons events logs =>
      rw [List.flatMap_cons, List.append_assoc] at small ⊢
      have first := readLog_append id place small
      simp only [List.length_append, Event.length_bytes] at small
      have count := toNat_toUInt64_of_lt (show events.length < 18446744073709551616 by omega)
      have next : (front ++ Event.bytes events).length
          = (offset + events.length.toUInt64 * Event.byteSize).toNat := by
        rw [List.length_append, Event.length_bytes, UInt64.toNat_add, UInt64.toNat_mul, count, place]
        simp only [Event.byteSize, UInt64.reduceToNat]
        omega
      have others := onward (Nat.succ.inj same) next (by
        simp only [List.length_append, Event.length_bytes]
        omega)
      rw [List.append_assoc] at others
      rw [List.zip_cons_cons, List.map_cons, readLogs, first]
      dsimp only
      rw [others]
      rfl

/-- The preamble tells the size of the header behind it. -/
theorem decode_preamble_eq {header body : List UInt8}
    (small : (preamble header.length ++ (header ++ body)).length < 18446744073709551616) :
    decode (preamble header.length ++ (header ++ body))
      = match DumpHeader.read? header with
        | none => .error (.refusal .headerMalformed)
        | some found => do
          return ⟨found.session, ← readLogs (preamble header.length ++ (header ++ body))
            (eventsOffset header.length.toUInt64) found.logs⟩ := by
  have word := toNat_toUInt64_of_lt small
  simp only [List.length_append, length_preamble] at small word
  have size := toNat_toUInt64_of_lt (show header.length < 18446744073709551616 by omega)
  have mark : (preamble header.length ++ (header ++ body)).take 8 = magic := rfl
  have declared : LittleEndian.decode
      (((preamble header.length ++ (header ++ body)).drop 8).take 8) = header.length.toUInt64 :=
    LittleEndian.decode_encode _
  have behind : (preamble header.length ++ (header ++ body)).drop 16 = header ++ body := rfl
  have stop : (preambleSize + header.length.toUInt64).toNat = 16 + header.length := by
    rw [toNat_add_of_lt (by rw [size]; simp only [preambleSize, UInt64.reduceToNat]; omega), size]
    rfl
  have long : ¬ (preamble header.length ++ (header ++ body)).length.toUInt64 < preambleSize := by
    rw [UInt64.lt_iff_toNat_lt]
    simp only [List.length_append, length_preamble, word, preambleSize, UInt64.reduceToNat]
    omega
  have covered : ¬ (preamble header.length ++ (header ++ body)).length.toUInt64
      < preambleSize + header.length.toUInt64 := by
    rw [UInt64.lt_iff_toNat_lt, stop]
    simp only [List.length_append, length_preamble, word]
    omega
  have forward : ¬ preambleSize + header.length.toUInt64 < preambleSize := by
    rw [UInt64.lt_iff_toNat_lt, stop]
    simp only [preambleSize, UInt64.reduceToNat]
    omega
  have named : ((preamble header.length ++ (header ++ body)).drop 16).take
      header.length.toUInt64.toNat = header := by
    rw [behind, size, List.take_left]
  unfold decode
  dsimp only
  rw [declared, named]
  simp only [long, covered, forward, mark, if_false, ne_eq, not_true_eq_false]
  cases DumpHeader.read? header <;> rfl

/-- Behind a header that is read come the logs that it lists. -/
theorem decode_preamble {header : List UInt8} {found : DumpHeader} {body : List UInt8}
    (readsBack : DumpHeader.read? header = some found)
    (small : (preamble header.length ++ (header ++ body)).length < 18446744073709551616) :
    decode (preamble header.length ++ (header ++ body)) = (do
      return ⟨found.session, ← readLogs (preamble header.length ++ (header ++ body))
        (eventsOffset header.length.toUInt64) found.logs⟩) := by
  rw [decode_preamble_eq small, readsBack]

/-- **Dumps read back**, with anything behind them. -/
theorem decode_image {header : DumpHeader} {ids : List Uuid} {logs : List (List Event)}
    {session : Uuid} {bytes : List UInt8} (rest : List UInt8) (same : ids.length = logs.length)
    (named : header = headerFor session ids logs) (readsBack : header.ReadsBack)
    (image : Image header.write logs bytes)
    (small : (bytes ++ rest).length < 18446744073709551616) :
    decode (bytes ++ rest) = .ok ⟨session, List.zipWith DumpLog.mk ids logs⟩ := by
  obtain ⟨padding, padded, rfl⟩ := image
  simp only [List.append_assoc] at small ⊢
  have offset : (eventsOffset header.write.length.toUInt64).toNat
      = eventsStart header.write.length := by
    refine toNat_eventsOffset ?_
    simp only [List.length_append, length_preamble, eventsStart] at small padded
    omega
  have logsRead : readLogs
      ((preamble header.write.length ++ (header.write ++ padding))
        ++ (logs.flatMap Event.bytes ++ rest)) (eventsOffset header.write.length.toUInt64)
      ((ids.zip logs).map fun (id, events) => ⟨id, events.length.toUInt64⟩) = _ :=
    readLogs_append same
      (by rw [offset, ← padded]; simp only [List.length_append, length_preamble]; omega)
      (by simpa only [List.append_assoc] using small)
  simp only [List.append_assoc] at logsRead
  have logsNamed : header.logs
      = (ids.zip logs).map fun (id, events) => ⟨id, events.length.toUInt64⟩ := by
    rw [named, headerFor]
  have sessionNamed : header.session = session := by rw [named, headerFor]
  rw [decode_preamble readsBack small, logsNamed, logsRead, sessionNamed]
  rfl

/-- A dump whose header is not read is malformed. -/
theorem decode_image_of_unread {header : List UInt8} {logs : List (List Event)}
    {bytes : List UInt8} (unread : DumpHeader.read? header = none)
    (image : Image header logs bytes) (small : bytes.length < 18446744073709551616) :
    decode bytes = .error (.refusal .headerMalformed) := by
  obtain ⟨padding, -, rfl⟩ := image
  rw [decode_preamble_eq small, unread]

/-! ## Saving and capturing -/

theorem segments_zipWith {session : Uuid} {ids : List Uuid} {logs : List (List Event)}
    (same : ids.length = logs.length) :
    segments ⟨session, List.zipWith DumpLog.mk ids logs⟩ = logs := by
  show (List.zipWith DumpLog.mk ids logs).map DumpLog.events = logs
  rw [List.map_zipWith]
  induction ids generalizing logs with
  | nil => exact (List.length_eq_zero_iff.mp same.symm).symm
  | cons id ids onward =>
    cases logs with
    | nil => rfl
    | cons events rest => rw [List.zipWith_cons_cons, onward (Nat.succ.inj same)]

/-- A store of the size of a dump takes it. -/
theorem write_image {logs : List (List Event)} (small : extent logs < 18446744073709551616)
    (session : Uuid) (random : RandomSource) {store : Store}
    (length : store.bytes.length = extent logs) :
    ∃ written, (write store store.size session logs random).1 = (.ok (), written)
      ∧ Image (headerFor session (random.drawMany logs.length).1 logs).write logs written.bytes
      ∧ written.bytes.length = extent logs := by
  have same := random.length_drawMany logs.length
  have header := length_write_headerFor session same
  obtain ⟨written, stored, image⟩ := writeParts_image (show store.bytes.length = eventsStart
      (headerFor session (random.drawMany logs.length).1 logs).write.length
        + logs.flatten.length * 16 by rw [length, header]; rfl) (by omega)
  refine ⟨written, ?_, image, ?_⟩
  · have roomy : ¬ store.size < (encode session logs random).1.2 := by
      rw [size_encode, UInt64.lt_iff_toNat_lt, toNat_sizeFor small, Store.size,
        toNat_toUInt64_of_lt (by omega), length]
      exact Nat.lt_irrefl _
    show (if store.size < (encode session logs random).1.2 then _ else _ : _ × RandomSource).1 = _
    rw [if_neg roomy]
    exact stored
  · obtain ⟨padding, padded, whole⟩ := image
    rw [whole, extent, ← header, ← padded]
    simp only [List.length_append, length_preamble, Event.length_flatMap_bytes]
    omega

/-- What was written into a store of the size of a dump reads back. -/
theorem write_decode {logs : List (List Event)} (small : extent logs < 18446744073709551616)
    (readsBack : ∀ session ids, ids.length = logs.length → (headerFor session ids logs).ReadsBack)
    (session : Uuid) (random : RandomSource) {store : Store}
    (length : store.bytes.length = extent logs) :
    ∃ written, (write store store.size session logs random).1 = (.ok (), written)
      ∧ decode written.bytes
        = .ok ⟨session, List.zipWith DumpLog.mk (random.drawMany logs.length).1 logs⟩ := by
  have same := random.length_drawMany logs.length
  obtain ⟨written, stored, image, bytes⟩ := write_image small session random length
  have decoded := decode_image [] same rfl (readsBack session _ same) image
    (by rw [List.append_nil, bytes]; exact small)
  rw [List.append_nil] at decoded
  exact ⟨written, stored, decoded⟩

/-- Saving fails only if there is no store of the size of the dump. -/
theorem save_image {logs : List (List Event)} (small : extent logs < 18446744073709551616)
    (random : RandomSource) :
    ∃ ids bytes, ids.length = logs.length
      ∧ Image (headerFor random.draw.1 ids logs).write logs bytes ∧ bytes.length = extent logs
      ∧ ∀ memory, (save memory logs random).1
        = ((Store.create memory (sizeFor (headerLength logs) logs)).mapError .refusal).map
          fun _ => (random.draw.1, bytes) := by
  rcases drew : random.draw with ⟨session, drawn⟩
  rcases encoded : encode session logs drawn with ⟨⟨header, size⟩, later⟩
  have sized := size_encode session logs drawn
  simp only [encoded] at sized
  obtain ⟨written, stored, image, length⟩ := write_image small session later
    (show (Store.mk (List.replicate (extent logs) 0)).bytes.length = extent logs from
      List.length_replicate ..)
  refine ⟨_, written.bytes, RandomSource.length_drawMany .., image, length, fun memory => ?_⟩
  simp only [save, drew, encoded, ← sized]
  cases created : Store.create memory size with
  | error cause => rfl
  | ok store =>
    have zeros := Store.create_eq_ok created
    rw [sized, toNat_sizeFor small] at zeros
    rw [← zeros] at stored
    rcases wrote : write store store.size session logs later with ⟨⟨outcome, reached⟩, last⟩
    simp only [wrote, Prod.mk.injEq] at stored ⊢
    obtain ⟨rfl, rfl⟩ := stored
    rfl

/-- What was saved reads back. -/
theorem save_decode {logs : List (List Event)} (small : extent logs < 18446744073709551616)
    (readsBack : ∀ session ids, ids.length = logs.length → (headerFor session ids logs).ReadsBack)
    (random : RandomSource) :
    ∃ bytes dump, decode bytes = .ok dump ∧ dump.session = random.draw.1 ∧ dump.segments = logs
      ∧ ∀ memory, (save memory logs random).1
        = ((Store.create memory (sizeFor (headerLength logs) logs)).mapError .refusal).map
          fun _ => (random.draw.1, bytes) := by
  obtain ⟨ids, bytes, same, image, length, saved⟩ := save_image small random
  have decoded := decode_image [] same rfl (readsBack _ _ same) image
    (by rw [List.append_nil, length]; exact small)
  rw [List.append_nil] at decoded
  exact ⟨bytes, _, decoded, rfl, segments_zipWith same, saved⟩

/-- What was saved is loaded, unless it has more logs than a header may list. -/
theorem save_load {logs : List (List Event)} (small : extent logs < 18446744073709551616)
    (random : RandomSource) :
    ∃ bytes dump, dump.segments = logs
      ∧ load bytes = (if logs.length ≤ Cbor.maxElements then .ok dump
        else .error (.refusal .headerMalformed))
      ∧ decode bytes = load bytes
      ∧ ∀ memory, (save memory logs random).1
        = ((Store.create memory (sizeFor (headerLength logs) logs)).mapError .refusal).map
          fun _ => (random.draw.1, bytes) := by
  obtain ⟨ids, bytes, same, image, length, saved⟩ := save_image small random
  have count : (headerFor random.draw.1 ids logs).logs.length = logs.length := by
    simp [headerFor, same]
  have whole : load bytes = decode bytes := by
    obtain ⟨padding, -, rfl⟩ := image
    rfl
  refine ⟨bytes, ⟨random.draw.1, List.zipWith DumpLog.mk ids logs⟩, segments_zipWith same, ?_,
    whole.symm, saved⟩
  rw [whole]
  split
  · rename_i few
    have decoded := decode_image [] same rfl
      (DumpHeader.readsBack_of_length_le (Nat.le_trans (Nat.le_of_eq count) few)) image
      (by rw [List.append_nil, length]; exact small)
    rwa [List.append_nil] at decoded
  · rename_i many
    have word := LogHeader.length_le_flatMap_write (headerFor random.draw.1 ids logs).logs
    have header : ((headerFor random.draw.1 ids logs).logs.flatMap LogHeader.write).length
        ≤ bytes.length := by
      obtain ⟨padding, -, rfl⟩ := image
      simp only [DumpHeader.write, List.length_append]
      omega
    have unread : DumpHeader.read? (headerFor random.draw.1 ids logs).write = none :=
      DumpHeader.read?_write_of_many (by omega) (by omega)
    exact decode_image_of_unread unread image (by rw [length]; exact small)

/-- **The round trip of a dump.**  The size of a dump does not depend on its identifiers.  A store of
that size takes the dump, and reading it back gives the session, the identifiers that were drawn
for the header, and the events of every log.  On a machine with any memory, saving and capturing
fail only if there is no such store.

Of the written form of headers it is assumed that reading undoes writing; this is so up to the number
of logs in `DumpHeader.readsBack_of_length_le`. -/
theorem round_trip (logs : List (List Event)) (addressable : extent logs < 18446744073709551616)
    (readsBack : ∀ session ids, ids.length = logs.length →
      (headerFor session ids logs).ReadsBack) :
    (∀ session other random otherRandom,
      (encode session logs random).1.2 = (encode other logs otherRandom).1.2)
    ∧ (∀ session random other earlier (store : Store),
      store.bytes.length = (encode other logs earlier).1.2.toNat →
      ∃ written, (write store store.size session logs random).1 = (.ok (), written)
        ∧ decode written.bytes
          = .ok ⟨session, List.zipWith DumpLog.mk (random.drawMany logs.length).1 logs⟩)
    ∧ ∀ random : RandomSource, ∃ bytes dump,
      decode bytes = .ok dump ∧ dump.session = random.draw.1 ∧ dump.segments = logs
      ∧ ∀ memory, let size := (encode random.draw.1 logs random.draw.2).1.2
        (save memory logs random).1
          = ((Store.create memory size).mapError Failure.refusal).map
            (fun _ => (random.draw.1, bytes))
        ∧ (capture memory logs random).1
          = ((Store.create memory size).mapError Failure.refusal).map (fun _ => dump) := by
  refine ⟨?_, ?_, ?_⟩
  · intro session other random otherRandom
    rw [size_encode, size_encode]
  · intro session random other earlier store length
    rw [size_encode, toNat_sizeFor addressable] at length
    exact write_decode addressable readsBack session random length
  · intro random
    obtain ⟨bytes, dump, decoded, named, segments, saved⟩ :=
      save_decode addressable readsBack random
    refine ⟨bytes, dump, decoded, named, segments, fun memory => ?_⟩
    rw [size_encode]
    refine ⟨saved memory, ?_⟩
    show (save memory logs random).1.bind (fun saved => decode saved.2) = _
    rw [saved memory]
    cases (Store.create memory (sizeFor (headerLength logs) logs)).mapError Failure.refusal with
    | error failure => rfl
    | ok store => exact decoded

/-- Capturing three logs, one without events, gives them back. -/
theorem round_trip_three :
    ∃ dump, (capture 0x100000000 [[⟨1, 2⟩], [], [⟨3, 4⟩, ⟨5, 6⟩]] ⟨fun _ => 7, 0⟩).1 = .ok dump
      ∧ dump.segments = [[⟨1, 2⟩], [], [⟨3, 4⟩, ⟨5, 6⟩]] := by
  obtain ⟨-, -, captures⟩ := round_trip [[⟨1, 2⟩], [], [⟨3, 4⟩, ⟨5, 6⟩]] (by decide) fun session ids same =>
    DumpHeader.readsBack_of_length_le (by simp [headerFor, same, Cbor.maxElements])
  obtain ⟨bytes, dump, -, -, segments, machines⟩ := captures ⟨fun _ => 7, 0⟩
  exact ⟨dump, (machines 0x100000000).2, segments⟩

end Dump

end HeapAudit
