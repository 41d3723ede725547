import HeapAudit.Proofs.Dump.Robustness

/-!
# Dumps that were cut off

A dump that lost its end is refused, wherever the cut fell, and the refusal says that something is
missing (`Cause.IsTruncation`).  Three checks share the work.  A cut in the preamble or in the header
is found by the sizes of these two.  A cut behind the header is found while the logs are read: the
first log whose events end behind the cut is refused.  There is such a log, for the last one ends
where the dump does (`Dump.eventsStop_headerFor`); if the logs at the end have no events, an earlier
one does, and if none has any, the first one is to start behind the padding and so behind the cut.
A dump without logs has nobody to miss its padding.

What follows a dump is not looked at.

A store takes a dump only if its size, counted without wrapping around, is that of the store
(`Dump.extent_lt_of_write`).
-/

namespace HeapAudit

set_option autoImplicit false

/-! ## What a store has room for -/

/-- What is written lies inside the store, and the store keeps its size. -/
theorem Store.write_eq_ok {store after : Store} {offset : UInt64} {data : List UInt8}
    (room : store.bytes.length < 2 ^ 63) (short : data.length < 2 ^ 63)
    (wrote : store.write offset data = .ok after) :
    offset.toNat + data.length ≤ store.bytes.length
      ∧ after.bytes.length = store.bytes.length := by
  have size : store.size.toNat = store.bytes.length := toNat_toUInt64_of_lt (by omega)
  have word := toNat_toUInt64_of_lt (show data.length < 18446744073709551616 by omega)
  unfold Store.write at wrote
  dsimp only at wrote
  split at wrote
  · cases wrote
  · rename_i covered
    split at wrote
    · cases wrote
    · rename_i reached
      rw [UInt64.lt_iff_toNat_lt, UInt64.toNat_add, word, size] at covered
      rw [UInt64.lt_iff_toNat_lt, size] at reached
      have inside : offset.toNat + data.length ≤ store.bytes.length := by omega
      cases wrote
      refine ⟨inside, ?_⟩
      simp only [List.length_append, List.length_take, List.length_drop]
      omega

namespace Dump

/-- Logs whose bytes, and the bytes of whose header, memory can hold: the length of any run of bytes
is a signed word. -/
structure Held (logs : List (List Event)) : Prop where
  header : headerLength logs < 2 ^ 63
  log : ∀ events ∈ logs, events.length * 16 < 2 ^ 63

/-- The events that were written lie inside the store. -/
theorem writeEvents_fits {logs : List (List Event)} {store after : Store} {offset : UInt64}
    (held : ∀ events ∈ logs, events.length * 16 < 2 ^ 63) (room : store.bytes.length < 2 ^ 63)
    (wrote : writeEvents store offset logs = (.ok (), after)) :
    logs.flatten.length = 0
      ∨ offset.toNat + logs.flatten.length * 16 ≤ store.bytes.length := by
  induction logs generalizing store offset with
  | nil => exact .inl rfl
  | cons events rest onward =>
    have small := held events List.mem_cons_self
    have others := fun more member => held more (List.mem_cons_of_mem events member)
    rw [List.flatten_cons, List.length_append]
    rw [writeEvents] at wrote
    split at wrote
    · rename_i none
      rw [List.isEmpty_iff.mp none, List.length_nil, Nat.zero_add]
      exact onward others room wrote
    · rw [← Event.length_bytes] at small
      cases stored : store.write offset (Event.bytes events) with
      | error failure =>
        rw [stored] at wrote
        cases wrote
      | ok next =>
        rw [stored] at wrote
        obtain ⟨inside, same⟩ := Store.write_eq_ok room small stored
        rw [Event.length_bytes] at inside
        have count := toNat_toUInt64_of_lt (show events.length < 18446744073709551616 by omega)
        have behind : (offset + events.length.toUInt64 * Event.byteSize).toNat
            = offset.toNat + events.length * 16 := by
          simp only [UInt64.toNat_add, UInt64.toNat_mul, Event.byteSize, UInt64.reduceToNat, count]
          omega
        have fits := onward others (by rw [same]; exact room) wrote
        rw [behind, same] at fits
        omega

/-- A dump is written in three steps. -/
theorem writeParts_eq_ok {store after : Store} {header : List UInt8} {logs : List (List Event)}
    (wrote : writeParts store header logs = (.ok (), after)) :
    ∃ marked named, store.write 0 (preamble header.length) = .ok marked
      ∧ marked.write preambleSize header = .ok named
      ∧ writeEvents named (eventsOffset header.length.toUInt64) logs = (.ok (), after) := by
  unfold writeParts at wrote
  cases first : store.write 0 (preamble header.length) with
  | error failure =>
    rw [first] at wrote
    cases wrote
  | ok marked =>
    rw [first] at wrote
    dsimp only at wrote
    cases second : marked.write preambleSize header with
    | error failure =>
      rw [second] at wrote
      cases wrote
    | ok named =>
      rw [second] at wrote
      exact ⟨marked, named, rfl, second, wrote⟩

/-- What is not refused for its size is written, with a header of fresh identifiers. -/
theorem write_eq_ok {logs : List (List Event)} {session : Uuid} {random : RandomSource}
    {store after : Store} {room : UInt64}
    (wrote : (write store room session logs random).1 = (.ok (), after)) :
    writeParts store (headerFor session (random.drawMany logs.length).1 logs).write logs
      = (.ok (), after) := by
  change (if room < (encode session logs random).1.2 then _ else _ : _ × RandomSource).1 = _ at wrote
  split at wrote
  · cases wrote
  · exact wrote

/-- **A dump that was written** has a size that does not wrap around. -/
theorem extent_lt_of_write {logs : List (List Event)} (held : Held logs) {session : Uuid}
    {random : RandomSource} {store written : Store} (room : store.bytes.length < 2 ^ 63)
    (wrote : (write store store.size session logs random).1 = (.ok (), written)) :
    extent logs < 18446744073709551616 := by
  have size : (headerFor session (random.drawMany logs.length).1 logs).write.length
      = headerLength logs :=
    length_write_headerFor session (random.length_drawMany logs.length)
  have parts := write_eq_ok wrote
  generalize (headerFor session (random.drawMany logs.length).1 logs).write = header at size parts
  have bounded := held.header
  obtain ⟨marked, named, first, second, events⟩ := writeParts_eq_ok parts
  obtain ⟨-, firstSize⟩ := Store.write_eq_ok room (by rw [length_preamble]; decide) first
  obtain ⟨-, secondSize⟩ := Store.write_eq_ok (by omega) (by omega) second
  have fits := writeEvents_fits held.log (by omega) events
  rw [toNat_eventsOffset (by omega), size] at fits
  rw [extent]
  simp only [eventsStart] at fits ⊢
  omega

theorem Image.length_eq {header : List UInt8} {logs : List (List Event)} {bytes : List UInt8}
    (image : Image header logs bytes) :
    bytes.length = eventsStart header.length + logs.flatten.length * 16 := by
  obtain ⟨padding, padded, rfl⟩ := image
  simp only [List.length_append, length_preamble, Event.length_flatMap_bytes]
  omega

end Dump

/-! ## Cuts -/

/-- The refusals that say that a dump ends too early. -/
def Cause.IsTruncation : Cause → Prop
  | .dumpTruncated | .headerTruncated | .eventsTruncated _ => True
  | _ => False

namespace Dump

/-- The logs of a header end where the dump does. -/
theorem eventsStop_headerFor (session : Uuid) {ids : List Uuid} {logs : List (List Event)}
    (same : ids.length = logs.length) (words : ∀ events ∈ logs, events.length * 16 < 2 ^ 63)
    (start : Nat) :
    eventsStop start (headerFor session ids logs).logs = start + logs.flatten.length * 16 := by
  rw [headerFor]
  dsimp only
  induction ids generalizing logs start with
  | nil =>
    obtain rfl := List.length_eq_zero_iff.mp same.symm
    rfl
  | cons id ids onward =>
    cases logs with
    | nil => exact absurd same (Nat.succ_ne_zero _)
    | cons events rest =>
      have small := words events List.mem_cons_self
      have others := fun more member => words more (List.mem_cons_of_mem events member)
      have count := toNat_toUInt64_of_lt (show events.length < 18446744073709551616 by omega)
      rw [List.zip_cons_cons, List.map_cons, eventsStop, onward (Nat.succ.inj same) others, count,
        List.flatten_cons, List.length_append]
      omega

/-- **Logs that end behind a cut** are refused; there has to be one. -/
theorem readLogs_of_cut {data : List UInt8} {offset : UInt64} {logs : List LogHeader}
    (some : logs ≠ []) (cut : data.length < eventsStop offset.toNat logs)
    (bounded : eventsStop offset.toNat logs < 2 ^ 64) :
    ∃ id, readLogs data offset logs = .error (.refusal (.eventsTruncated id)) := by
  induction logs generalizing offset with
  | nil => exact absurd rfl some
  | cons log rest onward =>
    rw [eventsStop] at cut bounded
    have ends := le_eventsStop (offset.toNat + log.events.toNat * 16) rest
    rw [readLogs]
    rcases readLog_cases (show data.length < 2 ^ 64 by omega) offset log rfl with
      ⟨inside, read⟩ | ⟨-, -, read⟩ | ⟨outside, wraps, -⟩
    · -- the log lies in front of the cut, so that it is not the last one
      have next : (offset + log.events * Event.byteSize).toNat
          = offset.toNat + log.events.toNat * 16 := by
        simp only [UInt64.toNat_add, UInt64.toNat_mul, Event.byteSize, UInt64.reduceToNat]
        omega
      have more : rest ≠ [] := by
        rintro rfl
        exact absurd inside (Nat.not_le.mpr cut)
      obtain ⟨id, refused⟩ := onward more (by rw [next]; exact cut) (by rw [next]; exact bounded)
      refine ⟨id, ?_⟩
      rw [read]
      dsimp only [bind, Except.bind]
      rw [refused]
    · exact ⟨log.id, by rw [read]; rfl⟩
    · rw [Nat.mod_eq_of_lt (Nat.lt_of_le_of_lt ends bounded)] at wraps
      exact absurd wraps (Nat.not_le.mpr outside)

/-- Less than the preamble is no dump. -/
theorem decode_of_short {data : List UInt8} (short : data.length < 16) :
    decode data = .error (.refusal .dumpTruncated) := by
  have length := toNat_toUInt64_of_lt (show data.length < 18446744073709551616 by omega)
  have cut : data.length.toUInt64 < preambleSize := by
    rw [UInt64.lt_iff_toNat_lt, length]
    exact short
  unfold decode
  dsimp only
  rw [if_pos cut]
  rfl

/-- A header that is not all there is refused. -/
theorem decode_of_cut_header {header front : List UInt8} (short : front.length < header.length)
    (bounded : header.length < 2 ^ 63) (small : 16 + front.length < 2 ^ 63) :
    decode (preamble header.length ++ front) = .error (.refusal .headerTruncated) := by
  have size := toNat_toUInt64_of_lt (show header.length < 18446744073709551616 by omega)
  have declared : declaredSize (preamble header.length ++ front) = header.length.toUInt64 :=
    LittleEndian.decode_encode _
  have length : (preamble header.length ++ front).length = 16 + front.length := by
    rw [List.length_append, length_preamble]
  rw [decode_of_preamble (by omega) (by omega) rfl, declared, size]
  exact if_pos (by omega)

/-- Logs of which the events are not all there are refused, behind a header that is whole. -/
theorem decode_of_cut_events {header : DumpHeader} {ids : List Uuid} {logs : List (List Event)}
    {session : Uuid} {body : List UInt8} (some : logs ≠ []) (held : Held logs)
    (same : ids.length = logs.length) (named : header = headerFor session ids logs)
    (readsBack : header.ReadsBack)
    (small : eventsStart header.write.length + logs.flatten.length * 16 < 2 ^ 63)
    (cut : (preamble header.write.length ++ (header.write ++ body)).length
      < eventsStart header.write.length + logs.flatten.length * 16) :
    ∃ id, decode (preamble header.write.length ++ (header.write ++ body))
      = .error (.refusal (.eventsTruncated id)) := by
  have size : header.write.length = headerLength logs := by
    rw [named, length_write_headerFor session same]
  have bounded := held.header
  have start : (eventsOffset header.write.length.toUInt64).toNat
      = eventsStart header.write.length := toNat_eventsOffset (by omega)
  have stop : eventsStop (eventsOffset header.write.length.toUInt64).toNat header.logs
      = eventsStart header.write.length + logs.flatten.length * 16 := by
    rw [start, named, eventsStop_headerFor session same held.log]
  have listed : header.logs ≠ [] := by
    rw [← List.length_pos_iff, named, headerFor, List.length_map, List.length_zip, same,
      Nat.min_self]
    exact List.length_pos_iff.mpr some
  obtain ⟨id, refused⟩ := readLogs_of_cut listed (by rw [stop]; exact cut) (by rw [stop]; omega)
  refine ⟨id, ?_⟩
  rw [decode_preamble readsBack (by omega), refused]
  rfl

/-- **A dump that lost its end is refused** as one that did. -/
theorem decode_take_image {header : DumpHeader} {ids : List Uuid} {logs : List (List Event)}
    {session : Uuid} {bytes : List UInt8} (some : logs ≠ []) (held : Held logs)
    (same : ids.length = logs.length) (named : header = headerFor session ids logs)
    (readsBack : header.ReadsBack) (image : Image header.write logs bytes)
    (small : bytes.length < 2 ^ 63) {cut : Nat} (short : cut < bytes.length) :
    ∃ cause : Cause, cause.IsTruncation ∧ decode (bytes.take cut) = .error (.refusal cause) := by
  have length := image.length_eq
  have size : header.write.length = headerLength logs := by
    rw [named, length_write_headerFor session same]
  have bounded := held.header
  obtain ⟨padding, padded, rfl⟩ := image
  by_cases inPreamble : cut < 16
  · refine ⟨.dumpTruncated, trivial, decode_of_short ?_⟩
    exact Nat.lt_of_le_of_lt (List.length_take_le ..) inPreamble
  · rw [List.take_append, List.take_of_length_le (by rw [length_preamble]; omega), length_preamble]
    by_cases inHeader : cut - 16 < header.write.length
    · refine ⟨.headerTruncated, trivial, ?_⟩
      have kept := List.length_take_le (cut - 16)
        (header.write ++ (padding ++ logs.flatMap Event.bytes))
      exact decode_of_cut_header (by omega) (by omega) (by omega)
    · -- the header is whole, and so it lists all logs
      rw [List.take_append, List.take_of_length_le (Nat.not_lt.mp inHeader)]
      have left : (preamble header.write.length ++ (header.write
          ++ (padding ++ logs.flatMap Event.bytes).take (cut - 16 - header.write.length))).length
            < eventsStart header.write.length + logs.flatten.length * 16 := by
        simp only [List.length_append, length_preamble, List.length_take]
        omega
      obtain ⟨id, refused⟩ := decode_of_cut_events some held same named readsBack (by omega) left
      exact ⟨.eventsTruncated id, trivial, refused⟩

/-- **A dump is read from its first byte to its last, and no further.**  Let logs, at least one, be
written into a store of the size that was computed for them, with identifiers that need not be those
of the computation.  The dump reads back with anything behind it, and no proper part of it from the
start on does: each of these is refused as one that ends too early.

Of the written form of headers it is assumed that reading undoes writing, and of runs of bytes that
their lengths are signed words. -/
theorem cuts_are_refused (logs : List (List Event)) (some : logs ≠ []) (held : Held logs)
    (readsBack : ∀ session ids, ids.length = logs.length →
      (headerFor session ids logs).ReadsBack)
    (session other : Uuid) (random earlier : RandomSource) (store written : Store)
    (room : store.bytes.length < 2 ^ 63)
    (length : store.bytes.length = (encode other logs earlier).1.2.toNat)
    (wrote : (write store store.size session logs random).1 = (.ok (), written)) :
    (∀ cut < written.bytes.length, ∃ cause : Cause, cause.IsTruncation
      ∧ decode (written.bytes.take cut) = .error (.refusal cause))
    ∧ ∃ dump : Dump, dump.session = session ∧ dump.segments = logs ∧ decode written.bytes = .ok dump
      ∧ ∀ rest, (written.bytes ++ rest).length < 2 ^ 63 →
        decode (written.bytes ++ rest) = .ok dump := by
  have addressable := extent_lt_of_write held room wrote
  have same := random.length_drawMany logs.length
  rw [size_encode, toNat_sizeFor addressable] at length
  obtain ⟨stored, took, image, whole⟩ := write_image addressable session random length
  rw [wrote] at took
  obtain rfl : written = stored := congrArg Prod.snd took
  have read := readsBack session _ same
  have decoded := fun rest (small : (written.bytes ++ rest).length < 18446744073709551616) =>
    decode_image rest same rfl read image small
  refine ⟨fun cut short => ?_, _, rfl, segments_zipWith same, ?_, fun rest small => ?_⟩
  · exact decode_take_image some held same rfl read image (by omega) short
  · have alone := decoded [] (by rw [List.append_nil]; omega)
    rwa [List.append_nil] at alone
  · exact decoded rest (by omega)

/-- Logs of which the last two have no events. -/
def trailing : List (List Event) := [[⟨1, 2⟩, ⟨3, 4⟩], [], []]

/-- They are written, and the dump without its last byte is refused. -/
theorem cuts_are_refused_trailing :
    ∃ written, (write ⟨List.replicate (extent trailing) 0xff⟩
        (Store.size ⟨List.replicate (extent trailing) 0xff⟩) .zero trailing ⟨fun _ => 7, 0⟩).1
        = (.ok (), written)
      ∧ ∃ cause : Cause, cause.IsTruncation
        ∧ decode (written.bytes.take 143) = .error (.refusal cause) := by
  have some : trailing ≠ [] := by decide
  have held : Held trailing := ⟨by decide, by decide⟩
  have readsBack : ∀ session ids, ids.length = trailing.length →
      (headerFor session ids trailing).ReadsBack := fun session ids same =>
    DumpHeader.readsBack_of_length_le (by simp [headerFor, same, Cbor.maxElements, trailing])
  have length : (List.replicate (extent trailing) (0xff : UInt8)).length = extent trailing :=
    List.length_replicate ..
  obtain ⟨written, wrote, -, whole⟩ := write_image (by decide) .zero ⟨fun _ => 7, 0⟩
    (show (Store.mk (List.replicate (extent trailing) 0xff)).bytes.length = extent trailing from
      length)
  have room : (List.replicate (extent trailing) (0xff : UInt8)).length < 2 ^ 63 := by
    rw [length]
    decide
  obtain ⟨cuts, -⟩ := cuts_are_refused trailing some held readsBack .zero .zero ⟨fun _ => 7, 0⟩
    ⟨fun _ => 7, 0⟩ _ written room
    (by rw [size_encode, toNat_sizeFor (by decide)]; exact length) wrote
  exact ⟨written, wrote, cuts 143 (by rw [whole]; decide)⟩

end Dump

end HeapAudit
