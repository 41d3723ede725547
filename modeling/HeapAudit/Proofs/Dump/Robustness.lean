import HeapAudit.Proofs.Dump.RoundTrip

/-!
# When reading a dump returns

Reading is meant to answer every input, with the dump or with a refusal (`Returns`).  All sizes
that an input declares are checked before they are used, but the checks are made in words, and
a declared size that wraps around passes them.  Reading such an input aborts.

There are exactly two ways to get there (`Dump.decode_returns_iff`).  The size of the header may
wrap around together with the preamble.  Or the events of a log may end outside the input and
their end, as a word, inside (`Dump.Overruns`).  Sizes that do not wrap around never abort.
-/

namespace HeapAudit

set_option autoImplicit false

/-! ## Work that returns -/

/-- Work that comes back, with a result or with a refusal. -/
def Returns {α : Type} : Except Failure α → Prop
  | .ok _ | .error (.refusal _) => True
  | .error (.abort _) | .error .fault => False

/-- Work in two steps returns if the first one does and the second one does behind it. -/
theorem returns_bind {α β : Type} {first : Except Failure α} {next : α → Except Failure β} :
    Returns (first >>= next)
      ↔ Returns first ∧ ∀ value, first = .ok value → Returns (next value) := by
  cases first with
  | error failure =>
    have same : (Except.error failure >>= next) = .error failure := rfl
    rw [same]
    cases failure with
    | refusal cause =>
      refine ⟨fun _ => ⟨trivial, fun _ impossible => ?_⟩, fun _ => trivial⟩
      cases impossible
    | abort cause => exact ⟨False.elim, And.left⟩
    | fault => exact ⟨False.elim, And.left⟩
  | ok value =>
    have same : (Except.ok value >>= next) = next value := rfl
    rw [same]
    constructor
    · intro returned
      refine ⟨trivial, fun other found => ?_⟩
      cases found
      exact returned
    · intro both
      exact both.2 value rfl

namespace Dump

/-! ## Logs -/

/-- Where the events of logs end that follow each other from a start on, counted without wrapping
around. -/
def eventsStop : Nat → List LogHeader → Nat
  | start, [] => start
  | start, log :: rest => eventsStop (start + log.events.toNat * 16) rest

theorem le_eventsStop (start : Nat) (logs : List LogHeader) : start ≤ eventsStop start logs := by
  induction logs generalizing start with
  | nil => exact Nat.le_refl start
  | cons log rest onward => exact Nat.le_trans (Nat.le_add_right ..) (onward _)

/-- The first log that ends outside the data has an end that wraps around into the data. -/
def Overruns (data : List UInt8) (start : Nat) (logs : List LogHeader) : Prop :=
  ∃ before log after, logs = before ++ log :: after
    ∧ (before = [] ∨ eventsStop start before ≤ data.length)
    ∧ data.length < eventsStop start (before ++ [log])
    ∧ eventsStop start (before ++ [log]) % 2 ^ 64 ≤ data.length

variable {data : List UInt8}

/-- **Reading a log**, by where its events end without wrapping around. -/
theorem readLog_cases (small : data.length < 2 ^ 64) (offset : UInt64) (log : LogHeader)
    {stop : Nat} (ends : offset.toNat + log.events.toNat * 16 = stop) :
    (stop ≤ data.length
      ∧ readLog data offset log
        = .ok ⟨log.id, readEvents log.events.toNat (data.drop offset.toNat)⟩)
    ∨ (data.length < stop ∧ data.length < stop % 2 ^ 64
      ∧ readLog data offset log = .error (.refusal (.eventsTruncated log.id)))
    ∨ (data.length < stop ∧ stop % 2 ^ 64 ≤ data.length
      ∧ ∃ cause, readLog data offset log = .error (.abort cause)) := by
  have length := toNat_toUInt64_of_lt small
  have wrapped : (offset + log.events * Event.byteSize).toNat = stop % 2 ^ 64 := by
    simp only [UInt64.toNat_add, UInt64.toNat_mul, Event.byteSize, UInt64.reduceToNat, ← ends]
    omega
  have bounded := offset.toNat_lt
  unfold readLog
  dsimp only
  by_cases cut : data.length.toUInt64 < offset + log.events * Event.byteSize
  · rw [if_pos cut]
    rw [UInt64.lt_iff_toNat_lt, length, wrapped] at cut
    have outside : data.length < stop := Nat.lt_of_lt_of_le cut (Nat.mod_le ..)
    exact .inr (.inl ⟨outside, cut, rfl⟩)
  · rw [if_neg cut]
    rw [UInt64.lt_iff_toNat_lt, length, wrapped, Nat.not_lt] at cut
    by_cases none : log.events = 0
    · -- without events the end is the offset, which is a word
      rw [if_pos none]
      have here : offset.toNat = stop := by rw [← ends, none]; rfl
      rw [← here, Nat.mod_eq_of_lt bounded] at cut
      exact .inl ⟨here ▸ cut, by rw [none]; rfl⟩
    · rw [if_neg none]
      have some : 0 < log.events.toNat := by
        refine Nat.pos_of_ne_zero fun zero => none ?_
        exact UInt64.toNat.inj zero
      by_cases behind : data.length.toUInt64 ≤ offset
      · rw [if_pos behind]
        rw [UInt64.le_iff_toNat_le, length] at behind
        exact .inr (.inr ⟨by omega, cut, _, rfl⟩)
      · rw [if_neg behind, ends]
        by_cases long : data.length < stop
        · rw [if_pos long]
          exact .inr (.inr ⟨long, cut, _, rfl⟩)
        · rw [if_neg long]
          exact .inl ⟨Nat.not_lt.mp long, rfl⟩

/-- Logs behind one that lies inside the data overrun it if the whole does. -/
theorem overruns_cons_of_le {start : Nat} {log : LogHeader} {rest : List LogHeader}
    (inside : start + log.events.toNat * 16 ≤ data.length) :
    Overruns data start (log :: rest)
      ↔ Overruns data (start + log.events.toNat * 16) rest := by
  constructor
  · rintro ⟨before, last, after, split, readable, outside, wraps⟩
    cases before with
    | nil =>
      obtain ⟨rfl, rfl⟩ := List.cons.inj split
      exact absurd inside (Nat.not_le.mpr outside)
    | cons first before =>
      obtain ⟨rfl, rfl⟩ := List.cons.inj split
      refine ⟨before, last, after, rfl, ?_, outside, wraps⟩
      exact .inr (readable.resolve_left (List.cons_ne_nil _ _))
  · rintro ⟨before, last, after, rfl, readable, outside, wraps⟩
    refine ⟨log :: before, last, after, rfl, .inr ?_, outside, wraps⟩
    rcases readable with rfl | readable
    · exact inside
    · exact readable

/-- If the first log does not lie inside the data, it decides. -/
theorem overruns_cons_of_lt {start : Nat} {log : LogHeader} {rest : List LogHeader}
    (outside : data.length < start + log.events.toNat * 16) :
    Overruns data start (log :: rest)
      ↔ (start + log.events.toNat * 16) % 2 ^ 64 ≤ data.length := by
  constructor
  · rintro ⟨before, last, after, split, readable, -, wraps⟩
    cases before with
    | nil =>
      obtain ⟨rfl, rfl⟩ := List.cons.inj split
      exact wraps
    | cons first before =>
      obtain ⟨rfl, rfl⟩ := List.cons.inj split
      have fits := readable.resolve_left (List.cons_ne_nil _ _)
      exact absurd (Nat.le_trans (le_eventsStop _ before) fits) (Nat.not_le.mpr outside)
  · intro wraps
    exact ⟨[], log, rest, rfl, .inl rfl, outside, wraps⟩

/-- **Reading logs returns** unless one of them overruns the data. -/
theorem readLogs_returns_iff (small : data.length < 2 ^ 64) (offset : UInt64)
    (logs : List LogHeader) :
    Returns (readLogs data offset logs) ↔ ¬ Overruns data offset.toNat logs := by
  induction logs generalizing offset with
  | nil =>
    refine ⟨fun _ => ?_, fun _ => trivial⟩
    rintro ⟨before, log, after, split, -⟩
    exact List.append_ne_nil_of_right_ne_nil before (List.cons_ne_nil _ _) split.symm
  | cons log rest onward =>
    rw [readLogs, returns_bind]
    rcases readLog_cases small offset log rfl with
      ⟨inside, read⟩ | ⟨outside, refused, read⟩ | ⟨outside, wraps, cause, read⟩
    · -- the next offset is the end of this log, so that it has not wrapped around
      have next : (offset + log.events * Event.byteSize).toNat
          = offset.toNat + log.events.toNat * 16 := by
        simp only [UInt64.toNat_add, UInt64.toNat_mul, Event.byteSize, UInt64.reduceToNat]
        omega
      rw [overruns_cons_of_le inside, ← next, ← onward, read]
      constructor
      · rintro ⟨-, others⟩
        exact (returns_bind.mp (others _ rfl)).1
      · intro others
        refine ⟨trivial, fun _ _ => returns_bind.mpr ⟨others, fun _ _ => trivial⟩⟩
    · rw [overruns_cons_of_lt outside, read]
      refine ⟨fun _ => Nat.not_le.mpr refused, fun _ => ⟨trivial, fun _ impossible => ?_⟩⟩
      cases impossible
    · rw [overruns_cons_of_lt outside, read]
      exact ⟨fun returned => returned.1.elim, fun refused => absurd wraps refused⟩

/-! ## Whole dumps -/

/-- The size that an input declares for its header. -/
def declaredSize (data : List UInt8) : UInt64 := LittleEndian.decode ((data.drop 8).take 8)

/-- The bytes that an input declares to be its header. -/
def declaredHeader (data : List UInt8) : List UInt8 :=
  (data.drop 16).take (declaredSize data).toNat

/-- Reads a header of the declared size, and the logs that it announces. -/
def readDeclared (data : List UInt8) : Except Failure Dump :=
  match DumpHeader.read? (declaredHeader data) with
  | none => .error (.refusal .headerMalformed)
  | some header => do
    return ⟨header.session, ← readLogs data (eventsOffset (declaredSize data)) header.logs⟩

/-- Behind the preamble, reading a dump is reading its header and its logs. -/
theorem decode_of_preamble (small : data.length < 2 ^ 63) (long : 16 ≤ data.length)
    (marked : data.take 8 = magic) :
    decode data =
      if data.length < (16 + (declaredSize data).toNat) % 2 ^ 64 then
        .error (.refusal .headerTruncated)
      else if 2 ^ 64 ≤ 16 + (declaredSize data).toNat then
        .error (.abort (.partOutside preambleSize (preambleSize + declaredSize data)))
      else readDeclared data := by
  have length := toNat_toUInt64_of_lt (show data.length < 18446744073709551616 by omega)
  have bounded := (declaredSize data).toNat_lt
  have stop : (preambleSize + declaredSize data).toNat
      = (16 + (declaredSize data).toNat) % 2 ^ 64 :=
    UInt64.toNat_add ..
  have whole : ¬ data.length.toUInt64 < preambleSize := by
    rw [UInt64.lt_iff_toNat_lt, length]
    exact Nat.not_lt.mpr long
  have cut : data.length.toUInt64 < preambleSize + declaredSize data
      ↔ data.length < (16 + (declaredSize data).toNat) % 2 ^ 64 := by
    rw [UInt64.lt_iff_toNat_lt, length, stop]
  have wraps : preambleSize + declaredSize data < preambleSize
      ↔ 2 ^ 64 ≤ 16 + (declaredSize data).toNat := by
    rw [UInt64.lt_iff_toNat_lt, stop]
    simp only [preambleSize, UInt64.reduceToNat]
    omega
  have declared : LittleEndian.decode ((data.drop 8).take 8) = declaredSize data := rfl
  unfold decode
  dsimp only
  rw [if_neg whole, if_neg (not_not_intro marked), declared]
  by_cases truncated : data.length.toUInt64 < preambleSize + declaredSize data
  · rw [if_pos truncated, if_pos (cut.mp truncated)]
    rfl
  · rw [if_neg truncated, if_neg (mt cut.mpr truncated)]
    by_cases wrapped : preambleSize + declaredSize data < preambleSize
    · rw [if_pos wrapped, if_pos (wraps.mp wrapped)]
      rfl
    · rw [if_neg wrapped, if_neg (mt wraps.mpr wrapped)]
      rfl

/-- What is no dump by its first bytes is refused. -/
theorem returns_decode_of_not_preamble (small : data.length < 2 ^ 63)
    (foreign : ¬ (16 ≤ data.length ∧ data.take 8 = magic)) : Returns (decode data) := by
  have length := toNat_toUInt64_of_lt (show data.length < 18446744073709551616 by omega)
  unfold decode
  dsimp only
  by_cases short : data.length.toUInt64 < preambleSize
  · rw [if_pos short]
    trivial
  · have long : 16 ≤ data.length := by
      rw [UInt64.lt_iff_toNat_lt, length] at short
      exact Nat.not_lt.mp short
    rw [if_neg short, if_pos fun marked => foreign ⟨long, marked⟩]
    trivial

/-- Behind a header that lies in the input, the logs decide. -/
theorem returns_readDeclared_iff (small : data.length < 2 ^ 63)
    (inside : 16 + (declaredSize data).toNat ≤ data.length) :
    Returns (readDeclared data)
      ↔ ¬ ∃ header, DumpHeader.read? (declaredHeader data) = some header
        ∧ Overruns data (eventsStart (declaredSize data).toNat) header.logs := by
  have start : (eventsOffset (declaredSize data)).toNat
      = eventsStart (declaredSize data).toNat := by
    have same := toNat_eventsOffset
      (show (declaredSize data).toNat + 31 < 18446744073709551616 by omega)
    rwa [Nat.toUInt64_eq, UInt64.ofNat_toNat] at same
  rw [readDeclared]
  cases read : DumpHeader.read? (declaredHeader data) with
  | none =>
    refine ⟨?_, fun _ => trivial⟩
    rintro - ⟨header, impossible, -⟩
    cases impossible
  | some header =>
    have logs := readLogs_returns_iff (show data.length < 2 ^ 64 by omega)
      (eventsOffset (declaredSize data)) header.logs
    rw [start] at logs
    rw [returns_bind, logs]
    constructor
    · rintro ⟨fits, -⟩ ⟨other, found, overrun⟩
      cases found
      exact fits overrun
    · intro fits
      exact ⟨fun overrun => fits ⟨header, rfl, overrun⟩, fun _ _ => trivial⟩

/-- An input that starts like a dump and declares a size that wraps around into it: the size of its
header, or the number of events of a log. -/
def WrapsAround (data : List UInt8) : Prop :=
  16 ≤ data.length ∧ data.take 8 = magic
    ∧ (2 ^ 64 ≤ 16 + (declaredSize data).toNat
      ∨ 16 + (declaredSize data).toNat ≤ data.length
        ∧ ∃ header, DumpHeader.read? (declaredHeader data) = some header
          ∧ Overruns data (eventsStart (declaredSize data).toNat) header.logs)

/-- **Reading a dump returns**, with the dump or with a refusal, unless a declared size wraps around
into the input.  The length of an input is taken to be a signed word. -/
theorem decode_returns_iff (data : List UInt8) (small : data.length < 2 ^ 63) :
    Returns (decode data) ↔ ¬ WrapsAround data := by
  by_cases preamble : 16 ≤ data.length ∧ data.take 8 = magic
  · obtain ⟨long, marked⟩ := preamble
    have bounded := (declaredSize data).toNat_lt
    rw [decode_of_preamble small long marked, WrapsAround]
    simp only [long, marked, true_and]
    by_cases wrapped : 2 ^ 64 ≤ 16 + (declaredSize data).toNat
    · have passed : ¬ data.length < (16 + (declaredSize data).toNat) % 2 ^ 64 := by omega
      rw [if_neg passed, if_pos wrapped]
      exact ⟨False.elim, fun none => none (.inl wrapped)⟩
    · have plain : (16 + (declaredSize data).toNat) % 2 ^ 64 = 16 + (declaredSize data).toNat :=
        Nat.mod_eq_of_lt (Nat.not_le.mp wrapped)
      rw [if_neg wrapped, plain]
      simp only [wrapped, false_or]
      by_cases truncated : data.length < 16 + (declaredSize data).toNat
      · rw [if_pos truncated]
        exact ⟨fun _ inside => absurd inside.1 (Nat.not_le.mpr truncated), fun _ => trivial⟩
      · rw [if_neg truncated]
        have inside := Nat.not_lt.mp truncated
        rw [returns_readDeclared_iff small inside, and_iff_right inside]
  · refine ⟨fun _ wraps => preamble ⟨wraps.1, wraps.2.1⟩, fun _ => ?_⟩
    exact returns_decode_of_not_preamble small preamble

/-- A header of `2 ^ 64 - 16` bytes seems to end where the input starts. -/
def wideHeader : List UInt8 := magic ++ [0xf0, 0xff, 0xff, 0xff, 0xff, 0xff, 0xff, 0xff]

/-- A header with a log of `2 ^ 60` events, which seem to take no bytes. -/
def endlessHeader : DumpHeader := ⟨.zero, [⟨.zero, 0x1000000000000000⟩]⟩

/-- The header with one event behind it. -/
def endlessLog : List UInt8 :=
  preamble endlessHeader.write.length ++ (endlessHeader.write ++ List.replicate 30 0)

/-- The log overruns the input. -/
theorem not_returns_endlessLog : ¬ Returns (decode endlessLog) := by
  rw [decode_returns_iff endlessLog (by decide +kernel), not_not]
  refine ⟨by decide +kernel, by decide +kernel, .inr ⟨by decide +kernel, endlessHeader, ?_, ?_⟩⟩
  · decide +kernel
  · exact ⟨[], ⟨.zero, 0x1000000000000000⟩, [], rfl, .inl rfl, by decide +kernel, by decide +kernel⟩

/-- **Reading aborts** on a header and on a log whose sizes wrap around. -/
theorem decode_aborts :
    decode wideHeader = .error (.abort (.partOutside 16 0))
    ∧ decode endlessLog = .error (.abort .runTooLong) := by
  refine ⟨rfl, ?_⟩
  have read : DumpHeader.read? endlessHeader.write = some endlessHeader := by decide +kernel
  rw [endlessLog, decode_preamble read (by decide +kernel)]
  rfl

end Dump

end HeapAudit
