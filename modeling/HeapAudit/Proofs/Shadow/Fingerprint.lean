import HeapAudit.Proofs.Bytes.LittleEndian
import HeapAudit.Proofs.Shadow.Catalog
import HeapAudit.Shadow.Digest

/-!
# What the fingerprint of a table is taken of

The fingerprint is the hash of a row of words, eight bytes each (`Table.digestBytes`).  A node is three
words and an edge is two, and nothing in the row says how many edges a node has.  A reader who has come
to the end of an edge or of the head of a node has to tell from the next word alone what it begins, an
edge or a node.

He can if offsets are below addresses, in the table at hand and in the one it is compared with.  Then
the row has one reading: edges are read up to the first word that is no offset
(`Table.edges_prefix_unique`) and nodes up to the end of the row (`Table.nodes_prefix_unique`).  If
offsets may be above addresses, then three edges may read as two nodes.

In the other direction, the row is written in the order of addresses and offsets and so depends on
what a table holds alone, not on how the table came to it (`Table.digest_input_identifies`).
-/

namespace HeapAudit

set_option autoImplicit false

namespace Table

/-- The bytes that are hashed. -/
def digestBytes (table : Table) : List UInt8 := table.digestWords.flatMap LittleEndian.encode

theorem digest_eq_hash (table : Table) :
    table.digest = XxHash64.hash 0 (LittleEndian.words table.digestBytes) := by
  rw [digestBytes, LittleEndian.words_flatMap_encode, digest]

/-! ## Reading the words back -/

section Reading

variable {IsOffset : UInt64 → Prop}

/-- **Edges have one reading** in front of a word that is no offset. -/
theorem edges_prefix_unique {edges others : List (UInt64 × UInt64)} {rest remainder : List UInt64}
    (offsets : ∀ edge ∈ edges, IsOffset edge.1) (otherOffsets : ∀ edge ∈ others, IsOffset edge.1)
    (stops : ∀ word ∈ rest.head?, ¬ IsOffset word)
    (otherStops : ∀ word ∈ remainder.head?, ¬ IsOffset word)
    (same : edges.flatMap (fun edge => [edge.1, edge.2]) ++ rest
      = others.flatMap (fun edge => [edge.1, edge.2]) ++ remainder) :
    edges = others ∧ rest = remainder := by
  induction edges generalizing others with
  | nil =>
    cases others with
    | nil => exact ⟨rfl, same⟩
    | cons other others =>
      -- what one reader takes for the end is the offset of an edge for the other one
      have head : rest.head? = some other.1 := by rw [show rest = _ from same]; rfl
      exact absurd (otherOffsets other List.mem_cons_self) (stops other.1 head)
  | cons edge edges onward =>
    cases others with
    | nil =>
      have head : remainder.head? = some edge.1 := by rw [show remainder = _ from same.symm]; rfl
      exact absurd (offsets edge List.mem_cons_self) (otherStops edge.1 head)
    | cons other others =>
      simp only [List.flatMap_cons, List.cons_append, List.nil_append, List.cons.injEq] at same
      obtain ⟨offset, value, same⟩ := same
      obtain ⟨rfl, left⟩ := onward (fun later member => offsets later (List.mem_cons_of_mem _ member))
        (fun later member => otherOffsets later (List.mem_cons_of_mem _ member)) same
      exact ⟨by rw [Prod.ext offset value], left⟩

/-- Nodes of which every offset of an edge can be told from every address. -/
def Legible (IsOffset : UInt64 → Prop) (entries : List (UInt64 × Node)) : Prop :=
  ∀ entry ∈ entries, ¬ IsOffset entry.1 ∧ ∀ edge ∈ entry.2.edges.entries, IsOffset edge.1

theorem Legible.tail {entry : UInt64 × Node} {entries : List (UInt64 × Node)}
    (legible : Legible IsOffset (entry :: entries)) : Legible IsOffset entries :=
  fun later member => legible later (List.mem_cons_of_mem _ member)

/-- The words of nodes begin with an address, if there are any. -/
theorem Legible.stops {entries : List (UInt64 × Node)} (legible : Legible IsOffset entries) :
    ∀ word ∈ (entries.flatMap fun entry => nodeWords entry.1 entry.2).head?, ¬ IsOffset word := by
  intro word first
  cases entries with
  | nil => cases first
  | cons entry rest =>
    cases first
    exact (legible entry List.mem_cons_self).1

/-- **Nodes have one reading.** -/
theorem nodes_prefix_unique {entries others : List (UInt64 × Node)}
    (legible : Legible IsOffset entries) (otherLegible : Legible IsOffset others)
    (same : entries.flatMap (fun entry => nodeWords entry.1 entry.2)
      = others.flatMap (fun entry => nodeWords entry.1 entry.2)) : entries = others := by
  induction entries generalizing others with
  | nil =>
    cases others with
    | nil => rfl
    | cons other others => cases same
  | cons entry entries onward =>
    cases others with
    | nil => cases same
    | cons other others =>
      obtain ⟨address, kind, size, edges⟩ := entry
      obtain ⟨address', kind', size', edges'⟩ := other
      simp only [List.flatMap_cons, nodeWords, List.cons_append, List.nil_append,
        List.cons.injEq] at same
      obtain ⟨rfl, rfl, code, same⟩ := same
      obtain ⟨listed, same⟩ := edges_prefix_unique (legible _ List.mem_cons_self).2
        (otherLegible _ List.mem_cons_self).2 legible.tail.stops otherLegible.tail.stops same
      have sameKind : kind = kind' := by rw [← Kind.ofCode_code kind, code, Kind.ofCode_code]
      have sameEdges : edges = edges' := WordMap.ext_entries listed
      rw [sameEdges, sameKind, onward legible.tail otherLegible.tail same]

end Reading

/-! ## Tables and their bytes -/

/-- Every offset of an edge, in one of two tables, is below every address of a node in one of
them. -/
def OffsetsBelow (table other : Table) : Prop :=
  ∀ slot ∈ table.edgeSlots ++ other.edgeSlots,
    ∀ address ∈ table.nodes.keys ++ other.nodes.keys, slot.2 < address

instance (table other : Table) : Decidable (table.OffsetsBelow other) :=
  -- over the members of the two lists; that there are finitely many words is no way to decide it
  haveI (slot : UInt64 × UInt64) :=
    List.decidableBAll (slot.2 < ·) (table.nodes.keys ++ other.nodes.keys)
  List.decidableBAll _ (table.edgeSlots ++ other.edgeSlots)

/-- A word below all addresses of two tables can be an offset and is no address. -/
theorem legible_entries {table : Table} {addresses : List UInt64}
    (known : ∀ address ∈ table.nodes.keys, address ∈ addresses)
    (below : ∀ slot ∈ table.edgeSlots, ∀ address ∈ addresses, slot.2 < address) :
    Legible (fun word => ∀ address ∈ addresses, word < address) table.nodes.entries := by
  rintro ⟨address, node⟩ listed
  refine ⟨fun isOffset => ?_, fun edge member => ?_⟩
  · have member : address ∈ table.nodes.keys := List.mem_map.mpr ⟨_, listed, rfl⟩
    exact UInt64.lt_irrefl address (isOffset address (known address member))
  · refine below (address, edge.1) ?_
    exact List.mem_flatMap.mpr ⟨_, listed, List.mem_map.mpr
      ⟨edge.1, List.mem_map.mpr ⟨edge, member, rfl⟩, rfl⟩⟩

theorem profile_injective : Function.Injective Node.profile := by
  rintro ⟨kind, size, edges⟩ ⟨kind', size', edges'⟩ same
  obtain ⟨rfl, rfl, values⟩ := Profile.mk.inj same
  have sameEdges : edges = edges' := WordMap.ext_find? fun offset => congrFun values offset
  rw [sameEdges]

/-- A table without what it counts is known by its catalog. -/
theorem catalog_eq_iff {table other : Table} :
    table.catalog = other.catalog ↔ table.nodes = other.nodes := by
  constructor
  · intro same
    refine WordMap.ext_find? fun address => ?_
    exact Option.map_injective profile_injective (congrFun same address)
  · intro same
    funext address
    rw [catalog, catalog, find?, find?, same]

/-- **Equal bytes, equal tables**, as far as offsets are below addresses. -/
theorem catalog_eq_of_digestBytes_eq {table other : Table} (below : table.OffsetsBelow other)
    (same : table.digestBytes = other.digestBytes) : table.catalog = other.catalog := by
  have words : table.digestWords = other.digestWords := by
    have read := congrArg LittleEndian.words same
    rwa [digestBytes, digestBytes, LittleEndian.words_flatMap_encode,
      LittleEndian.words_flatMap_encode] at read
  have legible := legible_entries (fun address => List.mem_append_left other.nodes.keys)
    fun slot member => below slot (List.mem_append_left _ member)
  have otherLegible := legible_entries (fun address => List.mem_append_right table.nodes.keys)
    fun slot member => below slot (List.mem_append_right _ member)
  exact catalog_eq_iff.mpr (WordMap.ext_entries (nodes_prefix_unique legible otherLegible words))

/-- **Equal tables, equal bytes.** -/
theorem digestBytes_eq_of_catalog_eq {table other : Table} (same : table.catalog = other.catalog) :
    table.digestBytes = other.digestBytes := by
  rw [digestBytes, digestBytes, digestWords, digestWords, catalog_eq_iff.mp same]

/-- **The bytes that are hashed identify a table.**  If all offsets are below all addresses, in both of
two tables, then equal bytes mean that the tables have the same objects at the same addresses, with
equal kinds, sizes and references.  Conversely, tables that hold the same have the same bytes and so
the same fingerprint, and it does not matter by which requests they came to it: two sequences of
requests that make the same of a plain map without objects lead new tables to the same bytes. -/
theorem digest_input_identifies (table other : Table) :
    (table.OffsetsBelow other → table.digestBytes = other.digestBytes →
      table.catalog = other.catalog)
    ∧ (table.catalog = other.catalog →
      table.digestBytes = other.digestBytes ∧ table.digest = other.digest)
    ∧ ∀ base second requests others,
      (Catalog.performAll (fun _ => none) requests).2
        = (Catalog.performAll (fun _ => none) others).2 →
      ((empty base).performAll requests).2.digestBytes
        = ((empty second).performAll others).2.digestBytes := by
  refine ⟨catalog_eq_of_digestBytes_eq, fun same => ?_, fun base second requests others same => ?_⟩
  · have bytes := digestBytes_eq_of_catalog_eq same
    exact ⟨bytes, by rw [digest_eq_hash, digest_eq_hash, bytes]⟩
  · apply digestBytes_eq_of_catalog_eq
    rw [((empty base).performAll_refines requests).2, ((empty second).performAll_refines others).2,
      catalog_empty, catalog_empty, same]

/-- An object with two references and an array. -/
def direct : List Request :=
  [.insert 0x1000 .newObject 3, .setField 0x1000 16 0x2000, .setField 0x1000 0 0x3000,
    .insert 0x2000 .newArray 1]

/-- The same, with an object that is moved onto another one and with a change of mind. -/
def devious : List Request :=
  [.insert 0x1000 .newArray 7, .insert 0x2000 .newArray 1, .insert 0x4000 .newObject 3,
    .setField 0x4000 0 0x5000, .setField 0x4000 16 0x2000, .relocate 0x4000 0x1000,
    .setField 0x1000 0 0x3000]

/-- The two come to the same bytes and so to the same objects. -/
theorem digest_input_identifies_devious :
    let table := ((empty 16).performAll direct).2
    let other := ((empty 8).performAll devious).2
    table.OffsetsBelow other ∧ table.digestBytes = other.digestBytes ∧ table.free ≠ other.free
      ∧ table.catalog = other.catalog := by
  intro table other
  have below : table.OffsetsBelow other := by decide +kernel
  have bytes : table.digestBytes = other.digestBytes := by decide +kernel
  exact ⟨below, bytes, by decide +kernel, (digest_input_identifies table other).1 below bytes⟩

-- An object with three references and, with offsets that read as addresses, three without any.
example :
    ((empty 16).performAll [.insert 1 .newObject 2, .setField 1 8 2, .setField 1 16 24,
      .setField 1 32 1]).2.digestWords
    = ((empty 16).performAll [.insert 1 .newObject 2, .insert 8 .copyNewArrayOfSameLength 2,
      .insert 24 .newObject 32]).2.digestWords := by
  decide +kernel

end Table

end HeapAudit
