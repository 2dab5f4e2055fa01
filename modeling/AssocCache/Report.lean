import AssocCache.Hierarchy
import AssocCache.Json.Reader

/-!
# Reports

What a simulation hands over at its end: the counts of main memory, the cycles,
and the counts of each store under its name.  A report and the statistics of a
store have a JSON form that can be written and read again.
-/

namespace AssocCache

open Json

/-- The counts of one store of a hierarchy. -/
structure CacheReport where
  name : String
  tally : Tally
  deriving DecidableEq, Repr

/-- The counts of a hierarchy. -/
structure Report where
  memoryAccesses : Nat
  memoryWritebacks : Nat
  cycles : Nat
  caches : List CacheReport
  deriving DecidableEq, Repr

/-- What a hierarchy has to report. -/
def Hierarchy.report (h : Hierarchy) : Report where
  memoryAccesses := h.memoryAccesses
  memoryWritebacks := h.memoryWritebacks
  cycles := h.cycles
  caches := h.levels.map fun level => ⟨level.store.name, level.tally⟩

/-! ## Writing -/

/-- The JSON form of the counts of a store of a hierarchy. -/
def CacheReport.toJson (r : CacheReport) : Json :=
  .record [("name", .ofString r.name), ("hits", .natural r.tally.hits),
    ("misses", .natural r.tally.misses), ("evictions", .natural r.tally.evictions),
    ("writebacks", .natural r.tally.writebacks)]

/-- The JSON form of a report. -/
def Report.toJson (r : Report) : Json :=
  .record [("main_memory_accesses", .natural r.memoryAccesses),
    ("main_memory_writebacks", .natural r.memoryWritebacks), ("cycles", .natural r.cycles),
    ("caches", .ofList CacheReport.toJson r.caches)]

/-- The JSON form of the statistics of a store. -/
def Stats.toJson (s : Stats) : Json :=
  .record [("hits", .natural s.hits), ("misses", .natural s.misses),
    ("evictions", .natural s.evictions), ("writebacks", .natural s.writebacks),
    ("occupancy", .natural s.occupancy)]

/-! ## Reading -/

/-- A counter, which is a word of 64 bits. -/
def counter? : Json → Option Nat := naturalBelow? (2 ^ (64 : Nat))

/-- Reads the counts of a store of a hierarchy. -/
def CacheReport.ofJson? (value : Json) : Option CacheReport := do
  let names : List FieldName :=
    [⟨"name", []⟩, ⟨"hits", []⟩, ⟨"misses", []⟩, ⟨"evictions", []⟩, ⟨"writebacks", []⟩]
  let fields ← fields? names value
  pure {
    name := ← fields.required "name" text?
    tally := {
      hits := ← fields.required "hits" counter?
      misses := ← fields.required "misses" counter?
      evictions := ← fields.required "evictions" counter?
      writebacks := ← fields.required "writebacks" counter? } }

/-- Reads a report. -/
def Report.ofJson? (value : Json) : Option Report := do
  let names : List FieldName :=
    [⟨"main_memory_accesses", []⟩, ⟨"main_memory_writebacks", []⟩, ⟨"cycles", []⟩,
      ⟨"caches", []⟩]
  let fields ← fields? names value
  pure {
    memoryAccesses := ← fields.required "main_memory_accesses" counter?
    memoryWritebacks := ← fields.required "main_memory_writebacks" counter?
    cycles := ← fields.required "cycles" counter?
    caches := ← fields.required "caches" (list? CacheReport.ofJson?) }

/-- Reads the statistics of a store. -/
def Stats.ofJson? (value : Json) : Option Stats := do
  let names : List FieldName :=
    [⟨"hits", []⟩, ⟨"misses", []⟩, ⟨"evictions", []⟩, ⟨"writebacks", []⟩, ⟨"occupancy", []⟩]
  let fields ← fields? names value
  pure {
    hits := ← fields.required "hits" counter?
    misses := ← fields.required "misses" counter?
    evictions := ← fields.required "evictions" counter?
    writebacks := ← fields.required "writebacks" counter?
    occupancy := ← fields.required "occupancy" counter? }

end AssocCache
