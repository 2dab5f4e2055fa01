import AssocCache.Proofs.Hierarchy.Visits
import AssocCache.Proofs.Store.Service

/-!
# The ledger of a hierarchy

Every demand that a level cannot answer goes on to the next level, and from the last
one to main memory.  Every dirty line that has to go is written back into the next
level, or from the last one to main memory.  In the midst of an access some of these
requests are still to be made.  `Ledger` is the invariant that knows of them, and
balances the counters of each level with those of the next.

* `Ledger.answer` and `Ledger.deposit`: one level serves one request.
* `Ledger.descend`, `Ledger.writeBack`, `Ledger.writeBackAll`: longer parts.
* `Ledger.accessLine`: an access that succeeds leaves no request open.

An access that is refused never makes some of its requests.  They stay in the ledger
(`Balanced`).
-/

namespace AssocCache

open AssocCache.Action

/-- What no step changes about a hierarchy. -/
structure Layout where
  shapes : List Geometry
  memoryLatency : Nat

/-- The number of levels. -/
def Layout.depth (layout : Layout) : Nat := layout.shapes.length

/-- The cycles that a level was charged. -/
def Level.cycles (l : Level) : Nat :=
  l.store.geometry.hitLatency * (l.tally.hits + l.tally.misses)

namespace Hierarchy

variable {h h' : Hierarchy} {l l' : Level} {level other address : Nat} {kind : AccessKind}

/-- What no step changes. -/
def layout (h : Hierarchy) : Layout where
  shapes := h.levels.map (·.store.geometry)
  memoryLatency := h.memoryLatency

/-- What is counted about a level. -/
def tallyAt (h : Hierarchy) (level : Nat) : Tally := (h.levels[level]?.map (·.tally)).getD {}

/-- What the store of a level counts about itself. -/
def storeTallyAt (h : Hierarchy) (level : Nat) : Tally :=
  (h.levels[level]?.map (·.store.stats.tally)).getD {}

/-- The demands put to a level, or to main memory below the last one. -/
def demandsAt (h : Hierarchy) (level : Nat) : Nat :=
  if level < h.levels.length then (h.tallyAt level).hits + (h.tallyAt level).misses
  else h.memoryAccesses

/-- The requests that reach a level, or main memory below the last one. -/
def requestsAt (h : Hierarchy) (level : Nat) : Nat :=
  if level < h.levels.length then (h.storeTallyAt level).hits + (h.storeTallyAt level).misses
  else h.memoryAccesses + h.memoryWritebacks

/-- The cycles charged for looking into stores. -/
def lookupCycles (h : Hierarchy) : Nat := (h.levels.map Level.cycles).sum

/-! ## Counts of single levels -/

theorem tallyAt_eq (hl : h.levels[level]? = some l) : h.tallyAt level = l.tally := by
  rw [tallyAt, hl]
  rfl

theorem storeTallyAt_eq (hl : h.levels[level]? = some l) :
    h.storeTallyAt level = l.store.stats.tally := by
  rw [storeTallyAt, hl]
  rfl

theorem tallyAt_set (hl : h.levels[level]? = some l) (hset : h'.levels = h.levels.set level l')
    (other : Nat) : h'.tallyAt other = if other = level then l'.tally else h.tallyAt other := by
  unfold tallyAt
  rw [hset]
  by_cases hother : other = level
  · rw [if_pos hother, hother, getElem?_set_levels hl]
    rfl
  · rw [if_neg hother, List.getElem?_set_ne (Ne.symm hother)]

theorem storeTallyAt_set (hl : h.levels[level]? = some l)
    (hset : h'.levels = h.levels.set level l') (other : Nat) :
    h'.storeTallyAt other =
      if other = level then l'.store.stats.tally else h.storeTallyAt other := by
  unfold storeTallyAt
  rw [hset]
  by_cases hother : other = level
  · rw [if_pos hother, hother, getElem?_set_levels hl]
    rfl
  · rw [if_neg hother, List.getElem?_set_ne (Ne.symm hother)]

/-- A step at one level, as the counters of the row show it.  The step adds to what is
counted about the level, and to what its store counts. -/
structure Counted (level : Nat) (tallied stored : Tally) (h h' : Hierarchy) : Prop where
  lt : level < h.levels.length
  layout : h'.layout = h.layout
  tally : ∀ other, h'.tallyAt other =
    if other = level then h.tallyAt level + tallied else h.tallyAt other
  storeTally : ∀ other, h'.storeTallyAt other =
    if other = level then h.storeTallyAt level + stored else h.storeTallyAt other
  memoryAccesses : h'.memoryAccesses = h.memoryAccesses
  memoryWritebacks : h'.memoryWritebacks = h.memoryWritebacks
  cycles : h'.cycles + h.lookupCycles = h.cycles + h'.lookupCycles
  fits : ∀ other, (h.tallyAt other).Fits → (h'.tallyAt other).Fits

/-- A member is exchanged for one that looks the same. -/
theorem map_set_of_eq {α β : Type} {f : α → β} {items : List α} {index : Nat} {old new : α}
    (hold : items[index]? = some old) (hsame : f new = f old) :
    (items.set index new).map f = items.map f := by
  refine List.ext_getElem? fun i => ?_
  rw [List.map_set, List.getElem?_set]
  split
  · rename_i hi
    subst hi
    rw [List.getElem?_map, hold, Option.map_some, hsame, if_pos]
    rw [List.length_map]
    exact (List.getElem?_eq_some_iff.1 hold).1
  · rfl

/-- A level is exchanged for one that has counted more. -/
theorem Counted.of_set {tallied stored : Tally} {cycles : Nat} (hl : h.levels[level]? = some l)
    (hshape : l'.store.geometry = l.store.geometry) (htally : l'.tally = l.tally + tallied)
    (hstore : l'.store.stats.tally = l.store.stats.tally + stored)
    (hcycles : cycles = h.cycles + l.store.geometry.hitLatency * (tallied.hits + tallied.misses))
    (hfits : l.tally.Fits → l'.tally.Fits) :
    Counted level tallied stored h { h with levels := h.levels.set level l', cycles } := by
  refine ⟨(List.getElem?_eq_some_iff.1 hl).1, ?_, ?_, ?_, rfl, rfl, ?_, ?_⟩
  · have hsame := map_set_of_eq (f := (·.store.geometry)) hl hshape
    show Layout.mk ((h.levels.set level l').map (·.store.geometry)) h.memoryLatency = h.layout
    rw [hsame]
    rfl
  · intro other
    rw [tallyAt_set hl rfl, tallyAt_eq hl, htally]
  · intro other
    rw [storeTallyAt_set hl rfl, storeTallyAt_eq hl, hstore]
  · have hsum := sum_map_set Level.cycles hl l'
    have hnew : l'.cycles =
        l.cycles + l.store.geometry.hitLatency * (tallied.hits + tallied.misses) := by
      rw [Level.cycles, Level.cycles, hshape, htally, Tally.hits_add, Tally.misses_add,
        ← Nat.mul_add]
      congr 1
      omega
    show cycles + (h.levels.map Level.cycles).sum =
      h.cycles + ((h.levels.set level l').map Level.cycles).sum
    omega
  · intro other hother
    rw [tallyAt_set hl rfl]
    split
    · rename_i hsame
      rw [hsame, tallyAt_eq hl] at hother
      exact hfits hother
    · exact hother

theorem length_levels (h : Hierarchy) : h.levels.length = h.layout.depth := by
  rw [Layout.depth, layout, List.length_map]

namespace Counted

variable {tallied stored : Tally}

theorem length_eq (hcounted : Counted level tallied stored h h') :
    h'.levels.length = h.levels.length := by
  rw [length_levels, length_levels, hcounted.layout]

theorem demandsAt_eq (hcounted : Counted level tallied stored h h') (other : Nat) :
    h'.demandsAt other =
      h.demandsAt other + if other = level then tallied.hits + tallied.misses else 0 := by
  have hlt := hcounted.lt
  unfold demandsAt
  rw [hcounted.length_eq, hcounted.tally, hcounted.memoryAccesses]
  by_cases hother : other = level
  · subst hother
    simp only [if_pos, hlt, Tally.hits_add, Tally.misses_add]
    omega
  · simp only [if_neg hother, Nat.add_zero]

theorem requestsAt_eq (hcounted : Counted level tallied stored h h') (other : Nat) :
    h'.requestsAt other =
      h.requestsAt other + if other = level then stored.hits + stored.misses else 0 := by
  have hlt := hcounted.lt
  unfold requestsAt
  rw [hcounted.length_eq, hcounted.storeTally, hcounted.memoryAccesses, hcounted.memoryWritebacks]
  by_cases hother : other = level
  · subst hother
    simp only [if_pos, hlt, Tally.hits_add, Tally.misses_add]
    omega
  · simp only [if_neg hother, Nat.add_zero]

/-- A count that is kept twice stays the same in both places. -/
theorem agree {f : Tally → Nat} (hadd : ∀ t u : Tally, f (t + u) = f t + f u)
    (hcounted : Counted level tallied stored h h') (hsame : other = level → f tallied = f stored)
    (hold : f (h.tallyAt other) = f (h.storeTallyAt other)) :
    f (h'.tallyAt other) = f (h'.storeTallyAt other) := by
  rw [hcounted.tally, hcounted.storeTally]
  split
  · rename_i hother
    subst hother
    rw [hadd, hadd, hold, hsame rfl]
  · exact hold

end Counted

theorem hits_add_misses (hit : Bool) : hit.toNat + (!hit).toNat = 1 := by
  cases hit <;> rfl

/-- A demand is counted twice in the same way. -/
theorem counted_of_answer {outcome : AccessOutcome} {store : Store AnyPolicy} {tally : Tally}
    (hl : h.levels[level]? = some l)
    (haccess : (Store.access address kind).step l.store = (.ok outcome, store))
    (hcount : l.tally.countAnswer outcome = .ok tally) :
    Counted level outcome.tally outcome.tally h
      { h with levels := h.levels.set level ⟨store, tally⟩,
               cycles := h.cycles + outcome.lookup.latency } := by
  obtain ⟨hshape, hlatency, hstore⟩ := Store.access_counts haccess
  obtain ⟨htally, hfits⟩ := Tally.eq_of_countAnswer (Store.evicted_of_hit haccess) hcount
  refine Counted.of_set hl hshape htally hstore ?_ hfits
  have hone : outcome.tally.hits + outcome.tally.misses = 1 := hits_add_misses outcome.hit
  rw [hlatency, hone, Nat.mul_one]

theorem counted_of_visit {outcome : AccessOutcome}
    (hstep : (visit address level kind).step h = (.ok outcome, h')) :
    Counted level outcome.tally outcome.tally h h' := by
  obtain ⟨l, store, tally, cycles, hl, haccess, hcycles, hcount, rfl⟩ := visit_eq_ok_iff.1 hstep
  rw [(Word.add_eq_ok_iff.1 hcycles).2]
  exact counted_of_answer hl haccess hcount

/-- A write-back is counted as a lookup by the store alone. -/
theorem counted_of_deposit {outcome : AccessOutcome}
    (hstep : (deposit address level).step h = (.ok outcome, h')) :
    Counted level (.ofEviction outcome.evicted) outcome.tally h h' := by
  obtain ⟨l, store, tally, hl, haccess, hcount, rfl⟩ := deposit_eq_ok_iff.1 hstep
  obtain ⟨hshape, -, hstore⟩ := Store.access_counts haccess
  obtain ⟨htally, hfits⟩ := Tally.eq_of_countGone hcount
  exact Counted.of_set hl hshape htally hstore (by simp [Tally.ofEviction]) hfits

/-! ## The ledger -/

/-- The counters of a row of levels in balance.  So many lines were demanded of the first
level.  The demands for the levels in `asked`, and the write-backs into the levels in
`pending`, are still to be made, where the depth of the row stands for main memory. -/
structure Ledger (layout : Layout) (lines : Nat) (asked pending : List Nat) (h : Hierarchy) :
    Prop where
  layout_eq : h.layout = layout
  evictions : ∀ level, (h.tallyAt level).evictions = (h.storeTallyAt level).evictions
  writebacks : ∀ level, (h.tallyAt level).writebacks = (h.storeTallyAt level).writebacks
  first_hits : (h.tallyAt 0).hits = (h.storeTallyAt 0).hits
  first_misses : (h.tallyAt 0).misses = (h.storeTallyAt 0).misses
  start : h.demandsAt 0 + asked.count 0 = lines
  demands : ∀ level, level < layout.depth →
    h.demandsAt (level + 1) + asked.count (level + 1) = (h.tallyAt level).misses
  requests : ∀ level, level < layout.depth →
    h.requestsAt (level + 1) + asked.count (level + 1) + pending.count (level + 1) =
      (h.tallyAt level).misses + (h.tallyAt level).writebacks
  cycles : h.cycles = h.lookupCycles + layout.memoryLatency * h.memoryAccesses
  fits : ∀ level, (h.tallyAt level).Fits

/-- The write-back that a departure makes due at a level. -/
def due (level : Nat) (gone : Option Eviction) : List Nat :=
  if gone.any (·.wasDirty) then [level] else []

theorem count_due (level : Nat) (gone : Option Eviction) (other : Nat) :
    (due level gone).count other =
      if other = level then (Tally.ofEviction gone).writebacks else 0 := by
  unfold due Tally.ofEviction
  cases gone.any (·.wasDirty) with
  | true =>
    rw [if_pos rfl, List.count_singleton]
    by_cases hother : other = level
    · simp [hother]
    · simp [hother, Ne.symm hother]
  | false => simp

theorem count_cons_eq (level : Nat) (levels : List Nat) (other : Nat) :
    (level :: levels).count other = levels.count other + if other = level then 1 else 0 := by
  rw [List.count_cons]
  by_cases hother : other = level
  · simp [hother]
  · simp [hother, Ne.symm hother]

variable {layout : Layout} {lines first n : Nat} {asked pending : List Nat}

namespace Ledger

theorem length_eq (hledger : Ledger layout lines asked pending h) :
    h.levels.length = layout.depth := by
  rw [length_levels, hledger.layout_eq]

/-- The order in which requests are open does not matter. -/
theorem perm {pending' : List Nat} (hledger : Ledger layout lines asked pending h)
    (hperm : pending.Perm pending') : Ledger layout lines asked pending' h :=
  { hledger with
    requests := fun level hlevel => by
      rw [← hperm.count_eq]
      exact hledger.requests level hlevel }

/-- One more line is demanded of the first level. -/
theorem demand (hledger : Ledger layout lines asked pending h) :
    Ledger layout (lines + 1) (0 :: asked) pending h := by
  have hcount : ∀ level, (0 :: asked).count (level + 1) = asked.count (level + 1) := fun level => by
    rw [count_cons_eq, if_neg (Nat.succ_ne_zero level), Nat.add_zero]
  refine { hledger with start := ?_, demands := fun level hlevel => ?_,
                        requests := fun level hlevel => ?_ }
  · rw [count_cons_eq, if_pos rfl, ← Nat.add_assoc, hledger.start]
  · rw [hcount]
    exact hledger.demands level hlevel
  · rw [hcount]
    exact hledger.requests level hlevel

/-- A step at one level serves requests that were open there, and opens requests at the
next level. -/
theorem of_counted {tallied stored : Tally} {asked' pending' : List Nat}
    (hledger : Ledger layout lines asked pending h) (hcounted : Counted level tallied stored h h')
    (hevictions : tallied.evictions = stored.evictions)
    (hwritebacks : tallied.writebacks = stored.writebacks)
    (hfirst : level = 0 → tallied.hits = stored.hits ∧ tallied.misses = stored.misses)
    (hasked : ∀ other, asked'.count other + (if other = level then tallied.hits + tallied.misses
      else 0) = asked.count other + if other = level + 1 then tallied.misses else 0)
    (hpending : ∀ other, asked'.count other + pending'.count other +
        (if other = level then stored.hits + stored.misses else 0) =
      asked.count other + pending.count other +
        if other = level + 1 then tallied.misses + tallied.writebacks else 0) :
    Ledger layout lines asked' pending' h' where
  layout_eq := hcounted.layout.trans hledger.layout_eq
  evictions other := hcounted.agree Tally.evictions_add (fun _ => hevictions)
    (hledger.evictions other)
  writebacks other := hcounted.agree Tally.writebacks_add (fun _ => hwritebacks)
    (hledger.writebacks other)
  first_hits := hcounted.agree Tally.hits_add (fun h => (hfirst h.symm).1) hledger.first_hits
  first_misses := hcounted.agree Tally.misses_add (fun h => (hfirst h.symm).2) hledger.first_misses
  start := by
    have hold := hledger.start
    have hmoved := hasked 0
    rw [if_neg (Nat.succ_ne_zero level).symm] at hmoved
    rw [hcounted.demandsAt_eq]
    omega
  demands other hother := by
    have hold := hledger.demands other hother
    have hmoved := hasked (other + 1)
    rw [hcounted.demandsAt_eq, hcounted.tally]
    by_cases hsame : other = level
    · subst hsame
      simp only [if_pos, Tally.misses_add] at hmoved ⊢
      omega
    · rw [if_neg (fun h => hsame (Nat.succ.inj h))] at hmoved
      rw [if_neg hsame]
      omega
  requests other hother := by
    have hold := hledger.requests other hother
    have hmoved := hpending (other + 1)
    rw [hcounted.requestsAt_eq, hcounted.tally]
    by_cases hsame : other = level
    · subst hsame
      simp only [if_pos, Tally.misses_add, Tally.writebacks_add] at hmoved ⊢
      omega
    · rw [if_neg (fun h => hsame (Nat.succ.inj h))] at hmoved
      rw [if_neg hsame]
      omega
  cycles := by
    have hold := hledger.cycles
    have hcharged := hcounted.cycles
    rw [hcounted.memoryAccesses]
    omega
  fits other := hcounted.fits other (hledger.fits other)

/-- A level answers a demand, or passes it on to the next one. -/
theorem answer (hledger : Ledger layout lines (level :: asked) pending h)
    {outcome : AccessOutcome} (hcounted : Counted level outcome.tally outcome.tally h h') :
    Ledger layout lines (if outcome.hit then asked else (level + 1) :: asked)
      (due (level + 1) outcome.evicted ++ pending) h' := by
  have hone : outcome.tally.hits + outcome.tally.misses = 1 := hits_add_misses outcome.hit
  have hwritebacks : (Tally.ofEviction outcome.evicted).writebacks = outcome.tally.writebacks :=
    (Nat.zero_add _).symm
  have hpassed : ∀ other, (if outcome.hit then asked else (level + 1) :: asked).count other =
      asked.count other + if other = level + 1 then outcome.tally.misses else 0 := by
    intro other
    show _ = _ + if other = level + 1 then (!outcome.hit).toNat else 0
    cases outcome.hit <;> simp [count_cons_eq]
  refine hledger.of_counted hcounted rfl rfl (fun _ => ⟨rfl, rfl⟩) ?_ ?_
  · intro other
    rw [hpassed, count_cons_eq, hone]
    omega
  · intro other
    rw [hpassed, count_cons_eq, List.count_append, count_due, hone, hwritebacks]
    split_ifs <;> omega

/-- A level takes a line that is written back. -/
theorem deposit (hledger : Ledger layout lines asked (level :: pending) h) (hpos : 0 < level)
    {outcome : AccessOutcome}
    (hstep : (Hierarchy.deposit address level).step h = (.ok outcome, h')) :
    Ledger layout lines asked (due (level + 1) outcome.evicted ++ pending) h' := by
  have hcounted := counted_of_deposit hstep
  have hone : outcome.tally.hits + outcome.tally.misses = 1 := hits_add_misses outcome.hit
  have hnone : (Tally.ofEviction outcome.evicted).hits = 0 ∧
      (Tally.ofEviction outcome.evicted).misses = 0 := ⟨rfl, rfl⟩
  refine hledger.of_counted hcounted ?_ ?_ (fun hzero => absurd hzero hpos.ne') ?_ ?_
  · exact (Nat.zero_add _).symm
  · exact (Nat.zero_add _).symm
  · intro other
    rw [hnone.1, hnone.2, ite_self, ite_self]
  · intro other
    rw [List.count_append, count_due, count_cons_eq, hone, hnone.2]
    split_ifs <;> omega

/-- Main memory serves requests that were open there. -/
theorem of_memory {asked' pending' : List Nat}
    (hledger : Ledger layout lines asked pending h) (served taken : Nat) (hlevels : h'.levels = h.levels)
    (hlatency : h'.memoryLatency = h.memoryLatency)
    (haccesses : h'.memoryAccesses = h.memoryAccesses + served)
    (hwritebacks : h'.memoryWritebacks = h.memoryWritebacks + taken)
    (hcycles : h'.cycles = h.cycles + h.memoryLatency * served)
    (hasked : ∀ other, asked'.count other + (if other = layout.depth then served else 0) =
      asked.count other)
    (hpending : ∀ other, pending'.count other + (if other = layout.depth then taken else 0) =
      pending.count other) : Ledger layout lines asked' pending' h' := by
  have htally : ∀ other, h'.tallyAt other = h.tallyAt other := fun other => by
    rw [tallyAt, tallyAt, hlevels]
  have hstore : ∀ other, h'.storeTallyAt other = h.storeTallyAt other := fun other => by
    rw [storeTallyAt, storeTallyAt, hlevels]
  have hlength : h'.levels.length = h.levels.length := by rw [hlevels]
  have hdemands : ∀ other, other ≤ layout.depth → h'.demandsAt other =
      h.demandsAt other + if other = layout.depth then served else 0 := by
    intro other hother
    rw [demandsAt, demandsAt, hlength, hledger.length_eq, htally, haccesses]
    split_ifs <;> omega
  have hrequests : ∀ other, other ≤ layout.depth → h'.requestsAt other =
      h.requestsAt other + if other = layout.depth then served + taken else 0 := by
    intro other hother
    rw [requestsAt, requestsAt, hlength, hledger.length_eq, hstore, haccesses, hwritebacks]
    split_ifs <;> omega
  refine ⟨?_, ?_, ?_, ?_, ?_, ?_, ?_, ?_, ?_, ?_⟩
  · rw [← hledger.layout_eq, Hierarchy.layout, Hierarchy.layout, hlevels, hlatency]
  · intro other
    rw [htally, hstore]
    exact hledger.evictions other
  · intro other
    rw [htally, hstore]
    exact hledger.writebacks other
  · rw [htally, hstore]
    exact hledger.first_hits
  · rw [htally, hstore]
    exact hledger.first_misses
  · have hold := hledger.start
    have hmoved := hasked 0
    rw [hdemands 0 (Nat.zero_le _)]
    omega
  · intro other hother
    have hold := hledger.demands other hother
    have hmoved := hasked (other + 1)
    rw [hdemands (other + 1) hother, htally]
    omega
  · intro other hother
    have hold := hledger.requests other hother
    have hmoved := hasked (other + 1)
    have hmoved' := hpending (other + 1)
    rw [hrequests (other + 1) hother, htally]
    split_ifs at hmoved hmoved' ⊢ <;> omega
  · have hlatency' : h.memoryLatency = layout.memoryLatency := by
      rw [← hledger.layout_eq]
      rfl
    rw [hcycles, haccesses, lookupCycles, hlevels, ← lookupCycles, hledger.cycles, hlatency',
      Nat.mul_add, Nat.add_assoc]
  · intro other
    rw [htally]
    exact hledger.fits other

/-- Main memory serves a line. -/
theorem serveMemory (hledger : Ledger layout lines (layout.depth :: asked) pending h) :
    Ledger layout lines asked pending
      { h with memoryAccesses := h.memoryAccesses + 1, cycles := h.cycles + h.memoryLatency } := by
  refine hledger.of_memory 1 0 rfl rfl rfl rfl ?_ ?_ ?_
  · rw [Nat.mul_one]
  · intro other
    rw [count_cons_eq]
  · intro other
    rw [ite_self, Nat.add_zero]

/-- Main memory takes a line that is written back. -/
theorem writeMemory (hledger : Ledger layout lines asked (layout.depth :: pending) h) :
    Ledger layout lines asked pending { h with memoryWritebacks := h.memoryWritebacks + 1 } := by
  refine hledger.of_memory 0 1 rfl rfl rfl rfl ?_ ?_ ?_
  · rw [Nat.mul_zero]
    rfl
  · intro other
    rw [ite_self, Nat.add_zero]
  · intro other
    rw [count_cons_eq]

theorem countMemoryAccess (hledger : Ledger layout lines (layout.depth :: asked) pending h)
    (hstep : Hierarchy.countMemoryAccess.step h = (.ok (), h')) :
    Ledger layout lines asked pending h' := by
  obtain ⟨accesses, cycles, haccesses, hcycles, rfl⟩ := countMemoryAccess_eq_ok_iff.1 hstep
  rw [(Word.add_eq_ok_iff.1 haccesses).2, (Word.add_eq_ok_iff.1 hcycles).2]
  exact hledger.serveMemory

theorem countMemoryWriteback (hledger : Ledger layout lines asked (layout.depth :: pending) h)
    (hstep : Hierarchy.countMemoryWriteback.step h = (.ok (), h')) :
    Ledger layout lines asked pending h' := by
  obtain ⟨writebacks, hwritebacks, rfl⟩ := countMemoryWriteback_eq_ok_iff.1 hstep
  rw [(Word.add_eq_ok_iff.1 hwritebacks).2]
  exact hledger.writeMemory

end Ledger

/-! ## Parts of an access -/

theorem map_level_transfer? (level : Nat) (gone : Option Eviction) :
    (transfer? level gone).toList.map Transfer.level = due level gone := by
  cases gone with
  | none => rfl
  | some evicted =>
    cases hdirty : evicted.wasDirty with
    | true => simp [transfer?, due, Option.filter, hdirty]
    | false => simp [transfer?, due, Option.filter, hdirty]

/-- The counters balance, though some requests may never be made. -/
def Balanced (layout : Layout) (h : Hierarchy) : Prop :=
  ∃ lines asked pending, layout.depth ∉ asked ∧ Ledger layout lines asked pending h

theorem Ledger.balanced (hledger : Ledger layout lines asked pending h)
    (hasked : layout.depth ∉ asked) : Balanced layout h :=
  ⟨lines, asked, pending, hasked, hledger⟩

/-- A demand goes down the row, by induction on the levels that are left. -/
theorem Ledger.descend (hledger : Ledger layout lines (first :: asked) pending h)
    (hfirst : first ≤ layout.depth) (hasked : layout.depth ∉ asked) :
    Ends (Hierarchy.descend address (route layout.depth first) kind) h
      (fun descent h' => ∃ transfers : List Transfer,
        descent.victims = transfers.map (Transfer.victim layout.depth) ∧
        (∀ transfer ∈ transfers, 0 < transfer.level ∧ transfer.level ≤ layout.depth) ∧
        Ledger layout lines (if descent.served then asked else layout.depth :: asked)
          (transfers.map Transfer.level ++ pending) h')
      (Failure.Spares (Balanced layout)) := by
  induction hleft : layout.depth - first generalizing first kind pending h with
  | zero =>
    obtain rfl : first = layout.depth := by omega
    rw [route_self]
    exact ⟨[], rfl, by simp, hledger⟩
  | succ left ih =>
    have hlt : first < layout.depth := by omega
    have hopen : layout.depth ∉ first :: asked := by
      rw [List.mem_cons]
      rintro (rfl | hmem)
      · exact Nat.lt_irrefl _ hlt
      · exact hasked hmem
    rw [route_of_lt hlt]
    refine Ends.of_step_eq ?_ (step_descend_cons h)
    refine ends_bind.2 (ends_visit (fun outcome h₁ hvisit => ?_) (hledger.balanced hopen))
    have hledger₁ := hledger.answer (counted_of_visit hvisit)
    cases hhit : outcome.hit with
    | true =>
      rw [hhit, if_pos rfl, evicted_of_visit hvisit hhit] at hledger₁
      exact ⟨[], rfl, by simp, hledger₁⟩
    | false =>
      rw [hhit, if_neg Bool.false_ne_true] at hledger₁
      rw [if_neg Bool.false_ne_true]
      refine (ih hledger₁ hlt (by omega)).bind ?_
      rintro rest h₂ ⟨transfers, hvictims, hbounds, hledger₂⟩
      refine ⟨(transfer? (first + 1) outcome.evicted).toList ++ transfers, ?_, ?_, ?_⟩
      · dsimp only
        rw [hvictims, victim?_route, List.map_append, Option.toList_map]
      · intro transfer htransfer
        rcases List.mem_append.1 htransfer with hnew | hlater
        · rw [level_of_transfer? (Option.mem_toList.1 hnew)]
          exact ⟨Nat.succ_pos first, hlt⟩
        · exact hbounds transfer hlater
      · rw [List.map_append, map_level_transfer?, List.append_assoc]
        refine hledger₂.perm ?_
        rw [← List.append_assoc, ← List.append_assoc]
        exact List.perm_append_comm.append_right pending

/-- A line is written back, by induction on the levels that are left. -/
theorem Ledger.writeBack (hledger : Ledger layout lines asked (first :: pending) h)
    (hpos : 0 < first) (hfirst : first ≤ layout.depth) (hasked : layout.depth ∉ asked) :
    Ends (Hierarchy.writeBack (route layout.depth first) address) h
      (fun _ => Ledger layout lines asked pending) (Failure.Spares (Balanced layout)) := by
  induction hleft : layout.depth - first generalizing first address h with
  | zero =>
    obtain rfl : first = layout.depth := by omega
    rw [route_self, Hierarchy.writeBack]
    refine ends_bind.2 (ends_countMemoryWriteback fun _ h₁ hcount => ?_)
    exact hledger.countMemoryWriteback hcount
  | succ left ih =>
    have hlt : first < layout.depth := by omega
    rw [route_of_lt hlt]
    refine Ends.of_step_eq ?_ (step_writeBack_cons h)
    refine ends_bind.2 (ends_deposit (fun outcome h₁ hdeposit => ?_) (hledger.balanced hasked))
    have hledger₁ := hledger.deposit hpos hdeposit
    rw [victim?_route]
    rw [← map_level_transfer?] at hledger₁
    cases htransfer : transfer? (first + 1) outcome.evicted with
    | none =>
      rw [htransfer] at hledger₁
      exact hledger₁
    | some transfer =>
      rw [htransfer] at hledger₁
      have hlevel := level_of_transfer? htransfer
      show Ends (Hierarchy.writeBack (route layout.depth (first + 1)) transfer.address) h₁ _ _
      rw [← hlevel]
      exact ih hledger₁ (by omega) (by omega) (by omega)

theorem Ledger.writeBackAll {transfers : List Transfer}
    (hledger : Ledger layout lines asked (transfers.map Transfer.level ++ pending) h)
    (hbounds : ∀ transfer ∈ transfers, 0 < transfer.level ∧ transfer.level ≤ layout.depth)
    (hasked : layout.depth ∉ asked) :
    Ends (Hierarchy.writeBackAll (transfers.map (Transfer.victim layout.depth))) h
      (fun _ => Ledger layout lines asked pending) (Failure.Spares (Balanced layout)) := by
  induction transfers generalizing h with
  | nil => exact hledger
  | cons transfer transfers ih =>
    obtain ⟨hpos, hle⟩ := hbounds transfer List.mem_cons_self
    rw [List.map_cons, Hierarchy.writeBackAll]
    refine (hledger.writeBack hpos hle hasked).bind fun first h₁ hledger₁ => ?_
    have hrest := ih hledger₁ fun other hother => hbounds other (List.mem_cons_of_mem _ hother)
    exact hrest.bind fun _ _ hledger₂ => hledger₂

/-- An access that succeeds leaves no request open. -/
theorem Ledger.accessLine (hledger : Ledger layout lines asked pending h)
    (hasked : layout.depth ∉ asked) :
    Ends (Hierarchy.accessLine address kind) h
      (fun _ => Ledger layout (lines + 1) asked pending) (Failure.Spares (Balanced layout)) := by
  have hdemand := hledger.demand
  unfold Hierarchy.accessLine
  refine ends_bind.2 ?_
  show Ends (Hierarchy.descend address (List.range h.levels.length) kind >>= _) h _ _
  rw [hledger.length_eq, range_eq_route]
  refine (hdemand.descend (Nat.zero_le _) hasked).bind ?_
  rintro ⟨served, victims⟩ h₁ ⟨transfers, rfl, hbounds, hledger₁⟩
  cases served with
  | true => exact hledger₁.writeBackAll hbounds hasked
  | false =>
    refine ends_bind.2 (ends_countMemoryAccess fun _ h₂ hcount => ?_)
    exact (hledger₁.countMemoryAccess hcount).writeBackAll hbounds hasked

end Hierarchy

end AssocCache
