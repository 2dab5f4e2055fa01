import AssocCache.Proofs.Hierarchy.Conservation
import AssocCache.Proofs.Hierarchy.Demands
import AssocCache.Proofs.Store.Service

/-!
# Hierarchies with room

A hierarchy has room for some steps if none of its counters leaves its range within them,
in the stores and out of them (`Hierarchy.Ready`).  Each step of an access uses up one step
of the room: a demand put to a level, a line written back into a level, a line served by main
memory and a line written to it.

An access to a line asks each level at most once.  Each level may let a line go that passes
all levels below, so `(depth + 1) ^ 2` steps are enough (`Ready.accessLine`).  A hierarchy
with room for its lines serves them or refuses one of them (`Ready.serveDemands`), and a new
one has room for as many steps as 32 bits can count, unless they are too expensive for the
cycles (`ready_of_ofConfig`).
-/

namespace AssocCache

open Success

/-- The failure is a refusal. -/
def Failure.IsRefusal (failure : Failure) : Prop := ∃ refusal, failure = .refused refusal

/-! ## Tallies -/

/-- No counter leaves its width before some more events. -/
structure Tally.Roomy (spare : Nat) (t : Tally) : Prop where
  hits_lt : t.hits + spare < 2 ^ 64
  misses_lt : t.misses + spare < 2 ^ 64
  evictions_lt : t.evictions + spare < 2 ^ 64
  writebacks_lt : t.writebacks + spare < 2 ^ 64

namespace Tally

variable {spare : Nat} {t : Tally} {outcome : AccessOutcome}

theorem Roomy.weaken (h : t.Roomy (spare + 1)) : t.Roomy spare := by
  obtain ⟨hhits, hmisses, hevictions, hwritebacks⟩ := h
  exact ⟨by omega, by omega, by omega, by omega⟩

theorem countGone_ok (hevictions : t.evictions + 1 < 2 ^ 64) (hwritebacks : t.writebacks + 1 < 2 ^ 64)
    (gone : Option Eviction) : t.countGone gone = .ok (t + .ofEviction gone) := by
  obtain ⟨u, hu⟩ : ∃ u, t.countGone gone = .ok u := by
    cases gone with
    | none => exact ⟨t, rfl⟩
    | some evicted =>
      have hevict : t.countEviction = .ok { t with evictions := t.evictions + 1 } :=
        bind_eq_ok_iff.2 ⟨_, Word.add_eq_ok_iff.2 ⟨hevictions, rfl⟩, rfl⟩
      have hwrite : ({ t with evictions := t.evictions + 1 } : Tally).countWriteback = .ok _ :=
        bind_eq_ok_iff.2 ⟨_, Word.add_eq_ok_iff.2 ⟨hwritebacks, rfl⟩, rfl⟩
      cases hdirty : evicted.wasDirty with
      | false => exact ⟨_, bind_eq_ok_iff.2 ⟨_, hevict, by rw [hdirty]; rfl⟩⟩
      | true => exact ⟨_, bind_eq_ok_iff.2 ⟨_, hevict, by rw [hdirty]; exact hwrite⟩⟩
  rw [hu, (eq_of_countGone hu).1]

/-- An answer adds at most one to each counter. -/
theorem Roomy.answer (h : t.Roomy (spare + 1)) (outcome : AccessOutcome) :
    (t + outcome.tally).Roomy spare := by
  obtain ⟨hhits, hmisses, hevictions, hwritebacks⟩ := h
  have hbits : ∀ b : Bool, b.toNat ≤ 1 := Bool.toNat_le
  have hhit := hbits outcome.hit
  have hmiss := hbits (!outcome.hit)
  have hgone := hbits outcome.evicted.isSome
  have hdirty := hbits (outcome.evicted.any (·.wasDirty))
  constructor <;> simp only [AccessOutcome.tally, hits_add, misses_add, evictions_add,
    writebacks_add, ofLookup, ofEviction] <;> omega

theorem Roomy.gone (h : t.Roomy (spare + 1)) (gone : Option Eviction) :
    (t + .ofEviction gone).Roomy spare := by
  obtain ⟨hhits, hmisses, hevictions, hwritebacks⟩ := h
  have hgone := Bool.toNat_le gone.isSome
  have hdirty := Bool.toNat_le (gone.any (·.wasDirty))
  constructor <;> simp only [hits_add, misses_add, evictions_add, writebacks_add,
    ofEviction] <;> omega

theorem countAnswer_ok (h : t.Roomy (spare + 1)) (hgone : outcome.hit = true → outcome.evicted = none) :
    t.countAnswer outcome = .ok (t + outcome.tally) := by
  obtain ⟨hhits, hmisses, hevictions, hwritebacks⟩ := h
  obtain ⟨u, hu⟩ : ∃ u, t.countAnswer outcome = .ok u := by
    unfold countAnswer
    cases outcome.hit with
    | true => exact ⟨_, bind_eq_ok_iff.2 ⟨_, Word.add_eq_ok_iff.2 ⟨by omega, rfl⟩, rfl⟩⟩
    | false =>
      have hmiss : t.countMiss = .ok { t with misses := t.misses + 1 } :=
        bind_eq_ok_iff.2 ⟨_, Word.add_eq_ok_iff.2 ⟨by omega, rfl⟩, rfl⟩
      exact ⟨_, bind_eq_ok_iff.2 ⟨_, hmiss, countGone_ok (by dsimp only; omega)
        (by dsimp only; omega) _⟩⟩
  rw [hu, (eq_of_countAnswer hgone hu).1]

end Tally

/-! ## Levels -/

/-- A level has room for some more steps, none of which charges more than the toll. -/
structure Level.Ready (toll room : Nat) (l : Level) : Prop where
  store : ∃ f, l.store.Ready f room (2 * room)
  latency_le : l.store.geometry.hitLatency ≤ toll
  tally : l.tally.Roomy room

namespace Level.Ready

variable {toll room : Nat} {l : Level} {address : Nat} {kind : AccessKind}

theorem weaken (h : l.Ready toll (room + 1)) : l.Ready toll room := by
  obtain ⟨f, hstore⟩ := h.store
  exact ⟨⟨f, hstore.weaken.weaken_spare.weaken_spare⟩, h.latency_le, h.tally.weaken⟩

/-- A level that is ready answers an access or refuses it, and is ready for what comes after
the answer is counted. -/
theorem access_ok (h : l.Ready toll (room + 1)) (address : Nat) (kind : AccessKind) :
    (∃ refusal t, (Store.access address kind).step l.store = (.error (.refused refusal), t)) ∨
      ∃ outcome t, (Store.access address kind).step l.store = (.ok outcome, t) ∧
        outcome.lookup.latency ≤ toll ∧
        Level.Ready toll room ⟨t, l.tally + outcome.tally⟩ ∧
        Level.Ready toll room ⟨t, l.tally + .ofEviction outcome.evicted⟩ := by
  obtain ⟨f, hstore⟩ := h.store
  rcases hstore.access_ok address kind with hrefused | ⟨outcome, t, hstep, hready⟩
  · exact .inl hrefused
  · obtain ⟨hgeometry, hlatency, -⟩ := Store.access_counts hstep
    have hle : t.geometry.hitLatency ≤ toll := by
      rw [hgeometry]
      exact h.latency_le
    exact .inr ⟨outcome, t, hstep, hlatency ▸ h.latency_le,
      ⟨⟨f, hready⟩, hle, h.tally.answer outcome⟩, ⟨⟨f, hready⟩, hle, h.tally.gone _⟩⟩

end Level.Ready

namespace Hierarchy

variable {h h' : Hierarchy} {depth toll room level address : Nat} {kind : AccessKind}
  {levels : List Nat}

/-! ## Single steps -/

/-- A hierarchy has room for some more steps, none of which charges more than the toll. -/
structure Ready (depth toll room : Nat) (h : Hierarchy) : Prop where
  length_eq : h.levels.length = depth
  levels : ∀ l ∈ h.levels, l.Ready toll room
  latency_le : h.memoryLatency ≤ toll
  memoryAccesses_lt : h.memoryAccesses + room < 2 ^ 64
  memoryWritebacks_lt : h.memoryWritebacks + room < 2 ^ 64
  cycles_lt : h.cycles + room * toll < 2 ^ 64

namespace Ready

theorem weaken (hready : h.Ready depth toll (room + 1)) : h.Ready depth toll room := by
  obtain ⟨hlength, hlevels, hlatency, haccesses, hwritebacks, hcycles⟩ := hready
  rw [Nat.succ_mul] at hcycles
  exact ⟨hlength, fun l hl => (hlevels l hl).weaken, hlatency, by omega, by omega, by omega⟩

theorem mono {more : Nat} (hready : h.Ready depth toll more) (hle : room ≤ more) :
    h.Ready depth toll room := by
  induction hle with
  | refl => exact hready
  | step _ ih => exact ih hready.weaken

/-- A charge that is not above the toll has room. -/
theorem charge_ok (hready : h.Ready depth toll (room + 1)) {cycles : Nat} (hle : cycles ≤ toll) :
    Word.add 64 h.cycles cycles = .ok (h.cycles + cycles) ∧
      h.cycles + cycles + room * toll < 2 ^ 64 := by
  have hcycles := hready.cycles_lt
  rw [Nat.succ_mul] at hcycles
  exact ⟨Word.add_eq_ok_iff.2 ⟨by omega, rfl⟩, by omega⟩

/-- A step at one level uses up room everywhere. -/
theorem set (hready : h.Ready depth toll (room + 1)) {l : Level} (hl : l.Ready toll room)
    {cycles : Nat} (hcycles : cycles + room * toll < 2 ^ 64) :
    Ready depth toll room { h with levels := h.levels.set level l, cycles } where
  length_eq := List.length_set.trans hready.length_eq
  levels l' hl' := by
    rcases List.mem_or_eq_of_mem_set hl' with hold | rfl
    · exact (hready.levels l' hold).weaken
    · exact hl
  latency_le := hready.latency_le
  memoryAccesses_lt := hready.weaken.memoryAccesses_lt
  memoryWritebacks_lt := hready.weaken.memoryWritebacks_lt
  cycles_lt := hcycles

theorem visit (hready : h.Ready depth toll (room + 1)) (hlevel : level < depth) :
    Action.Ends (Hierarchy.visit address level kind) h (fun _ h' => h'.Ready depth toll room)
      (fun failure _ => failure.IsRefusal) := by
  rw [← hready.length_eq] at hlevel
  have hl := List.getElem?_eq_getElem hlevel
  rcases (hready.levels _ (List.mem_of_getElem? hl)).access_ok address kind with
    ⟨refusal, t, hrefused⟩ | ⟨outcome, t, haccess, hlatency, hlevels, -⟩
  · have hstep : ∃ h₁, (Hierarchy.visit address level kind).step h = (.error (.refused refusal), h₁) :=
      ⟨_, by rw [Hierarchy.visit, Action.step_bind, step_onStore hl, hrefused]⟩
    obtain ⟨h₁, hstep⟩ := hstep
    exact Action.ends_of_error hstep ⟨refusal, rfl⟩
  · obtain ⟨hcharge, hcycles⟩ := hready.charge_ok hlatency
    have hcount := Tally.countAnswer_ok (hready.levels _ (List.mem_of_getElem? hl)).tally
      (Store.evicted_of_hit haccess)
    exact Action.ends_of_ok
      (visit_eq_ok_iff.2 ⟨_, t, _, _, hl, haccess, hcharge, hcount, rfl⟩)
      (hready.set hlevels hcycles)

theorem deposit (hready : h.Ready depth toll (room + 1)) (hlevel : level < depth) :
    Action.Ends (Hierarchy.deposit address level) h (fun _ h' => h'.Ready depth toll room)
      (fun failure _ => failure.IsRefusal) := by
  rw [← hready.length_eq] at hlevel
  have hl := List.getElem?_eq_getElem hlevel
  have hlevels := hready.levels _ (List.mem_of_getElem? hl)
  rcases hlevels.access_ok address .writeback with
    ⟨refusal, t, hrefused⟩ | ⟨outcome, t, haccess, -, -, hgone⟩
  · have hstep : ∃ h₁, (Hierarchy.deposit address level).step h = (.error (.refused refusal), h₁) :=
      ⟨_, by rw [Hierarchy.deposit, Action.step_bind, step_onStore hl, hrefused]⟩
    obtain ⟨h₁, hstep⟩ := hstep
    exact Action.ends_of_error hstep ⟨refusal, rfl⟩
  · have hevictions := hlevels.tally.evictions_lt
    have hwritebacks := hlevels.tally.writebacks_lt
    have hcount : h.levels[level].tally.countGone outcome.evicted = _ :=
      Tally.countGone_ok (by omega) (by omega) _
    exact Action.ends_of_ok (deposit_eq_ok_iff.2 ⟨_, t, _, hl, haccess, hcount, rfl⟩)
      (hready.set hgone hready.weaken.cycles_lt)

theorem countMemoryAccess (hready : h.Ready depth toll (room + 1)) :
    Action.Ends Hierarchy.countMemoryAccess h (fun _ h' => h'.Ready depth toll room)
      (fun failure _ => failure.IsRefusal) := by
  obtain ⟨hcharge, hcycles⟩ := hready.charge_ok hready.latency_le
  have hroom := hready.memoryAccesses_lt
  refine Action.ends_of_ok (countMemoryAccess_eq_ok_iff.2
    ⟨_, _, Word.add_eq_ok_iff.2 ⟨by omega, rfl⟩, hcharge, rfl⟩) ?_
  exact { hready.weaken with memoryAccesses_lt := by dsimp only; omega, cycles_lt := hcycles }

theorem countMemoryWriteback (hready : h.Ready depth toll (room + 1)) :
    Action.Ends Hierarchy.countMemoryWriteback h (fun _ h' => h'.Ready depth toll room)
      (fun failure _ => failure.IsRefusal) := by
  have hroom := hready.memoryWritebacks_lt
  refine Action.ends_of_ok (countMemoryWriteback_eq_ok_iff.2
    ⟨_, Word.add_eq_ok_iff.2 ⟨by omega, rfl⟩, rfl⟩) ?_
  exact { hready.weaken with memoryWritebacks_lt := by dsimp only; omega }

/-! ## Accesses -/

/-- A line on its way down passes levels of the hierarchy only, and at most as many as there
are. -/
structure Falls (depth : Nat) (victim : Victim) : Prop where
  lt : ∀ level ∈ victim.below, level < depth
  length_le : victim.below.length ≤ depth

/-- A descent takes a step for each level and pushes out a line from each at most. -/
theorem descend (hready : h.Ready depth toll (room + levels.length))
    (hlevels : ∀ level ∈ levels, level < depth) (hlength : levels.length ≤ depth) :
    Action.Ends (Hierarchy.descend address levels kind) h
      (fun descent h' => h'.Ready depth toll room ∧ descent.victims.length ≤ levels.length ∧
        ∀ victim ∈ descent.victims, Falls depth victim)
      (fun failure _ => failure.IsRefusal) := by
  induction levels generalizing h kind with
  | nil => exact ⟨hready, Nat.le_refl _, by simp⟩
  | cons level below ih =>
    obtain ⟨hlevel, hbelow⟩ := List.forall_mem_cons.1 hlevels
    rw [List.length_cons] at hlength
    refine Action.Ends.of_step_eq ?_ (step_descend_cons h)
    refine (hready.visit hlevel).bind fun outcome h₁ hready₁ => ?_
    cases hhit : outcome.hit with
    | true => exact ⟨hready₁.mono (Nat.le_add_right _ _), Nat.zero_le _, by simp⟩
    | false =>
      refine (ih hready₁ hbelow (by omega)).bind ?_
      rintro descent h₂ ⟨hready₂, hcount, hfalls⟩
      refine ⟨hready₂, ?_, fun victim hvictim => ?_⟩
      · have htoList : (victim? below outcome.evicted).toList.length ≤ 1 :=
          Option.length_toList_le
        dsimp only
        rw [List.length_append, List.length_cons]
        omega
      · rcases List.mem_append.1 hvictim with hnew | hold
        · obtain ⟨evicted, -, -, rfl⟩ := victim?_eq_some_iff.1 (Option.mem_toList.1 hnew)
          exact ⟨hbelow, by dsimp only; omega⟩
        · exact hfalls victim hold

/-- A line that is written back takes a step for each level below it and one for main memory. -/
theorem writeBack (hready : h.Ready depth toll (room + (levels.length + 1)))
    (hlevels : ∀ level ∈ levels, level < depth) :
    Action.Ends (Hierarchy.writeBack levels address) h (fun _ h' => h'.Ready depth toll room)
      (fun failure _ => failure.IsRefusal) := by
  induction levels generalizing h address with
  | nil =>
    exact hready.countMemoryWriteback.bind fun _ _ hready' => hready'
  | cons level below ih =>
    obtain ⟨hlevel, hbelow⟩ := List.forall_mem_cons.1 hlevels
    refine Action.Ends.of_step_eq ?_ (step_writeBack_cons h)
    refine (hready.deposit hlevel).bind fun outcome h₁ hready₁ => ?_
    split
    · exact hready₁.mono (Nat.le_add_right _ _)
    · exact ih hready₁ hbelow

theorem writeBackAll {victims : List Victim}
    (hready : h.Ready depth toll (room + victims.length * (depth + 1)))
    (hvictims : ∀ victim ∈ victims, Falls depth victim) :
    Action.Ends (Hierarchy.writeBackAll victims) h (fun _ h' => h'.Ready depth toll room)
      (fun failure _ => failure.IsRefusal) := by
  induction victims generalizing h with
  | nil => exact hready.mono (Nat.le_add_right _ _)
  | cons victim victims ih =>
    obtain ⟨hfalls, hvictims⟩ := List.forall_mem_cons.1 hvictims
    have hlength := hfalls.length_le
    rw [List.length_cons, Nat.succ_mul] at hready
    have hfirst : h.Ready depth toll
        (room + victims.length * (depth + 1) + (victim.below.length + 1)) :=
      hready.mono (by omega)
    refine (hfirst.writeBack hfalls.lt).bind fun written h₁ hready₁ => ?_
    exact (ih hready₁ hvictims).bind fun _ _ hready₂ => hready₂

/-- The steps that an access to a line can take. -/
theorem accessLine (hready : h.Ready depth toll (room + (depth + 1) ^ 2)) :
    Action.Ends (Hierarchy.accessLine address kind) h (fun _ h' => h'.Ready depth toll room)
      (fun failure _ => failure.IsRefusal) := by
  -- One step for main memory, and for each level one for the demand and those for its victim.
  have hsteps : (depth + 1) ^ 2 = depth * (depth + 1) + 1 + depth := by
    rw [Nat.pow_two, Nat.add_mul, Nat.one_mul]
    omega
  rw [hsteps, ← Nat.add_assoc, ← Nat.add_assoc] at hready
  have hlevels : ∀ level ∈ List.range depth, level < depth := fun level => List.mem_range.1
  refine Action.ends_bind.2 (Action.ends_of_ok rfl ?_)
  rw [hready.length_eq]
  have hsearch : h.Ready depth toll
      (room + depth * (depth + 1) + 1 + (List.range depth).length) := by
    rwa [List.length_range]
  refine (hsearch.descend hlevels (by rw [List.length_range])).bind ?_
  rintro descent h₁ ⟨hready₁, hcount, hfalls⟩
  rw [List.length_range] at hcount
  have hvictims : descent.victims.length * (depth + 1) ≤ depth * (depth + 1) :=
    Nat.mul_le_mul_right _ hcount
  have hwrite : ∀ h₂ : Hierarchy, h₂.Ready depth toll (room + depth * (depth + 1)) →
      Action.Ends (Hierarchy.writeBackAll descent.victims) h₂
        (fun _ h' => h'.Ready depth toll room) (fun failure _ => failure.IsRefusal) :=
    fun h₂ hready₂ => (hready₂.mono (by omega)).writeBackAll hfalls
  split
  · exact hready₁.countMemoryAccess.bind fun _ h₂ hready₂ => hwrite h₂ hready₂
  · exact hwrite h₁ hready₁.weaken

/-- A hierarchy that has room for its lines serves them all, or refuses one. -/
theorem serveDemands {demands : List Demand}
    (hready : h.Ready depth toll (demands.length * (depth + 1) ^ 2)) :
    Action.Ends (Action.forEach demands serveDemand) h (fun _ _ => True)
      (fun failure _ => failure.IsRefusal) := by
  induction demands generalizing h with
  | nil => trivial
  | cons demand demands ih =>
    rw [List.length_cons, Nat.succ_mul] at hready
    exact Action.ends_forEach_cons.2 (hready.accessLine.bind fun _ h₁ hready₁ => ih hready₁)

end Ready

/-- A bound for the steps that records take: those of each line that they ask for. -/
def stepBound (h : Hierarchy) (records : List TraceRecord) : Nat :=
  (records.flatMap (·.lines h.lineSize)).length * (h.levels.length + 1) ^ 2

/-- A hierarchy that has room for all steps of some records accesses them, or refuses one of
their lines. -/
theorem Ready.forEach_access {records : List TraceRecord}
    (hready : h.Ready h.levels.length toll (h.stepBound records)) :
    Action.Ends (Action.forEach records access) h (fun _ _ => True)
      (fun failure _ => failure.IsRefusal) := by
  have hlength : (records.flatMap (·.demands h.lineSize)).length =
      (records.flatMap (·.lines h.lineSize)).length := by
    simp only [List.length_flatMap, TraceRecord.demands, List.length_map]
  rw [stepBound, ← hlength] at hready
  exact Action.Ends.of_step_eq hready.serveDemands (step_forEach_access records h)

/-- A new hierarchy has room for as many steps as 32 bits can count, if the cycles can hold the
toll of each. -/
theorem ready_of_ofConfig {c : HierarchyConfig} (hbuilt : (ofConfig c).result = .ok h)
    (hroom : room < 2 ^ 32)
    (htoll : ∀ latency ∈ h.memoryLatency :: h.levels.map (·.store.geometry.hitLatency),
      latency ≤ toll) (hcycles : room * toll < 2 ^ 64) :
    h.Ready h.levels.length toll room := by
  obtain ⟨hlatency, hlatencies⟩ := List.forall_mem_cons.1 htoll
  have hfresh := tallies_of_ofConfig hbuilt
  obtain ⟨hlength, hstores⟩ := stores_of_ofConfig hbuilt
  have hcounts : h.memoryAccesses = 0 ∧ h.memoryWritebacks = 0 ∧ h.cycles = 0 := by
    obtain ⟨-, levels, -, rfl⟩ := ofConfig_eq_ok_iff.1 hbuilt
    exact ⟨rfl, rfl, rfl⟩
  refine ⟨rfl, fun l hl => ?_, hlatency, by omega, by omega, by omega⟩
  obtain ⟨level, hlevel⟩ := List.getElem?_of_mem hl
  have hstore : h.stores[level]? = some l.store := by
    rw [stores, List.getElem?_map, hlevel]
    rfl
  have hlt : level < c.caches.length := hlength ▸ (List.getElem?_eq_some_iff.1 hstore).1
  refine ⟨⟨_, Store.ready_of_ofConfig (hstores (List.getElem?_eq_getElem hlt) hstore) hroom⟩,
    hlatencies _ (List.mem_map_of_mem hl), ?_⟩
  rw [(hfresh l hl).1]
  have hzero : 0 + room < 2 ^ 64 := by omega
  exact ⟨hzero, hzero, hzero, hzero⟩

end Hierarchy

end AssocCache
