import AssocCache.Proofs.Action
import AssocCache.Proofs.Hierarchy.Cases
import AssocCache.Proofs.Store.Accesses

/-!
# Visits to single levels

An access to a hierarchy is made of four kinds of steps: a demand is put to one level
(`Hierarchy.visit`), a line is written back into one level (`Hierarchy.deposit`), and
main memory counts a line that it serves or one that it takes.  `step_descend_cons` and
`step_writeBack_cons` put the parts of an access together from these steps, however the
steps end.

`visit_eq_ok_iff` and `deposit_eq_ok_iff` say what a step changes, and `ends_visit` and
`ends_deposit` add that a step which is refused changes nothing.  What all four kinds
of steps keep, an access to a line keeps (`Steady.accessLine`).
-/

namespace AssocCache

namespace Tally

variable {t u : Tally}

/-- Counts the answer to a demand. -/
def countAnswer (t : Tally) (outcome : AccessOutcome) : Except Fault Tally :=
  if outcome.hit then t.countHit else t.countMiss >>= (·.countGone outcome.evicted)

/-- Counters that have counted are machine words. -/
structure Fits (t : Tally) : Prop where
  misses : t.misses < 2 ^ (64 : Nat)
  writebacks : t.writebacks < 2 ^ (64 : Nat)

theorem eq_of_countHit (hcount : t.countHit = .ok u) :
    u = t + .ofLookup true ∧ (t.Fits → u.Fits) := by
  obtain ⟨hits, hhits, hpure⟩ := Success.bind_eq_ok_iff.1 hcount
  rw [Success.pure_eq_ok_iff] at hpure
  subst hpure
  rw [(Word.add_eq_ok_iff.1 hhits).2]
  exact ⟨rfl, fun hfits => ⟨hfits.misses, hfits.writebacks⟩⟩

theorem eq_of_countMiss (hcount : t.countMiss = .ok u) :
    u = t + .ofLookup false ∧ (t.Fits → u.Fits) := by
  obtain ⟨misses, hmisses, hpure⟩ := Success.bind_eq_ok_iff.1 hcount
  rw [Success.pure_eq_ok_iff] at hpure
  obtain ⟨hlt, hsum⟩ := Word.add_eq_ok_iff.1 hmisses
  subst hpure
  subst hsum
  exact ⟨rfl, fun hfits => ⟨hlt, hfits.writebacks⟩⟩

theorem eq_of_countEviction (hcount : t.countEviction = .ok u) :
    u = { t with evictions := t.evictions + 1 } := by
  obtain ⟨evictions, hevictions, hpure⟩ := Success.bind_eq_ok_iff.1 hcount
  rw [Success.pure_eq_ok_iff] at hpure
  rw [← hpure, (Word.add_eq_ok_iff.1 hevictions).2]

theorem eq_of_countWriteback (hcount : t.countWriteback = .ok u) :
    u = { t with writebacks := t.writebacks + 1 } ∧ u.writebacks < 2 ^ (64 : Nat) := by
  obtain ⟨writebacks, hwritebacks, hpure⟩ := Success.bind_eq_ok_iff.1 hcount
  rw [Success.pure_eq_ok_iff] at hpure
  obtain ⟨hlt, rfl⟩ := Word.add_eq_ok_iff.1 hwritebacks
  subst hpure
  exact ⟨rfl, hlt⟩

theorem eq_of_countGone {gone : Option Eviction} (hcount : t.countGone gone = .ok u) :
    u = t + .ofEviction gone ∧ (t.Fits → u.Fits) := by
  cases gone with
  | none =>
    cases hcount
    exact ⟨rfl, id⟩
  | some evicted =>
    obtain ⟨between, hevict, hrest⟩ := Success.bind_eq_ok_iff.1 hcount
    obtain rfl := eq_of_countEviction hevict
    cases hdirty : evicted.wasDirty with
    | true =>
      rw [hdirty, if_pos rfl] at hrest
      obtain ⟨rfl, hlt⟩ := eq_of_countWriteback hrest
      refine ⟨?_, fun hfits => ⟨hfits.misses, hlt⟩⟩
      rw [ofEviction, Option.any_some, hdirty]
      rfl
    | false =>
      rw [hdirty, if_neg Bool.false_ne_true, Success.pure_eq_ok_iff] at hrest
      subst hrest
      refine ⟨?_, fun hfits => ⟨hfits.misses, hfits.writebacks⟩⟩
      rw [ofEviction, Option.any_some, hdirty]
      rfl

theorem eq_of_countAnswer {outcome : AccessOutcome}
    (hgone : outcome.hit = true → outcome.evicted = none)
    (hcount : t.countAnswer outcome = .ok u) : u = t + outcome.tally ∧ (t.Fits → u.Fits) := by
  unfold countAnswer at hcount
  unfold AccessOutcome.tally
  cases hhit : outcome.hit with
  | true =>
    rw [hhit, if_pos rfl] at hcount
    rw [hgone hhit]
    exact eq_of_countHit hcount
  | false =>
    rw [hhit, if_neg Bool.false_ne_true] at hcount
    obtain ⟨missed, hmiss, hevict⟩ := Success.bind_eq_ok_iff.1 hcount
    obtain ⟨hmissed, hfits⟩ := eq_of_countMiss hmiss
    obtain ⟨hevicted, hfits'⟩ := eq_of_countGone hevict
    refine ⟨?_, fun h => hfits' (hfits h)⟩
    rw [hevicted, hmissed]
    ext <;> simp [Nat.add_assoc]

end Tally

namespace Hierarchy

open Success

variable {h h' : Hierarchy} {level address : Nat} {below : List Nat} {kind : AccessKind}

/-- Puts a demand to a level, and counts the answer. -/
def visit (address level : Nat) (kind : AccessKind) : Run AccessOutcome := do
  let outcome ← onStore level (Store.access address kind)
  charge outcome.lookup.latency
  if outcome.hit then
    count level Tally.countHit
    pure outcome
  else
    count level Tally.countMiss
    countEviction level outcome.evicted
    pure outcome

/-- Writes a line back into a level, and counts the line that had to go. -/
def deposit (address level : Nat) : Run AccessOutcome := do
  let outcome ← onStore level (Store.access address .writeback)
  if outcome.hit then
    pure outcome
  else
    countEviction level outcome.evicted
    pure outcome

/-! ## The levels below -/

/-- The levels of a row of some depth, from some level on. -/
def route (depth first : Nat) : List Nat := List.range' first (depth - first)

theorem route_of_lt {depth first : Nat} (h : first < depth) :
    route depth first = first :: route depth (first + 1) := by
  obtain ⟨rest, rfl⟩ := Nat.exists_eq_add_of_lt h
  rw [route, route, show first + rest + 1 - first = rest + 1 by omega, List.range'_succ,
    show first + rest + 1 - (first + 1) = rest by omega]

theorem route_self (depth : Nat) : route depth depth = [] := by
  rw [route, Nat.sub_self]
  rfl

theorem range_eq_route (depth : Nat) : List.range depth = route depth 0 := by
  rw [List.range_eq_range']
  rfl

/-- A line with pending writes on its way to a level. -/
structure Transfer where
  level : Nat
  address : Nat

/-- The line on its way down a row of some depth. -/
def Transfer.victim (depth : Nat) (transfer : Transfer) : Victim :=
  ⟨transfer.address, route depth transfer.level⟩

/-- The line with pending writes that had to go, if there was one. -/
def transfer? (level : Nat) (gone : Option Eviction) : Option Transfer :=
  (gone.filter (·.wasDirty)).map fun evicted => ⟨level, evicted.address⟩

theorem victim?_route (depth level : Nat) (gone : Option Eviction) :
    victim? (route depth level) gone = (transfer? level gone).map (Transfer.victim depth) := by
  cases gone with
  | none => rfl
  | some evicted =>
    cases hdirty : evicted.wasDirty with
    | true => simp [victim?, transfer?, Transfer.victim, Option.filter, hdirty]
    | false => simp [victim?, transfer?, Option.filter, hdirty]

theorem level_of_transfer? {gone : Option Eviction} {transfer : Transfer}
    (h : transfer? level gone = some transfer) : transfer.level = level := by
  obtain ⟨evicted, -, rfl⟩ := Option.map_eq_some_iff.1 h
  rfl

/-! ## An access as a sequence of steps -/

theorem step_onStore {α : Type} {l : Level} (hl : h.levels[level]? = some l)
    (x : Action Failure (Store AnyPolicy) α) :
    (onStore level x).step h = ((x.step l.store).1,
      { h with levels := h.levels.set level { l with store := (x.step l.store).2 } }) := by
  unfold Action.step onStore
  rw [hl]

theorem step_onStore_none {α : Type} (hl : h.levels[level]? = none)
    (x : Action Failure (Store AnyPolicy) α) :
    (onStore level x).step h = (.error (.aborted (.outOfBounds h.levels.length level)), h) := by
  unfold Action.step onStore
  rw [hl]
  simp

theorem lt_of_onStore {α : Type} {x : Action Failure (Store AnyPolicy) α} {a : α}
    (hstep : (onStore level x).step h = (.ok a, h')) : level < h'.levels.length := by
  obtain ⟨l, store, hl, -, rfl⟩ := onStore_eq_ok_iff.1 hstep
  rw [List.length_set]
  exact (List.getElem?_eq_some_iff.1 hl).1

theorem step_onStore_pure {α : Type} (hlt : level < h.levels.length) (a : α) :
    (onStore level (pure a : Action Failure (Store AnyPolicy) α)).step h = (.ok a, h) :=
  onStore_pure_eq_ok_iff.2 ⟨hlt, rfl, rfl⟩

/-- Operations on one store one after the other are one operation on it. -/
theorem step_onStore_bind {α β : Type} (x : Action Failure (Store AnyPolicy) α)
    (f : α → Action Failure (Store AnyPolicy) β) (h : Hierarchy) :
    (onStore level (x >>= f)).step h = (onStore level x >>= fun a => onStore level (f a)).step h := by
  rw [Action.step_bind]
  cases hl : h.levels[level]? with
  | none => rw [step_onStore_none hl, step_onStore_none hl]
  | some l =>
    have hlt := (List.getElem?_eq_some_iff.1 hl).1
    rw [step_onStore hl, step_onStore hl, Action.step_bind]
    rcases x.step l.store with ⟨failure | a, store⟩
    · rfl
    · dsimp only
      rw [step_onStore (List.getElem?_set_self hlt)]
      dsimp only
      rw [List.set_set]

theorem step_descend_cons (h : Hierarchy) :
    (descend address (level :: below) kind).step h =
      (do let outcome ← visit address level kind
          if outcome.hit then pure ⟨true, []⟩
          else
            let descent ← descend address below .read
            pure { descent with
              victims := (victim? below outcome.evicted).toList ++ descent.victims } :
        Run Descent).step h := by
  rw [descend, visit]
  simp only [Action.step_bind]
  rcases (onStore level (Store.access address kind)).step h with ⟨failure | outcome, h₁⟩
  · rfl
  · dsimp only
    rcases (charge outcome.lookup.latency).step h₁ with ⟨failure | _, h₂⟩
    · rfl
    · dsimp only
      cases hhit : outcome.hit with
      | true =>
        simp only [if_true, Action.step_bind]
        rcases (count level Tally.countHit).step h₂ with ⟨failure | _, h₃⟩
        · rfl
        · simp [hhit]
      | false =>
        simp only [Bool.false_eq_true, if_false, Action.step_bind]
        rcases (count level Tally.countMiss).step h₂ with ⟨failure | _, h₃⟩
        · rfl
        · dsimp only
          rcases (countEviction level outcome.evicted).step h₃ with ⟨failure | _, h₄⟩
          · rfl
          · simp [hhit, Action.step_bind]

theorem step_writeBack_cons (h : Hierarchy) :
    (writeBack (level :: below) address).step h =
      (do let outcome ← deposit address level
          match victim? below outcome.evicted with
          | none => pure none
          | some victim => writeBack below victim.address : Run (Option Nat)).step h := by
  rw [writeBack, deposit, Store.access]
  simp only [Action.step_bind, step_onStore_bind]
  rcases hprobe : (onStore level (Store.probe address .writeback)).step h with
    ⟨failure | lookup, h₁⟩
  · rfl
  · dsimp only
    have hlt₁ := lt_of_onStore hprobe
    cases hhit : lookup.hit with
    | true =>
      rw [if_pos rfl, if_pos rfl, step_onStore_pure hlt₁]
      simp [AccessOutcome.hit, hhit, AccessOutcome.evicted, victim?]
    | false =>
      rw [if_neg Bool.false_ne_true, if_neg Bool.false_ne_true, step_onStore_bind]
      simp only [Action.step_bind]
      rcases hfill : (onStore level (Store.fill address .writeback)).step h₁ with
        ⟨failure | install, h₂⟩
      · rfl
      · dsimp only
        rw [step_onStore_pure (lt_of_onStore hfill)]
        have hevicted : AccessOutcome.evicted ⟨lookup, some install⟩ = install.evicted := rfl
        simp only [AccessOutcome.hit, hhit, hevicted, Bool.false_eq_true, if_false,
          Action.step_bind]
        rcases (countEviction level install.evicted).step h₂ with ⟨failure | _, h₃⟩
        · rfl
        · simp only [Action.step_pure, hevicted]
          cases victim? below install.evicted with
          | none => rfl
          | some victim => simp only [Action.step_bind, Action.step_note]

/-! ## What a step changes -/

theorem visit_parts_eq_ok_iff {outcome : AccessOutcome} :
    (visit address level kind).step h = (.ok outcome, h') ↔
      ∃ h₁ h₂, (onStore level (Store.access address kind)).step h = (.ok outcome, h₁) ∧
        (charge outcome.lookup.latency).step h₁ = (.ok (), h₂) ∧
        (count level (·.countAnswer outcome)).step h₂ = (.ok (), h') := by
  unfold visit Tally.countAnswer
  simp only [Action.step_bind_eq_ok_iff]
  constructor
  · intro ⟨outcome', h₁, haccess, _, h₂, hcharge, hcount⟩
    cases hhit : outcome'.hit with
    | true =>
      rw [hhit, if_pos rfl, Action.step_bind_eq_ok_iff] at hcount
      obtain ⟨_, h₃, hcount, hpure⟩ := hcount
      obtain ⟨rfl, rfl⟩ := Action.step_pure_eq_ok_iff.1 hpure
      refine ⟨h₁, h₂, haccess, hcharge, ?_⟩
      simpa only [hhit, if_true] using hcount
    | false =>
      rw [hhit, if_neg Bool.false_ne_true] at hcount
      simp only [Action.step_bind_eq_ok_iff] at hcount
      obtain ⟨_, h₃, hmiss, _, h₄, hevict, hpure⟩ := hcount
      obtain ⟨rfl, rfl⟩ := Action.step_pure_eq_ok_iff.1 hpure
      refine ⟨h₁, h₂, haccess, hcharge, ?_⟩
      simp only [hhit, Bool.false_eq_true, if_false]
      exact count_bind_eq_ok_iff.2
        ⟨h₃, hmiss, (countEviction_eq_ok_iff (lt_of_count hmiss)).1 hevict⟩
  · intro ⟨h₁, h₂, haccess, hcharge, hcount⟩
    refine ⟨outcome, h₁, haccess, (), h₂, hcharge, ?_⟩
    cases hhit : outcome.hit with
    | true =>
      simp only [hhit, if_true] at hcount ⊢
      exact Action.step_bind_eq_ok_iff.2 ⟨(), h', hcount, rfl⟩
    | false =>
      simp only [hhit, Bool.false_eq_true, if_false] at hcount ⊢
      obtain ⟨h₃, hmiss, hevict⟩ := count_bind_eq_ok_iff.1 hcount
      simp only [Action.step_bind_eq_ok_iff]
      exact ⟨(), h₃, hmiss, (), h',
        (countEviction_eq_ok_iff (lt_of_count hmiss)).2 hevict, rfl⟩

/-- What changes at a level where a demand is answered. -/
theorem visit_eq_ok_iff {outcome : AccessOutcome} :
    (visit address level kind).step h = (.ok outcome, h') ↔
      ∃ l store tally cycles, h.levels[level]? = some l ∧
        (Store.access address kind).step l.store = (.ok outcome, store) ∧
        Word.add 64 h.cycles outcome.lookup.latency = .ok cycles ∧
        l.tally.countAnswer outcome = .ok tally ∧
        h' = { h with levels := h.levels.set level ⟨store, tally⟩, cycles } := by
  simp only [visit_parts_eq_ok_iff, onStore_eq_ok_iff, charge_eq_ok_iff, count_eq_ok_iff]
  constructor
  · rintro ⟨_, _, ⟨l, store, hl, haccess, rfl⟩, ⟨cycles, hcycles, rfl⟩, l', tally, hl', hcount, rfl⟩
    rw [getElem?_set_levels hl, Option.some.injEq] at hl'
    subst hl'
    refine ⟨l, store, tally, cycles, hl, haccess, hcycles, hcount, ?_⟩
    rw [List.set_set]
  · rintro ⟨l, store, tally, cycles, hl, haccess, hcycles, hcount, rfl⟩
    refine ⟨_, _, ⟨l, store, hl, haccess, rfl⟩, ⟨cycles, hcycles, rfl⟩, _, tally,
      getElem?_set_levels hl, hcount, ?_⟩
    rw [List.set_set]

theorem evicted_of_visit {outcome : AccessOutcome}
    (hstep : (visit address level kind).step h = (.ok outcome, h')) (hhit : outcome.hit = true) :
    outcome.evicted = none := by
  obtain ⟨l, store, tally, cycles, -, haccess, -⟩ := visit_eq_ok_iff.1 hstep
  exact Store.evicted_of_hit haccess hhit

theorem deposit_eq_ok_iff {outcome : AccessOutcome} :
    (deposit address level).step h = (.ok outcome, h') ↔
      ∃ l store tally, h.levels[level]? = some l ∧
        (Store.access address .writeback).step l.store = (.ok outcome, store) ∧
        l.tally.countGone outcome.evicted = .ok tally ∧
        h' = { h with levels := h.levels.set level ⟨store, tally⟩ } := by
  unfold deposit
  simp only [Action.step_bind_eq_ok_iff, onStore_eq_ok_iff]
  constructor
  · rintro ⟨outcome', _, ⟨l, store, hl, haccess, rfl⟩, hcount⟩
    cases hhit : outcome'.hit with
    | true =>
      rw [hhit, if_pos rfl] at hcount
      cases hcount
      refine ⟨l, store, l.tally, hl, haccess, ?_, rfl⟩
      rw [Store.evicted_of_hit haccess hhit]
      rfl
    | false =>
      rw [hhit, if_neg Bool.false_ne_true, Action.step_bind_eq_ok_iff] at hcount
      obtain ⟨_, h₂, hevict, hpure⟩ := hcount
      obtain ⟨rfl, rfl⟩ := Action.step_pure_eq_ok_iff.1 hpure
      have hlt : level < (h.levels.set level ⟨store, l.tally⟩).length := by
        rw [List.length_set]
        exact (List.getElem?_eq_some_iff.1 hl).1
      obtain ⟨l', tally, hl', htally, rfl⟩ :=
        count_eq_ok_iff.1 ((countEviction_eq_ok_iff hlt).1 hevict)
      rw [getElem?_set_levels hl, Option.some.injEq] at hl'
      subst hl'
      refine ⟨l, store, tally, hl, haccess, htally, ?_⟩
      rw [List.set_set]
  · rintro ⟨l, store, tally, hl, haccess, hcount, rfl⟩
    refine ⟨outcome, _, ⟨l, store, hl, haccess, rfl⟩, ?_⟩
    cases hhit : outcome.hit with
    | true =>
      rw [Store.evicted_of_hit haccess hhit] at hcount
      cases hcount
      rfl
    | false =>
      rw [if_neg Bool.false_ne_true, Action.step_bind_eq_ok_iff]
      have hlt : level < (h.levels.set level ⟨store, l.tally⟩).length := by
        rw [List.length_set]
        exact (List.getElem?_eq_some_iff.1 hl).1
      refine ⟨(), _, (countEviction_eq_ok_iff hlt).2
        (count_eq_ok_iff.2 ⟨_, tally, getElem?_set_levels hl, hcount, rfl⟩), ?_⟩
      rw [List.set_set]
      rfl

theorem descend_visit_eq_ok_iff {descent : Descent} :
    (descend address (level :: below) kind).step h = (.ok descent, h') ↔
      ∃ outcome h₁, (visit address level kind).step h = (.ok outcome, h₁) ∧
        (outcome.hit = true ∧ descent = ⟨true, []⟩ ∧ h' = h₁ ∨
          outcome.hit = false ∧ ∃ rest, (descend address below .read).step h₁ = (.ok rest, h') ∧
            descent = { rest with
              victims := (victim? below outcome.evicted).toList ++ rest.victims }) := by
  rw [step_descend_cons, Action.step_bind_eq_ok_iff]
  refine exists_congr fun outcome => exists_congr fun h₁ => and_congr_right fun _ => ?_
  cases outcome.hit with
  | true => simp [eq_comm]
  | false =>
    simp only [Bool.false_eq_true, if_false, Action.step_bind_eq_ok_iff,
      Action.step_pure_eq_ok_iff, false_and, false_or, true_and]
    constructor
    · intro ⟨rest, h₂, hrest, hdescent, hstate⟩
      subst hstate
      exact ⟨rest, hrest, hdescent.symm⟩
    · intro ⟨rest, hrest, hdescent⟩
      exact ⟨rest, h', hrest, hdescent.symm, rfl⟩

theorem writeBack_deposit_eq_ok_iff {written : Option Nat} :
    (writeBack (level :: below) address).step h = (.ok written, h') ↔
      ∃ outcome h₁, (deposit address level).step h = (.ok outcome, h₁) ∧
        (victim? below outcome.evicted = none ∧ written = none ∧ h' = h₁ ∨
          ∃ victim, victim? below outcome.evicted = some victim ∧
            (writeBack below victim.address).step h₁ = (.ok written, h')) := by
  rw [step_writeBack_cons, Action.step_bind_eq_ok_iff]
  refine exists_congr fun outcome => exists_congr fun h₁ => and_congr_right fun _ => ?_
  cases victim? below outcome.evicted with
  | none => simp [eq_comm]
  | some victim => simp

/-! ## What every step keeps -/

/-- A property of hierarchies that every step of an access keeps, from some level on. -/
structure Steady (first : Nat) (P : Hierarchy → Prop) : Prop where
  visit : ∀ {h h' : Hierarchy} {address level : Nat} {kind : AccessKind} {outcome : AccessOutcome},
    first ≤ level → P h → (visit address level kind).step h = (.ok outcome, h') → P h'
  deposit : ∀ {h h' : Hierarchy} {address level : Nat} {outcome : AccessOutcome},
    first ≤ level → P h → (deposit address level).step h = (.ok outcome, h') → P h'
  memoryAccess : ∀ {h h' : Hierarchy}, P h → countMemoryAccess.step h = (.ok (), h') → P h'
  memoryWriteback : ∀ {h h' : Hierarchy}, P h → countMemoryWriteback.step h = (.ok (), h') → P h'

namespace Steady

variable {P : Hierarchy → Prop} {levels : List Nat} {first : Nat}

theorem descend (hsteady : Steady first P) (hlevels : ∀ level ∈ levels, first ≤ level) (hP : P h)
    {descent : Descent} (hstep : (descend address levels kind).step h = (.ok descent, h')) :
    P h' := by
  induction levels generalizing kind h descent with
  | nil =>
    obtain ⟨-, rfl⟩ := descend_nil_eq_ok_iff.1 hstep
    exact hP
  | cons level below ih =>
    obtain ⟨hlevel, hbelow⟩ := List.forall_mem_cons.1 hlevels
    obtain ⟨outcome, h₁, hvisit, ⟨-, -, rfl⟩ | ⟨-, rest, hrest, -⟩⟩ :=
      descend_visit_eq_ok_iff.1 hstep
    · exact hsteady.visit hlevel hP hvisit
    · exact ih hbelow (hsteady.visit hlevel hP hvisit) hrest

theorem writeBack (hsteady : Steady first P) (hlevels : ∀ level ∈ levels, first ≤ level) (hP : P h)
    {written : Option Nat} (hstep : (writeBack levels address).step h = (.ok written, h')) :
    P h' := by
  induction levels generalizing address h with
  | nil => exact hsteady.memoryWriteback hP (writeBack_nil_eq_ok_iff.1 hstep).1
  | cons level below ih =>
    obtain ⟨hlevel, hbelow⟩ := List.forall_mem_cons.1 hlevels
    obtain ⟨outcome, h₁, hdeposit, ⟨-, -, rfl⟩ | ⟨victim, -, hrest⟩⟩ :=
      writeBack_deposit_eq_ok_iff.1 hstep
    · exact hsteady.deposit hlevel hP hdeposit
    · exact ih hbelow (hsteady.deposit hlevel hP hdeposit) hrest

theorem writeBackAll (hsteady : Steady 0 P) (hP : P h) {victims : List Victim}
    {written : List Nat} (hstep : (writeBackAll victims).step h = (.ok written, h')) : P h' := by
  induction victims generalizing h written with
  | nil =>
    obtain ⟨-, rfl⟩ := writeBackAll_nil_eq_ok_iff.1 hstep
    exact hP
  | cons victim victims ih =>
    obtain ⟨first, h₁, rest, hfirst, hrest, -⟩ := writeBackAll_cons_eq_ok_iff.1 hstep
    exact ih (hsteady.writeBack (fun level _ => Nat.zero_le level) hP hfirst) hrest

theorem accessLine (hsteady : Steady 0 P) (hP : P h) {written : List Nat}
    (hstep : (accessLine address kind).step h = (.ok written, h')) : P h' := by
  obtain ⟨descent, h₁, h₂, hdescend, hserved, hwrite⟩ := accessLine_eq_ok_iff.1 hstep
  have hP₁ := hsteady.descend (fun level _ => Nat.zero_le level) hP hdescend
  rcases hserved with ⟨-, rfl⟩ | ⟨-, hcount⟩
  · exact hsteady.writeBackAll hP₁ hwrite
  · exact hsteady.writeBackAll (hsteady.memoryAccess hP₁ hcount) hwrite

end Steady

/-- The lines that a descent pushes out go to the levels below the one that had them. -/
theorem victims_of_descend {depth first : Nat} {descent : Descent} (hfirst : first ≤ depth)
    (hstep : (descend address (route depth first) kind).step h = (.ok descent, h')) :
    ∃ transfers : List Transfer, descent.victims = transfers.map (Transfer.victim depth) ∧
      ∀ transfer ∈ transfers, first < transfer.level ∧ transfer.level ≤ depth := by
  induction hleft : depth - first generalizing first kind h descent with
  | zero =>
    obtain rfl : first = depth := by omega
    rw [route_self] at hstep
    obtain ⟨rfl, -⟩ := descend_nil_eq_ok_iff.1 hstep
    exact ⟨[], rfl, by simp⟩
  | succ left ih =>
    have hlt : first < depth := by omega
    rw [route_of_lt hlt] at hstep
    obtain ⟨outcome, h₁, -, ⟨-, rfl, -⟩ | ⟨-, rest, hrest, rfl⟩⟩ :=
      descend_visit_eq_ok_iff.1 hstep
    · exact ⟨[], rfl, by simp⟩
    · obtain ⟨transfers, hvictims, hbounds⟩ := ih hlt hrest (by omega)
      refine ⟨(transfer? (first + 1) outcome.evicted).toList ++ transfers, ?_, ?_⟩
      · dsimp only
        rw [hvictims, victim?_route, List.map_append, Option.toList_map]
      · intro transfer htransfer
        rcases List.mem_append.1 htransfer with hnew | hlater
        · rw [level_of_transfer? (Option.mem_toList.1 hnew)]
          omega
        · have hbound := hbounds transfer hlater
          omega

/-! ## Steps that fail -/

/-- A visit that cannot be charged ends with the fault of the sum. -/
theorem visit_of_overflow {l : Level} {store : Store AnyPolicy} {outcome : AccessOutcome}
    {fault : Fault} (hl : h.levels[level]? = some l)
    (haccess : (Store.access address kind).step l.store = (.ok outcome, store))
    (hcycles : Word.add 64 h.cycles outcome.lookup.latency = .error fault) :
    ∃ h', (visit address level kind).step h = (.error (.aborted fault), h') := by
  refine ⟨{ h with levels := h.levels.set level { l with store } }, ?_⟩
  unfold visit
  rw [Action.step_bind, step_onStore hl, haccess]
  dsimp only
  rw [Action.step_bind]
  unfold charge
  rw [Action.step_assign]
  simp only [Logged.result_bind, Logged.result_attempt, hcycles]
  rfl

end Hierarchy

/-- What holds after a failure that is not a fault. -/
def Failure.Spares (P : Hierarchy → Prop) : Failure → Hierarchy → Prop
  | .refused _, h => P h
  | .aborted _, _ => True

namespace Hierarchy

variable {P : Hierarchy → Prop}

/-- Counters are never refused. -/
theorem ends_assign {α : Type} {f : Hierarchy → Logged Failure (α × Hierarchy)}
    {after : α → Hierarchy → Prop} (hf : (f h).Unrefused)
    (hafter : ∀ a h', (Action.assign f).step h = (.ok a, h') → after a h') :
    Action.Ends (Action.assign f) h after (Failure.Spares P) := by
  refine Action.ends_iff.2 ⟨hafter, fun failure h' hstep => ?_⟩
  rw [Action.step_assign] at hstep
  cases failure with
  | aborted fault => trivial
  | refused refusal =>
    rcases hresult : (f h).result with failure | ⟨a, h''⟩
    · rw [hresult] at hstep
      cases hstep
      exact absurd hresult (hf refusal)
    · rw [hresult] at hstep
      cases hstep

theorem unrefused_counter {α β : Type} (x : Except Fault α) (put : α → β) :
    (do let counted ← Logged.attempt x; pure (put counted) : Logged Failure β).Unrefused :=
  (Logged.unrefused_attempt x).bind fun _ _ => Logged.unrefused_of_ok rfl

theorem ends_charge {cycles : Nat} {after : Unit → Hierarchy → Prop}
    (hafter : ∀ a h', (charge cycles).step h = (.ok a, h') → after a h') :
    Action.Ends (charge cycles) h after (Failure.Spares P) :=
  ends_assign (unrefused_counter _ _) hafter

theorem ends_count {update : Tally → Except Fault Tally} {after : Unit → Hierarchy → Prop}
    (hafter : ∀ a h', (count level update).step h = (.ok a, h') → after a h') :
    Action.Ends (count level update) h after (Failure.Spares P) := by
  refine ends_assign ?_ hafter
  cases h.levels[level]? with
  | none => exact Logged.unrefused_attempt _
  | some l => exact unrefused_counter _ _

theorem ends_countEviction {gone : Option Eviction} {after : Unit → Hierarchy → Prop}
    (hafter : ∀ a h', (countEviction level gone).step h = (.ok a, h') → after a h') :
    Action.Ends (countEviction level gone) h after (Failure.Spares P) := by
  refine Action.Ends.of_failed ?_ hafter
  cases gone with
  | none => trivial
  | some evicted =>
    refine Action.ends_bind.2 (ends_count fun _ h₁ _ => ?_)
    split
    · exact ends_count fun _ _ _ => trivial
    · trivial

/-- An access to a store that is refused leaves the row as it was. -/
theorem ends_onStore_access {after : AccessOutcome → Hierarchy → Prop}
    (hafter : ∀ outcome h', (onStore level (Store.access address kind)).step h = (.ok outcome, h') →
      after outcome h') (hP : P h) :
    Action.Ends (onStore level (Store.access address kind)) h after (Failure.Spares P) := by
  refine Action.ends_iff.2 ⟨hafter, fun failure h' hstep => ?_⟩
  cases failure with
  | aborted fault => trivial
  | refused refusal =>
    cases hl : h.levels[level]? with
    | none =>
      rw [step_onStore_none hl] at hstep
      cases hstep
    | some l =>
      rcases haccess : (Store.access address kind).step l.store with ⟨result, store⟩
      rw [step_onStore hl, haccess] at hstep
      cases hstep
      rw [Store.access_of_refused haccess]
      obtain ⟨hlt, rfl⟩ := List.getElem?_eq_some_iff.1 hl
      rw [List.set_getElem_self]
      exact hP

theorem ends_visit {after : AccessOutcome → Hierarchy → Prop}
    (hafter : ∀ outcome h', (visit address level kind).step h = (.ok outcome, h') →
      after outcome h') (hP : P h) :
    Action.Ends (visit address level kind) h after (Failure.Spares P) := by
  refine Action.Ends.of_failed ?_ hafter
  unfold visit
  refine Action.ends_bind.2 (ends_onStore_access (fun outcome h₁ _ => ?_) hP)
  refine Action.ends_bind.2 (ends_charge fun _ h₂ _ => ?_)
  split
  · exact Action.ends_bind.2 (ends_count fun _ _ _ => trivial)
  · refine Action.ends_bind.2 (ends_count fun _ h₃ _ => ?_)
    exact Action.ends_bind.2 (ends_countEviction fun _ _ _ => trivial)

theorem ends_deposit {after : AccessOutcome → Hierarchy → Prop}
    (hafter : ∀ outcome h', (deposit address level).step h = (.ok outcome, h') →
      after outcome h') (hP : P h) :
    Action.Ends (deposit address level) h after (Failure.Spares P) := by
  refine Action.Ends.of_failed ?_ hafter
  unfold deposit
  refine Action.ends_bind.2 (ends_onStore_access (fun outcome h₁ _ => ?_) hP)
  split
  · trivial
  · exact Action.ends_bind.2 (ends_countEviction fun _ _ _ => trivial)

theorem ends_countMemoryAccess {after : Unit → Hierarchy → Prop}
    (hafter : ∀ a h', countMemoryAccess.step h = (.ok a, h') → after a h') :
    Action.Ends countMemoryAccess h after (Failure.Spares P) := by
  refine Action.Ends.of_failed ?_ hafter
  unfold countMemoryAccess
  refine Action.ends_bind.2 (ends_assign (unrefused_counter _ _) fun _ h₁ _ => ?_)
  exact Action.ends_bind.2 (ends_charge fun _ _ _ => trivial)

theorem ends_countMemoryWriteback {after : Unit → Hierarchy → Prop}
    (hafter : ∀ a h', countMemoryWriteback.step h = (.ok a, h') → after a h') :
    Action.Ends countMemoryWriteback h after (Failure.Spares P) :=
  ends_assign (unrefused_counter _ _) hafter

end Hierarchy

end AssocCache
