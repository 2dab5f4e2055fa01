import AssocCache.Hierarchy
import AssocCache.Proofs.Store.Cases

/-!
# What a run does to a hierarchy

The parts of an access to a hierarchy, opened once and for all.

* `onStore_eq_ok_iff` and the lemmas about counters say what a single part changes.
  Only an operation on a store changes the stores (`stores_of_onStore`).
* `descend_cons_eq_ok_iff`, `writeBack_cons_eq_ok_iff`, `writeBackAll_cons_eq_ok_iff`
  and `accessLine_eq_ok_iff` say which parts a longer run that succeeds consists of.

They hold of every hierarchy, well-formed or not.
-/

namespace AssocCache

/-- What the counters of a run have in common: an update that may overflow. -/
theorem Action.step_counter_eq_ok_iff {σ α : Type} {s t : σ} {count : σ → Except Fault α}
    {put : σ → α → σ} :
    (Action.assign fun s => do
        let counted ← Logged.attempt (count s)
        pure ((), put s counted)).step s = (.ok (), t) ↔
      ∃ counted, count s = .ok counted ∧ t = put s counted := by
  rw [Action.step_assign_eq_ok_iff, Logged.result_bind_eq_ok_iff]
  refine exists_congr fun counted => ?_
  rw [Logged.result_attempt_eq_ok_iff, Logged.result_pure, Except.ok.injEq, Prod.mk.injEq]
  simp [eq_comm]

/-- The counts after a line had to go, if there was one. -/
def Tally.countGone (t : Tally) : Option Eviction → Except Fault Tally
  | none => .ok t
  | some evicted => do
    let t ← t.countEviction
    if evicted.wasDirty then t.countWriteback else pure t

namespace Hierarchy

variable {h h' : Hierarchy} {level address : Nat} {below : List Nat} {kind : AccessKind}

/-- The stores of a hierarchy, without what was counted about them. -/
def stores (h : Hierarchy) : List (Store AnyPolicy) := h.levels.map (·.store)

/-- A change to a level that was just changed. -/
theorem getElem?_set_levels {l l' : Level} (hl : h.levels[level]? = some l) :
    (h.levels.set level l')[level]? = some l' :=
  List.getElem?_set_self (List.getElem?_eq_some_iff.1 hl).1

/-! ## Single parts -/

theorem onStore_eq_ok_iff {α : Type} {operation : Action Failure (Store AnyPolicy) α} {a : α} :
    (onStore level operation).step h = (.ok a, h') ↔
      ∃ l store, h.levels[level]? = some l ∧ operation.step l.store = (.ok a, store) ∧
        h' = { h with levels := h.levels.set level { l with store } } := by
  unfold Action.step onStore
  cases hl : h.levels[level]? with
  | none => simp
  | some l =>
    simp only [Prod.mk.injEq, Option.some.injEq]
    constructor
    · intro ⟨hresult, hstate⟩
      exact ⟨l, _, rfl, ⟨hresult, rfl⟩, hstate.symm⟩
    · intro ⟨_, store, hsame, ⟨hresult, hstore⟩, hstate⟩
      subst hsame
      subst hstore
      exact ⟨hresult, hstate.symm⟩

/-- Operations on one store one after the other are one operation on it. -/
theorem onStore_bind_eq_ok_iff {α β : Type} {x : Action Failure (Store AnyPolicy) α}
    {f : α → Action Failure (Store AnyPolicy) β} {b : β} :
    (onStore level (x >>= f)).step h = (.ok b, h') ↔
      ∃ a h₁, (onStore level x).step h = (.ok a, h₁) ∧
        (onStore level (f a)).step h₁ = (.ok b, h') := by
  simp only [onStore_eq_ok_iff, Action.step_bind_eq_ok_iff]
  constructor
  · intro ⟨l, t, hl, ⟨a, u, hx, hf⟩, hstate⟩
    refine ⟨a, _, ⟨l, u, hl, hx, rfl⟩, { l with store := u }, t, ?_, hf, ?_⟩
    · exact List.getElem?_set_self (List.getElem?_eq_some_iff.1 hl).1
    · rw [hstate, List.set_set]
  · intro ⟨a, h₁, ⟨l, u, hl, hx, hstate₁⟩, l', t, hl', hf, hstate⟩
    subst hstate₁
    rw [List.getElem?_set_self (List.getElem?_eq_some_iff.1 hl).1, Option.some.injEq] at hl'
    subst hl'
    refine ⟨l, t, hl, ⟨a, u, hx, hf⟩, ?_⟩
    rw [hstate, List.set_set]

theorem onStore_pure_eq_ok_iff {α : Type} {a b : α} :
    (onStore level (pure a : Action Failure (Store AnyPolicy) α)).step h = (.ok b, h') ↔
      level < h.levels.length ∧ b = a ∧ h' = h := by
  simp only [onStore_eq_ok_iff, Action.step_pure, Prod.mk.injEq, Except.ok.injEq]
  constructor
  · intro ⟨l, store, hl, ⟨hanswer, hstore⟩, hstate⟩
    obtain ⟨hlt, hget⟩ := List.getElem?_eq_some_iff.1 hl
    subst hstore
    refine ⟨hlt, hanswer.symm, ?_⟩
    rw [hstate, ← hget, List.set_getElem_self]
  · intro ⟨hlt, hanswer, hstate⟩
    refine ⟨h.levels[level], _, List.getElem?_eq_getElem hlt, ⟨hanswer.symm, rfl⟩, ?_⟩
    rw [hstate, List.set_getElem_self]

theorem onStore_access_eq_ok_iff {outcome : AccessOutcome} :
    (onStore level (Store.access address kind)).step h = (.ok outcome, h') ↔
      ∃ lookup h₁, (onStore level (Store.probe address kind)).step h = (.ok lookup, h₁) ∧
        (lookup.hit = true ∧ outcome = ⟨lookup, none⟩ ∧ h' = h₁ ∨
          lookup.hit = false ∧ ∃ install,
            (onStore level (Store.fill address kind)).step h₁ = (.ok install, h') ∧
              outcome = ⟨lookup, some install⟩) := by
  unfold Store.access
  rw [onStore_bind_eq_ok_iff]
  refine exists_congr fun lookup => exists_congr fun h₁ => and_congr_right fun hprobe => ?_
  cases lookup.hit with
  | true =>
    rw [if_pos rfl, onStore_pure_eq_ok_iff]
    obtain ⟨l, store, hl, -, hstate⟩ := onStore_eq_ok_iff.1 hprobe
    have hlt : level < h₁.levels.length := by
      rw [hstate, List.length_set]
      exact (List.getElem?_eq_some_iff.1 hl).1
    simp [hlt]
  | false =>
    rw [if_neg Bool.false_ne_true, onStore_bind_eq_ok_iff]
    simp only [Bool.false_eq_true, false_and, false_or, true_and]
    refine exists_congr fun install => ?_
    constructor
    · intro ⟨h₂, hfill, hpure⟩
      obtain ⟨-, houtcome, rfl⟩ := onStore_pure_eq_ok_iff.1 hpure
      exact ⟨hfill, houtcome⟩
    · intro ⟨hfill, houtcome⟩
      refine ⟨h', hfill, onStore_pure_eq_ok_iff.2 ⟨?_, houtcome, rfl⟩⟩
      obtain ⟨l, store, hl, -, hstate⟩ := onStore_eq_ok_iff.1 hfill
      rw [hstate, List.length_set]
      exact (List.getElem?_eq_some_iff.1 hl).1

/-- Nothing has to go for a line that is there. -/
theorem evicted_of_hit {outcome : AccessOutcome}
    (hstep : (onStore level (Store.access address kind)).step h = (.ok outcome, h'))
    (hhit : outcome.hit = true) : outcome.evicted = none := by
  obtain ⟨l, store, -, haccess, -⟩ := onStore_eq_ok_iff.1 hstep
  exact Store.evicted_of_hit haccess hhit

theorem count_eq_ok_iff {event : Tally → Except Fault Tally} :
    (count level event).step h = (.ok (), h') ↔
      ∃ l tally, h.levels[level]? = some l ∧ event l.tally = .ok tally ∧
        h' = { h with levels := h.levels.set level { l with tally } } := by
  unfold count
  rw [Action.step_assign_eq_ok_iff]
  cases hl : h.levels[level]? with
  | none => simp
  | some l =>
    simp only [Logged.result_bind_eq_ok_iff, Logged.result_attempt_eq_ok_iff, Logged.result_pure,
      Except.ok.injEq, Prod.mk.injEq, true_and, Option.some.injEq]
    constructor
    · intro ⟨tally, hcount, hstate⟩
      exact ⟨l, tally, rfl, hcount, hstate.symm⟩
    · intro ⟨_, tally, hsame, hcount, hstate⟩
      subst hsame
      exact ⟨tally, hcount, hstate.symm⟩

theorem lt_of_count {event : Tally → Except Fault Tally}
    (hstep : (count level event).step h = (.ok (), h')) : level < h'.levels.length := by
  obtain ⟨l, tally, hl, -, rfl⟩ := count_eq_ok_iff.1 hstep
  rw [List.length_set]
  exact (List.getElem?_eq_some_iff.1 hl).1

/-- Two updates of a level one after the other are one update of it. -/
theorem count_bind_eq_ok_iff {first second : Tally → Except Fault Tally} :
    (count level fun t => first t >>= second).step h = (.ok (), h') ↔
      ∃ h₁, (count level first).step h = (.ok (), h₁) ∧
        (count level second).step h₁ = (.ok (), h') := by
  simp only [count_eq_ok_iff, Success.bind_eq_ok_iff]
  constructor
  · intro ⟨l, tally, hl, ⟨between, hfirst, hsecond⟩, hstate⟩
    refine ⟨_, ⟨l, between, hl, hfirst, rfl⟩, _, tally, getElem?_set_levels hl, hsecond, ?_⟩
    rw [hstate, List.set_set]
  · intro ⟨h₁, ⟨l, between, hl, hfirst, hstate₁⟩, l', tally, hl', hsecond, hstate⟩
    subst hstate₁
    rw [getElem?_set_levels hl, Option.some.injEq] at hl'
    subst hl'
    refine ⟨l, tally, hl, ⟨between, hfirst, hsecond⟩, ?_⟩
    rw [hstate, List.set_set]

/-- An update of a level that changes nothing. -/
theorem count_pure_eq_ok_iff (hlt : level < h.levels.length) :
    (count level Except.ok).step h = (.ok (), h') ↔ h' = h := by
  rw [count_eq_ok_iff]
  constructor
  · rintro ⟨l, _, hl, htally, rfl⟩
    cases htally
    obtain ⟨-, rfl⟩ := List.getElem?_eq_some_iff.1 hl
    rw [List.set_getElem_self]
  · rintro rfl
    exact ⟨_, _, List.getElem?_eq_getElem hlt, rfl, by rw [List.set_getElem_self]⟩

/-- The two counts of a line that had to go are one update of its level. -/
theorem countEviction_eq_ok_iff {gone : Option Eviction} (hlt : level < h.levels.length) :
    (countEviction level gone).step h = (.ok (), h') ↔
      (count level (·.countGone gone)).step h = (.ok (), h') := by
  cases gone with
  | none =>
    show (pure () : Run Unit).step h = _ ↔ (count level Except.ok).step h = _
    rw [Action.step_pure, count_pure_eq_ok_iff hlt]
    simp [eq_comm]
  | some evicted =>
    -- A line that is not dirty adds nothing to the write-backs.
    have hrest : ∀ {h₁ : Hierarchy}, (count level Tally.countEviction).step h = (.ok (), h₁) →
        ((if evicted.wasDirty then count level Tally.countWriteback else pure () : Run Unit).step h₁ =
            (.ok (), h') ↔
          (count level fun t => if evicted.wasDirty then t.countWriteback else pure t).step h₁ =
            (.ok (), h')) := by
      intro h₁ hcount
      cases evicted.wasDirty with
      | true => rfl
      | false =>
        obtain ⟨l, tally, -, -, rfl⟩ := count_eq_ok_iff.1 hcount
        show (pure () : Run Unit).step _ = _ ↔ (count level Except.ok).step _ = _
        rw [Action.step_pure, count_pure_eq_ok_iff (by rwa [List.length_set])]
        simp [eq_comm]
    refine Action.step_bind_eq_ok_iff.trans (Iff.trans ?_ count_bind_eq_ok_iff.symm)
    constructor
    · rintro ⟨_, h₁, hcount, hstep⟩
      exact ⟨h₁, hcount, (hrest hcount).1 hstep⟩
    · rintro ⟨h₁, hcount, hstep⟩
      exact ⟨(), h₁, hcount, (hrest hcount).2 hstep⟩

theorem charge_eq_ok_iff {cycles : Nat} :
    (charge cycles).step h = (.ok (), h') ↔
      ∃ total, Word.add 64 h.cycles cycles = .ok total ∧ h' = { h with cycles := total } :=
  Action.step_counter_eq_ok_iff

theorem countMemoryWriteback_eq_ok_iff :
    countMemoryWriteback.step h = (.ok (), h') ↔
      ∃ memoryWritebacks, Word.add 64 h.memoryWritebacks 1 = .ok memoryWritebacks ∧
        h' = { h with memoryWritebacks } :=
  Action.step_counter_eq_ok_iff

theorem countMemoryAccess_eq_ok_iff :
    countMemoryAccess.step h = (.ok (), h') ↔
      ∃ memoryAccesses cycles, Word.add 64 h.memoryAccesses 1 = .ok memoryAccesses ∧
        Word.add 64 h.cycles h.memoryLatency = .ok cycles ∧
        h' = { h with memoryAccesses, cycles } := by
  have hcounted : ∀ {h₁ : Hierarchy}, (Action.assign fun h : Hierarchy => do
      let memoryAccesses ← Logged.attempt (Word.add 64 h.memoryAccesses 1)
      pure ((), { h with memoryAccesses })).step h = (.ok (), h₁) ↔
        ∃ memoryAccesses, Word.add 64 h.memoryAccesses 1 = .ok memoryAccesses ∧
          h₁ = { h with memoryAccesses } := Action.step_counter_eq_ok_iff
  unfold countMemoryAccess
  simp only [Action.step_bind_eq_ok_iff, hcounted, Action.step_get, Prod.mk.injEq,
    Except.ok.injEq]
  constructor
  · rintro ⟨_, h₁, ⟨accesses, haccesses, rfl⟩, _, _, ⟨rfl, rfl⟩, hcharge⟩
    obtain ⟨cycles, hcycles, rfl⟩ := charge_eq_ok_iff.1 hcharge
    exact ⟨accesses, cycles, haccesses, hcycles, rfl⟩
  · rintro ⟨accesses, cycles, haccesses, hcycles, rfl⟩
    exact ⟨(), _, ⟨accesses, haccesses, rfl⟩, _, _, ⟨rfl, rfl⟩,
      charge_eq_ok_iff.2 ⟨cycles, hcycles, rfl⟩⟩

/-! ## The stores after a part -/

theorem stores_of_onStore {α : Type} {operation : Action Failure (Store AnyPolicy) α} {a : α}
    (hstep : (onStore level operation).step h = (.ok a, h')) :
    ∃ s t, h.stores[level]? = some s ∧ operation.step s = (.ok a, t) ∧
      h'.stores = h.stores.set level t := by
  obtain ⟨l, store, hl, hoperation, rfl⟩ := onStore_eq_ok_iff.1 hstep
  refine ⟨l.store, store, ?_, hoperation, ?_⟩
  · rw [stores, List.getElem?_map, hl]
    rfl
  · rw [stores, stores, List.map_set]

theorem stores_of_count {event : Tally → Except Fault Tally}
    (hstep : (count level event).step h = (.ok (), h')) : h'.stores = h.stores := by
  obtain ⟨l, tally, hl, -, rfl⟩ := count_eq_ok_iff.1 hstep
  have hstore : h.stores[level]? = some l.store := by
    rw [stores, List.getElem?_map, hl]
    rfl
  obtain ⟨hlt, hget⟩ := List.getElem?_eq_some_iff.1 hstore
  show (h.levels.set level _).map _ = h.stores
  rw [List.map_set]
  show h.stores.set level l.store = h.stores
  rw [← hget, List.set_getElem_self]

theorem stores_of_countEviction {gone : Option Eviction}
    (hstep : (countEviction level gone).step h = (.ok (), h')) : h'.stores = h.stores := by
  cases gone with
  | none =>
    cases hstep
    rfl
  | some evicted =>
    obtain ⟨_, h₁, hcount, hrest⟩ := Action.step_bind_eq_ok_iff.1 hstep
    cases hdirty : evicted.wasDirty with
    | false =>
      rw [hdirty] at hrest
      cases hrest
      exact stores_of_count hcount
    | true =>
      rw [hdirty] at hrest
      exact (stores_of_count hrest).trans (stores_of_count hcount)

theorem stores_of_charge {cycles : Nat} (hstep : (charge cycles).step h = (.ok (), h')) :
    h'.stores = h.stores := by
  obtain ⟨total, -, rfl⟩ := charge_eq_ok_iff.1 hstep
  rfl

theorem stores_of_countMemoryWriteback (hstep : countMemoryWriteback.step h = (.ok (), h')) :
    h'.stores = h.stores := by
  obtain ⟨total, -, rfl⟩ := countMemoryWriteback_eq_ok_iff.1 hstep
  rfl

theorem stores_of_countMemoryAccess (hstep : countMemoryAccess.step h = (.ok (), h')) :
    h'.stores = h.stores := by
  obtain ⟨accesses, cycles, -, -, rfl⟩ := countMemoryAccess_eq_ok_iff.1 hstep
  rfl

/-! ## Descents -/

theorem victim?_eq_some_iff {gone : Option Eviction} {victim : Victim} :
    victim? below gone = some victim ↔
      ∃ evicted ∈ gone, evicted.wasDirty = true ∧ victim = ⟨evicted.address, below⟩ := by
  cases gone with
  | none => simp [victim?]
  | some evicted =>
    cases hdirty : evicted.wasDirty with
    | true =>
      rw [victim?, hdirty, if_pos rfl, Option.some.injEq]
      constructor
      · intro hvictim
        exact ⟨evicted, rfl, hdirty, hvictim.symm⟩
      · intro ⟨_, hsame, _, hvictim⟩
        cases hsame
        exact hvictim.symm
    | false => simp [victim?, hdirty]

theorem descend_nil_eq_ok_iff {descent : Descent} :
    (descend address [] kind).step h = (.ok descent, h') ↔ descent = ⟨false, []⟩ ∧ h' = h := by
  rw [descend, Action.step_pure]
  simp [eq_comm]

theorem descend_cons_eq_ok_iff {descent : Descent} :
    (descend address (level :: below) kind).step h = (.ok descent, h') ↔
      ∃ outcome h₁ h₂, (onStore level (Store.access address kind)).step h = (.ok outcome, h₁) ∧
        (charge outcome.lookup.latency).step h₁ = (.ok (), h₂) ∧
        (outcome.hit = true ∧ (count level Tally.countHit).step h₂ = (.ok (), h') ∧
            descent = ⟨true, []⟩ ∨
          outcome.hit = false ∧ ∃ h₃ h₄ rest,
            (count level Tally.countMiss).step h₂ = (.ok (), h₃) ∧
            (countEviction level outcome.evicted).step h₃ = (.ok (), h₄) ∧
            (descend address below .read).step h₄ = (.ok rest, h') ∧
            descent = { rest with
              victims := (victim? below outcome.evicted).toList ++ rest.victims }) := by
  rw [descend]
  simp only [Action.step_bind_eq_ok_iff]
  refine exists_congr fun outcome => ?_
  cases hhit : outcome.hit with
  | true =>
    simp only [if_true, Action.step_bind_eq_ok_iff, Action.step_pure, Prod.mk.injEq,
      Except.ok.injEq, true_and, reduceCtorEq, false_and, or_false]
    grind
  | false =>
    simp only [Bool.false_eq_true, if_false, Action.step_bind_eq_ok_iff, Action.step_pure,
      Prod.mk.injEq, Except.ok.injEq, false_and, false_or, true_and]
    grind

/-! ## Lines that are written back -/

theorem writeBack_nil_eq_ok_iff {written : Option Nat} :
    (writeBack [] address).step h = (.ok written, h') ↔
      countMemoryWriteback.step h = (.ok (), h') ∧ written = some address := by
  rw [writeBack]
  simp only [Action.step_bind_eq_ok_iff, Action.step_pure, Prod.mk.injEq, Except.ok.injEq]
  grind

/-- To its store a write-back is an access like any other. -/
theorem writeBack_cons_eq_ok_iff {written : Option Nat} :
    (writeBack (level :: below) address).step h = (.ok written, h') ↔
      ∃ outcome h₁, (onStore level (Store.access address .writeback)).step h = (.ok outcome, h₁) ∧
        (outcome.hit = true ∧ written = none ∧ h' = h₁ ∨
          outcome.hit = false ∧ ∃ h₂,
            (countEviction level outcome.evicted).step h₁ = (.ok (), h₂) ∧
            (victim? below outcome.evicted = none ∧ written = none ∧ h' = h₂ ∨
              ∃ victim, victim? below outcome.evicted = some victim ∧
                (writeBack below victim.address).step h₂ = (.ok written, h'))) := by
  rw [writeBack]
  simp only [Action.step_bind_eq_ok_iff, onStore_access_eq_ok_iff]
  constructor
  · rintro ⟨lookup, h₁, hprobe, hrest⟩
    cases hhit : lookup.hit with
    | true =>
      rw [hhit, if_pos rfl] at hrest
      cases hrest
      exact ⟨⟨lookup, none⟩, h₁, ⟨lookup, h₁, hprobe, Or.inl ⟨hhit, rfl, rfl⟩⟩,
        Or.inl ⟨hhit, rfl, rfl⟩⟩
    | false =>
      rw [hhit, if_neg Bool.false_ne_true] at hrest
      simp only [Action.step_bind_eq_ok_iff] at hrest
      obtain ⟨install, h₂, hfill, _, h₃, hcount, hrest⟩ := hrest
      refine ⟨⟨lookup, some install⟩, h₂,
        ⟨lookup, h₁, hprobe, Or.inr ⟨hhit, install, hfill, rfl⟩⟩,
        Or.inr ⟨hhit, h₃, hcount, ?_⟩⟩
      cases hvictim : victim? below install.evicted with
      | none =>
        rw [hvictim] at hrest
        cases hrest
        exact Or.inl ⟨hvictim, rfl, rfl⟩
      | some victim =>
        simp only [hvictim, Action.step_bind, Action.step_note] at hrest
        exact Or.inr ⟨victim, hvictim, hrest⟩
  · rintro ⟨outcome, h₂, ⟨lookup, h₁, hprobe, haccess⟩, hrest⟩
    refine ⟨lookup, h₁, hprobe, ?_⟩
    rcases haccess with ⟨hhit, rfl, rfl⟩ | ⟨hhit, install, hfill, rfl⟩
    · rcases hrest with ⟨-, rfl, rfl⟩ | ⟨hmiss, -⟩
      · rw [hhit, if_pos rfl]
        rfl
      · rw [AccessOutcome.hit, hhit] at hmiss
        cases hmiss
    · rcases hrest with ⟨hcontra, -⟩ | ⟨-, h₃, hcount, hrest⟩
      · rw [AccessOutcome.hit, hhit] at hcontra
        cases hcontra
      · rw [hhit, if_neg Bool.false_ne_true]
        simp only [Action.step_bind_eq_ok_iff]
        refine ⟨install, h₂, hfill, (), h₃, hcount, ?_⟩
        rcases hrest with ⟨hvictim, rfl, rfl⟩ | ⟨victim, hvictim, hwrite⟩
        · rw [show victim? below install.evicted = none from hvictim]
          rfl
        · simp only [show victim? below install.evicted = some victim from hvictim,
            Action.step_bind, Action.step_note]
          exact hwrite

theorem writeBackAll_nil_eq_ok_iff {written : List Nat} :
    (writeBackAll []).step h = (.ok written, h') ↔ written = [] ∧ h' = h := by
  rw [writeBackAll, Action.step_pure]
  simp [eq_comm]

theorem writeBackAll_cons_eq_ok_iff {victim : Victim} {victims : List Victim}
    {written : List Nat} :
    (writeBackAll (victim :: victims)).step h = (.ok written, h') ↔
      ∃ first h₁ rest, (writeBack victim.below victim.address).step h = (.ok first, h₁) ∧
        (writeBackAll victims).step h₁ = (.ok rest, h') ∧ written = first.toList ++ rest := by
  rw [writeBackAll]
  simp only [Action.step_bind_eq_ok_iff, Action.step_pure, Prod.mk.injEq, Except.ok.injEq]
  grind

theorem accessLine_eq_ok_iff {written : List Nat} :
    (accessLine address kind).step h = (.ok written, h') ↔
      ∃ descent h₁ h₂,
        (descend address (List.range h.levels.length) kind).step h = (.ok descent, h₁) ∧
        (descent.served = true ∧ h₂ = h₁ ∨
          descent.served = false ∧ countMemoryAccess.step h₁ = (.ok (), h₂)) ∧
        (writeBackAll descent.victims).step h₂ = (.ok written, h') := by
  unfold accessLine
  rw [Action.step_bind, Action.step_get]
  dsimp only
  rw [Action.step_bind_eq_ok_iff]
  refine exists_congr fun descent => exists_congr fun h₁ => ?_
  cases hserved : descent.served with
  | true =>
    simp only [Bool.not_true, Bool.false_eq_true, if_false, Bool.true_eq_false, false_and, or_false]
    constructor
    · rintro ⟨hdescend, hwrite⟩
      exact ⟨h₁, hdescend, ⟨trivial, rfl⟩, hwrite⟩
    · rintro ⟨h₂, hdescend, ⟨_, hsame⟩, hwrite⟩
      subst hsame
      exact ⟨hdescend, hwrite⟩
  | false =>
    simp only [Bool.not_false, if_true, Bool.false_eq_true, false_and, false_or,
      Action.step_bind_eq_ok_iff]
    constructor
    · rintro ⟨hdescend, _, h₂, hcount, hwrite⟩
      exact ⟨h₂, hdescend, ⟨trivial, hcount⟩, hwrite⟩
    · rintro ⟨h₂, hdescend, ⟨_, hcount⟩, hwrite⟩
      exact ⟨hdescend, (), h₂, hcount, hwrite⟩

end Hierarchy

end AssocCache
