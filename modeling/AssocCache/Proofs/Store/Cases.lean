import AssocCache.Proofs.Action
import AssocCache.Proofs.CacheSet.WellFormed
import AssocCache.Store

/-!
# What an operation does to a store

The three basic operations of a store and the access that is made of two of them, opened
once and for all.  Each works on the one set that its address maps to (`Store.Maps`).

* Once the address maps to a set, an operation is a sequence of steps on that set and on the
  statistics.  `probeWithin`, `fillWithin` and `invalidateWithin` are these sequences, without
  what is logged and without the store between two steps.  `probe_of_maps`, `fill_of_maps`
  and `invalidate_of_maps` show that the operations come to the same, with a fault too.
  `CacheSet.bringIn` is what a fill does to the set.
* `probe_eq_ok_iff`, `fill_eq_ok_iff` and `invalidate_eq_ok_iff` say which steps on the set
  an operation that answers consists of, and `access_eq_ok_iff` which operations an access.
* An operation changes the store part by part.  `step_probe_of_refused`,
  `step_fill_of_refused` and `step_invalidate_of_refused` show that no part has changed it
  when the operation is refused: only faults come from the parts that do change it.

They hold of every policy and of every state of a store.
-/

namespace AssocCache

open Success

/-! ## Steps on a set and on the statistics -/

namespace Stats

/-- The statistics after an eviction, with the write-back of a dirty line. -/
def countReplacement (stats : Stats) (wasDirty : Bool) : Except Fault Stats := do
  let stats ← stats.countEviction
  if wasDirty then stats.countWriteback else pure stats

/-- An eviction adds to its own count first, and then to the write-backs. -/
theorem countReplacement_eq (stats : Stats) (wasDirty : Bool) :
    stats.countReplacement wasDirty = (do
      let evictions ← Word.add 64 stats.evictions 1
      if wasDirty then
        let writebacks ← Word.add 64 stats.writebacks 1
        pure { stats with evictions, writebacks }
      else
        pure { stats with evictions }) := by
  unfold countReplacement countEviction
  cases Word.add 64 stats.evictions 1 with
  | error fault => rfl
  | ok evictions => cases wasDirty <;> rfl

/-- The statistics after a fill, which vacated the block first if it was valid. -/
def countFill (stats : Stats) : Option Block → Except Fault Stats
  | some block => stats.countReplacement block.dirty
  | none => stats.countArrival

/-- The statistics after an invalidation, which vacated the block if there was one. -/
def countVacated (stats : Stats) : Option Block → Except Fault Stats
  | some _ => stats.countDeparture
  | none => .ok stats

end Stats

variable {π : Type} [Policy π]

/-- A step and what follows it, with the faults seen as failures afterwards. -/
theorem Logged.result_bind_mapError {α β : Type} {x : Logged Failure α} {y : Except Fault α}
    {rest : α → Logged Failure β} {last : α → Except Fault β}
    (hstep : x.result = y.mapError .aborted)
    (hrest : ∀ a, (rest a).result = (last a).mapError .aborted) :
    (x >>= rest).result = (y >>= last).mapError .aborted := by
  rw [result_bind, hstep]
  cases y with
  | error fault => rfl
  | ok a => exact hrest a

/-- An attempt and what follows it. -/
theorem Logged.result_attempt_bind {α β : Type} {x : Except Fault α} {rest : α → Logged Failure β}
    {last : α → Except Fault β} (hrest : ∀ a, (rest a).result = (last a).mapError .aborted) :
    (attempt x >>= rest).result = (x >>= last).mapError .aborted :=
  result_bind_mapError (result_attempt x) hrest

/-- A fault is not a refusal. -/
theorem mapError_aborted_ne_refused {α : Type} (x : Except Fault α) (refusal : Refusal) :
    x.mapError Failure.aborted ≠ .error (.refused refusal) := by
  cases x <;> simp

/-- An action that can only fault, and what follows it. -/
theorem Action.outcome_bind_mapError {σ α β γ : Type} {x : Action Failure σ α}
    {f : α → Action Failure σ β} {s : σ} {y : Except Fault γ} {seen : γ → α × σ}
    {last : γ → Except Fault (β × σ)} (hx : x.outcome s = (y.map seen).mapError .aborted)
    (hf : ∀ c, (f (seen c).1).outcome (seen c).2 = (last c).mapError .aborted) :
    (x >>= f).outcome s = (y >>= last).mapError .aborted := by
  rw [outcome_bind, hx]
  cases y with
  | error fault => rfl
  | ok c => exact hf c

namespace CacheSet

/-- The way a new line goes to, as `Store.chooseWay` without what is logged. -/
def choose (set : CacheSet) (policy : π) : Except Fault (Nat × π × CacheSet) :=
  match set.vacancy with
  | some way => .ok (way, policy, set)
  | none => do
    let (way, chosen, aged) ← Policy.chooseVictim policy set
    if way < aged.associativity then
      pure (way, chosen, aged)
    else
      .error (aged.broken (.noSuchWay way))

/-- A line enters the set, in the place of another one if the set is full. -/
def bringIn (set : CacheSet) (policy : π) (tag : Nat) (kind : MemoryKind) (access : AccessKind) :
    Except Fault (Nat × Option Block × π × CacheSet) := do
  let (way, policy, set) ← set.choose policy
  let (victim, policy, set) ← set.vacate policy way
  let (policy, set) ← set.accept policy way tag kind access
  pure (way, victim, policy, set)

theorem choose_of_vacancy {set : CacheSet} {way : Nat} (hvacancy : set.vacancy = some way)
    (policy : π) : set.choose policy = .ok (way, policy, set) := by
  rw [choose, hvacancy]

theorem choose_of_full {set aged : CacheSet} {policy chosen : π} {way : Nat}
    (hvacancy : set.vacancy = none)
    (hchoice : Policy.chooseVictim policy set = .ok (way, chosen, aged))
    (hlt : way < aged.blocks.length) : set.choose policy = .ok (way, chosen, aged) := by
  rw [choose, hvacancy]
  exact bind_eq_ok_iff.2 ⟨(way, chosen, aged), hchoice, if_pos hlt⟩

theorem result_chooseWay (set : CacheSet) (policy : π) :
    (Store.chooseWay set policy).result = (set.choose policy).mapError .aborted := by
  unfold Store.chooseWay choose
  cases set.vacancy with
  | some way => rfl
  | none =>
    refine Logged.result_attempt_bind fun ⟨way, chosen, aged⟩ => ?_
    rw [Logged.result_bind, Logged.result_noteIfAny]
    simp only [Except.bind]
    split
    · rfl
    · exact Logged.result_attempt _

theorem bringIn_eq_ok_iff {set set' : CacheSet} {policy policy' : π} {tag way : Nat}
    {kind : MemoryKind} {access : AccessKind} {victim : Option Block} :
    set.bringIn policy tag kind access = .ok (way, victim, policy', set') ↔
      ∃ policy₁ set₁ policy₂ set₂,
        (Store.chooseWay set policy).result = .ok (way, policy₁, set₁) ∧
        set₁.vacate policy₁ way = .ok (victim, policy₂, set₂) ∧
        set₂.accept policy₂ way tag kind access = .ok (policy', set') := by
  simp only [bringIn, bind_eq_ok_iff, pure_eq_ok_iff, Prod.exists, Prod.mk.injEq, result_chooseWay,
    mapError_eq_ok_iff]
  constructor
  · rintro ⟨_, policy₁, set₁, hchoose, _, policy₂, set₂, hvacate, _, _, haccept, rfl, rfl, rfl, rfl⟩
    exact ⟨policy₁, set₁, policy₂, set₂, hchoose, hvacate, haccept⟩
  · rintro ⟨policy₁, set₁, policy₂, set₂, hchoose, hvacate, haccept⟩
    exact ⟨way, policy₁, set₁, hchoose, victim, policy₂, set₂, hvacate, policy', set', haccept, rfl,
      rfl, rfl, rfl⟩

end CacheSet

namespace Store

variable {α : Type} {s t : Store π} {address index : Nat} {line : Line} {set : CacheSet}
  {access : AccessKind}

section

omit [Policy π]

/-- The store after a change to one of its sets. -/
def replace (s : Store π) (index : Nat) (set : CacheSet) (policy : π) (stats : Stats) : Store π :=
  { s with sets := s.sets.setIfInBounds index set, policy, stats }

/-- The address lies in the line, and the line belongs to the set. -/
def Maps (s : Store π) (address : Nat) (line : Line) (set : CacheSet) : Prop :=
  s.geometry.locate address = .ok line ∧ s.sets[line.set]? = some set

theorem setAt_eq_ok_iff : s.setAt index = .ok set ↔ s.sets[index]? = some set := by
  unfold setAt
  split <;> simp_all

theorem getElem?_replace_self (hset : s.sets[index]? = some set) (set₁ : CacheSet) (policy : π)
    (stats : Stats) : (s.replace index set₁ policy stats).sets[index]? = some set₁ := by
  obtain ⟨hlt, -⟩ := Array.getElem?_eq_some_iff.1 hset
  exact Array.getElem?_setIfInBounds_self_of_lt hlt

@[simp] theorem replace_replace (set₁ set₂ : CacheSet) (policy₁ policy₂ : π)
    (stats₁ stats₂ : Stats) :
    (s.replace index set₁ policy₁ stats₁).replace index set₂ policy₂ stats₂ =
      s.replace index set₂ policy₂ stats₂ := by
  simp [replace]

/-! ## The parts of an operation -/

theorem outcome_locate : (locate address).outcome s =
    (s.geometry.locate address).map fun line => (line, s) := by
  rw [locate, Action.outcome_read, Logged.result_ofExcept]

theorem outcome_wayOf (hset : s.sets[line.set]? = some set) :
    (wayOf line).outcome s = .ok (set.find line.tag, s) := by
  rw [wayOf, Action.outcome_read, Logged.result_bind, Logged.result_attempt,
    setAt_eq_ok_iff.2 hset]
  rfl

/-- A step on a set is seen in the store as the change of that set. -/
theorem outcome_onSet (hset : s.sets[index]? = some set)
    {step : π → CacheSet → Logged Failure (α × π × CacheSet)}
    {x : Except Fault (α × π × CacheSet)} (hstep : (step s.policy set).result = x.mapError .aborted) :
    (onSet index step).outcome s =
      (x.map fun y => (y.1, s.replace index y.2.2 y.2.1 s.stats)).mapError .aborted := by
  rw [onSet, Action.outcome_assign, Logged.result_bind, Logged.result_attempt,
    setAt_eq_ok_iff.2 hset]
  simp only [mapError_ok, Except.bind, Logged.result_bind, hstep]
  cases x <;> rfl

theorem outcome_count {event : Stats → Except Fault Stats} :
    (count event).outcome s =
      ((event s.stats).map fun stats => ((), { s with stats })).mapError .aborted := by
  rw [count, Action.outcome_assign, Logged.result_bind, Logged.result_attempt]
  cases event s.stats <;> rfl

/-- Two counts are seen as one. -/
theorem outcome_countEviction {wasDirty : Bool} :
    (countEviction wasDirty).outcome s =
      ((s.stats.countReplacement wasDirty).map fun stats => ((), { s with stats })).mapError
        .aborted := by
  rw [countEviction, Action.outcome_bind, outcome_count, Stats.countReplacement]
  cases s.stats.countEviction with
  | error fault => rfl
  | ok stats =>
    cases wasDirty with
    | false => rfl
    | true => exact outcome_count

/-- Both look-ups that start an operation are over when the address maps to a set. -/
theorem outcome_of_maps {rest : Line → Option Nat → Action Failure (Store π) α}
    (hmaps : s.Maps address line set) :
    (do let line ← locate address
        let way ← wayOf line
        rest line way : Action Failure (Store π) α).outcome s =
      (rest line (set.find line.tag)).outcome s := by
  rw [Action.outcome_bind, outcome_locate, hmaps.1]
  show (wayOf line >>= rest line).outcome s = _
  rw [Action.outcome_bind, outcome_wayOf hmaps.2]
  rfl

/-- An action that fails at once gives no answer. -/
theorem not_fails_of_ok {x : Action Failure (Store π) α} {answer : α × Store π}
    (h : x.outcome s = .ok answer) : ¬ ∃ failure, x.step s = (.error failure, s) := by
  rintro ⟨failure, hstep⟩
  cases (Action.outcome_eq_error_iff.2 ⟨s, hstep⟩).symm.trans h

/-- An action that fails at once has not changed the store. -/
theorem step_of_fails {x : Action Failure (Store π) α} {failure : Failure}
    (hfails : ∃ failure, x.step s = (.error failure, s)) (h : x.outcome s = .error failure) :
    x.step s = (.error failure, s) := by
  obtain ⟨failure', hstep⟩ := hfails
  cases (Action.outcome_eq_error_iff.2 ⟨s, hstep⟩).symm.trans h
  exact hstep

/-- An action that does nothing until its address maps to a set answers as it does there. -/
theorem within_iff {x : Action Failure (Store π) α} {answer : α × Store π}
    {within : Line → CacheSet → Except Fault (α × Store π)}
    (hstart : (∃ line set, s.Maps address line set) ∨ ∃ failure, x.step s = (.error failure, s))
    (hwithin : ∀ line set, s.Maps address line set →
      x.outcome s = (within line set).mapError .aborted) :
    x.outcome s = .ok answer ↔
      ∃ line set, s.Maps address line set ∧ within line set = .ok answer := by
  constructor
  · intro h
    obtain ⟨line, set, hmaps⟩ := hstart.resolve_right (not_fails_of_ok h)
    rw [hwithin line set hmaps, mapError_eq_ok_iff] at h
    exact ⟨line, set, hmaps, h⟩
  · intro ⟨line, set, hmaps, h⟩
    rw [hwithin line set hmaps, h, mapError_ok]

/-- An operation starts with both look-ups, and has not changed the store if one of them
fails. -/
theorem maps_or_fails (s : Store π) (address : Nat)
    (rest : Line → Option Nat → Action Failure (Store π) α) :
    (∃ line set, s.Maps address line set) ∨
      ∃ failure, (do let line ← locate address
                     let way ← wayOf line
                     rest line way : Action Failure (Store π) α).step s = (.error failure, s) := by
  simp only [Action.step_bind, locate, wayOf, Action.step_read, Logged.result_ofExcept]
  cases hlocate : s.geometry.locate address with
  | error failure => exact .inr ⟨failure, rfl⟩
  | ok line =>
    dsimp only
    rw [Logged.result_bind, Logged.result_attempt]
    cases hset : s.setAt line.set with
    | error fault => exact .inr ⟨.aborted fault, rfl⟩
    | ok set => exact .inl ⟨line, set, hlocate, setAt_eq_ok_iff.1 hset⟩

end

/-! ## Operations within a set -/

/-- A probe of a line of a set. -/
def probeWithin (s : Store π) (line : Line) (set : CacheSet) (access : AccessKind) :
    Except Fault (Lookup × Store π) :=
  match set.find line.tag with
  | some way => do
    let (policy, set) ← set.hit s.policy way access
    let stats ← s.stats.countHit
    pure (⟨line.set, some way, s.geometry.hitLatency⟩, s.replace line.set set policy stats)
  | none => do
    let stats ← s.stats.countMiss
    pure (⟨line.set, none, s.geometry.hitLatency⟩, { s with stats })

/-- A fill of an absent line of a set. -/
def fillWithin (s : Store π) (line : Line) (set : CacheSet) (access : AccessKind) :
    Except Fault (Install × Store π) := do
  let kind := MemoryKind.classify (s.geometry.addressOf line) s.regionBorder
  let (way, victim, policy, set) ← set.bringIn s.policy line.tag kind access
  let stats ← s.stats.countFill victim
  pure (⟨line.set, way, victim.map (s.departure line.set)⟩, s.replace line.set set policy stats)

/-- An invalidation of a line of a set. -/
def invalidateWithin (s : Store π) (line : Line) (set : CacheSet) :
    Except Fault (Option Eviction × Store π) :=
  match set.find line.tag with
  | none => pure (none, s)
  | some way => do
    let (victim, policy, set) ← set.vacate s.policy way
    let stats ← s.stats.countVacated victim
    pure (victim.map (s.departure line.set), s.replace line.set set policy stats)

theorem outcome_hitWay (hset : s.sets[line.set]? = some set) (way : Nat) :
    (hitWay line way access).outcome s =
      ((set.hit s.policy way access).map fun y =>
        ((), s.replace line.set y.2 y.1 s.stats)).mapError .aborted := by
  rw [hitWay, outcome_onSet hset (Logged.result_attempt _)]
  cases set.hit s.policy way access <;> rfl

theorem outcome_vacateWay (hset : s.sets[index]? = some set) (way : Nat) :
    (vacateWay index way).outcome s =
      ((set.vacate s.policy way).map fun y =>
        (y.1, s.replace index y.2.2 y.2.1 s.stats)).mapError .aborted :=
  outcome_onSet hset (Logged.result_attempt _)

theorem outcome_chooseWay (hset : s.sets[index]? = some set) :
    (onSet index fun policy set => chooseWay set policy).outcome s =
      ((set.choose s.policy).map fun y =>
        (y.1, s.replace index y.2.2 y.2.1 s.stats)).mapError .aborted :=
  outcome_onSet hset (CacheSet.result_chooseWay _ _)

theorem outcome_enterWay (hset : s.sets[line.set]? = some set) (way : Nat) (kind : MemoryKind) :
    (enterWay line way kind access).outcome s =
      ((set.accept s.policy way line.tag kind access).map fun y =>
        ((), s.replace line.set y.2 y.1 s.stats)).mapError .aborted := by
  rw [enterWay, outcome_onSet hset (Logged.result_attempt _)]
  cases set.accept s.policy way line.tag kind access <;> rfl

theorem probe_of_maps (hmaps : s.Maps address line set) (access : AccessKind) :
    (probe address access).outcome s = (s.probeWithin line set access).mapError .aborted := by
  unfold probe probeWithin
  rw [outcome_of_maps hmaps]
  cases set.find line.tag with
  | some way =>
    refine Action.outcome_bind_mapError (outcome_hitWay hmaps.2 way) fun ⟨policy, set'⟩ => ?_
    exact Action.outcome_bind_mapError outcome_count fun stats => rfl
  | none => exact Action.outcome_bind_mapError outcome_count fun stats => rfl

/-- The three steps of a fill on its set are seen as one. -/
theorem fill_of_maps (hmaps : s.Maps address line set) (hfind : set.find line.tag = none)
    (access : AccessKind) :
    (fill address access).outcome s = (s.fillWithin line set access).mapError .aborted := by
  unfold fill fillWithin CacheSet.bringIn
  rw [outcome_of_maps hmaps, hfind, Option.isSome_none, if_neg Bool.false_ne_true]
  simp only [bind_assoc, pure_bind]
  rw [Action.outcome_bind, memoryOf, Action.outcome_read]
  refine Action.outcome_bind_mapError (outcome_chooseWay hmaps.2) fun ⟨way, policy₁, set₁⟩ => ?_
  have hset₁ := getElem?_replace_self hmaps.2 set₁ policy₁ s.stats
  refine Action.outcome_bind_mapError (outcome_vacateWay hset₁ way) fun ⟨victim, policy₂, set₂⟩ => ?_
  have hset₂ := getElem?_replace_self hset₁ set₂ policy₂ s.stats
  refine Action.outcome_bind_mapError (outcome_enterWay hset₂ way _) fun ⟨policy₃, set₃⟩ => ?_
  dsimp only
  rw [replace_replace, replace_replace]
  cases victim with
  | none => exact Action.outcome_bind_mapError outcome_count fun stats => rfl
  | some block =>
    dsimp only
    rw [Action.outcome_bind, departureOf, Action.outcome_read]
    exact Action.outcome_bind_mapError outcome_countEviction fun stats => rfl

theorem invalidate_of_maps (hmaps : s.Maps address line set) :
    (invalidate address).outcome s = (s.invalidateWithin line set).mapError .aborted := by
  unfold invalidate invalidateWithin
  rw [outcome_of_maps hmaps]
  cases set.find line.tag with
  | none => rfl
  | some way =>
    refine Action.outcome_bind_mapError (outcome_vacateWay hmaps.2 way)
      fun ⟨victim, policy, set'⟩ => ?_
    cases victim with
    | none => rfl
    | some block =>
      dsimp only
      rw [Action.outcome_bind, departureOf, Action.outcome_read]
      exact Action.outcome_bind_mapError outcome_count fun stats => rfl

/-- A fill looks for the line first, and changes nothing if it is there. -/
theorem step_fill_of_resident (hmaps : s.Maps address line set)
    (hfind : (set.find line.tag).isSome = true) :
    (fill address access).step s = (.error (.refused (.alreadyResident address)), s) := by
  simp [fill, Action.step_bind, locate, wayOf, hmaps.1, setAt_eq_ok_iff.2 hmaps.2, hfind,
    Except.bind]

theorem fill_of_resident (hmaps : s.Maps address line set)
    (hfind : (set.find line.tag).isSome = true) :
    (fill address access).outcome s = .error (.refused (.alreadyResident address)) :=
  Action.outcome_eq_error_iff.2 ⟨s, step_fill_of_resident hmaps hfind⟩

/-! ## Answers -/

theorem probe_eq_ok_iff {lookup : Lookup} :
    (probe address access).outcome s = .ok (lookup, t) ↔
      ∃ line set, s.Maps address line set ∧
        ((∃ way policy set' stats, set.find line.tag = some way ∧
            set.hit s.policy way access = .ok (policy, set') ∧ s.stats.countHit = .ok stats ∧
            lookup = ⟨line.set, some way, s.geometry.hitLatency⟩ ∧
            t = s.replace line.set set' policy stats) ∨
          ∃ stats, set.find line.tag = none ∧ s.stats.countMiss = .ok stats ∧
            lookup = ⟨line.set, none, s.geometry.hitLatency⟩ ∧ t = { s with stats }) := by
  have hwithin : (probe address access).outcome s = .ok (lookup, t) ↔
      ∃ line set, s.Maps address line set ∧ s.probeWithin line set access = .ok (lookup, t) :=
    within_iff (maps_or_fails s address _) fun line set hmaps => probe_of_maps hmaps access
  rw [hwithin]
  refine exists_congr fun line => exists_congr fun set => and_congr_right fun hmaps => ?_
  unfold probeWithin
  cases set.find line.tag with
  | none =>
    simp only [bind_eq_ok_iff, pure_eq_ok_iff, Prod.mk.injEq, reduceCtorEq, false_and, exists_const,
      true_and]
    grind
  | some way =>
    simp only [bind_eq_ok_iff, pure_eq_ok_iff, Prod.mk.injEq, Prod.exists, Option.some.injEq,
      reduceCtorEq, false_and, exists_const, or_false]
    grind

theorem fill_eq_ok_iff {install : Install} :
    (fill address access).outcome s = .ok (install, t) ↔
      ∃ line set, s.Maps address line set ∧ set.find line.tag = none ∧
        ∃ way policy₁ set₁ victim policy₂ set₂ policy₃ set₃ stats,
          (chooseWay set s.policy).result = .ok (way, policy₁, set₁) ∧
          set₁.vacate policy₁ way = .ok (victim, policy₂, set₂) ∧
          set₂.accept policy₂ way line.tag
            (.classify (s.geometry.addressOf line) s.regionBorder) access = .ok (policy₃, set₃) ∧
          s.stats.countFill victim = .ok stats ∧
          install = ⟨line.set, way, victim.map (s.departure line.set)⟩ ∧
          t = s.replace line.set set₃ policy₃ stats := by
  have hwithin : (fill address access).outcome s = .ok (install, t) ↔
      ∃ line set, s.Maps address line set ∧ set.find line.tag = none ∧
        s.fillWithin line set access = .ok (install, t) := by
    constructor
    · intro h
      obtain ⟨line, set, hmaps⟩ := (maps_or_fails s address _).resolve_right (not_fails_of_ok h)
      cases hfind : set.find line.tag with
      | some way =>
        rw [fill_of_resident hmaps (by rw [hfind]; rfl)] at h
        cases h
      | none =>
        rw [fill_of_maps hmaps hfind, mapError_eq_ok_iff] at h
        exact ⟨line, set, hmaps, hfind, h⟩
    · intro ⟨line, set, hmaps, hfind, h⟩
      rw [fill_of_maps hmaps hfind, h, mapError_ok]
  rw [hwithin]
  refine exists_congr fun line => exists_congr fun set => and_congr_right fun _ =>
    and_congr_right fun _ => ?_
  simp only [fillWithin, bind_eq_ok_iff, pure_eq_ok_iff, Prod.exists, Prod.mk.injEq,
    CacheSet.bringIn_eq_ok_iff]
  constructor
  · rintro ⟨way, victim, policy₃, set₃, ⟨policy₁, set₁, policy₂, set₂, hchoose, hvacate, haccept⟩,
      stats, hstats, rfl, rfl⟩
    exact ⟨way, policy₁, set₁, victim, policy₂, set₂, policy₃, set₃, stats, hchoose, hvacate,
      haccept, hstats, rfl, rfl⟩
  · rintro ⟨way, policy₁, set₁, victim, policy₂, set₂, policy₃, set₃, stats, hchoose, hvacate,
      haccept, hstats, rfl, rfl⟩
    exact ⟨way, victim, policy₃, set₃, ⟨policy₁, set₁, policy₂, set₂, hchoose, hvacate, haccept⟩,
      stats, hstats, rfl, rfl⟩

theorem invalidate_eq_ok_iff {evicted : Option Eviction} :
    (invalidate address).outcome s = .ok (evicted, t) ↔
      ∃ line set, s.Maps address line set ∧
        (set.find line.tag = none ∧ evicted = none ∧ t = s ∨
          ∃ way victim policy set', set.find line.tag = some way ∧
            set.vacate s.policy way = .ok (victim, policy, set') ∧
            evicted = victim.map (s.departure line.set) ∧
            ((∃ stats, victim.isSome = true ∧ s.stats.countDeparture = .ok stats ∧
                t = s.replace line.set set' policy stats) ∨
              victim = none ∧ t = s.replace line.set set' policy s.stats)) := by
  have hwithin : (invalidate address).outcome s = .ok (evicted, t) ↔
      ∃ line set, s.Maps address line set ∧ s.invalidateWithin line set = .ok (evicted, t) :=
    within_iff (maps_or_fails s address _) fun line set hmaps => invalidate_of_maps hmaps
  rw [hwithin]
  refine exists_congr fun line => exists_congr fun set => and_congr_right fun _ => ?_
  unfold invalidateWithin
  cases set.find line.tag with
  | none =>
    simp only [pure_eq_ok_iff, Prod.mk.injEq, true_and, reduceCtorEq, false_and, exists_const]
    grind
  | some way =>
    simp only [bind_eq_ok_iff, pure_eq_ok_iff, Prod.exists, Prod.mk.injEq, reduceCtorEq, false_and,
      false_or, Option.some.injEq]
    constructor
    · rintro ⟨victim, policy, set', hvacate, stats, hstats, rfl, rfl⟩
      refine ⟨way, victim, policy, set', rfl, hvacate, rfl, ?_⟩
      cases victim with
      | none =>
        cases hstats
        exact .inr ⟨rfl, rfl⟩
      | some block => exact .inl ⟨stats, rfl, hstats, rfl⟩
    · rintro ⟨_, victim, policy, set', rfl, hvacate, rfl, ⟨stats, hsome, hstats, rfl⟩ | ⟨rfl, rfl⟩⟩
      · obtain ⟨block, rfl⟩ := Option.isSome_iff_exists.1 hsome
        exact ⟨some block, policy, set', hvacate, stats, hstats, rfl, rfl⟩
      · exact ⟨none, policy, set', hvacate, s.stats, rfl, rfl, rfl⟩

theorem access_eq_ok_iff {outcome : AccessOutcome} :
    (Store.access address access).step s = (.ok outcome, t) ↔
      ∃ lookup u, (probe address access).outcome s = .ok (lookup, u) ∧
        (lookup.hit = true ∧ outcome = ⟨lookup, none⟩ ∧ t = u ∨
          lookup.hit = false ∧ ∃ install, (fill address access).outcome u = .ok (install, t) ∧
            outcome = ⟨lookup, some install⟩) := by
  unfold Store.access
  simp only [Action.step_bind_eq_ok_iff, Action.outcome_eq_ok_iff]
  refine exists_congr fun lookup => exists_congr fun u => and_congr_right fun _ => ?_
  cases lookup.hit with
  | true => simp [eq_comm]
  | false =>
    simp only [Bool.false_eq_true, if_false, Action.step_bind_eq_ok_iff, Action.step_pure,
      Prod.mk.injEq, Except.ok.injEq, false_and, false_or, true_and]
    constructor
    · intro ⟨install, _, hfill, houtcome, hstore⟩
      subst hstore
      exact ⟨install, hfill, houtcome.symm⟩
    · intro ⟨install, hfill, houtcome⟩
      exact ⟨install, t, hfill, houtcome.symm, rfl⟩

/-- Nothing has to go for a line that is there. -/
theorem evicted_of_hit {outcome : AccessOutcome}
    (hstep : (Store.access address access).step s = (.ok outcome, t)) (hhit : outcome.hit = true) :
    outcome.evicted = none := by
  obtain ⟨lookup, u, -, ⟨-, rfl, -⟩ | ⟨hmiss, install, -, rfl⟩⟩ := access_eq_ok_iff.1 hstep
  · rfl
  · rw [AccessOutcome.hit, hmiss] at hhit
    cases hhit

/-! ## Refusals -/

/-- A probe of an address that maps to a set is not refused. -/
theorem probe_ne_refused (hmaps : s.Maps address line set) (refusal : Refusal) :
    (probe address access).outcome s ≠ .error (.refused refusal) := by
  rw [probe_of_maps hmaps]
  exact mapError_aborted_ne_refused _ refusal

/-- A line that is absent is not refused room. -/
theorem fill_ne_refused (hmaps : s.Maps address line set) (hfind : set.find line.tag = none)
    (refusal : Refusal) : (fill address access).outcome s ≠ .error (.refused refusal) := by
  rw [fill_of_maps hmaps hfind]
  exact mapError_aborted_ne_refused _ refusal

theorem invalidate_ne_refused (hmaps : s.Maps address line set) (refusal : Refusal) :
    (invalidate address).outcome s ≠ .error (.refused refusal) := by
  rw [invalidate_of_maps hmaps]
  exact mapError_aborted_ne_refused _ refusal

/-- A probe that is refused has not changed the store. -/
theorem step_probe_of_refused {refusal : Refusal}
    (hprobe : (probe address access).outcome s = .error (.refused refusal)) :
    (probe address access).step s = (.error (.refused refusal), s) := by
  rcases maps_or_fails s address _ with ⟨line, set, hmaps⟩ | hfails
  · exact absurd hprobe (probe_ne_refused hmaps refusal)
  · exact step_of_fails hfails hprobe

/-- A fill that is refused has not changed the store. -/
theorem step_fill_of_refused {refusal : Refusal}
    (hfill : (fill address access).outcome s = .error (.refused refusal)) :
    (fill address access).step s = (.error (.refused refusal), s) := by
  rcases maps_or_fails s address _ with ⟨line, set, hmaps⟩ | hfails
  · cases hfind : set.find line.tag with
    | none => exact absurd hfill (fill_ne_refused hmaps hfind refusal)
    | some way =>
      exact step_of_fails ⟨_, step_fill_of_resident hmaps (by rw [hfind]; rfl)⟩ hfill
  · exact step_of_fails hfails hfill

/-- An invalidation that is refused has not changed the store. -/
theorem step_invalidate_of_refused {refusal : Refusal}
    (hinvalidate : (invalidate address).outcome s = .error (.refused refusal)) :
    (invalidate address).step s = (.error (.refused refusal), s) := by
  rcases maps_or_fails s address _ with ⟨line, set, hmaps⟩ | hfails
  · exact absurd hinvalidate (invalidate_ne_refused hmaps refusal)
  · exact step_of_fails hfails hinvalidate

/-! ### Addresses out of range -/

theorem probe_of_outside {failure : Failure} (h : s.geometry.locate address = .error failure) :
    (probe address access).outcome s = .error failure := by
  rw [probe, Action.outcome_bind, outcome_locate, h]
  rfl

theorem fill_of_outside {failure : Failure} (h : s.geometry.locate address = .error failure) :
    (fill address access).outcome s = .error failure := by
  rw [fill, Action.outcome_bind, outcome_locate, h]
  rfl

theorem invalidate_of_outside {failure : Failure} (h : s.geometry.locate address = .error failure) :
    (invalidate address).outcome s = .error failure := by
  rw [invalidate, Action.outcome_bind, outcome_locate, h]
  rfl

end Store

end AssocCache
