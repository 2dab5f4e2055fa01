import AssocCache.Hierarchy
import AssocCache.Proofs.Store.Cases
import AssocCache.Proofs.Store.Run

/-!
# What an access counts

An access that is answered adds to the statistics of its store what its outcome says
(`access_counts`).  An access that is refused leaves the store as it was, although it
is made of two operations (`access_of_refused`).

`AccessOutcome.tally` and `Stats.tally` bring the counts of a store into the form in
which a hierarchy counts, so that the two can be compared.
-/

namespace AssocCache

namespace Logged

variable {α β : Type} {x : Logged Failure α}

/-- The computation does not end with a refusal. -/
def Unrefused (x : Logged Failure α) : Prop := ∀ refusal, x.result ≠ .error (.refused refusal)

theorem unrefused_of_ok {a : α} (h : x.result = .ok a) : x.Unrefused := by
  intro refusal
  rw [h]
  simp

theorem unrefused_attempt (x : Except Fault α) : (attempt x).Unrefused := by
  intro refusal
  rw [result_attempt]
  cases x <;> simp

theorem Unrefused.bind {f : α → Logged Failure β} (hx : x.Unrefused)
    (hf : ∀ a, x.result = .ok a → (f a).Unrefused) : (x >>= f).Unrefused := by
  intro refusal
  rw [result_bind]
  cases hresult : x.result with
  | error failure =>
    intro hrefused
    exact hx refusal (hresult.trans (congrArg _ (Except.error.inj hrefused)))
  | ok a => exact hf a hresult refusal

end Logged

/-! ## Counts -/

attribute [ext] Tally

namespace Tally

/-- The counts of two periods together. -/
def add (t u : Tally) : Tally where
  hits := t.hits + u.hits
  misses := t.misses + u.misses
  evictions := t.evictions + u.evictions
  writebacks := t.writebacks + u.writebacks

instance : Add Tally := ⟨add⟩

/-- The counts of a single lookup. -/
def ofLookup (hit : Bool) : Tally where
  hits := hit.toNat
  misses := (!hit).toNat

/-- The counts of a line that had to go, if there was one. -/
def ofEviction (gone : Option Eviction) : Tally where
  evictions := gone.isSome.toNat
  writebacks := (gone.any (·.wasDirty)).toNat

variable (t u : Tally)

@[simp] theorem hits_add : (t + u).hits = t.hits + u.hits := rfl

@[simp] theorem misses_add : (t + u).misses = t.misses + u.misses := rfl

@[simp] theorem evictions_add : (t + u).evictions = t.evictions + u.evictions := rfl

@[simp] theorem writebacks_add : (t + u).writebacks = t.writebacks + u.writebacks := rfl

end Tally

/-- What an access adds to the counts. -/
def AccessOutcome.tally (outcome : AccessOutcome) : Tally :=
  .ofLookup outcome.hit + .ofEviction outcome.evicted

namespace Stats

variable {stats stats' : Stats}

/-- The counts of a store, but for its occupancy. -/
def tally (stats : Stats) : Tally where
  hits := stats.hits
  misses := stats.misses
  evictions := stats.evictions
  writebacks := stats.writebacks

theorem tally_of_countHit (hcount : stats.countHit = .ok stats') :
    stats'.tally = stats.tally + .ofLookup true := by
  obtain ⟨hits, hhits, hstats⟩ := Success.bind_eq_ok_iff.1 hcount
  rw [Success.pure_eq_ok_iff] at hstats
  subst hstats
  rw [(Word.add_eq_ok_iff.1 hhits).2]
  rfl

/-- A miss changes nothing but its count. -/
theorem eq_of_countMiss (hcount : stats.countMiss = .ok stats') :
    stats' = { stats with misses := stats.misses + 1 } := by
  obtain ⟨misses, hmisses, hstats⟩ := Success.bind_eq_ok_iff.1 hcount
  rw [Success.pure_eq_ok_iff] at hstats
  rw [← hstats, (Word.add_eq_ok_iff.1 hmisses).2]

theorem tally_of_countMiss (hcount : stats.countMiss = .ok stats') :
    stats'.tally = stats.tally + .ofLookup false := by
  rw [eq_of_countMiss hcount]
  rfl

/-- The departure says whether the block that was vacated had pending writes. -/
theorem tally_of_countFill {victim : Option Block} {departure : Block → Eviction}
    (hdirty : ∀ block, (departure block).wasDirty = block.dirty)
    (hcount : stats.countFill victim = .ok stats') :
    stats'.tally = stats.tally + .ofEviction (victim.map departure) := by
  cases victim with
  | none =>
    obtain ⟨occupancy, -, hstats⟩ := Success.bind_eq_ok_iff.1 hcount
    rw [Success.pure_eq_ok_iff] at hstats
    subst hstats
    rfl
  | some block =>
    rw [countFill, countReplacement_eq] at hcount
    obtain ⟨evictions, hevictions, hrest⟩ := Success.bind_eq_ok_iff.1 hcount
    have hsome : ((some block).map departure).any (·.wasDirty) = block.dirty := hdirty block
    cases hblock : block.dirty with
    | true =>
      rw [hblock, if_pos rfl] at hrest
      obtain ⟨writebacks, hwritebacks, hstats⟩ := Success.bind_eq_ok_iff.1 hrest
      rw [Success.pure_eq_ok_iff] at hstats
      subst hstats
      rw [(Word.add_eq_ok_iff.1 hevictions).2, (Word.add_eq_ok_iff.1 hwritebacks).2,
        Tally.ofEviction, hsome, hblock]
      rfl
    | false =>
      rw [hblock, if_neg Bool.false_ne_true, Success.pure_eq_ok_iff] at hrest
      subst hrest
      rw [(Word.add_eq_ok_iff.1 hevictions).2, Tally.ofEviction, hsome, hblock]
      rfl

end Stats

namespace Store

open Logged Success

variable {π : Type} [Policy π] {s t : Store π} {address : Nat} {line : Line} {set : CacheSet}
  {kind : AccessKind}

/-! ## Refusals -/

/-- A probe that missed leaves the line absent. -/
theorem maps_of_miss {lookup : Lookup} (hprobe : (Store.probe address kind).outcome s = .ok (lookup, t))
    (hmiss : lookup.hit = false) :
    ∃ line set, t.Maps address line set ∧ set.find line.tag = none := by
  obtain ⟨line, set, hmaps, ⟨way, _, _, _, -, -, -, rfl, -⟩ | ⟨stats, hfind, -, -, rfl⟩⟩ :=
    probe_eq_ok_iff.1 hprobe
  · cases hmiss
  · exact ⟨line, set, hmaps, hfind⟩

/-- It is the probe of an access that is refused, as the line that the probe misses is not
refused room. -/
theorem probe_of_access_refused {refusal : Refusal}
    (hstep : (Store.access address kind).step s = (.error (.refused refusal), t)) :
    (Store.probe address kind).outcome s = .error (.refused refusal) := by
  unfold Store.access at hstep
  rw [Action.step_bind] at hstep
  rcases hprobe : (Store.probe address kind).step s with ⟨failure | lookup, u⟩
  · rw [hprobe] at hstep
    cases hstep
    exact Action.outcome_eq_error_iff.2 ⟨t, hprobe⟩
  · rw [hprobe] at hstep
    dsimp only at hstep
    cases hhit : lookup.hit with
    | true =>
      rw [hhit, if_pos rfl] at hstep
      cases hstep
    | false =>
      obtain ⟨line, set, hmaps, hfind⟩ := maps_of_miss (Action.outcome_eq_ok_iff.2 hprobe) hhit
      rw [hhit, if_neg Bool.false_ne_true, Action.step_bind] at hstep
      rcases hfill : (Store.fill address kind).step u with ⟨failure | install, v⟩
      · rw [hfill] at hstep
        cases hstep
        exact absurd (Action.outcome_eq_error_iff.2 ⟨t, hfill⟩)
          (fill_ne_refused hmaps hfind refusal)
      · rw [hfill] at hstep
        cases hstep

/-- An access that is refused leaves the store as it was. -/
theorem access_of_refused {refusal : Refusal}
    (hstep : (Store.access address kind).step s = (.error (.refused refusal), t)) : t = s := by
  have hprobe := step_probe_of_refused (probe_of_access_refused hstep)
  unfold Store.access at hstep
  rw [Action.step_bind, hprobe] at hstep
  cases hstep
  rfl

/-! ## Answers -/

/-- A probe counts a lookup. -/
theorem probe_counts {lookup : Lookup}
    (hprobe : (Store.probe address kind).outcome s = .ok (lookup, t)) :
    t.geometry = s.geometry ∧ lookup.latency = s.geometry.hitLatency ∧
      t.stats.tally = s.stats.tally + .ofLookup lookup.hit := by
  obtain ⟨line, set, -, ⟨way, policy, set', stats, -, -, hcount, rfl, rfl⟩ |
    ⟨stats, -, hcount, rfl, rfl⟩⟩ := probe_eq_ok_iff.1 hprobe
  · exact ⟨rfl, rfl, Stats.tally_of_countHit hcount⟩
  · exact ⟨rfl, rfl, Stats.tally_of_countMiss hcount⟩

/-- A fill counts the line that had to go. -/
theorem fill_counts {install : Install} (hfill : (Store.fill address kind).outcome s = .ok (install, t)) :
    t.geometry = s.geometry ∧ t.stats.tally = s.stats.tally + .ofEviction install.evicted := by
  obtain ⟨line, set, -, -, way, _, _, victim, _, _, policy, set', stats, -, -, -, hcount, rfl, rfl⟩ :=
    fill_eq_ok_iff.1 hfill
  exact ⟨rfl, Stats.tally_of_countFill (fun _ => rfl) hcount⟩

/-- An access counts a lookup, and the line that had to go if it missed. -/
theorem access_counts {outcome : AccessOutcome}
    (hstep : (Store.access address kind).step s = (.ok outcome, t)) :
    t.geometry = s.geometry ∧ outcome.lookup.latency = s.geometry.hitLatency ∧
      t.stats.tally = s.stats.tally + outcome.tally := by
  obtain ⟨lookup, u, hprobe, ⟨hhit, rfl, rfl⟩ | ⟨hmiss, install, hfill, rfl⟩⟩ :=
    access_eq_ok_iff.1 hstep
  · exact probe_counts hprobe
  · obtain ⟨hgeometry, hlatency, htally⟩ := probe_counts hprobe
    obtain ⟨hgeometry', htally'⟩ := fill_counts hfill
    refine ⟨hgeometry'.trans hgeometry, hlatency, ?_⟩
    rw [htally', htally]
    show s.stats.tally + .ofLookup lookup.hit + .ofEviction install.evicted =
      s.stats.tally + (.ofLookup lookup.hit + .ofEviction install.evicted)
    ext <;> simp [Nat.add_assoc]

end Store

end AssocCache

/-!
## What a run counts

The counts of a store at the end of a run are those at its start and what its answers
tell (`tally_of_run`).  `Reply.tally` says what an answer tells, and a refusal tells
nothing: no call that is refused has counted a lookup before.
-/

namespace AssocCache

namespace Tally

/-- One period counted no more than another one, of anything. -/
instance : LE Tally where
  le t u := t.hits ≤ u.hits ∧ t.misses ≤ u.misses ∧ t.evictions ≤ u.evictions ∧
    t.writebacks ≤ u.writebacks

variable {t u v : Tally}

theorem add_assoc (t u v : Tally) : t + u + v = t + (u + v) := by
  ext <;> simp [Nat.add_assoc]

theorem le_refl (t : Tally) : t ≤ t :=
  ⟨Nat.le_refl _, Nat.le_refl _, Nat.le_refl _, Nat.le_refl _⟩

theorem le_add_right (h : t ≤ u) (v : Tally) : t ≤ u + v :=
  ⟨Nat.le_add_right_of_le h.1, Nat.le_add_right_of_le h.2.1, Nat.le_add_right_of_le h.2.2.1,
    Nat.le_add_right_of_le h.2.2.2⟩

end Tally

/-- What an answer adds to the counts. -/
def Reply.tally : Reply → Tally
  | .lookup answer => .ofLookup answer.hit
  | .install answer => .ofEviction answer.evicted
  | .access answer => answer.tally
  | .departure _ => {}

/-- Whether the answer is that the line was there. -/
def Reply.hit : Reply → Bool
  | .lookup answer => answer.hit
  | .access answer => answer.hit
  | .install _ | .departure _ => false

theorem Reply.hits_tally (reply : Reply) : reply.tally.hits = reply.hit.toNat := by
  cases reply <;> rfl

namespace Exchange

/-- What a call and its answer add to the counts. -/
def tally (exchange : Exchange) : Tally :=
  match exchange.answer with
  | .ok reply => reply.tally
  | .error _ => {}

/-- Whether the call found its line. -/
def hit (exchange : Exchange) : Bool :=
  match exchange.answer with
  | .ok reply => reply.hit
  | .error _ => false

theorem hits_tally (exchange : Exchange) : exchange.tally.hits = exchange.hit.toNat := by
  obtain ⟨call, refusal | reply⟩ := exchange
  · rfl
  · exact reply.hits_tally

end Exchange

/-- What a history adds to the counts. -/
def Tally.ofHistory : List Exchange → Tally
  | [] => {}
  | exchange :: history => exchange.tally + ofHistory history

theorem Tally.hits_ofHistory (history : List Exchange) :
    (ofHistory history).hits = history.countP Exchange.hit := by
  induction history with
  | nil => rfl
  | cons exchange history ih =>
    rw [ofHistory, hits_add, ih, exchange.hits_tally, List.countP_cons, Nat.add_comm]
    cases exchange.hit <;> rfl

namespace Store

open Success

variable {π : Type} [Policy π] {s t : Store π} {call : Call} {calls : List Call}
  {answer : Except Refusal Reply} {history : List Exchange}

/-- An invalidation counts nothing but the line that is gone. -/
theorem tally_of_invalidate {a : Nat} {evicted : Option Eviction}
    (hinvalidate : (Store.invalidate a).outcome s = .ok (evicted, t)) : t.stats.tally = s.stats.tally := by
  obtain ⟨line, set, -, ⟨-, -, rfl⟩ | ⟨way, victim, policy, set', -, -, -, hstats⟩⟩ :=
    invalidate_eq_ok_iff.1 hinvalidate
  · rfl
  · rcases hstats with ⟨stats, -, hcount, rfl⟩ | ⟨-, rfl⟩
    · obtain ⟨occupancy, -, hstats⟩ := bind_eq_ok_iff.1 hcount
      rw [pure_eq_ok_iff] at hstats
      subst hstats
      rfl
    · rfl

theorem tally_of_respond (hrespond : s.respond call = .ok (answer, t)) :
    t.stats.tally = s.stats.tally + Exchange.tally ⟨call, answer⟩ := by
  cases responds_of_respond hrespond with
  | probe hprobe => exact (probe_counts hprobe).2.2
  | fill hfill => exact (fill_counts hfill).2
  | hit hprobe hhit =>
    exact (access_counts (access_eq_ok_iff.2 ⟨_, _, hprobe, .inl ⟨hhit, rfl, rfl⟩⟩)).2.2
  | miss hprobe hmiss hfill =>
    exact (access_counts (access_eq_ok_iff.2 ⟨_, _, hprobe, .inr ⟨hmiss, _, hfill, rfl⟩⟩)).2.2
  | invalidate hinvalidate => exact tally_of_invalidate hinvalidate
  | refused => rfl
  | missRefused hprobe hmiss hfill =>
    -- A line that was just missed has room made for it.
    obtain ⟨line, set, hmaps, hfind⟩ := maps_of_miss hprobe hmiss
    exact absurd hfill (fill_ne_refused hmaps hfind _)

/-- The counts after a run, by induction on the calls. -/
theorem tally_of_run (hrun : run calls s = .ok (history, t)) :
    t.stats.tally = s.stats.tally + .ofHistory history := by
  induction calls generalizing s history with
  | nil =>
    cases hrun
    rfl
  | cons call calls ih =>
    obtain ⟨answer, u, later, hrespond, hrest, rfl⟩ := run_cons_eq_ok_iff.1 hrun
    rw [ih hrest, tally_of_respond hrespond, Tally.add_assoc]
    rfl

theorem hits_of_run (hrun : run calls s = .ok (history, t)) :
    t.stats.hits = s.stats.hits + history.countP Exchange.hit := by
  rw [← Tally.hits_ofHistory]
  exact congrArg Tally.hits (tally_of_run hrun)

end Store

end AssocCache
