import AssocCache.Proofs.Store.Accesses
import AssocCache.Proofs.Store.History
import AssocCache.Proofs.Store.Tracked
import Mathlib.Algebra.Group.Action.Defs
import Mathlib.Algebra.Order.BigOperators.Group.List

/-!
# What the statistics say

The statistics of a store against the answers it gave and the blocks it holds.

* `lookupsOf`, `installsOf` and `departuresOf` are the lookups, the arrivals and the
  invalidations that a history reports.  The four counts of events are counts over these
  lists (`Tally.ofHistory_eq`).
* `Store.Moved` says how many lines came and left between two stores, by their blocks
  and by the occupancy that was counted.  Each call moves what its answer reports
  (`moved_of_respond`), and so does a run (`moved_of_run`).
* `Store.Keeps` says that no set lost a line without getting another one.  All calls but
  invalidations keep the lines in this sense (`keeps_of_respond`).
-/

namespace AssocCache

/-! ## What a history reports -/

/-- The lookup that a reply reports. -/
def Reply.lookup? : Reply → Option Lookup
  | .lookup answer => some answer
  | .access outcome => some outcome.lookup
  | .install _ | .departure _ => none

/-- The line that left on request. -/
def Reply.departure? : Reply → Option Eviction
  | .departure evicted => evicted
  | .lookup _ | .install _ | .access _ => none

/-- The replies to the calls that were not refused. -/
def repliesOf (history : List Exchange) : List Reply :=
  history.filterMap (·.answer.toOption)

/-- The lookups that were made, those of accesses included. -/
def lookupsOf (history : List Exchange) : List Lookup :=
  (repliesOf history).filterMap Reply.lookup?

/-- The lines that were brought in, those of accesses included. -/
def installsOf (history : List Exchange) : List Install :=
  (repliesOf history).filterMap Reply.install?

/-- The lines that were made to leave. -/
def departuresOf (history : List Exchange) : List Eviction :=
  (repliesOf history).filterMap Reply.departure?

@[simp] theorem repliesOf_refused (call : Call) (refusal : Refusal) (history : List Exchange) :
    repliesOf (⟨call, .error refusal⟩ :: history) = repliesOf history := rfl

@[simp] theorem repliesOf_answered (call : Call) (reply : Reply) (history : List Exchange) :
    repliesOf (⟨call, .ok reply⟩ :: history) = reply :: repliesOf history := rfl

/-- The lines that left, on request or to make room. -/
def leaversOf (history : List Exchange) : List Eviction :=
  (repliesOf history).filterMap Reply.evicted?

theorem installsOf_answered (call : Call) (reply : Reply) :
    installsOf [⟨call, .ok reply⟩] = reply.install?.toList := by
  simp [installsOf, List.filterMap_eq_flatMap_toList, repliesOf, Except.toOption]

theorem leaversOf_answered (call : Call) (reply : Reply) :
    leaversOf [⟨call, .ok reply⟩] = reply.evicted?.toList := by
  simp [leaversOf, List.filterMap_eq_flatMap_toList, repliesOf, Except.toOption]

/-- What lookups and arrivals add to the counts. -/
def Tally.ofReports (lookups : List Lookup) (installs : List Install) : Tally where
  hits := lookups.countP (·.hit)
  misses := lookups.countP (!·.hit)
  evictions := installs.countP (·.evicted.isSome)
  writebacks := installs.countP (·.evicted.any (·.wasDirty))

theorem Tally.ofReports_append (lookups lookups' : List Lookup) (installs installs' : List Install) :
    ofReports (lookups ++ lookups') (installs ++ installs') =
      ofReports lookups installs + ofReports lookups' installs' := by
  ext <;> simp [ofReports]

theorem Tally.ofLookup_eq (lookup : Lookup) : ofLookup lookup.hit = ofReports [lookup] [] := by
  ext <;> cases hhit : lookup.hit <;> simp [ofLookup, ofReports, hhit]

theorem Tally.ofEviction_eq (install : Option Install) :
    ofEviction (install.bind Install.evicted) = ofReports [] install.toList := by
  cases install with
  | none => rfl
  | some placed => ext <;> simp [ofEviction, ofReports, Bool.toNat]

theorem Reply.tally_eq (reply : Reply) :
    reply.tally = .ofReports reply.lookup?.toList reply.install?.toList := by
  cases reply with
  | lookup answer => exact Tally.ofLookup_eq answer
  | install placed => exact Tally.ofEviction_eq (some placed)
  | access outcome =>
    show Tally.ofLookup outcome.lookup.hit + .ofEviction (outcome.install.bind Install.evicted) = _
    rw [Tally.ofLookup_eq, Tally.ofEviction_eq, ← Tally.ofReports_append]
    simp [lookup?, install?]
  | departure evicted => rfl

/-- The counts that a history adds up to are counts of what it reports. -/
theorem Tally.ofHistory_eq (history : List Exchange) :
    ofHistory history = ofReports (lookupsOf history) (installsOf history) := by
  induction history with
  | nil => rfl
  | cons exchange history ih =>
    obtain ⟨call, refusal | reply⟩ := exchange
    · rw [ofHistory, ih]
      ext <;> simp [Exchange.tally, lookupsOf, installsOf]
    · have htally : Exchange.tally ⟨call, .ok reply⟩ = reply.tally := rfl
      rw [ofHistory, ih, htally, reply.tally_eq, ← ofReports_append]
      simp only [lookupsOf, installsOf, repliesOf_answered, List.filterMap_eq_flatMap_toList,
        List.flatMap_cons]

/-- A line leaves on request or to make room. -/
theorem Reply.length_evicted? (reply : Reply) :
    reply.evicted?.toList.length =
      reply.install?.toList.countP (·.evicted.isSome) + reply.departure?.toList.length := by
  cases reply with
  | lookup answer => rfl
  | install placed =>
    obtain ⟨set, way, evicted⟩ := placed
    cases evicted <;> rfl
  | access outcome =>
    obtain ⟨lookup, _ | ⟨set, way, evicted⟩⟩ := outcome
    · rfl
    · cases evicted <;> rfl
  | departure evicted => simp [evicted?, install?, departure?]

theorem length_leaversOf (history : List Exchange) :
    (leaversOf history).length =
      (installsOf history).countP (·.evicted.isSome) + (departuresOf history).length := by
  unfold leaversOf installsOf departuresOf
  induction repliesOf history with
  | nil => rfl
  | cons reply replies ih =>
    have hreply := reply.length_evicted?
    simp only [List.filterMap_eq_flatMap_toList, List.flatMap_cons, List.length_append,
      List.countP_append] at ih ⊢
    omega

namespace Store

open Success

/-! ## Lines that come and go -/

section Shape

variable {π : Type} {s t u : Store π} {index arrived left arrived' left' : Nat}
  {set set' : CacheSet}

/-- Between two stores some lines arrived and some left, and the occupancy was counted
along. -/
structure Moved (s t : Store π) (arrived left : Nat) : Prop where
  occupancy : t.stats.occupancy + left = s.stats.occupancy + arrived
  lineCount : t.lineCount + left = s.lineCount + arrived

/-- No set has fewer valid blocks than before. -/
def Keeps (s t : Store π) : Prop :=
  ∀ (index : Nat) (set : CacheSet), s.sets[index]? = some set →
    ∃ set', t.sets[index]? = some set' ∧ set.occupancy ≤ set'.occupancy

theorem Moved.refl (s : Store π) : Moved s s 0 0 := ⟨rfl, rfl⟩

theorem Moved.trans (h : Moved s t arrived left) (h' : Moved t u arrived' left') :
    Moved s u (arrived + arrived') (left + left') := by
  obtain ⟨hoccupancy, hlines⟩ := h
  obtain ⟨hoccupancy', hlines'⟩ := h'
  constructor <;> omega

theorem Keeps.refl (s : Store π) : Keeps s s := fun _ set hset => ⟨set, hset, Nat.le_refl _⟩

theorem Keeps.trans (h : Keeps s t) (h' : Keeps t u) : Keeps s u := by
  intro index set hset
  obtain ⟨set', hset', hle⟩ := h index set hset
  obtain ⟨set'', hset'', hle'⟩ := h' index set' hset'
  exact ⟨set'', hset'', Nat.le_trans hle hle'⟩

/-- A step on one set moves what it moves in the set. -/
theorem moved_replace (hset : s.sets[index]? = some set) {stats : Stats} (policy : π)
    (hoccupancy : stats.occupancy + left = s.stats.occupancy + arrived)
    (hlines : set'.occupancy + left = set.occupancy + arrived) :
    Moved s (s.replace index set' policy stats) arrived left := by
  refine ⟨hoccupancy, ?_⟩
  have hcount := lineCount_replace hset set' policy stats
  omega

theorem keeps_replace (hset : s.sets[index]? = some set) (hle : set.occupancy ≤ set'.occupancy)
    (policy : π) (stats : Stats) : Keeps s (s.replace index set' policy stats) := by
  intro other found hfound
  obtain ⟨hlt, -⟩ := Array.getElem?_eq_some_iff.1 hset
  by_cases hother : index = other
  · subst hother
    rw [hset] at hfound
    cases hfound
    exact ⟨set', Array.getElem?_setIfInBounds_self_of_lt hlt, hle⟩
  · refine ⟨found, ?_, Nat.le_refl _⟩
    rw [Store.replace, Array.getElem?_setIfInBounds_ne hother, hfound]

/-- A store has no more lines than ways. -/
theorem WellFormed.lineCount_le {f : Frame} (h : s.WellFormed f) :
    s.lineCount ≤ f.geometry.numSets * f.geometry.associativity := by
  have hbound : ∀ count ∈ s.sets.toList.map CacheSet.occupancy,
      count ≤ f.geometry.associativity := by
    intro count hcount
    obtain ⟨set, hmem, rfl⟩ := List.mem_map.1 hcount
    obtain ⟨index, hset⟩ := List.getElem?_of_mem hmem
    rw [Array.getElem?_toList] at hset
    rw [← (h.sets hset).length_blocks]
    exact List.countP_le_length
  have hsum := List.sum_le_card_nsmul _ _ hbound
  rwa [List.length_map, Array.length_toList, h.size_sets, smul_eq_mul] at hsum

end Shape

variable {π : Type} [Policy π] [Policy.Tame π] {f : Frame} {s t : Store π} {a : Nat}
  {access : AccessKind} {call : Call} {calls : List Call} {answer : Except Refusal Reply}
  {history : List Exchange}

theorem WellFormed.moved_of_probe (h : s.WellFormed f) {lookup : Lookup}
    (hprobe : (Store.probe a access).outcome s = .ok (lookup, t)) : Moved s t 0 0 ∧ Keeps s t := by
  obtain ⟨line, set, hmaps, ⟨way, policy, set', stats, hfind, hhit, hcount, -, rfl⟩ |
    ⟨stats, -, hcount, -, rfl⟩⟩ := probe_eq_ok_iff.1 hprobe
  · obtain ⟨-, hlines, -⟩ := (h.of_maps hmaps).2.2.2.hit hfind hhit
    have hoccupancy := s.stats.reaches_countHit.of_ok hcount
    exact ⟨moved_replace hmaps.2 policy hoccupancy hlines, keeps_replace hmaps.2 hlines.ge _ _⟩
  · exact ⟨⟨s.stats.reaches_countMiss.of_ok hcount, rfl⟩, fun _ found hfound => ⟨found, hfound, Nat.le_refl _⟩⟩

theorem WellFormed.moved_of_fill (h : s.WellFormed f) {install : Install}
    (hfill : (Store.fill a access).outcome s = .ok (install, t)) :
    Moved s t 1 install.evicted.toList.length ∧ Keeps s t := by
  obtain ⟨line, set, hmaps, hfind, hsteps⟩ := fill_eq_ok_iff.1 hfill
  obtain ⟨way, policy₁, set₁, victim, policy₂, set₂, policy₃, set₃, stats, hchoose, hvacate,
    haccept, hcount, rfl, rfl⟩ := hsteps
  obtain ⟨-, rfl, hhas, hset⟩ := h.of_maps hmaps
  have hnone : set.residence (f.geometry.lineOf a).tag = none := by
    rw [← Option.map_eq_none_iff, hset.map_way_residence, hfind]
  rw [h.geometry_eq, h.regionBorder_eq] at haccept
  have hlines := (hset.fillSteps hnone hhas hchoose hvacate haccept).2.occupancy_eq
  have hoccupancy := (s.stats.reaches_countFill victim).of_ok hcount
  have hleft : (victim.map (s.departure (f.geometry.lineOf a).set)).toList.length =
      victim.toList.length := by
    cases victim <;> rfl
  -- At most one line leaves when one comes.
  have hle : victim.toList.length ≤ 1 := by
    cases victim <;> simp
  rw [hleft]
  exact ⟨moved_replace hmaps.2 policy₃ hoccupancy hlines, keeps_replace hmaps.2 (by omega) _ _⟩

theorem WellFormed.moved_of_invalidate (h : s.WellFormed f) {evicted : Option Eviction}
    (hinvalidate : (Store.invalidate a).outcome s = .ok (evicted, t)) :
    Moved s t 0 evicted.toList.length := by
  obtain ⟨line, set, hmaps, ⟨-, rfl, rfl⟩ | ⟨way, victim, policy, set', hfind, hvacate, rfl, hstats⟩⟩ :=
    invalidate_eq_ok_iff.1 hinvalidate
  · exact .refl _
  · have hset := (h.of_maps hmaps).2.2.2
    have hlines := (hset.vacate hvacate).2.occupancy_eq
    obtain ⟨-, gone, rfl, -⟩ := hset.vacate_of_find hfind hvacate
    obtain ⟨stats, -, hcount, rfl⟩ | ⟨hnone, -⟩ := hstats
    · obtain ⟨occupancy, hless, hstats⟩ := bind_eq_ok_iff.1 hcount
      rw [pure_eq_ok_iff] at hstats
      subst hstats
      obtain ⟨hpos, rfl⟩ := Word.sub_eq_ok_iff.1 hless
      exact moved_replace hmaps.2 policy (Nat.sub_add_cancel hpos) hlines
    · cases hnone

/-- A call moves the lines that its answer reports. -/
theorem WellFormed.moved_of_respond (h : s.WellFormed f)
    (hrespond : s.respond call = .ok (answer, t)) :
    Moved s t (installsOf [⟨call, answer⟩]).length (leaversOf [⟨call, answer⟩]).length := by
  cases responds_of_respond hrespond with
  | probe hprobe => exact (h.moved_of_probe hprobe).1
  | fill hfill =>
    rw [installsOf_answered, leaversOf_answered]
    exact (h.moved_of_fill hfill).1
  | hit hprobe hhit => exact (h.moved_of_probe hprobe).1
  | miss hprobe hmiss hfill =>
    have hfilled := (h.probe hprobe).1.moved_of_fill hfill
    have hmoved := (h.moved_of_probe hprobe).1.trans hfilled.1
    rw [Nat.zero_add, Nat.zero_add] at hmoved
    rw [installsOf_answered, leaversOf_answered]
    exact hmoved
  | invalidate hinvalidate =>
    rw [installsOf_answered, leaversOf_answered]
    exact h.moved_of_invalidate hinvalidate
  | refused => exact .refl _
  | missRefused hprobe hmiss hfill => exact (h.moved_of_probe hprobe).1

/-- No set loses a line in a call that is no invalidation, unless it gets another one. -/
theorem WellFormed.keeps_of_respond (h : s.WellFormed f)
    (hrespond : s.respond call = .ok (answer, t)) (hcall : ∀ a, call ≠ .invalidate a) :
    Keeps s t := by
  cases responds_of_respond hrespond with
  | probe hprobe => exact (h.moved_of_probe hprobe).2
  | fill hfill => exact (h.moved_of_fill hfill).2
  | hit hprobe hhit => exact (h.moved_of_probe hprobe).2
  | miss hprobe hmiss hfill =>
    have hprobed := h.moved_of_probe hprobe
    exact hprobed.2.trans ((h.probe hprobe).1.moved_of_fill hfill).2
  | invalidate hinvalidate => exact absurd rfl (hcall _)
  | refused => exact .refl _
  | missRefused hprobe hmiss hfill => exact (h.moved_of_probe hprobe).2

/-- A run moves the lines that its history reports, by induction on the calls. -/
theorem WellFormed.moved_of_run (h : s.WellFormed f) (hrun : Store.run calls s = .ok (history, t)) :
    Moved s t (installsOf history).length (leaversOf history).length := by
  induction calls generalizing s history with
  | nil =>
    cases hrun
    exact .refl _
  | cons call calls ih =>
    obtain ⟨answer, u, later, hrespond, hrest, rfl⟩ := run_cons_eq_ok_iff.1 hrun
    have hfirst := h.moved_of_respond hrespond
    have hmoved := hfirst.trans (ih (h.respond hrespond) hrest)
    rwa [← List.length_append, ← List.length_append, installsOf, installsOf, leaversOf, leaversOf,
      ← List.filterMap_append, ← List.filterMap_append, repliesOf, repliesOf,
      ← List.filterMap_append] at hmoved

theorem stats_of_ofConfig {c : Config} {s : Store AnyPolicy}
    (hbuilt : (ofConfig c).result = .ok s) : s.stats = {} := by
  obtain ⟨geometry, policy, -, -, hcreate⟩ := ofConfig_eq_ok_iff.1 hbuilt
  exact stats_of_create hcreate

section OfConfig

variable {c : Config} {s₀ s : Store AnyPolicy}

/-- The events that a store counts are those that the history reports. -/
theorem tally_of_built (hbuilt : (ofConfig c).result = .ok s₀)
    (hrun : run calls s₀ = .ok (history, s)) :
    s.stats.tally = .ofReports (lookupsOf history) (installsOf history) := by
  rw [tally_of_run hrun, stats_of_ofConfig hbuilt, Tally.ofHistory_eq]
  ext <;> exact Nat.zero_add _

/-- The occupancy of a store is the number of its lines. -/
theorem occupancy_of_built (hbuilt : (ofConfig c).result = .ok s₀)
    (hrun : run calls s₀ = .ok (history, s)) : s.stats.occupancy = s.lineCount := by
  have hready := ready_of_ofConfig hbuilt (Nat.two_pow_pos 32)
  have hsame := hready.occupancy_eq
  obtain ⟨hstats, hlines⟩ := hready.wellFormed.moved_of_run hrun
  omega

/-- A line that came in is still there, went for another one, or was made to leave. -/
theorem balance_of_built (hbuilt : (ofConfig c).result = .ok s₀)
    (hrun : run calls s₀ = .ok (history, s)) :
    s.stats.occupancy + s.stats.evictions + (departuresOf history).length =
      (installsOf history).length := by
  have hleft := length_leaversOf history
  have hbalance := ((wellFormed_of_ofConfig hbuilt).2.moved_of_run hrun).occupancy
  rw [stats_of_ofConfig hbuilt] at hbalance
  have hevictions : s.stats.evictions = (installsOf history).countP (·.evicted.isSome) :=
    congrArg Tally.evictions (tally_of_built hbuilt hrun)
  have hzero : ({} : Stats).occupancy = 0 := rfl
  omega

end OfConfig

/-- The statistics of a store at any point of a run tell what its answers told and which
blocks it holds.  Hits and misses are the lookups that found their line and that did not,
evictions and writebacks the departures that arrivals reported and those of them that were
dirty.  The occupancy is the number of valid blocks, which is what arrived less what left,
and at most the number of ways.  From there no call but an invalidation takes a valid block
from a set without giving it another one. -/
theorem statistics_of_run {c : Config} {s t : Store AnyPolicy} {calls : List Call}
    {history : List Exchange} (hbuilt : (ofConfig c).result = .ok s)
    (hrun : run calls s = .ok (history, t)) :
    t.stats.hits = (lookupsOf history).countP (·.hit) ∧
    t.stats.misses = (lookupsOf history).countP (!·.hit) ∧
    t.stats.evictions = (installsOf history).countP (·.evicted.isSome) ∧
    t.stats.writebacks = (installsOf history).countP (·.evicted.any (·.wasDirty)) ∧
    t.stats.occupancy = t.lineCount ∧
    t.stats.occupancy + t.stats.evictions + (departuresOf history).length =
      (installsOf history).length ∧
    t.stats.occupancy ≤ t.geometry.numSets * t.geometry.associativity ∧
    ∀ (call : Call) (answer : Except Refusal Reply) (u : Store AnyPolicy),
      t.respond call = .ok (answer, u) → (∀ a, call ≠ .invalidate a) →
      ∀ (index : Nat) (set : CacheSet), t.sets[index]? = some set →
        ∃ set', u.sets[index]? = some set' ∧ set.occupancy ≤ set'.occupancy := by
  have hfresh := (wellFormed_of_ofConfig hbuilt).2
  have h := hfresh.run hrun
  have hcounts := tally_of_built hbuilt hrun
  have hoccupancy := occupancy_of_built hbuilt hrun
  refine ⟨congrArg Tally.hits hcounts, congrArg Tally.misses hcounts,
    congrArg Tally.evictions hcounts, congrArg Tally.writebacks hcounts, hoccupancy,
    balance_of_built hbuilt hrun, ?_, ?_⟩
  · rw [hoccupancy, h.geometry_eq]
    exact h.lineCount_le
  · intro call answer u hrespond hcall index set hset
    exact h.keeps_of_respond hrespond hcall index set hset

/-- One set of two ways.  The calls miss, hit, evict a dirty line and a clean one, and
make a line leave. -/
theorem statistics_of_mixed_calls :
    ∃ s history t,
      (ofConfig { Config.ofShape .staticRrip 128 64 2 with addressBits := 32 }).result = .ok s ∧
      run [.fill 0 .write, .access 64 .read, .probe 64 .read, .access 128 .read,
        .access 192 .read, .invalidate 192] s = .ok (history, t) ∧
      t.stats = { hits := 1, misses := 3, evictions := 2, writebacks := 1, occupancy := 1 } ∧
      t.stats.occupancy = t.lineCount ∧
      t.stats.occupancy ≤ t.geometry.numSets * t.geometry.associativity := by
  obtain ⟨s, history, t, hbuilt, hrun, hstats⟩ : ∃ s history t,
      (ofConfig { Config.ofShape .staticRrip 128 64 2 with addressBits := 32 }).result = .ok s ∧
      run [.fill 0 .write, .access 64 .read, .probe 64 .read, .access 128 .read,
        .access 192 .read, .invalidate 192] s = .ok (history, t) ∧
      t.stats = { hits := 1, misses := 3, evictions := 2, writebacks := 1, occupancy := 1 } :=
    ⟨_, _, _, rfl, rfl, rfl⟩
  obtain ⟨-, -, -, -, hoccupancy, -, hle, -⟩ := statistics_of_run hbuilt hrun
  exact ⟨s, history, t, hbuilt, hrun, hstats, hoccupancy, hle⟩

end Store

end AssocCache
