import AssocCache.Proofs.Policy.Any
import AssocCache.Proofs.Store.Run

/-!
# Runs without faults

`Store.Ready` is what keeps a store from faulting: it is well-formed, the policy
fits every set, the occupancy is the number of valid blocks, and no counter is
about to leave its width.  Two numbers say how much room there is, one for the
touches that the policy counts and one for the events that the statistics count.

A ready store answers every call, and what is left of the room shows in the
invariant (`Ready.respond_ok`).  So a store built from a configuration answers all
calls of any run of fewer than `2 ^ 32` calls.
-/

namespace AssocCache

open Success
open Policy.Dependable (Fits)

/-! ## Statistics -/

/-- No counter leaves its width before some more events. -/
structure Stats.Roomy (spare : Nat) (stats : Stats) : Prop where
  hits_lt : stats.hits + spare < 2 ^ 64
  misses_lt : stats.misses + spare < 2 ^ 64
  evictions_lt : stats.evictions + spare < 2 ^ 64
  writebacks_lt : stats.writebacks + spare < 2 ^ 64
  occupancy_lt : stats.occupancy + spare < 2 ^ 64

namespace Stats.Roomy

variable {spare : Nat} {stats : Stats}

theorem weaken (h : Stats.Roomy (spare + 1) stats) : Stats.Roomy spare stats := by
  obtain ⟨hhits, hmisses, hevictions, hwritebacks, hoccupancy⟩ := h
  exact ⟨by omega, by omega, by omega, by omega, by omega⟩

theorem next_eq {count : Nat} (h : count + (spare + 1) < 2 ^ 64) :
    Word.add 64 count 1 = .ok (count + 1) ∧ count + 1 + spare < 2 ^ 64 :=
  ⟨Word.add_eq_ok_iff.2 ⟨by omega, rfl⟩, by omega⟩

theorem countHit (h : Stats.Roomy (spare + 1) stats) :
    ∃ stats', stats.countHit = .ok stats' ∧ Stats.Roomy spare stats' ∧
      stats'.occupancy = stats.occupancy := by
  obtain ⟨hnext, hroom⟩ := next_eq h.hits_lt
  exact ⟨_, bind_eq_ok_iff.2 ⟨_, hnext, rfl⟩, { h.weaken with hits_lt := hroom }, rfl⟩

theorem countMiss (h : Stats.Roomy (spare + 1) stats) :
    ∃ stats', stats.countMiss = .ok stats' ∧ Stats.Roomy spare stats' ∧
      stats'.occupancy = stats.occupancy := by
  obtain ⟨hnext, hroom⟩ := next_eq h.misses_lt
  exact ⟨_, bind_eq_ok_iff.2 ⟨_, hnext, rfl⟩, { h.weaken with misses_lt := hroom }, rfl⟩

/-- A fill raises the occupancy unless it vacated a block first. -/
theorem countFill (h : Stats.Roomy (spare + 1) stats) (victim : Option Block) :
    ∃ stats', stats.countFill victim = .ok stats' ∧ Stats.Roomy spare stats' ∧
      stats'.occupancy + victim.toList.length = stats.occupancy + 1 := by
  cases victim with
  | none =>
    obtain ⟨hnext, hroom⟩ := next_eq h.occupancy_lt
    exact ⟨_, bind_eq_ok_iff.2 ⟨_, hnext, rfl⟩, { h.weaken with occupancy_lt := hroom }, rfl⟩
  | some block =>
    obtain ⟨hnext, hroom⟩ := next_eq h.evictions_lt
    obtain ⟨hnext', hroom'⟩ := next_eq h.writebacks_lt
    rw [Stats.countFill, Stats.countReplacement_eq]
    cases hdirty : block.dirty with
    | false =>
      refine ⟨{ stats with evictions := stats.evictions + 1 }, bind_eq_ok_iff.2 ⟨_, hnext, ?_⟩,
        { h.weaken with evictions_lt := hroom }, rfl⟩
      rfl
    | true =>
      refine ⟨{ stats with evictions := stats.evictions + 1, writebacks := stats.writebacks + 1 },
        bind_eq_ok_iff.2 ⟨_, hnext, ?_⟩,
        { h.weaken with evictions_lt := hroom, writebacks_lt := hroom' }, rfl⟩
      exact bind_eq_ok_iff.2 ⟨_, hnext', rfl⟩

theorem countDeparture (h : Stats.Roomy spare stats) (hpos : 0 < stats.occupancy) :
    ∃ stats', stats.countDeparture = .ok stats' ∧ Stats.Roomy spare stats' ∧
      stats'.occupancy + 1 = stats.occupancy := by
  have hprevious : Word.sub stats.occupancy 1 = .ok (stats.occupancy - 1) :=
    Word.sub_eq_ok_iff.2 ⟨hpos, rfl⟩
  have hroom : stats.occupancy - 1 + spare < 2 ^ 64 := by
    have := h.occupancy_lt
    omega
  refine ⟨_, bind_eq_ok_iff.2 ⟨_, hprevious, rfl⟩, { h with occupancy_lt := hroom }, ?_⟩
  exact Nat.sub_add_cancel hpos

end Stats.Roomy

/-! ## Counting lines -/

/-- A sum over a list in which one member was replaced. -/
theorem sum_map_set {α : Type} (count : α → Nat) {items : List α} {index : Nat} {old : α}
    (hold : items[index]? = some old) (new : α) :
    ((items.set index new).map count).sum + count old = (items.map count).sum + count new := by
  induction items generalizing index with
  | nil => simp at hold
  | cons item rest ih =>
    cases index with
    | zero =>
      rw [List.getElem?_cons_zero, Option.some.injEq] at hold
      subst hold
      simp only [List.set_cons_zero, List.map_cons, List.sum_cons]
      omega
    | succ index =>
      rw [List.getElem?_cons_succ] at hold
      have hrest := ih hold
      simp only [List.set_cons_succ, List.map_cons, List.sum_cons]
      omega

namespace Store

variable {π : Type} {f : Frame} {s t : Store π} {a index room spare : Nat}
  {set set' : CacheSet}

/-- The number of valid blocks of a store. -/
def lineCount (s : Store π) : Nat := (s.sets.toList.map CacheSet.occupancy).sum

theorem lineCount_replace (hset : s.sets[index]? = some set) (set' : CacheSet) (policy : π)
    (stats : Stats) :
    (s.replace index set' policy stats).lineCount + set.occupancy =
      s.lineCount + set'.occupancy := by
  have hold : s.sets.toList[index]? = some set := by
    rw [Array.getElem?_toList]
    exact hset
  unfold lineCount replace
  rw [Array.toList_setIfInBounds]
  exact sum_map_set CacheSet.occupancy hold set'

/-- The valid blocks of a set are valid blocks of the store. -/
theorem occupancy_le_lineCount (hset : s.sets[index]? = some set) :
    set.occupancy ≤ s.lineCount := by
  -- The store with an empty set in the place of this one has fewer lines.
  have hempty := lineCount_replace hset (.scanned index 0 .follower) s.policy s.stats
  have hnone : (CacheSet.scanned index 0 .follower).occupancy = 0 := rfl
  omega

/-! ## Ready stores -/

/-- The store answers the next calls without a fault.  There is room for some
touches in the policy and for some events in the statistics. -/
structure Ready [Policy π] [Policy.Dependable π] (f : Frame) (room spare : Nat) (s : Store π) :
    Prop where
  wellFormed : s.WellFormed f
  fits : ∀ {index : Nat} {set : CacheSet}, s.sets[index]? = some set → Fits room s.policy set
  roomy : s.stats.Roomy spare
  occupancy_eq : s.stats.occupancy = s.lineCount

namespace Ready

variable [Policy π] [Policy.Dependable π]

theorem weaken (h : s.Ready f (room + 1) spare) : s.Ready f room spare :=
  { h with fits := fun hset => Policy.Dependable.weaken (h.fits hset) }

theorem weaken_spare (h : s.Ready f room (spare + 1)) : s.Ready f room spare :=
  { h with roomy := h.roomy.weaken }

/-- A step on one set that keeps its own promises keeps those of the store. -/
theorem replace {room' spare' : Nat} (h : s.Ready f room spare)
    (hset : s.sets[index]? = some set) (hwell : set'.WellFormed f index) {policy : π}
    (hfitting : Policy.Fitting (Fits room s.policy) (Fits room' policy) index set')
    {stats : Stats} (hroomy : stats.Roomy spare')
    (hoccupancy : stats.occupancy + set.occupancy = s.stats.occupancy + set'.occupancy) :
    (s.replace index set' policy stats).Ready f room' spare' where
  wellFormed := h.wellFormed.replace hwell policy stats
  fits {other found} hfound := by
    have hplace : other = index ∧ found = set' ∨ other ≠ index ∧ s.sets[other]? = some found := by
      rw [Store.replace, Array.getElem?_setIfInBounds] at hfound
      by_cases hother : index = other
      · rw [if_pos hother] at hfound
        split at hfound
        · exact Or.inl ⟨hother.symm, (Option.some.inj hfound).symm⟩
        · cases hfound
      · rw [if_neg hother] at hfound
        exact Or.inr ⟨Ne.symm hother, hfound⟩
    rcases hplace with ⟨rfl, rfl⟩ | ⟨hother, hold⟩
    · exact hfitting.here
    · refine hfitting.elsewhere found ?_ (h.fits hold)
      rw [(h.wellFormed.sets hold).index_eq]
      exact hother
  roomy := hroomy
  occupancy_eq := by
    have hcount := lineCount_replace hset set' policy stats
    have hold := h.occupancy_eq
    show stats.occupancy = _
    omega

variable [Policy.Tame π]

theorem probe_ok (h : s.Ready f (room + 1) (spare + 1)) (a : Nat) (access : AccessKind) :
    (∃ refusal, (Store.probe a access).outcome s = .error (.refused refusal)) ∨
      ∃ lookup t, (Store.probe a access).outcome s = .ok (lookup, t) ∧
        t.Ready f (if lookup.hit then room else room + 1) spare := by
  rcases h.wellFormed.maps_cases a with ⟨ha, set, hmaps⟩ | ⟨-, houtside⟩
  · refine Or.inr ?_
    have hset := h.wellFormed.sets hmaps.2
    cases hfind : set.find (f.geometry.lineOf a).tag with
    | some way =>
      obtain ⟨policy, set', hhit, hfitting⟩ := hset.hit_ok (h.fits hmaps.2) hfind access
      obtain ⟨stats, hstats, hroomy, hsame⟩ := h.roomy.countHit
      obtain ⟨hset', hoccupancy, -⟩ := hset.hit hfind hhit
      refine ⟨_, _, probe_eq_ok_iff.2 ⟨_, set, hmaps,
        Or.inl ⟨way, policy, set', stats, hfind, hhit, hstats, rfl, rfl⟩⟩, ?_⟩
      refine h.replace hmaps.2 hset' hfitting hroomy ?_
      omega
    | none =>
      obtain ⟨stats, hstats, hroomy, hsame⟩ := h.roomy.countMiss
      refine ⟨_, _, probe_eq_ok_iff.2 ⟨_, set, hmaps, Or.inr ⟨stats, hfind, hstats, rfl, rfl⟩⟩, ?_⟩
      have hold := h.occupancy_eq
      refine ⟨h.wellFormed.recount stats, h.fits, hroomy, ?_⟩
      exact hsame.trans hold
  · exact Or.inl ⟨_, probe_of_outside houtside⟩

theorem fill_ok (h : s.Ready f (room + 1) (spare + 1)) (a : Nat) (access : AccessKind) :
    (∃ refusal, (Store.fill a access).outcome s = .error (.refused refusal)) ∨
      ∃ install t, (Store.fill a access).outcome s = .ok (install, t) ∧ t.Ready f room spare := by
  rcases h.wellFormed.maps_cases a with ⟨ha, set, hmaps⟩ | ⟨-, houtside⟩
  · have hset := h.wellFormed.sets hmaps.2
    cases hfind : set.find (f.geometry.lineOf a).tag with
    | some way => exact Or.inl ⟨_, fill_of_resident hmaps (by rw [hfind]; rfl)⟩
    | none =>
      refine Or.inr ?_
      have hhas := h.wellFormed.valid.has_lineOf ha
      have hpos : 0 < set.blocks.length := by
        rw [hset.length_blocks]
        exact h.wellFormed.valid.associativity_pos
      have hnone : set.residence (f.geometry.lineOf a).tag = none := by
        rw [← Option.map_eq_none_iff, hset.map_way_residence, hfind]
      obtain ⟨way, policy₁, set₁, hchoose, hlt, hfitting₁⟩ :=
        hset.chooseWay_ok (h.fits hmaps.2) hpos
      have hadjusted := (CacheSet.chooseWay_cases hchoose).1
      have hset₁ := hset.adjusted hadjusted
      obtain ⟨victim, policy₂, set₂, hvacate, hfitting₂⟩ :=
        hset₁.vacate_ok hfitting₁.here (by rwa [hadjusted.length_blocks])
      obtain ⟨hset₂, hvacated⟩ := hset₁.vacate hvacate
      obtain ⟨block, hb, hv⟩ := hvacated.vacant
      have hnone₂ : set₂.residence (f.geometry.lineOf a).tag = none := by
        rw [hvacated.residence_eq, hset.residence_adjusted hadjusted, hnone, ite_self]
      obtain ⟨policy₃, set₃, haccept, hfitting₃⟩ :=
        hset₂.accept_ok hfitting₂.here hb hv hnone₂ hhas access
      obtain ⟨hset₃, hfilled⟩ := hset.fillSteps hnone hhas hchoose hvacate haccept
      obtain ⟨stats, hstats, hroomy, hoccupancy⟩ := h.roomy.countFill victim
      have haccept' : set₂.accept policy₂ way (f.geometry.lineOf a).tag
          (.classify (s.geometry.addressOf (f.geometry.lineOf a)) s.regionBorder) access =
            .ok (policy₃, set₃) := by
        rw [h.wellFormed.geometry_eq, h.wellFormed.regionBorder_eq]
        exact haccept
      refine ⟨_, _, fill_eq_ok_iff.2 ⟨_, set, hmaps, hfind, way, policy₁, set₁, victim, policy₂,
        set₂, policy₃, set₃, stats, hchoose, hvacate, haccept', hstats, rfl, rfl⟩, ?_⟩
      have hfitting := (hfitting₁.trans hfitting₂).trans hfitting₃
      have hlines := hfilled.occupancy_eq
      exact h.replace hmaps.2 hset₃ hfitting hroomy (by omega)
  · exact Or.inl ⟨_, fill_of_outside houtside⟩

theorem invalidate_ok (h : s.Ready f room spare) (a : Nat) :
    (∃ refusal, (Store.invalidate a).outcome s = .error (.refused refusal)) ∨
      ∃ evicted t, (Store.invalidate a).outcome s = .ok (evicted, t) ∧ t.Ready f room spare := by
  rcases h.wellFormed.maps_cases a with ⟨ha, set, hmaps⟩ | ⟨-, houtside⟩
  · refine Or.inr ?_
    have hset := h.wellFormed.sets hmaps.2
    cases hfind : set.find (f.geometry.lineOf a).tag with
    | none => exact ⟨_, s, invalidate_eq_ok_iff.2 ⟨_, set, hmaps, Or.inl ⟨hfind, rfl, rfl⟩⟩, h⟩
    | some way =>
      obtain ⟨block, hb, hholds⟩ := hset.find_eq_some_iff.1 hfind
      have hlt := (List.getElem?_eq_some_iff.1 hb).1
      obtain ⟨victim, policy, set', hvacate, hfitting⟩ := hset.vacate_ok (h.fits hmaps.2) hlt
      obtain ⟨hset', hvacated⟩ := hset.vacate hvacate
      obtain ⟨-, gone, rfl, -⟩ := hset.vacate_of_find hfind hvacate
      have hcount : set'.occupancy + 1 = set.occupancy := hvacated.occupancy_eq
      have hle := occupancy_le_lineCount hmaps.2
      have hold := h.occupancy_eq
      obtain ⟨stats, hstats, hroomy, hdeparted⟩ := h.roomy.countDeparture (by omega)
      refine ⟨_, _, invalidate_eq_ok_iff.2 ⟨_, set, hmaps,
        Or.inr ⟨way, some gone, policy, set', hfind, hvacate, rfl,
          Or.inl ⟨stats, rfl, hstats, rfl⟩⟩⟩, ?_⟩
      exact h.replace hmaps.2 hset' hfitting hroomy (by omega)
  · exact Or.inl ⟨_, invalidate_of_outside houtside⟩

/-- A ready store answers any call. -/
theorem respond_ok (h : s.Ready f (room + 1) (spare + 2)) (call : Call) :
    ∃ answer t, s.respond call = .ok (answer, t) ∧ t.Ready f room spare := by
  have hrefused : s.Ready f room spare := h.weaken.weaken_spare.weaken_spare
  cases call with
  | probe a kind =>
    rcases h.weaken_spare.probe_ok a kind with ⟨refusal, hprobe⟩ | ⟨lookup, t, hprobe, hready⟩
    · exact ⟨_, s, respond_of_refused rfl (step_probe_of_refused hprobe), hrefused⟩
    · refine ⟨_, t, respond_of_ok rfl hprobe, ?_⟩
      split at hready
      · exact hready
      · exact hready.weaken
  | fill a kind =>
    rcases h.weaken_spare.fill_ok a kind with ⟨refusal, hfill⟩ | ⟨install, t, hfill, hready⟩
    · exact ⟨_, s, respond_of_refused rfl (step_fill_of_refused hfill), hrefused⟩
    · exact ⟨_, t, respond_of_ok rfl hfill, hready⟩
  | invalidate a =>
    rcases hrefused.invalidate_ok a with ⟨refusal, hinvalidate⟩ | ⟨evicted, t, hinvalidate, hready⟩
    · exact ⟨_, s, respond_of_refused rfl (step_invalidate_of_refused hinvalidate), hrefused⟩
    · exact ⟨_, t, respond_of_ok rfl hinvalidate, hready⟩
  | access a kind =>
    rw [respond_access]
    rcases h.probe_ok a kind with ⟨refusal, hprobe⟩ | ⟨lookup, u, hprobe, hready⟩
    · rw [hprobe]
      exact ⟨_, s, rfl, hrefused⟩
    · rw [hprobe]
      cases hhit : lookup.hit with
      | true =>
        rw [hhit, if_pos rfl] at hready
        exact ⟨.ok (.access ⟨lookup, none⟩), u, by simp [hhit], hready.weaken_spare⟩
      | false =>
        rw [hhit, if_neg Bool.false_ne_true] at hready
        rcases hready.fill_ok a kind with ⟨refusal, hfill⟩ | ⟨install, t, hfill, hready'⟩
        · exact ⟨.error refusal, u, by simp [hhit, hfill], hready.weaken.weaken_spare⟩
        · exact ⟨.ok (.access ⟨lookup, some install⟩), t, by simp [hhit, hfill], hready'⟩

/-- An access to a ready store is answered or refused. -/
theorem access_ok (h : s.Ready f (room + 1) (spare + 2)) (a : Nat) (kind : AccessKind) :
    (∃ refusal t, (Store.access a kind).step s = (.error (.refused refusal), t)) ∨
      ∃ outcome t, (Store.access a kind).step s = (.ok outcome, t) ∧ t.Ready f room spare := by
  obtain ⟨answer, t, hrespond, hready⟩ := h.respond_ok (.access a kind)
  have hserve : (do pure (Reply.access (← Store.access a kind)) : Action Failure (Store π) Reply).step
      s = (answer.mapError .refused, t) := respond_eq_ok_iff.1 hrespond
  rw [Action.step_bind] at hserve
  rcases hstep : (Store.access a kind).step s with ⟨failure | outcome, u⟩
  · rw [hstep] at hserve
    cases answer with
    | ok reply => cases hserve
    | error refusal =>
      cases hserve
      exact .inl ⟨refusal, _, rfl⟩
  · rw [hstep] at hserve
    cases answer with
    | error refusal => cases hserve
    | ok reply =>
      cases hserve
      exact .inr ⟨outcome, _, rfl, hready⟩

end Ready

/-- A ready store answers as many calls as there is room for. -/
theorem Ready.run_ok [Policy π] [Policy.Tame π] [Policy.Dependable π] (calls : List Call) :
    ∀ {s : Store π}, s.Ready f calls.length (2 * calls.length) →
      ∃ history t, run calls s = .ok (history, t) := by
  induction calls with
  | nil =>
    intro s _
    exact ⟨[], s, rfl⟩
  | cons call calls ih =>
    intro s h
    obtain ⟨answer, u, hrespond, hready⟩ := h.respond_ok call
    obtain ⟨history, t, hrun⟩ := ih hready
    exact ⟨⟨call, answer⟩ :: history, t,
      run_cons_eq_ok_iff.2 ⟨answer, u, history, hrespond, hrun, rfl⟩⟩

/-- No block of a new store was touched, and a fully associative policy has the first
set only. -/
theorem untouched_of_create [Policy π] {c : Config} {policy : π} {s : Store π}
    (hbuilt : (create c policy).result = .ok s) (hset : s.sets[index]? = some set) :
    AnyPolicy.Untouched set ∧ set.index = index ∧
      (Policy.fullyAssociative policy = true → index = 0) := by
  obtain ⟨geometry, sets, -, hlayout, rfl⟩ := create_eq_ok_iff.1 hbuilt
  rcases (layout_cases hlayout).2 hset with ⟨-, hzero, rfl⟩ | ⟨hscanned, role, rfl⟩
  · exact ⟨AnyPolicy.untouched_indexed _ _, rfl, fun _ => hzero⟩
  · refine ⟨AnyPolicy.untouched_scanned _ _ role, rfl, fun hfull => ?_⟩
    rw [hscanned] at hfull
    cases hfull

/-- A new store has no line, and has counted none. -/
theorem occupancy_of_create [Policy π] {c : Config} {policy : π} {s : Store π}
    (hbuilt : (create c policy).result = .ok s) : s.stats.occupancy = s.lineCount := by
  rw [stats_of_create hbuilt]
  symm
  refine List.sum_eq_zero fun count hcount => ?_
  obtain ⟨set, hset, rfl⟩ := List.mem_map.1 hcount
  obtain ⟨index, hget⟩ := List.getElem?_of_mem hset
  rw [Array.getElem?_toList] at hget
  refine List.countP_eq_zero.2 fun block hblock => ?_
  rw [((untouched_of_create hbuilt hget).1 block hblock).1]
  exact Bool.false_ne_true

/-- A new store around a policy that fits sets without lines is ready. -/
theorem ready_of_create [Policy π] [Policy.Dependable π] {c : Config} {policy : π} {s : Store π}
    (hbuilt : (create c policy).result = .ok s) (hspare : spare < 2 ^ 64)
    (hfits : ∀ {set : CacheSet}, AnyPolicy.Untouched set → set.index < s.geometry.numSets →
      (Policy.fullyAssociative policy = true → set.index = 0) → Fits room policy set) :
    s.Ready (frameOf c s.geometry policy) room spare := by
  have hwell := (wellFormed_of_create hbuilt).2
  refine ⟨hwell, fun {index set} hset => ?_, ?_, occupancy_of_create hbuilt⟩
  · obtain ⟨huntouched, rfl, hsingle⟩ := untouched_of_create hbuilt hset
    rw [policy_of_create hbuilt]
    exact hfits huntouched (hwell.index_lt hset) hsingle
  · rw [stats_of_create hbuilt]
    have hzero : 0 + spare < 2 ^ 64 := by omega
    exact ⟨hzero, hzero, hzero, hzero, hzero⟩

/-- A new store is ready for any number of calls that 32 bits can count. -/
theorem ready_of_ofConfig {c : Config} {random : UInt64 → Random.Generator}
    {s : Store AnyPolicy} (hbuilt : (ofConfig c random).result = .ok s) (hroom : room < 2 ^ 32) :
    s.Ready ⟨s.geometry, c.regionBorder.map UInt64.toNat,
      decide (c.policy = .fullyAssociativeLru)⟩ room (2 * room) := by
  obtain ⟨geometry, policy, hgeometry, hpolicy, hcreate⟩ := ofConfig_eq_ok_iff.1 hbuilt
  rw [← fullyAssociative_ofConfig hpolicy]
  refine ready_of_create hcreate (by omega) fun huntouched hindex hsingle => ?_
  rw [geometry_of_create hcreate hgeometry] at hindex
  exact AnyPolicy.fits_fresh hpolicy hroom huntouched hindex hsingle

/-- A store that a configuration describes answers every call of a run, whatever the
policy, the addresses and the kinds of access are: no hook faults, no set breaks a
rule, and no counter leaves its width.  All that is asked of the generators of random
numbers is that they draw below their bounds. -/
theorem run_never_faults {c : Config} {random : UInt64 → Random.Generator} {s : Store AnyPolicy}
    (hbuilt : (ofConfig c random).result = .ok s) (calls : List Call)
    (hlength : calls.length < 2 ^ 32) :
    ∃ history t, run calls s = .ok (history, t) ∧ history.map Exchange.call = calls := by
  obtain ⟨history, t, hrun⟩ := (ready_of_ofConfig hbuilt hlength).run_ok calls
  exact ⟨history, t, hrun, calls_of_run hrun⟩

/-- Two ways in one set, found through the tag index.  The calls evict, refuse a line
that is resident and an address that is out of range, and vacate a way. -/
theorem run_of_indexed_calls :
    ∃ s, (ofConfig { Config.ofShape .fullyAssociativeLru 128 64 2 with
        addressBits := 32 }).result = .ok s ∧
      ∃ history t, run [.install 0 true, .access 64 .read, .access 128 .writeback,
          .install 128 false, .lookup (2 ^ 40) false, .invalidate 128, .installWriteback 0] s =
        .ok (history, t) ∧ history.length = 7 := by
  obtain ⟨s, hbuilt⟩ : ∃ s, (ofConfig { Config.ofShape .fullyAssociativeLru 128 64 2 with
      addressBits := 32 }).result = .ok s := ⟨_, rfl⟩
  obtain ⟨history, t, hrun, hcalls⟩ := run_never_faults hbuilt
    [.install 0 true, .access 64 .read, .access 128 .writeback,
      .install 128 false, .lookup (2 ^ 40) false, .invalidate 128, .installWriteback 0] (by decide)
  refine ⟨s, hbuilt, history, t, hrun, ?_⟩
  rw [← List.length_map, hcalls]
  rfl

end Store

end AssocCache
