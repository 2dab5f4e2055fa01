import AssocCache.Proofs.Policy.Agreeing
import AssocCache.Proofs.Store.Accesses
import AssocCache.Proofs.Store.Paired

/-!
# A set by itself

Two stores of one shape, of which the second one is given only those calls that concern
one set.  `Store.Isolated` relates them by that set: it holds the same lines in both,
and the policies are related as far as the set goes.  All other sets may differ, and the
first store has counted at least as much as the second one.

* A call that concerns another set changes nothing that the relation speaks of
  (`Isolated.undisturbed`).
* A call that concerns the set is answered alike (`Isolated.respond`).

So the calls about other sets can be deleted from a run (`Isolated.run`).  What a policy
has to bring along for this is `Policy.Isolating`.
-/

namespace AssocCache

open Success
open Policy (Apart Matching Mimics Retains)

/-- Whether a call is about a line of the set with an index. -/
def Call.concerns (g : Geometry) (index : Nat) (call : Call) : Bool :=
  decide (call.address < 2 ^ g.addressBits) && call.address / g.blockSize % g.numSets == index

/-- A relation between two sets in one place, and the policies that serve them, which is
kept by all steps: by those on the sets themselves and by those on other sets. -/
structure Policy.Isolating {π : Type} [Policy π] (f : Frame) (index : Nat)
    (R : π → CacheSet → π → CacheSet → Prop) : Prop where
  adjusted {policy policy' : π} {set set' : CacheSet} :
    R policy set policy' set' → set.Adjusted set'
  mimics : Mimics f (fun _ => True) R
  apart : Apart index R

open Policy (Isolating)

/-! ## Counting less -/

namespace Stats

variable {stats stats' : Stats}

theorem coupled_countHit (h : stats'.tally ≤ stats.tally) :
    Coupled (fun _ => True)
      (fun after after' => after'.tally ≤ after.tally ∧ after'.occupancy = stats'.occupancy)
      stats.countHit stats'.countHit := by
  refine (Word.coupled_add h.1).bind ?_
  rintro _ _ ⟨-, rfl, rfl⟩
  exact .ok ⟨⟨Nat.succ_le_succ h.1, h.2⟩, rfl⟩

theorem coupled_countMiss (h : stats'.tally ≤ stats.tally) :
    Coupled (fun _ => True)
      (fun after after' => after'.tally ≤ after.tally ∧ after'.occupancy = stats'.occupancy)
      stats.countMiss stats'.countMiss := by
  refine (Word.coupled_add h.2.1).bind ?_
  rintro _ _ ⟨-, rfl, rfl⟩
  exact .ok ⟨⟨h.1, Nat.succ_le_succ h.2.1, h.2.2⟩, rfl⟩

theorem coupled_countReplacement (h : stats'.tally ≤ stats.tally) (wasDirty : Bool) :
    Coupled (fun _ => True)
      (fun after after' => after'.tally ≤ after.tally ∧ after'.occupancy = stats'.occupancy)
      (stats.countReplacement wasDirty) (stats'.countReplacement wasDirty) := by
  obtain ⟨hhits, hmisses, hevictions, hwritebacks⟩ := h
  rw [countReplacement_eq, countReplacement_eq]
  refine (Word.coupled_add hevictions).bind ?_
  rintro _ _ ⟨-, rfl, rfl⟩
  have hevicted := Nat.succ_le_succ hevictions
  cases wasDirty with
  | false => exact .ok ⟨⟨hhits, hmisses, hevicted, hwritebacks⟩, rfl⟩
  | true =>
    refine (Word.coupled_add hwritebacks).bind ?_
    rintro _ _ ⟨-, rfl, rfl⟩
    exact .ok ⟨⟨hhits, hmisses, hevicted, Nat.succ_le_succ hwritebacks⟩, rfl⟩

/-- A fill is counted alike if the statistics with less on them have room for one more
line. -/
theorem coupled_countFill (h : stats'.tally ≤ stats.tally)
    (hroom : stats'.occupancy + 1 < 2 ^ 64) (victim : Option Block) :
    Coupled (fun _ => True)
      (fun after after' => after'.tally ≤ after.tally ∧
        after'.occupancy + victim.toList.length = stats'.occupancy + 1)
      (stats.countFill victim) (stats'.countFill victim) := by
  cases victim with
  | some block =>
    refine (coupled_countReplacement h block.dirty).mono fun after after' hcounted => ?_
    exact ⟨hcounted.1, congrArg (· + 1) hcounted.2⟩
  | none =>
    have hnext : stats'.countArrival = .ok { stats' with occupancy := stats'.occupancy + 1 } :=
      bind_eq_ok_iff.2 ⟨_, Word.add_eq_ok_iff.2 ⟨hroom, rfl⟩, rfl⟩
    show Coupled _ _ stats.countArrival stats'.countArrival
    rw [hnext]
    refine (Reaches.any (Word.add 64 stats.occupancy 1)).bind_coupled fun occupancy _ => ?_
    exact .ok ⟨h, rfl⟩

theorem coupled_countVacated (h : stats'.tally ≤ stats.tally) {victim : Option Block}
    (hroom : victim.toList.length ≤ stats'.occupancy) :
    Coupled (fun _ => True)
      (fun after after' => after'.tally ≤ after.tally ∧
        after'.occupancy + victim.toList.length = stats'.occupancy)
      (stats.countVacated victim) (stats'.countVacated victim) := by
  cases victim with
  | none => exact .ok ⟨h, rfl⟩
  | some block =>
    have hprevious :
        stats'.countDeparture = .ok { stats' with occupancy := stats'.occupancy - 1 } :=
      bind_eq_ok_iff.2 ⟨_, Word.sub_eq_ok_iff.2 ⟨hroom, rfl⟩, rfl⟩
    show Coupled _ _ stats.countDeparture stats'.countDeparture
    rw [hprevious]
    refine (Reaches.any (Word.sub stats.occupancy 1)).bind_coupled fun occupancy _ => ?_
    exact .ok ⟨h, Nat.sub_add_cancel hroom⟩

end Stats

namespace Store

variable {π : Type} {f : Frame} {index : Nat} {R : π → CacheSet → π → CacheSet → Prop}
  {s s' t u : Store π} {set set' : CacheSet}

/-- Two sets in the same place of two stores. -/
structure Facing (f : Frame) (index : Nat) (R : π → CacheSet → π → CacheSet → Prop)
    (s : Store π) (set : CacheSet) (s' : Store π) (set' : CacheSet) : Prop where
  wellFormed : s.WellFormed f
  geometry_eq : s'.geometry = s.geometry
  regionBorder_eq : s'.regionBorder = s.regionBorder
  set_eq : s.sets[index]? = some set
  set_eq' : s'.sets[index]? = some set'
  tally_le : s'.stats.tally ≤ s.stats.tally
  /-- The other sets of the second store are empty. -/
  occupancy_eq : s'.stats.occupancy = set.occupancy
  related : R s.policy set s'.policy set'

/-- The second store has gone through what concerns the set with an index. -/
def Isolated (f : Frame) (index : Nat) (R : π → CacheSet → π → CacheSet → Prop)
    (s s' : Store π) : Prop :=
  ∃ set set', Facing f index R s set s' set'

/-! ## Calls about other sets -/

/-- Nothing happened to the set with an index, nor to what the policy knows of it. -/
structure Undisturbed (index : Nat) (R : π → CacheSet → π → CacheSet → Prop) (s t : Store π) :
    Prop where
  set_eq : t.sets[index]? = s.sets[index]?
  retains : Retains R s.policy t.policy

namespace Undisturbed

theorem refl (s : Store π) : Undisturbed index R s s := ⟨rfl, .refl _⟩

theorem trans (h : Undisturbed index R s t) (h' : Undisturbed index R t u) :
    Undisturbed index R s u :=
  ⟨h'.set_eq.trans h.set_eq, h.retains.trans h'.retains⟩

theorem replace {other : Nat} (hother : other ≠ index) {policy : π}
    (hretains : Retains R s.policy policy) (set : CacheSet) (stats : Stats) :
    Undisturbed index R s (s.replace other set policy stats) :=
  ⟨Array.getElem?_setIfInBounds_ne hother, hretains⟩

variable [Policy π] [Policy.Tame π] {a : Nat} {access : AccessKind}

omit [Policy.Tame π] in
theorem of_probe (h : s.WellFormed f) (hapart : Apart index R) {lookup : Lookup}
    (hother : (f.geometry.lineOf a).set ≠ index)
    (hprobe : (Store.probe a access).outcome s = .ok (lookup, t)) : Undisturbed index R s t := by
  obtain ⟨line, set, hmaps, ⟨way, policy, set', stats, -, hhit, -, -, rfl⟩ |
    ⟨stats, -, -, -, rfl⟩⟩ := probe_eq_ok_iff.1 hprobe
  · obtain ⟨-, rfl, -, hset⟩ := h.of_maps hmaps
    refine .replace hother ((hapart.hit ?_).of_ok hhit) _ _
    rw [hset.index_eq]
    exact hother
  · exact ⟨rfl, .refl _⟩

theorem of_fill (h : s.WellFormed f) (hapart : Apart index R) {install : Install}
    (hother : (f.geometry.lineOf a).set ≠ index)
    (hfill : (Store.fill a access).outcome s = .ok (install, t)) : Undisturbed index R s t := by
  obtain ⟨line, set, hmaps, hfind, -⟩ := fill_eq_ok_iff.1 hfill
  rw [fill_of_maps hmaps hfind, mapError_eq_ok_iff] at hfill
  obtain ⟨⟨way, victim, policy, set'⟩, hbring, hfill⟩ := bind_eq_ok_iff.1 hfill
  obtain ⟨stats, -, hpure⟩ := bind_eq_ok_iff.1 hfill
  cases hpure
  obtain ⟨-, rfl, -, hset⟩ := h.of_maps hmaps
  refine .replace hother ((hapart.bringIn ?_).of_ok hbring) _ _
  rw [hset.index_eq]
  exact hother

omit [Policy.Tame π] in
theorem of_invalidate (h : s.WellFormed f) (hapart : Apart index R) {evicted : Option Eviction}
    (hother : (f.geometry.lineOf a).set ≠ index)
    (hinvalidate : (Store.invalidate a).outcome s = .ok (evicted, t)) : Undisturbed index R s t := by
  obtain ⟨line, set, hmaps, ⟨-, -, rfl⟩ | ⟨way, victim, policy, set', -, hvacate, -, hstats⟩⟩ :=
    invalidate_eq_ok_iff.1 hinvalidate
  · exact .refl _
  · obtain ⟨-, rfl, -, hset⟩ := h.of_maps hmaps
    have hretains : Retains R s.policy policy := by
      refine (hapart.vacate ?_).of_ok hvacate
      rw [hset.index_eq]
      exact hother
    rcases hstats with ⟨stats, -, -, rfl⟩ | ⟨-, rfl⟩
    · exact .replace hother hretains _ _
    · exact .replace hother hretains _ _

/-- A call about a line of another set. -/
theorem of_respond (h : s.WellFormed f) (hapart : Apart index R) {call : Call}
    {answer : Except Refusal Reply} (hother : (f.geometry.lineOf call.address).set ≠ index)
    (hrespond : s.respond call = .ok (answer, t)) : Undisturbed index R s t := by
  cases responds_of_respond hrespond with
  | probe hprobe => exact of_probe h hapart hother hprobe
  | fill hfill => exact of_fill h hapart hother hfill
  | hit hprobe _ => exact of_probe h hapart hother hprobe
  | miss hprobe _ hfill =>
    exact (of_probe h hapart hother hprobe).trans (of_fill (h.probe hprobe).1 hapart hother hfill)
  | invalidate hinvalidate => exact of_invalidate h hapart hother hinvalidate
  | refused => exact .refl _
  | missRefused hprobe _ _ => exact of_probe h hapart hother hprobe

end Undisturbed

/-! ## Calls about the set -/

namespace Facing

/-- A step on both sets. -/
theorem replace (h : Facing f index R s set s' set') {set₁ set₁' : CacheSet} {policy policy' : π}
    {stats stats' : Stats} (hwell : set₁.WellFormed f index)
    (hrelated : R policy set₁ policy' set₁') (htally : stats'.tally ≤ stats.tally)
    (hoccupancy : stats'.occupancy = set₁.occupancy) :
    Isolated f index R (s.replace index set₁ policy stats)
      (s'.replace index set₁' policy' stats') := by
  obtain ⟨hlt, -⟩ := Array.getElem?_eq_some_iff.1 h.set_eq
  obtain ⟨hlt', -⟩ := Array.getElem?_eq_some_iff.1 h.set_eq'
  exact ⟨set₁, set₁', h.wellFormed.replace hwell policy stats, h.geometry_eq, h.regionBorder_eq,
    Array.getElem?_setIfInBounds_self_of_lt hlt, Array.getElem?_setIfInBounds_self_of_lt hlt',
    htally, hoccupancy, hrelated⟩

/-- The statistics go on. -/
theorem recount (h : Facing f index R s set s' set') {stats stats' : Stats}
    (htally : stats'.tally ≤ stats.tally) (hoccupancy : stats'.occupancy = s'.stats.occupancy) :
    Facing f index R { s with stats } set { s' with stats := stats' } set' :=
  ⟨h.wellFormed.recount stats, h.geometry_eq, h.regionBorder_eq, h.set_eq, h.set_eq', htally,
    hoccupancy.trans h.occupancy_eq, h.related⟩

variable [Policy π] [Policy.Tame π] {tag : Nat}

theorem probeWithin (h : Facing f index R s set s' set') (hi : Isolating f index R) (tag : Nat)
    (access : AccessKind) :
    Coupled (fun _ => True) (fun x x' => x'.1 = x.1 ∧ Isolated f index R x.2 x'.2)
      (s.probeWithin ⟨index, tag⟩ set access) (s'.probeWithin ⟨index, tag⟩ set' access) := by
  have hset := h.wellFormed.sets h.set_eq
  unfold Store.probeWithin
  rw [hi.mimics.find_eq tag hset h.related]
  cases hfind : set.find tag with
  | some way =>
    refine (hi.mimics.hit access hset h.related hfind).attach.bind ?_
    intro ⟨policy₁, set₁⟩ ⟨policy₁', set₁'⟩ ⟨hmatching, hhit, _⟩
    obtain ⟨hset₁, hlines, -⟩ := hset.hit hfind hhit
    refine (Stats.coupled_countHit h.tally_le).bind ?_
    intro stats stats' hcounted
    refine .ok ⟨?_, h.replace hset₁ hmatching.here hcounted.1 ?_⟩
    · rw [h.geometry_eq]
    · rw [hcounted.2, h.occupancy_eq, hlines]
  | none =>
    refine (Stats.coupled_countMiss h.tally_le).bind ?_
    intro stats stats' hcounted
    refine .ok ⟨?_, set, set', h.recount hcounted.1 hcounted.2⟩
    rw [h.geometry_eq]

theorem fillWithin (h : Facing f index R s set s' set') (hi : Isolating f index R)
    (hways : f.geometry.associativity + 1 < 2 ^ 64) (hfind : set.find tag = none)
    (hhas : f.geometry.Has ⟨index, tag⟩) (access : AccessKind) :
    Coupled (fun _ => True) (fun x x' => x'.1 = x.1 ∧ Isolated f index R x.2 x'.2)
      (s.fillWithin ⟨index, tag⟩ set access) (s'.fillWithin ⟨index, tag⟩ set' access) := by
  have hset := h.wellFormed.sets h.set_eq
  have hroom : s'.stats.occupancy + 1 < 2 ^ 64 := by
    have hle : set.occupancy ≤ set.blocks.length := List.countP_le_length
    rw [hset.length_blocks] at hle
    rw [h.occupancy_eq]
    omega
  unfold Store.fillWithin
  rw [h.geometry_eq, h.regionBorder_eq, h.wellFormed.geometry_eq, h.wellFormed.regionBorder_eq]
  refine (hi.mimics.bringIn access hset h.related hfind hhas).attach.bind ?_
  intro ⟨way, victim, policy₁, set₁⟩ ⟨way', victim', policy₁', set₁'⟩
    ⟨⟨hway, hdeparting⟩, hbring, _⟩
  obtain rfl : way' = way := hway
  obtain ⟨hset₁, hfilled⟩ := hset.bringIn hfind hhas hbring
  have hvictim : victim'.map Block.bare = victim.map Block.bare := hdeparting.victim_eq
  dsimp only
  rw [Stats.countFill_congr hvictim, departure_congr h.geometry_eq hvictim]
  refine (Stats.coupled_countFill h.tally_le hroom victim).bind ?_
  intro stats stats' hcounted
  refine .ok ⟨rfl, h.replace hset₁ hdeparting.matching.here hcounted.1 ?_⟩
  have hlines := hfilled.occupancy_eq
  have hbefore := h.occupancy_eq
  have hafter := hcounted.2
  omega

theorem invalidateWithin (h : Facing f index R s set s' set') (hi : Isolating f index R)
    (tag : Nat) :
    Coupled (fun _ => True) (fun x x' => x'.1 = x.1 ∧ Isolated f index R x.2 x'.2)
      (s.invalidateWithin ⟨index, tag⟩ set) (s'.invalidateWithin ⟨index, tag⟩ set') := by
  have hset := h.wellFormed.sets h.set_eq
  unfold Store.invalidateWithin
  rw [hi.mimics.find_eq tag hset h.related]
  cases hfind : set.find tag with
  | none => exact .ok ⟨rfl, set, set', h⟩
  | some way =>
    refine (hi.mimics.vacate hset h.related hfind).attach.bind ?_
    intro ⟨victim, policy₁, set₁⟩ ⟨victim', policy₁', set₁'⟩ ⟨hdeparting, hvacate, _⟩
    obtain ⟨hset₁, hvacated⟩ := hset.vacate hvacate
    have hlines := hvacated.occupancy_eq
    have hvictim : victim'.map Block.bare = victim.map Block.bare := hdeparting.victim_eq
    have hcount : s'.stats.countVacated victim' = s'.stats.countVacated victim := by
      cases victim <;> cases victim' <;> simp_all [Stats.countVacated]
    have hroom : victim.toList.length ≤ s'.stats.occupancy := by
      rw [h.occupancy_eq]
      omega
    dsimp only
    rw [hcount, departure_congr h.geometry_eq hvictim]
    refine (Stats.coupled_countVacated h.tally_le hroom).bind ?_
    intro stats stats' hcounted
    refine .ok ⟨rfl, h.replace hset₁ hdeparting.matching.here hcounted.1 ?_⟩
    have hbefore := h.occupancy_eq
    have hafter := hcounted.2
    omega

theorem respondWithin (h : Facing f index R s set s' set') (hi : Isolating f index R)
    (hways : f.geometry.associativity + 1 < 2 ^ 64) (hhas : f.geometry.Has ⟨index, tag⟩)
    (call : Call) :
    Coupled (fun _ => True) (fun x x' => x'.1 = x.1 ∧ Isolated f index R x.2 x'.2)
      (s.respondWithin ⟨index, tag⟩ set call) (s'.respondWithin ⟨index, tag⟩ set' call) := by
  have hfind' := hi.mimics.find_eq tag (h.wellFormed.sets h.set_eq) h.related
  cases call with
  | probe a access =>
    refine (h.probeWithin hi tag access).bind ?_
    rintro ⟨lookup, t⟩ ⟨_, t'⟩ ⟨rfl, hisolated⟩
    exact .ok ⟨rfl, hisolated⟩
  | fill a access =>
    rw [Store.respondWithin, Store.respondWithin, hfind']
    cases hfind : set.find tag with
    | some way => exact .ok ⟨rfl, set, set', h⟩
    | none =>
      refine (h.fillWithin hi hways hfind hhas access).bind ?_
      rintro ⟨install, t⟩ ⟨_, t'⟩ ⟨rfl, hisolated⟩
      exact .ok ⟨rfl, hisolated⟩
  | access a access =>
    cases hfind : set.find tag with
    | some way =>
      rw [respondWithin_access_of_hit hfind, respondWithin_access_of_hit (hfind'.trans hfind)]
      refine (h.probeWithin hi tag access).bind ?_
      rintro ⟨lookup, t⟩ ⟨_, t'⟩ ⟨rfl, hisolated⟩
      exact .ok ⟨rfl, hisolated⟩
    | none =>
      rw [respondWithin_access_of_miss hfind, respondWithin_access_of_miss (hfind'.trans hfind)]
      refine (Stats.coupled_countMiss h.tally_le).bind ?_
      intro stats stats' hcounted
      refine ((h.recount hcounted.1 hcounted.2).fillWithin hi hways hfind hhas access).bind ?_
      rintro ⟨install, t⟩ ⟨_, t'⟩ ⟨rfl, hisolated⟩
      refine .ok ⟨?_, hisolated⟩
      rw [h.geometry_eq]
  | invalidate a =>
    refine (h.invalidateWithin hi tag).bind ?_
    rintro ⟨evicted, t⟩ ⟨_, t'⟩ ⟨rfl, hisolated⟩
    exact .ok ⟨rfl, hisolated⟩

end Facing

/-! ## Runs -/

namespace Isolated

variable [Policy π] [Policy.Tame π] {call : Call} {answer : Except Refusal Reply}

/-- A call that concerns the set is answered alike. -/
theorem respond (h : Isolated f index R s s') (hi : Isolating f index R)
    (hways : f.geometry.associativity + 1 < 2 ^ 64)
    (hconcerns : call.concerns f.geometry index = true) :
    Coupled (fun _ => True) (fun x x' => x'.1 = x.1 ∧ Isolated f index R x.2 x'.2)
      (s.respond call) (s'.respond call) := by
  obtain ⟨set, set', h⟩ := h
  have hvalid := h.wellFormed.valid
  obtain ⟨ha, hset⟩ : call.address < 2 ^ f.geometry.addressBits ∧
      call.address / f.geometry.blockSize % f.geometry.numSets = index := by
    simpa [Call.concerns] using hconcerns
  have hline : f.geometry.lineOf call.address = ⟨index, (f.geometry.lineOf call.address).tag⟩ :=
    Line.eq_iff.2 ⟨(hvalid.lineOf_set _).trans hset, rfl⟩
  have hlocate := hvalid.locate_eq ha
  have hhas := hvalid.has_lineOf ha
  rw [hline] at hlocate hhas
  have hmaps : s.Maps call.address ⟨index, (f.geometry.lineOf call.address).tag⟩ set := by
    refine ⟨?_, h.set_eq⟩
    rw [h.wellFormed.geometry_eq]
    exact hlocate
  have hmaps' : s'.Maps call.address ⟨index, (f.geometry.lineOf call.address).tag⟩ set' := by
    refine ⟨?_, h.set_eq'⟩
    rw [h.geometry_eq]
    exact hmaps.1
  rw [respond_of_maps hmaps, respond_of_maps hmaps']
  exact h.respondWithin hi hways hhas call

/-- A call that does not concern the set leaves the stores related. -/
theorem undisturbed (h : Isolated f index R s s') (hi : Isolating f index R)
    (hother : call.concerns f.geometry index = false)
    (hrespond : s.respond call = .ok (answer, t)) : Isolated f index R t s' := by
  obtain ⟨set, set', h⟩ := h
  have hwell := h.wellFormed.respond hrespond
  have hundisturbed : Undisturbed index R s t := by
    rcases h.wellFormed.maps_cases call.address with ⟨ha, -⟩ | ⟨-, houtside⟩
    · refine .of_respond h.wellFormed hi.apart ?_ hrespond
      rw [h.wellFormed.valid.lineOf_set]
      simpa [Call.concerns, ha] using hother
    · rw [respond_of_outside houtside] at hrespond
      cases hrespond
      exact .refl _
  refine ⟨set, set', hwell, ?_, ?_, hundisturbed.set_eq.trans h.set_eq, h.set_eq', ?_,
    h.occupancy_eq, hundisturbed.retains.keep h.related⟩
  · rw [h.geometry_eq, h.wellFormed.geometry_eq, hwell.geometry_eq]
  · rw [h.regionBorder_eq, h.wellFormed.regionBorder_eq, hwell.regionBorder_eq]
  · rw [tally_of_respond hrespond]
    exact Tally.le_add_right h.tally_le _

/-- The calls that do not concern the set can be deleted from a run, by induction on the
calls. -/
theorem run (h : Isolated f index R s s') (hi : Isolating f index R)
    (hways : f.geometry.associativity + 1 < 2 ^ 64) {calls : List Call} {history : List Exchange}
    (hrun : Store.run calls s = .ok (history, t)) :
    ∃ t', Store.run (calls.filter (·.concerns f.geometry index)) s' =
        .ok (history.filter (·.call.concerns f.geometry index), t') ∧ Isolated f index R t t' := by
  induction calls generalizing s s' history with
  | nil =>
    cases hrun
    exact ⟨s', rfl, h⟩
  | cons call calls ih =>
    obtain ⟨answer, u, later, hrespond, hrest, rfl⟩ := run_cons_eq_ok_iff.1 hrun
    cases hconcerns : call.concerns f.geometry index with
    | true =>
      obtain ⟨⟨_, u'⟩, hrespond', rfl, hisolated⟩ :=
        (h.respond hi hways hconcerns).exists_ok hrespond
      obtain ⟨t', hrest', hlast⟩ := ih hisolated hrest
      refine ⟨t', ?_, hlast⟩
      simp only [List.filter_cons, hconcerns, if_true]
      exact run_cons_eq_ok_iff.2 ⟨_, u', _, hrespond', hrest', rfl⟩
    | false =>
      obtain ⟨t', hrest', hlast⟩ := ih (h.undisturbed hi hconcerns hrespond) hrest
      refine ⟨t', ?_, hlast⟩
      simp only [List.filter_cons, hconcerns, Bool.false_eq_true, if_false]
      exact hrest'

end Isolated

end Store

end AssocCache
