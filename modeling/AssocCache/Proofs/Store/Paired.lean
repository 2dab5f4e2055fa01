import AssocCache.Proofs.Coupled
import AssocCache.Proofs.Store.Run

/-!
# Two stores side by side

Two stores of one shape under two policies.  `Policy.Mimics` says that the second
policy does on its sets what the first one does on related ones: a line is found in
the same way, and a step leads to related sets again and reports the same.  What the
policies know of a set may differ, and so may the words of the blocks.

The two stores then answer each call alike (`Paired.respond`), and with it each
run (`Paired.run`).  A step of the first policy may end with a fault that is excused,
and then the run of the first store ends with it.
-/

/-!
## Answers within a set

Once an address maps to a set, a call is answered by steps on that set and on the
statistics (`respondWithin`), and it ends as these do, with a fault too
(`respond_of_maps`).
-/

namespace AssocCache

open Success

variable {π : Type} [Policy π]

namespace Store

variable {s : Store π} {address : Nat} {line : Line} {set : CacheSet}

/-- The answer to a call about a line of a set. -/
def respondWithin (s : Store π) (line : Line) (set : CacheSet) :
    Call → Except Fault (Except Refusal Reply × Store π)
  | .probe _ access => do
    let (lookup, s) ← s.probeWithin line set access
    pure (.ok (.lookup lookup), s)
  | .fill address access =>
    if (set.find line.tag).isSome then
      pure (.error (.alreadyResident address), s)
    else do
      let (install, s) ← s.fillWithin line set access
      pure (.ok (.install install), s)
  | .access _ access => do
    let (lookup, s) ← s.probeWithin line set access
    if lookup.hit then
      pure (.ok (.access ⟨lookup, none⟩), s)
    else do
      let (install, s) ← s.fillWithin line set access
      pure (.ok (.access ⟨lookup, some install⟩), s)
  | .invalidate _ => do
    let (evicted, s) ← s.invalidateWithin line set
    pure (.ok (.departure evicted), s)

/-- An access that hits is a probe. -/
theorem respondWithin_access_of_hit {way : Nat} (hfind : set.find line.tag = some way)
    (address : Nat) (access : AccessKind) :
    s.respondWithin line set (.access address access) =
      s.probeWithin line set access >>= fun (lookup, s) =>
        pure (.ok (.access ⟨lookup, none⟩), s) := by
  rw [respondWithin, probeWithin, hfind]
  simp only [bind_assoc, pure_bind]
  rfl

/-- An access that misses counts the miss and then fills. -/
theorem respondWithin_access_of_miss (hfind : set.find line.tag = none) (address : Nat)
    (access : AccessKind) :
    s.respondWithin line set (.access address access) =
      s.stats.countMiss >>= fun stats =>
        fillWithin { s with stats } line set access >>= fun (install, t) =>
          pure (.ok (.access ⟨⟨line.set, none, s.geometry.hitLatency⟩, some install⟩), t) := by
  rw [respondWithin, probeWithin, hfind]
  simp only [bind_assoc, pure_bind]
  rfl

theorem respond_of_outside {call : Call} {refusal : Refusal}
    (h : s.geometry.locate call.address = .error (.refused refusal)) :
    s.respond call = .ok (.error refusal, s) := by
  cases call <;> dsimp only [Call.address] at h
  case probe => exact respond_of_refused rfl (step_probe_of_refused (probe_of_outside h))
  case fill => exact respond_of_refused rfl (step_fill_of_refused (fill_of_outside h))
  case access => rw [respond_access, probe_of_outside h]
  case invalidate => exact respond_of_refused rfl (step_invalidate_of_refused (invalidate_of_outside h))

/-- A miss changes nothing but the statistics, so the address maps as before. -/
theorem maps_of_missWithin {u : Store π} {lookup : Lookup} {access : AccessKind}
    (hmaps : s.Maps address line set) (hprobe : s.probeWithin line set access = .ok (lookup, u))
    (hmiss : lookup.hit = false) : u.Maps address line set ∧ set.find line.tag = none := by
  unfold probeWithin at hprobe
  split at hprobe
  · obtain ⟨⟨policy, set'⟩, -, hprobe⟩ := bind_eq_ok_iff.1 hprobe
    obtain ⟨stats, -, hprobe⟩ := bind_eq_ok_iff.1 hprobe
    cases hprobe
    cases hmiss
  · rename_i hfind
    obtain ⟨stats, -, hprobe⟩ := bind_eq_ok_iff.1 hprobe
    cases hprobe
    exact ⟨hmaps, hfind⟩

theorem respond_of_maps {call : Call} (hmaps : s.Maps call.address line set) :
    s.respond call = s.respondWithin line set call := by
  cases call <;> dsimp only [Call.address] at hmaps
  case probe a access => exact respond_of_aborted rfl (probe_of_maps hmaps access)
  case invalidate a => exact respond_of_aborted rfl (invalidate_of_maps hmaps)
  case fill a access =>
    rw [respondWithin]
    cases hfind : set.find line.tag with
    | some way => exact respond_of_refused rfl (step_fill_of_resident hmaps (by rw [hfind]; rfl))
    | none => exact respond_of_aborted rfl (fill_of_maps hmaps hfind access)
  case access a access =>
    rw [respond_access, probe_of_maps hmaps, respondWithin]
    rcases hprobe : s.probeWithin line set access with fault | ⟨lookup, u⟩
    · rfl
    · simp only [mapError_ok, bind, Except.bind]
      cases hhit : lookup.hit with
      | true => rfl
      | false =>
        obtain ⟨hmaps', hfind⟩ := maps_of_missWithin hmaps hprobe hhit
        rw [if_neg Bool.false_ne_true, if_neg Bool.false_ne_true, fill_of_maps hmaps' hfind]
        rcases u.fillWithin line set access with fault | ⟨install, t⟩ <;> rfl

end Store

end AssocCache

/-! ## Pairs of stores -/

namespace AssocCache

open Success

variable {π π' : Type} [Policy π] [Policy π'] {excused : Fault → Prop} {f : Frame}
  {R : π → CacheSet → π' → CacheSet → Prop}

namespace Policy

omit [Policy π] [Policy π'] in
/-- After a step on the sets with an index these two are related, and the other sets
are related as before. -/
structure Matching (R : π → CacheSet → π' → CacheSet → Prop) (index : Nat) (policy : π)
    (policy' : π') (x : π × CacheSet) (x' : π' × CacheSet) : Prop where
  here : R x.1 x.2 x'.1 x'.2
  elsewhere : ∀ {other other' : CacheSet}, other.index ≠ index →
    R policy other policy' other' → R x.1 other x'.1 other'

omit [Policy π] [Policy π'] in
/-- A step after a step. -/
theorem Matching.trans {index : Nat} {policy : π} {policy' : π'} {x y : π × CacheSet}
    {x' y' : π' × CacheSet} (h : Matching R index policy policy' x x')
    (h' : Matching R index x.1 x'.1 y y') : Matching R index policy policy' y y' where
  here := h'.here
  elsewhere hother hrelated := h'.elsewhere hother (h.elsewhere hother hrelated)

/-- Two departures report the same line and leave related sets. -/
structure Departing (R : π → CacheSet → π' → CacheSet → Prop) (index : Nat) (policy : π)
    (policy' : π') (x : Option Block × π × CacheSet) (x' : Option Block × π' × CacheSet) :
    Prop where
  victim_eq : x'.1.map Block.bare = x.1.map Block.bare
  matching : Matching R index policy policy' x.2 x'.2

/-- Related sets stay related in the steps of an operation, and the steps report the
same. -/
structure Mimics (f : Frame) (excused : Fault → Prop) (R : π → CacheSet → π' → CacheSet → Prop) :
    Prop where
  find_eq {index : Nat} {policy : π} {policy' : π'} {set set' : CacheSet} (tag : Nat) :
    set.WellFormed f index → R policy set policy' set' → set'.find tag = set.find tag
  hit {index tag way : Nat} {policy : π} {policy' : π'} {set set' : CacheSet}
      (access : AccessKind) :
    set.WellFormed f index → R policy set policy' set' → set.find tag = some way →
    Coupled excused (Matching R index policy policy') (set.hit policy way access)
      (set'.hit policy' way access)
  bringIn {index tag : Nat} {policy : π} {policy' : π'} {set set' : CacheSet} (access : AccessKind) :
    set.WellFormed f index → R policy set policy' set' → set.find tag = none →
    f.geometry.Has ⟨index, tag⟩ →
    Coupled excused (fun x x' => x'.1 = x.1 ∧ Departing R index policy policy' x.2 x'.2)
      (set.bringIn policy tag (.classify (f.geometry.addressOf ⟨index, tag⟩) f.regionBorder) access)
      (set'.bringIn policy' tag (.classify (f.geometry.addressOf ⟨index, tag⟩) f.regionBorder) access)
  vacate {index tag way : Nat} {policy : π} {policy' : π'} {set set' : CacheSet} :
    set.WellFormed f index → R policy set policy' set' → set.find tag = some way →
    Coupled excused (Departing R index policy policy') (set.vacate policy way)
      (set'.vacate policy' way)

end Policy

open Policy (Matching Departing Mimics)

/-- A line enters a well-formed set. -/
theorem CacheSet.WellFormed.bringIn [Policy.Tame π] {index tag way : Nat} {policy policy' : π}
    {set set' : CacheSet} {victim : Option Block} {access : AccessKind}
    (h : set.WellFormed f index) (hfind : set.find tag = none)
    (hhas : f.geometry.Has ⟨index, tag⟩)
    (hbring : set.bringIn policy tag
      (.classify (f.geometry.addressOf ⟨index, tag⟩) f.regionBorder) access =
        .ok (way, victim, policy', set')) :
    set'.WellFormed f index ∧ set.Filled set' tag way access.isWrite victim := by
  have habsent : set.residence tag = none := by
    rw [← Option.map_eq_none_iff, h.map_way_residence, hfind]
  obtain ⟨⟨chosen, policy₁, set₁⟩, hchoose, hbring⟩ := bind_eq_ok_iff.1 hbring
  obtain ⟨⟨gone, policy₂, set₂⟩, hvacate, hbring⟩ := bind_eq_ok_iff.1 hbring
  obtain ⟨⟨policy₃, set₃⟩, haccept, hbring⟩ := bind_eq_ok_iff.1 hbring
  cases hbring
  have hchosen : (Store.chooseWay set policy).result = .ok (way, policy₁, set₁) := by
    rw [CacheSet.result_chooseWay, mapError_eq_ok_iff]
    exact hchoose
  exact h.fillSteps habsent hhas hchosen hvacate haccept

theorem Stats.countFill_congr {victim victim' : Option Block}
    (h : victim'.map Block.bare = victim.map Block.bare) (stats : Stats) :
    stats.countFill victim' = stats.countFill victim := by
  cases victim <;> cases victim' <;> simp_all [Stats.countFill, Block.bare_eq_bare_iff]

namespace Store

/-- Two stores of one shape whose sets are related. -/
structure Paired (f : Frame) (R : π → CacheSet → π' → CacheSet → Prop) (s : Store π)
    (s' : Store π') : Prop where
  wellFormed : s.WellFormed f
  geometry_eq : s'.geometry = s.geometry
  regionBorder_eq : s'.regionBorder = s.regionBorder
  stats_eq : s'.stats = s.stats
  size_eq : s'.sets.size = s.sets.size
  sets : ∀ {index : Nat} {set : CacheSet}, s.sets[index]? = some set →
    ∃ set', s'.sets[index]? = some set' ∧ R s.policy set s'.policy set'

/-- Two answers are the same and leave paired stores. -/
def Answering {α : Type} (f : Frame) (R : π → CacheSet → π' → CacheSet → Prop)
    (x : α × Store π) (x' : α × Store π') : Prop :=
  x'.1 = x.1 ∧ Paired f R x.2 x'.2

variable {s : Store π} {s' : Store π'} {index : Nat} {line : Line} {set set' : CacheSet}

omit [Policy π] [Policy π'] in
theorem departure_congr {victim victim' : Option Block} (hgeometry : s'.geometry = s.geometry)
    (h : victim'.map Block.bare = victim.map Block.bare) (index : Nat) :
    victim'.map (s'.departure index) = victim.map (s.departure index) := by
  cases victim <;> cases victim' <;>
    simp_all [Store.departure, Block.bare_eq_bare_iff]

namespace Paired

omit [Policy π] [Policy π'] in
/-- A step on one pair of sets keeps the pairing of the stores. -/
theorem replace (h : Paired f R s s') (hset : set.WellFormed f index) {policy : π} {policy' : π'}
    (hmatching : Matching R index s.policy s'.policy (policy, set) (policy', set'))
    (stats : Stats) :
    Paired f R (s.replace index set policy stats) (s'.replace index set' policy' stats) where
  wellFormed := h.wellFormed.replace hset policy stats
  geometry_eq := h.geometry_eq
  regionBorder_eq := h.regionBorder_eq
  stats_eq := rfl
  size_eq := by
    simp only [Store.replace, Array.size_setIfInBounds, h.size_eq]
  sets {other found} hfound := by
    simp only [Store.replace, Array.getElem?_setIfInBounds] at hfound ⊢
    by_cases hother : index = other
    · rw [if_pos hother] at hfound ⊢
      rw [h.size_eq]
      split at hfound
      · cases hfound
        rename_i hlt
        rw [if_pos hlt]
        exact ⟨set', rfl, hmatching.here⟩
      · cases hfound
    · rw [if_neg hother] at hfound ⊢
      obtain ⟨found', hfound', hrelated⟩ := h.sets hfound
      refine ⟨found', hfound', hmatching.elsewhere ?_ hrelated⟩
      rw [(h.wellFormed.sets hfound).index_eq]
      exact Ne.symm hother

omit [Policy π] [Policy π'] in
/-- What related sets agree on of their blocks, paired stores do. -/
theorem map_block?_eq {β : Type} {g : Block → β} (h : Paired f R s s')
    (hR : ∀ {policy : π} {set : CacheSet} {policy' : π'} {set' : CacheSet},
      R policy set policy' set' → ∀ way : Nat,
        set'.blocks[way]?.map g = set.blocks[way]?.map g) (index way : Nat) :
    (s'.block? index way).map g = (s.block? index way).map g := by
  unfold block?
  cases hset : s.sets[index]? with
  | some set =>
    obtain ⟨set', hset', hrelated⟩ := h.sets hset
    rw [hset']
    exact hR hrelated way
  | none =>
    have hnone : s'.sets[index]? = none := by
      rw [Array.getElem?_eq_none_iff] at hset ⊢
      rw [h.size_eq]
      exact hset
    rw [hnone]

omit [Policy π] [Policy π'] in
/-- Paired stores have the same blocks if related sets do. -/
theorem block?_eq (h : Paired f R s s')
    (hR : ∀ {policy : π} {set : CacheSet} {policy' : π'} {set' : CacheSet},
      R policy set policy' set' → set'.blocks = set.blocks) (index way : Nat) :
    s'.block? index way = s.block? index way := by
  simpa using h.map_block?_eq (g := id) (fun hrelated way => by rw [hR hrelated]) index way

omit [Policy π] [Policy π'] in
/-- The statistics change alike. -/
theorem recount (h : Paired f R s s') (stats : Stats) :
    Paired f R { s with stats } { s' with stats } :=
  ⟨h.wellFormed.recount stats, h.geometry_eq, h.regionBorder_eq, rfl, h.size_eq, h.sets⟩

variable [Policy.Tame π]

theorem probeWithin (h : Paired f R s s') (hm : Mimics f excused R)
    (hset : s.sets[line.set]? = some set) (hrelated : R s.policy set s'.policy set')
    (access : AccessKind) :
    Coupled excused (Answering f R) (s.probeWithin line set access)
      (s'.probeWithin line set' access) := by
  have hwell := h.wellFormed.sets hset
  unfold Store.probeWithin
  rw [hm.find_eq line.tag hwell hrelated, h.stats_eq]
  cases hfind : set.find line.tag with
  | some way =>
    refine (hm.hit access hwell hrelated hfind).attach.bind ?_
    intro ⟨policy₁, set₁⟩ ⟨policy₁', set₁'⟩ ⟨hmatching, hhit, _⟩
    apply Coupled.bind_same s.stats.countHit
    intro stats _
    refine .ok ⟨?_, h.replace (hwell.hit hfind hhit).1 hmatching stats⟩
    rw [h.geometry_eq]
  | none =>
    apply Coupled.bind_same s.stats.countMiss
    intro stats _
    refine .ok ⟨?_, h.recount stats⟩
    rw [h.geometry_eq]

theorem fillWithin (h : Paired f R s s') (hm : Mimics f excused R)
    (hset : s.sets[line.set]? = some set) (hrelated : R s.policy set s'.policy set')
    (hfind : set.find line.tag = none) (hhas : f.geometry.Has line) (access : AccessKind) :
    Coupled excused (Answering f R) (s.fillWithin line set access)
      (s'.fillWithin line set' access) := by
  have hwell := h.wellFormed.sets hset
  unfold Store.fillWithin
  rw [h.geometry_eq, h.regionBorder_eq, h.wellFormed.geometry_eq, h.wellFormed.regionBorder_eq,
    h.stats_eq]
  refine (hm.bringIn access hwell hrelated hfind hhas).attach.bind ?_
  intro ⟨way, victim, policy₁, set₁⟩ ⟨way', victim', policy₁', set₁'⟩ ⟨⟨hway, hdeparting⟩, hbring, _⟩
  obtain rfl : way' = way := hway
  have hvictim : victim'.map Block.bare = victim.map Block.bare := hdeparting.victim_eq
  dsimp only
  rw [Stats.countFill_congr hvictim, departure_congr h.geometry_eq hvictim]
  apply Coupled.bind_same (s.stats.countFill victim)
  intro stats _
  exact .ok ⟨rfl, h.replace (hwell.bringIn hfind hhas hbring).1 hdeparting.matching stats⟩

theorem invalidateWithin (h : Paired f R s s') (hm : Mimics f excused R)
    (hset : s.sets[line.set]? = some set) (hrelated : R s.policy set s'.policy set') :
    Coupled excused (Answering f R) (s.invalidateWithin line set)
      (s'.invalidateWithin line set') := by
  have hwell := h.wellFormed.sets hset
  unfold Store.invalidateWithin
  rw [hm.find_eq line.tag hwell hrelated, h.stats_eq]
  cases hfind : set.find line.tag with
  | none => exact .ok ⟨rfl, h⟩
  | some way =>
    refine (hm.vacate hwell hrelated hfind).attach.bind ?_
    intro ⟨victim, policy₁, set₁⟩ ⟨victim', policy₁', set₁'⟩ ⟨hdeparting, hvacate, _⟩
    have hvictim : victim'.map Block.bare = victim.map Block.bare := hdeparting.victim_eq
    have hcount : s.stats.countVacated victim' = s.stats.countVacated victim := by
      cases victim <;> cases victim' <;> simp_all [Stats.countVacated]
    dsimp only
    rw [hcount, departure_congr h.geometry_eq hvictim]
    apply Coupled.bind_same (s.stats.countVacated victim)
    intro stats _
    exact .ok ⟨rfl, h.replace (hwell.vacate hvacate).1 hdeparting.matching stats⟩

theorem respondWithin (h : Paired f R s s') (hm : Mimics f excused R)
    (hset : s.sets[line.set]? = some set) (hrelated : R s.policy set s'.policy set')
    (hhas : f.geometry.Has line) (call : Call) :
    Coupled excused (Answering f R) (s.respondWithin line set call)
      (s'.respondWithin line set' call) := by
  cases call with
  | probe a access =>
    refine (h.probeWithin hm hset hrelated access).bind ?_
    rintro ⟨lookup, t⟩ ⟨_, t'⟩ ⟨rfl, hpaired⟩
    exact .ok ⟨rfl, hpaired⟩
  | fill a access =>
    rw [Store.respondWithin, Store.respondWithin,
      hm.find_eq line.tag (h.wellFormed.sets hset) hrelated]
    cases hfind : set.find line.tag with
    | some way => exact .ok ⟨rfl, h⟩
    | none =>
      refine (h.fillWithin hm hset hrelated hfind hhas access).bind ?_
      rintro ⟨install, t⟩ ⟨_, t'⟩ ⟨rfl, hpaired⟩
      exact .ok ⟨rfl, hpaired⟩
  | access a access =>
    have hfind' := hm.find_eq line.tag (h.wellFormed.sets hset) hrelated
    cases hfind : set.find line.tag with
    | some way =>
      rw [respondWithin_access_of_hit hfind, respondWithin_access_of_hit (hfind'.trans hfind)]
      refine (h.probeWithin hm hset hrelated access).bind ?_
      rintro ⟨lookup, t⟩ ⟨_, t'⟩ ⟨rfl, hpaired⟩
      exact .ok ⟨rfl, hpaired⟩
    | none =>
      rw [respondWithin_access_of_miss hfind, respondWithin_access_of_miss (hfind'.trans hfind),
        h.stats_eq]
      apply Coupled.bind_same s.stats.countMiss
      intro stats _
      refine ((h.recount stats).fillWithin hm hset hrelated hfind hhas access).bind ?_
      rintro ⟨install, t⟩ ⟨_, t'⟩ ⟨rfl, hpaired⟩
      refine .ok ⟨?_, hpaired⟩
      rw [h.geometry_eq]
  | invalidate a =>
    refine (h.invalidateWithin hm hset hrelated).bind ?_
    rintro ⟨evicted, t⟩ ⟨_, t'⟩ ⟨rfl, hpaired⟩
    exact .ok ⟨rfl, hpaired⟩

/-- The two stores answer a call alike. -/
theorem respond (h : Paired f R s s') (hm : Mimics f excused R) (call : Call) :
    Coupled excused (Answering f R) (s.respond call) (s'.respond call) := by
  rcases h.wellFormed.maps_cases call.address with ⟨ha, set, hmaps⟩ | ⟨-, houtside⟩
  · obtain ⟨set', hset', hrelated⟩ := h.sets hmaps.2
    have hmaps' : s'.Maps call.address (f.geometry.lineOf call.address) set' := by
      refine ⟨?_, hset'⟩
      rw [h.geometry_eq]
      exact hmaps.1
    rw [respond_of_maps hmaps, respond_of_maps hmaps']
    exact h.respondWithin hm hmaps.2 hrelated (h.wellFormed.valid.has_lineOf ha) call
  · rw [respond_of_outside houtside, respond_of_outside (by rw [h.geometry_eq]; exact houtside)]
    exact .ok ⟨rfl, h⟩

/-- The two stores answer each run alike, by induction on the calls. -/
theorem run (h : Paired f R s s') (hm : Mimics f excused R) (calls : List Call) :
    Coupled excused (Answering f R) (Store.run calls s) (Store.run calls s') := by
  induction calls generalizing s s' with
  | nil => exact .ok ⟨rfl, h⟩
  | cons call calls ih =>
    refine (h.respond hm call).bind ?_
    rintro ⟨answer, t⟩ ⟨_, t'⟩ ⟨rfl, hpaired⟩
    refine (ih hpaired).bind ?_
    rintro ⟨history, u⟩ ⟨_, u'⟩ ⟨rfl, hpaired'⟩
    exact .ok ⟨rfl, hpaired'⟩

end Paired

end Store

end AssocCache
