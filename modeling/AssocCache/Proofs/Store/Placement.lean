import AssocCache.Proofs.Store.Opened
import AssocCache.Proofs.Store.Service
import AssocCache.Proofs.Store.Veiled

/-!
# Placement

Where a line is put does not depend on what its policy must not see.  A store that a
configuration describes stands beside one with another border between the kinds of
memory.  Their policies are blind to what tells the stores and the calls apart
(`AnyPolicy.blind_opened`), so the two answer each run alike behind the veil that hides
it (`coupled_run_bordered`).

`placement_of_run` is what this means for the ten policies.  The kinds of the accesses
decide only which lines are dirty, and under seven of the policies the border decides only
the kinds of the lines.
-/

namespace AssocCache

open Success

variable {v : Veil} {c : Config} {border : Option UInt64}

namespace AnyPolicy

variable {policy : AnyPolicy} {f f' : Frame}

/-- Stores of a wrapped policy are the same behind the veil if the stores beside them are. -/
theorem sameStore_of_paired {u u' : Store policy.opened.π} {t t' : Store AnyPolicy}
    (h : v.SameStore u u') (hpaired : Store.Paired f policy.Holds u t)
    (hpaired' : Store.Paired f' policy.Holds u' t') : v.SameStore t t' where
  geometry_eq := by rw [hpaired'.geometry_eq, h.geometry_eq, hpaired.geometry_eq]
  regionBorder_eq hkinds := by
    rw [hpaired'.regionBorder_eq, h.regionBorder_eq hkinds, hpaired.regionBorder_eq]
  policy_eq := by rw [policy_eq_of_paired hpaired', h.policy_eq, policy_eq_of_paired hpaired]
  stats := by
    rw [hpaired.stats_eq, hpaired'.stats_eq]
    exact h.stats
  sets_eq := by rw [sets_eq_of_paired hpaired', h.sets_eq, sets_eq_of_paired hpaired]

end AnyPolicy

namespace Store

/-- A store is built with another border as well, and differs in the border only. -/
theorem create_bordered {π : Type} [Policy π] {policy : π} {s : Store π}
    (hbuilt : (create c policy).result = .ok s) (border : Option UInt64) :
    (create { c with regionBorder := border } policy).result =
      .ok { s with regionBorder := border.map UInt64.toNat } := by
  obtain ⟨geometry, sets, hgeometry, hlayout, rfl⟩ := create_eq_ok_iff.1 hbuilt
  exact create_eq_ok_iff.2 ⟨geometry, sets, hgeometry, hlayout, rfl⟩

theorem ofConfig_bordered {s : Store AnyPolicy} (hbuilt : (ofConfig c).result = .ok s)
    (border : Option UInt64) :
    (ofConfig { c with regionBorder := border }).result =
      .ok { s with regionBorder := border.map UInt64.toNat } := by
  obtain ⟨geometry, policy, hgeometry, hpolicy, hcreate⟩ := ofConfig_eq_ok_iff.1 hbuilt
  exact ofConfig_eq_ok_iff.2 ⟨geometry, policy, hgeometry, hpolicy, create_bordered hcreate border⟩

/-- New stores with two borders are the same behind a veil that hides the kinds. -/
theorem sameStore_bordered {π : Type} [Policy π] {policy : π} {s : Store π}
    (hbuilt : (create c policy).result = .ok s)
    (hborder : v.kinds = false → border = c.regionBorder) :
    v.SameStore s { s with regionBorder := border.map UInt64.toNat } := by
  obtain ⟨geometry, sets, -, -, rfl⟩ := create_eq_ok_iff.1 hbuilt
  refine ⟨rfl, ?_, rfl, ?_, rfl⟩
  · intro hkinds
    rw [hborder hkinds]
  · exact ⟨rfl, rfl, rfl, rfl, fun _ => rfl, Nat.le_refl 0, Nat.le_refl 0⟩

/-- Stores of one configuration up to the border answer each run alike behind a veil that
hides nothing the policy sees. -/
theorem coupled_run_bordered {s : Store AnyPolicy} (hbuilt : (ofConfig c).result = .ok s)
    (hkinds : c.policy.seesKinds → v.kinds = false)
    (hwritebacks : c.policy = .writeBackAware → v.writebacks = false)
    (hborder : v.kinds = false → border = c.regionBorder) {calls calls' : List Call}
    (hcalls : List.Forall₂ v.SameCall calls calls') :
    Coupled (fun _ => False) (v.Answering v.answers) (run calls s)
      (run calls' { s with regionBorder := border.map UInt64.toNat }) := by
  obtain ⟨geometry, policy, -, hpolicy, hcreate⟩ := ofConfig_eq_ok_iff.1 hbuilt
  have hblind := AnyPolicy.blind_opened hpolicy hkinds hwritebacks
  have hcreate' := create_bordered hcreate border
  rw [← policy.close_opened] at hcreate hcreate'
  obtain ⟨u, hopened, hpaired⟩ := AnyPolicy.exists_paired_of_create policy _ hcreate
  obtain ⟨u', hopened', hpaired'⟩ := AnyPolicy.exists_paired_of_create policy _ hcreate'
  rw [create_bordered hopened border] at hopened'
  cases hopened'
  have hsame := sameStore_bordered hopened hborder
  have hbeside : Coupled (fun _ => False) (v.Answering v.answers) _ _ :=
    hsame.run hblind hpaired.wellFormed hcalls
  refine hbeside.transport (hpaired.run (policy.mimics _ _) calls)
    (hpaired'.run (policy.mimics _ _) calls') ?_
  intro x x' y y' ⟨hanswers, hafter⟩ ⟨hhistory, hbehind⟩ ⟨hhistory', hbehind'⟩
  refine ⟨?_, AnyPolicy.sameStore_of_paired hafter hbehind hbehind'⟩
  rw [hhistory, hhistory', hanswers]

/-- Two stores of one configuration get the same calls at the same addresses.  If the veil
hides the marks, the accesses are of any kinds, only that under the write-back aware policy
the same fills and accesses are write-backs, and if it does not they are of the same kinds.
Under the policies that are not made for hybrid memory the borders may differ as well.

Both runs give the same answers and leave the same policy, sets and statistics, unless they
are too long for a counter of 32 bits and end with the same fault.  Only what is dirty and how
many write-backs were counted may differ, if the accesses do, and the kinds of the lines, if
the borders do. -/
theorem placement_of_run {c : Config} {s : Store AnyPolicy} (hbuilt : (ofConfig c).result = .ok s)
    (border : Option UInt64)
    (hborder : c.policy.seesKinds → border = c.regionBorder) :
    ∃ s', (ofConfig { c with regionBorder := border }).result = .ok s' ∧
      ∀ v : Veil, v.kinds = decide (border ≠ c.regionBorder) →
        v.writebacks = decide (c.policy ≠ .writeBackAware) →
        ∀ calls calls' : List Call, List.Forall₂ v.SameCall calls calls' →
          (∃ history t history' t', run calls s = .ok (history, t) ∧
            run calls' s' = .ok (history', t') ∧ v.answers history' = v.answers history ∧
            t'.policy = t.policy ∧
            t'.sets.map (CacheSet.veiled v) = t.sets.map (CacheSet.veiled v) ∧
            t'.stats.hits = t.stats.hits ∧ t'.stats.misses = t.stats.misses ∧
            t'.stats.evictions = t.stats.evictions ∧ t'.stats.occupancy = t.stats.occupancy ∧
            (v.marks = false → t'.stats.writebacks = t.stats.writebacks)) ∨
          ∃ fault, 2 ^ 32 ≤ calls.length ∧ run calls s = .error fault ∧
            run calls' s' = .error fault := by
  refine ⟨_, ofConfig_bordered hbuilt border, fun v hkinds hwritebacks calls calls' hcalls => ?_⟩
  have hblind : c.policy.seesKinds → v.kinds = false := by
    intro hsees
    rw [hkinds, hborder hsees]
    simp
  have hfills : c.policy = .writeBackAware → v.writebacks = false := by
    intro haware
    rw [hwritebacks, haware]
    rfl
  have hsame : v.kinds = false → border = c.regionBorder := by
    intro hshown
    simpa [hshown] using hkinds
  have hcoupled := coupled_run_bordered hbuilt hblind hfills hsame hcalls
  cases hrun : run calls s with
  | error fault =>
    refine .inr ⟨fault, Nat.le_of_not_lt fun hlength => ?_, rfl, hcoupled.eq_error hrun⟩
    obtain ⟨_, _, hanswered⟩ := (ready_of_ofConfig hbuilt hlength).run_ok calls
    cases hrun.symm.trans hanswered
  | ok x =>
    obtain ⟨⟨history', t'⟩, hrun', hanswers, hafter⟩ := hcoupled.exists_ok hrun
    left
    exact ⟨x.1, x.2, history', t', rfl, hrun', hanswers, hafter.policy_eq, hafter.sets_eq,
      hafter.stats.hits_eq, hafter.stats.misses_eq, hafter.stats.evictions_eq,
      hafter.stats.occupancy_eq, hafter.stats.writebacks_eq⟩

/-- One set of two ways on memory without NVM and with it.  A line that leaves is dirty in
one run and clean in the other, and a line that comes in is of another kind. -/
theorem placement_of_borders_and_kinds :
    ∃ s history t s' history' t',
      (ofConfig { Config.ofShape .lru 128 64 2 with
        addressBits := 32, regionBorder := none }).result = .ok s ∧
      (ofConfig { Config.ofShape .lru 128 64 2 with
        addressBits := 32, regionBorder := some 64 }).result = .ok s' ∧
      run [.access 0 .write, .fill 64 .read, .access 128 .read, .probe 64 .write] s =
        .ok (history, t) ∧
      run [.access 0 .read, .fill 64 .writeback, .access 128 .writeback, .probe 64 .read] s' =
        .ok (history', t') ∧
      t.stats = { hits := 1, misses := 2, evictions := 1, writebacks := 1, occupancy := 2 } ∧
      t'.stats.evictions = t.stats.evictions ∧ t'.stats.writebacks = 0 ∧
      t'.sets.map (CacheSet.veiled ⟨true, true, true⟩) =
        t.sets.map (CacheSet.veiled ⟨true, true, true⟩) := by
  obtain ⟨s, history, t, hbuilt, hrun, hstats⟩ : ∃ s history t,
      (ofConfig { Config.ofShape .lru 128 64 2 with
        addressBits := 32, regionBorder := none }).result = .ok s ∧
      run [.access 0 .write, .fill 64 .read, .access 128 .read, .probe 64 .write] s =
        .ok (history, t) ∧
      t.stats = { hits := 1, misses := 2, evictions := 1, writebacks := 1, occupancy := 2 } :=
    ⟨_, _, _, rfl, rfl, rfl⟩
  obtain ⟨s', history', t', hbuilt', hrun', hwritebacks⟩ : ∃ s' history' t',
      (ofConfig { Config.ofShape .lru 128 64 2 with
        addressBits := 32, regionBorder := some 64 }).result = .ok s' ∧
      run [.access 0 .read, .fill 64 .writeback, .access 128 .writeback, .probe 64 .read] s' =
        .ok (history', t') ∧
      t'.stats.writebacks = 0 := ⟨_, _, _, rfl, rfl, rfl⟩
  have hblind : ¬ PolicyKind.lru.seesKinds := by simp [PolicyKind.seesKinds]
  obtain ⟨_, hbordered, hruns⟩ := placement_of_run hbuilt (some 64) fun hsees =>
    absurd hsees hblind
  cases hbuilt'.symm.trans hbordered
  have hcalls : List.Forall₂ (Veil.SameCall ⟨true, true, true⟩)
      [.access 0 .write, .fill 64 .read, .access 128 .read, .probe 64 .write]
      [.access 0 .read, .fill 64 .writeback, .access 128 .writeback, .probe 64 .read] :=
    .cons (.access ⟨nofun, nofun⟩) (.cons (.fill ⟨nofun, nofun⟩)
      (.cons (.access ⟨nofun, nofun⟩) (.cons (.probe nofun) .nil)))
  rcases hruns ⟨true, true, true⟩ rfl rfl _ _ hcalls with
    ⟨_, _, _, _, hrun₁, hrun₂, -, -, hsets, -, -, hevictions, -, -⟩ | ⟨fault, -, hfault, -⟩
  · cases hrun.symm.trans hrun₁
    cases hrun'.symm.trans hrun₂
    exact ⟨s, history, t, _, history', t', hbuilt, hbuilt', hrun, hrun', hstats, hevictions,
      hwritebacks, hsets⟩
  · cases hrun.symm.trans hfault

end Store

end AssocCache
