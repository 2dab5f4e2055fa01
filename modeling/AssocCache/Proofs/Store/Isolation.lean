import AssocCache.Proofs.Policy.Clocks
import AssocCache.Proofs.Policy.Local
import AssocCache.Proofs.Store.Isolated
import AssocCache.Proofs.Store.LeastRecentlyUsed

/-!
# Sets do not influence one another

What a store answers about the lines of a set, and what the set then holds, depends on
the calls about those lines alone, so calls about different sets commute.

This is so for all policies whose hooks look at one set only.  Of the clock that all sets
of a least recently used store share, no more is used than the order of the stamps.
Under dynamic prediction it is so for the leaders of the static rule.
-/

namespace AssocCache

open Success
open Policy (Agreeing Apart Isolating Sharing)

/-! ## New sets -/

/-- Policies that agree about a set serve it by itself. -/
theorem Policy.Agreeing.isolating {π : Type} [Policy π] [Policy.Tame π] {index : Nat}
    {role : DuelRole} {agree : π → π → Prop} (h : Agreeing index role agree)
    (hapart : Apart index (Sharing index role agree)) (f : Frame) :
    Isolating f index (Sharing index role agree) where
  adjusted hshared := hshared.set_eq ▸ .refl _
  mimics := h.mimics f
  apart := hapart

theorem Lru.isolating {f : Frame} (hvalid : f.geometry.Valid) (index : Nat) :
    Isolating f index (Lru.InStep index) where
  adjusted h := h.adjusted
  mimics := Lru.mimics hvalid index
  apart := Lru.apart index

/-- A set without lines is in step with itself. -/
theorem Lru.inStep_of_untouched {index : Nat} {set : CacheSet} (h : AnyPolicy.Untouched set)
    (hindex : set.index = index) : Lru.InStep index {} set {} set :=
  ⟨hindex, .refl _, Nat.le_refl _, by decide, [], [], CacheSet.ranked_nil h _,
    CacheSet.ranked_nil h _, rfl⟩

namespace Store

variable {c : Config} {index : Nat} {set : CacheSet} {calls : List Call} {history : List Exchange}

/-- The ways of a set can be counted. -/
theorem associativity_of_create {π : Type} [Policy π] {policy : π} {s : Store π}
    (hbuilt : (create c policy).result = .ok s) : s.geometry.associativity + 1 < 2 ^ 64 := by
  obtain ⟨geometry, sets, -, hlayout, rfl⟩ := create_eq_ok_iff.1 hbuilt
  have hsize : checkSize geometry = .ok () := by
    unfold layout at hlayout
    split at hlayout
    · split at hlayout
      · obtain ⟨_, hsize, -⟩ := bind_eq_ok_iff.1 hlayout
        exact mapError_eq_ok_iff.1 hsize
      · cases hlayout
    · obtain ⟨stride, -, hlayout⟩ := bind_eq_ok_iff.1 hlayout
      obtain ⟨_, hsize, -⟩ := bind_eq_ok_iff.1 hlayout
      exact mapError_eq_ok_iff.1 hsize
  obtain ⟨-, hblocks⟩ := checkSize_eq_ok_iff.1 hsize
  rw [blockBytes] at hblocks
  show geometry.associativity + 1 < 2 ^ 64
  omega

/-- A new set stands by itself. -/
theorem isolated_of_create {π : Type} [Policy π] {policy : π} {s : Store π}
    {R : π → CacheSet → π → CacheSet → Prop} (hbuilt : (create c policy).result = .ok s)
    (hset : s.sets[index]? = some set) (hrelated : R policy set policy set) :
    Isolated (frameOf c s.geometry policy) index R s s := by
  obtain ⟨huntouched, -, -⟩ := untouched_of_create hbuilt hset
  have hempty : set.occupancy = 0 := by
    refine List.countP_eq_zero.2 fun block hblock => ?_
    rw [(huntouched block hblock).1]
    exact Bool.false_ne_true
  have hwell := (wellFormed_of_create hbuilt).2
  obtain ⟨geometry, sets, -, -, rfl⟩ := create_eq_ok_iff.1 hbuilt
  exact ⟨set, set, hwell, rfl, rfl, hset, hset, Tally.le_refl _, hempty.symm, hrelated⟩

/-! ## Stores of configurations -/

/-- The calls about other sets can be deleted from a run of a new store, if the policy
serves the set by itself. -/
theorem run_concerning_of_isolating {s t : Store AnyPolicy} (policy : AnyPolicy)
    (value : policy.opened.π)
    {R : policy.opened.π → CacheSet → policy.opened.π → CacheSet → Prop}
    (hi : ∀ f : Frame, f.geometry.Valid → Isolating f index R)
    (hstart : AnyPolicy.Untouched set → set.index = index → R value set value set)
    (hbuilt : (create c (policy.opened.close value)).result = .ok s)
    (hset : s.sets[index]? = some set) (hrun : run calls s = .ok (history, t)) :
    ∃ t', run (calls.filter (·.concerns s.geometry index)) s =
        .ok (history.filter (·.call.concerns s.geometry index), t') ∧
      ∀ way, (t'.block? index way).map Block.bare = (t.block? index way).map Block.bare := by
  obtain ⟨s₀, hbuilt₀, hgeometry, halike⟩ := AnyPolicy.run_opened policy value hbuilt
  obtain ⟨_, hnil, -, -, hsets⟩ := (halike []).exists_ok rfl
  cases hnil
  have hset₀ : s₀.sets[index]? = some set := by rwa [← hsets]
  have hvalid := (wellFormed_of_create hbuilt₀).2.valid
  obtain ⟨huntouched, hindex, -⟩ := untouched_of_create hbuilt₀ hset₀
  have hisolated := isolated_of_create hbuilt₀ hset₀ (hstart huntouched hindex)
  rw [hgeometry]
  rcases hrun₀ : run calls s₀ with fault | ⟨history₀, t₀⟩
  · rw [(halike calls).eq_error hrun₀] at hrun
    cases hrun
  obtain ⟨_, hrun', hhistory, -, hlast⟩ := (halike calls).exists_ok hrun₀
  rw [hrun] at hrun'
  cases hrun'
  obtain rfl : history = history₀ := hhistory
  obtain ⟨t₀', hfiltered₀, last, last', hfacing⟩ :=
    hisolated.run (hi _ hvalid) (associativity_of_create hbuilt₀) hrun₀
  obtain ⟨⟨_, t'⟩, hfiltered, rfl, -, hlast'⟩ := (halike _).exists_ok hfiltered₀
  refine ⟨t', hfiltered, fun way => ?_⟩
  unfold block?
  rw [hlast, hlast', hfacing.set_eq, hfacing.set_eq']
  exact ((hi _ hvalid).adjusted hfacing.related).getElem?_bare way

/-- The case of policies that agree about the set. -/
theorem run_concerning_of_agreeing {s t : Store AnyPolicy} (policy : AnyPolicy)
    (value : policy.opened.π) {agree : policy.opened.π → policy.opened.π → Prop}
    (hagreeing : Agreeing index set.role agree)
    (hapart : Apart index (Sharing index set.role agree)) (hself : agree value value)
    (hbuilt : (create c (policy.opened.close value)).result = .ok s)
    (hset : s.sets[index]? = some set) (hrun : run calls s = .ok (history, t)) :
    ∃ t', run (calls.filter (·.concerns s.geometry index)) s =
        .ok (history.filter (·.call.concerns s.geometry index), t') ∧
      ∀ way, (t'.block? index way).map Block.bare = (t.block? index way).map Block.bare :=
  run_concerning_of_isolating policy value (fun f _ => hagreeing.isolating hapart f)
    (fun _ hindex => ⟨hindex, rfl, hself, rfl⟩) hbuilt hset hrun

/-- The policies that serve each set by itself.  Dynamic prediction is one of them where
the leaders of the static rule are concerned. -/
theorem run_concerning_of_ofConfig {s t : Store AnyPolicy} (hbuilt : (ofConfig c).result = .ok s)
    (hset : s.sets[index]? = some set)
    (hpolicy : c.policy ∈ [.lru, .lfu, .staticRrip, .thrashResistant, .typeAwareRrip,
        .writeBackAware] ∨ c.policy = .dynamicRrip ∧ set.role = .srripLeader)
    (hrun : run calls s = .ok (history, t)) :
    ∃ t', run (calls.filter (·.concerns s.geometry index)) s =
        .ok (history.filter (·.call.concerns s.geometry index), t') ∧
      ∀ way, (t'.block? index way).map Block.bare = (t.block? index way).map Block.bare := by
  obtain ⟨geometry, policy, -, hkind, hcreate⟩ := ofConfig_eq_ok_iff.1 hbuilt
  unfold AnyPolicy.ofConfig at hkind
  simp only [List.mem_cons, List.not_mem_nil, or_false] at hpolicy
  rcases hpolicy with
    (hlru | hlfu | hstatic | hthrash | htype | hwrite) | ⟨hdynamic, hleader⟩
  · rw [hlru] at hkind
    obtain rfl := Except.ok.inj hkind
    exact run_concerning_of_isolating (.lru {}) ({} : Lru)
      (fun f hvalid => Lru.isolating hvalid index) Lru.inStep_of_untouched hcreate hset hrun
  · rw [hlfu] at hkind
    obtain ⟨value, rfl⟩ : ∃ value, policy = .lfu value := ⟨_, (Except.ok.inj hkind).symm⟩
    exact run_concerning_of_agreeing (.lfu value) value (.eq index set.role)
      (Lfu.apart index _) rfl hcreate hset hrun
  · rw [hstatic] at hkind
    obtain ⟨value, -, rfl⟩ := map_eq_ok_iff.1 hkind
    exact run_concerning_of_agreeing (.staticRrip value) value (.eq index set.role)
      (StaticRrip.apart index _) rfl hcreate hset hrun
  · rw [hthrash] at hkind
    obtain ⟨value, -, rfl⟩ := map_eq_ok_iff.1 hkind
    exact run_concerning_of_agreeing (.thrashResistant value) value
      (ThrashResistant.agreeing index set.role) (ThrashResistant.apart index set.role)
      ⟨rfl, rfl, rfl⟩ hcreate hset hrun
  · rw [htype] at hkind
    obtain ⟨value, -, rfl⟩ := map_eq_ok_iff.1 hkind
    exact run_concerning_of_agreeing (.typeAwareRrip value) value
      (TypeAwareRrip.agreeing index set.role) (TypeAwareRrip.apart index set.role)
      ⟨rfl, rfl, rfl, rfl, rfl⟩ hcreate hset hrun
  · rw [hwrite] at hkind
    obtain ⟨preset, -, hkind⟩ := bind_eq_ok_iff.1 hkind
    obtain ⟨value, -, rfl⟩ := map_eq_ok_iff.1 hkind
    exact run_concerning_of_agreeing (.writeBackAware value) value
      (WriteBackAware.agreeing index set.role) (WriteBackAware.apart index set.role)
      ⟨rfl, rfl, rfl⟩ hcreate hset hrun
  · rw [hdynamic] at hkind
    obtain ⟨value, hvalue, rfl⟩ := map_eq_ok_iff.1 hkind
    have hsound := AnyPolicy.dynamicRrip_of_build hvalue (UInt32.toNat_lt _)
    have hagreeing := DynamicRrip.agreeing index
    have hapart := DynamicRrip.apart index
    rw [← hleader] at hagreeing hapart
    exact run_concerning_of_agreeing (.dynamicRrip value) value hagreeing hapart
      ⟨rfl, hsound⟩ hcreate hset hrun

/-- Deleting from a run all calls about other sets, and those outside the address space,
changes neither the answers to the calls about a set nor its lines: the tag, the
validity, the dirtiness and the kind in each way.  So two neighbouring calls that are not
both about the set can change places, and a run of few enough calls ends in either order. -/
theorem set_depends_on_own_calls {s : Store AnyPolicy} (hbuilt : (ofConfig c).result = .ok s)
    (hset : s.sets[index]? = some set)
    (hpolicy : c.policy ∈ [.lru, .lfu, .staticRrip, .thrashResistant, .typeAwareRrip,
        .writeBackAware] ∨ c.policy = .dynamicRrip ∧ set.role = .srripLeader) :
    (∀ (calls : List Call) (history : List Exchange) (t : Store AnyPolicy),
      run calls s = .ok (history, t) →
      ∃ t', run (calls.filter (·.concerns s.geometry index)) s =
          .ok (history.filter (·.call.concerns s.geometry index), t') ∧
        ∀ way, (t'.block? index way).map Block.bare = (t.block? index way).map Block.bare) ∧
    ∀ (before after : List Call) (x y : Call) (history : List Exchange) (t : Store AnyPolicy),
      ¬ (x.concerns s.geometry index = true ∧ y.concerns s.geometry index = true) →
      run (before ++ x :: y :: after) s = .ok (history, t) →
      (before.length + after.length + 2 < 2 ^ 32 →
        ∃ history' t', run (before ++ y :: x :: after) s = .ok (history', t')) ∧
      ∀ (history' : List Exchange) (t' : Store AnyPolicy),
        run (before ++ y :: x :: after) s = .ok (history', t') →
        history'.filter (·.call.concerns s.geometry index) =
            history.filter (·.call.concerns s.geometry index) ∧
          ∀ way, (t'.block? index way).map Block.bare = (t.block? index way).map Block.bare := by
  refine ⟨fun calls history t hrun => run_concerning_of_ofConfig hbuilt hset hpolicy hrun, ?_⟩
  intro before after x y history t hnot hrun
  refine ⟨fun hlength => ?_, fun history' t' hrun' => ?_⟩
  · have hlength' : (before ++ y :: x :: after).length < 2 ^ 32 := by
      simp only [List.length_append, List.length_cons]
      omega
    exact (ready_of_ofConfig hbuilt hlength').run_ok _
  -- What is left of either order is one run.
  have hsame : (before ++ y :: x :: after).filter (·.concerns s.geometry index) =
      (before ++ x :: y :: after).filter (·.concerns s.geometry index) := by
    simp only [List.filter_append, List.filter_cons]
    split <;> split <;> simp_all
  obtain ⟨u, hfiltered, hlines⟩ := run_concerning_of_ofConfig hbuilt hset hpolicy hrun
  obtain ⟨u', hfiltered', hlines'⟩ := run_concerning_of_ofConfig hbuilt hset hpolicy hrun'
  rw [hsame, hfiltered] at hfiltered'
  obtain ⟨hhistory, rfl⟩ := Prod.mk.inj (Except.ok.inj hfiltered')
  exact ⟨hhistory.symm, fun way => (hlines' way).symm.trans (hlines way)⟩

/-- Four sets of two ways under dynamic prediction, of which the first leads for the
static rule and the second for the bimodal one.  The calls about the first set fill it
and make a dirty line leave. -/
theorem set_depends_on_own_calls_of_static_leader :
    ∃ s history t t', (ofConfig { Config.ofShape .dynamicRrip 512 64 2 with
        addressBits := 32 }).result = .ok s ∧
      run [.access 0 .write, .access 64 .write, .access 256 .read, .access 320 .read,
        .access 576 .read, .fill 512 .read, .invalidate 64, .access (2 ^ 40) .read,
        .probe 256 .write] s = .ok (history, t) ∧
      run [.access 0 .write, .access 256 .read, .fill 512 .read, .probe 256 .write] s =
        .ok (history.filter (·.call.concerns s.geometry 0), t') ∧
      (∀ way, (t'.block? 0 way).map Block.bare = (t.block? 0 way).map Block.bare) := by
  obtain ⟨s, set, hbuilt, hgeometry, hset, hrole⟩ : ∃ s set,
      (ofConfig { Config.ofShape .dynamicRrip 512 64 2 with addressBits := 32 }).result = .ok s ∧
        s.geometry = ⟨512, 64, 2, 4, 6, 2, 32, 1⟩ ∧ s.sets[0]? = some set ∧
        set.role = .srripLeader := ⟨_, _, rfl, rfl, rfl, rfl⟩
  obtain ⟨hdelete, -⟩ := set_depends_on_own_calls hbuilt hset (.inr ⟨rfl, hrole⟩)
  have hlength : 9 < 2 ^ 32 := by decide
  obtain ⟨history, t, hrun⟩ := (ready_of_ofConfig hbuilt hlength).run_ok
    [.access 0 .write, .access 64 .write, .access 256 .read, .access 320 .read,
      .access 576 .read, .fill 512 .read, .invalidate 64, .access (2 ^ 40) .read,
      .probe 256 .write]
  obtain ⟨t', hfiltered, hlines⟩ := hdelete _ _ _ hrun
  refine ⟨s, history, t, t', hbuilt, hrun, ?_, hlines⟩
  rw [hgeometry] at hfiltered ⊢
  exact hfiltered

end Store

end AssocCache
