import AssocCache.Proofs.Store.Turns

/-!
# Long runs

Most policies never run out of room: what they need of a set does not depend on how many
touches are to come (`AnyPolicy.fits_of_roomless`).  Under such a policy only the 64-bit
counts of the statistics limit a run, and a run of fewer than `2 ^ 63` calls succeeds
(`Store.long_run_ok`, `Store.long_of_fault`).  The others count all touches of a set or of the
store.
-/

/-!
## What a policy upholds

Invariants of the sets of a store, from the turns of one set to the runs of a store.

`Policy.Upholds` says that a relation between a policy and a set is kept by the turns
that are allowed: by those of the set itself and by those of the other sets.  In a run of
such turns it then holds of all sets (`WellFormed.upheld_of_run`).  A condition on the calls
of a run is stated with `Store.Throughout`, and `Store.Allows` says that calls which meet it
lead to turns that are allowed.
-/

namespace AssocCache

open Success

namespace Policy

variable {π : Type} [Policy π]

/-- The turns that are allowed keep the relation, both for the set and for the others. -/
structure Upholds (Allowed : Nat → Turn → π → Prop) (R : π → CacheSet → Prop) : Prop where
  here {f : Frame} {index : Nat} {policy policy' : π} {set set' : CacheSet} {turn : Turn} :
    set.WellFormed f index → set'.WellFormed f index → R policy set →
    set.Takes policy turn policy' set' → Allowed index turn policy' → R policy' set'
  elsewhere {f : Frame} {index : Nat} {policy policy' : π} {set set' other : CacheSet}
      {turn : Turn} :
    set.WellFormed f index → R policy set → set.Takes policy turn policy' set' →
    Allowed index turn policy' → other.index ≠ index → R policy other → R policy' other

end Policy

/-! ### Dependable policies -/

namespace Policy.Dependable

variable {π : Type} [Policy π] [Policy.Tame π] [Policy.Dependable π] {f : Frame}
  {index room way : Nat} {set set' : CacheSet} {policy policy' : π}

omit [Policy.Tame π] in
theorem fitting_of_accept (hset : set.WellFormed f index) (hfits : Fits (room + 1) policy set)
    {tag : Nat} {kind : MemoryKind} {access : AccessKind}
    (haccept : set.accept policy way tag kind access = .ok (policy', set')) :
    Policy.Fitting (Fits (room + 1) policy) (Fits room policy') index set' := by
  obtain ⟨block, hb, hv, told, filled, hfill, hinsert, -⟩ := CacheSet.accept_eq_ok_iff.1 haccept
  obtain ⟨_, _, _, _, hfill', hinsert', hfitting⟩ := onFill tag kind access hset hb hv hfits
  rw [hfill] at hfill'
  cases hfill'
  rw [hinsert] at hinsert'
  cases hinsert'
  exact hfitting

theorem fitting_of_vacate (hset : set.WellFormed f index) (hfits : Fits room policy set)
    {victim : Option Block} (hvacate : set.vacate policy way = .ok (victim, policy', set')) :
    Policy.Fitting (Fits room policy) (Fits room policy') index set' := by
  obtain ⟨block, hb, -⟩ := CacheSet.vacate_eq_ok_iff.1 hvacate
  obtain ⟨_, _, _, hvacate', hfitting⟩ :=
    hset.vacate_ok hfits (List.getElem?_eq_some_iff.1 hb).1
  rw [hvacate] at hvacate'
  cases hvacate'
  exact hfitting

/-- A turn takes at most one touch off the room. -/
theorem fitting_of_takes (hset : set.WellFormed f index) (hfits : Fits (room + 1) policy set)
    {turn : Turn} (htakes : set.Takes policy turn policy' set') :
    Policy.Fitting (Fits (room + 1) policy) (Fits room policy') index set' := by
  cases htakes with
  | hit hb hv hhit =>
    rename_i way block access
    rw [CacheSet.hit_eq hb hv] at hhit
    obtain ⟨_, _, hhit', hfitting⟩ := onHit access hset hb hv hfits
    rw [hhit] at hhit'
    cases hhit'
    exact hfitting
  | arrival hbring =>
    rcases CacheSet.bringIn_cases hbring with ⟨-, -, haccept⟩ |
      ⟨chosen, aged, block, left, vacated, hvacancy, hchoice, -, hvacate, haccept⟩
    · exact fitting_of_accept hset hfits haccept
    · have hadjusted := Policy.Tame.chooseVictim hchoice
      have haged := hset.adjusted hadjusted
      obtain ⟨_, hb, -⟩ := CacheSet.vacate_eq_ok_iff.1 hvacate
      have hpos : 0 < set.blocks.length := by
        have := (List.getElem?_eq_some_iff.1 hb).1
        rw [← hadjusted.length_blocks]
        omega
      obtain ⟨_, _, _, hchoice', -, hchosen⟩ :=
        chooseVictim hset hpos (CacheSet.vacancy_eq_none_iff.1 hvacancy) hfits
      rw [hchoice] at hchoice'
      cases hchoice'
      have hleft := fitting_of_vacate haged hchosen.here hvacate
      have hfilled := fitting_of_accept (haged.vacate hvacate).1 hleft.here haccept
      exact (hchosen.trans hleft).trans hfilled
  | departure hvacate =>
    have hleft := fitting_of_vacate hset hfits hvacate
    exact hleft.trans ⟨weaken hleft.here, fun _ _ hother => weaken hother⟩

/-- What a dependable policy needs of its sets, however many touches are to come, is
upheld in every turn. -/
theorem upholds :
    Policy.Upholds (fun _ _ _ => True) fun (policy : π) set => ∀ room, Fits room policy set where
  here hset _ hfits htakes _ room := (fitting_of_takes hset (hfits (room + 1)) htakes).here
  elsewhere hset hfits htakes _ hother hfits' room :=
    (fitting_of_takes hset (hfits (room + 1)) htakes).elsewhere _ hother (hfits' (room + 1))

end Policy.Dependable

/-! ### The policies of configurations -/

theorem AnyPolicy.close_injective (policy : AnyPolicy) {value value' : policy.opened.π}
    (h : policy.opened.close value = policy.opened.close value') : value = value' := by
  cases policy <;> cases h <;> rfl

/-- A wrapped policy upholds what the value inside does. -/
theorem AnyPolicy.upholds_close (policy : AnyPolicy)
    {Allowed : Nat → Turn → policy.opened.π → Prop} {R : policy.opened.π → CacheSet → Prop}
    (h : Policy.Upholds Allowed R) :
    Policy.Upholds
      (fun index turn policy' => ∀ value, policy' = policy.opened.close value →
        Allowed index turn value)
      (fun policy' set => ∃ value, policy' = policy.opened.close value ∧ R value set) where
  here hset hset' hR htakes hallowed := by
    obtain ⟨value, rfl, hR⟩ := hR
    obtain ⟨value', rfl, hturn⟩ := policy.takes_cases htakes
    exact ⟨value', rfl, h.here hset hset' hR hturn (hallowed value' rfl)⟩
  elsewhere hset hR htakes hallowed hother hR' := by
    obtain ⟨value, rfl, hR⟩ := hR
    obtain ⟨value', rfl, hturn⟩ := policy.takes_cases htakes
    obtain ⟨_, hsame, hR'⟩ := hR'
    rw [← close_injective policy hsame] at hR'
    exact ⟨value', rfl, h.elsewhere hset hR hturn (hallowed value' rfl) hother hR'⟩

/-! ### Runs -/

namespace Store

variable {π : Type} [Policy π] {f : Frame} {s t : Store π} {call : Call} {calls : List Call}
  {answer : Except Refusal Reply} {history : List Exchange}
  {P : Store π → Exchange → Store π → Prop} {Allowed : Nat → Turn → π → Prop}
  {R : π → CacheSet → Prop}

/-- Each call of a run meets a condition on the store before it, on the call with its
answer, and on the store after it. -/
def Throughout (P : Store π → Exchange → Store π → Prop) : List Call → Store π → Prop
  | [], _ => True
  | call :: calls, s => ∀ answer t, s.respond call = .ok (answer, t) →
      P s ⟨call, answer⟩ t ∧ Throughout P calls t

/-- A run that meets a condition in its first call and in the others. -/
theorem throughout_cons (hrespond : s.respond call = .ok (answer, t)) (hP : P s ⟨call, answer⟩ t)
    (h : Throughout P calls t) : Throughout P (call :: calls) s := by
  intro answer' t' hrespond'
  rw [hrespond] at hrespond'
  cases hrespond'
  exact ⟨hP, h⟩

/-- A run without conditions. -/
theorem throughout_of_forall (hP : ∀ s x t, P s x t) (calls : List Call) (s : Store π) :
    Throughout P calls s := by
  induction calls generalizing s with
  | nil => trivial
  | cons call calls ih => exact fun _ _ _ => ⟨hP _ _ _, ih _⟩

/-- A run meets a condition that follows for each of its calls. -/
theorem Throughout.imp {P' : Store π → Exchange → Store π → Prop} (h : Throughout P calls s)
    (himp : ∀ {s t : Store π} {call : Call} {answer : Except Refusal Reply}, call ∈ calls →
      s.respond call = .ok (answer, t) → P s ⟨call, answer⟩ t → P' s ⟨call, answer⟩ t) :
    Throughout P' calls s := by
  induction calls generalizing s with
  | nil => trivial
  | cons call calls ih =>
    intro answer t hrespond
    obtain ⟨hhere, hlater⟩ := h answer t hrespond
    exact ⟨himp List.mem_cons_self hrespond hhere,
      ih hlater fun hmem => himp (List.mem_cons_of_mem call hmem)⟩

/-- A call that meets the condition leads to a turn that is allowed. -/
def Allows (f : Frame) (P : Store π → Exchange → Store π → Prop)
    (Allowed : Nat → Turn → π → Prop) : Prop :=
  ∀ ⦃s t : Store π⦄ ⦃x : Exchange⦄ ⦃line : Line⦄ ⦃set set' : CacheSet⦄ ⦃turn : Turn⦄,
    s.WellFormed f → Took s x t line set turn set' → P s x t → Allowed line.set turn t.policy

/-- Every turn is allowed. -/
theorem allows_any : Allows f P fun _ _ (_ : π) => True := fun _ _ _ _ _ _ _ _ _ _ => trivial

omit [Policy π] in
/-- The sets of a store and its policy are related. -/
def Upheld (R : π → CacheSet → Prop) (s : Store π) : Prop :=
  ∀ ⦃index : Nat⦄ ⦃set : CacheSet⦄, s.sets[index]? = some set → R s.policy set

variable [Policy.Tame π]

theorem WellFormed.upheld_of_respond (h : s.WellFormed f) (hupholds : Policy.Upholds Allowed R)
    (hallows : Allows f P Allowed) (hR : s.Upheld R)
    (hrespond : s.respond call = .ok (answer, t)) (hP : P s ⟨call, answer⟩ t) : t.Upheld R := by
  intro index found hfound
  rcases h.respond_cases hrespond with ⟨-, hsets, hpolicy⟩ | ⟨line, set, turn, set', htook⟩
  · rw [hsets] at hfound
    rw [hpolicy]
    exact hR hfound
  · obtain ⟨-, -, -, hset⟩ := h.of_maps htook.maps
    have hhere := hR htook.maps.2
    have hallowed := hallows h htook hP
    by_cases hindex : index = line.set
    · subst hindex
      rw [htook.set_eq] at hfound
      cases hfound
      exact hupholds.here hset ((h.respond hrespond).sets htook.set_eq) hhere htook.takes hallowed
    · rw [htook.getElem?_of_ne hindex] at hfound
      refine hupholds.elsewhere hset hhere htook.takes hallowed ?_ (hR hfound)
      rw [(h.sets hfound).index_eq]
      exact hindex

/-- What a policy upholds holds throughout a run of calls that meet the condition, by
induction on the calls. -/
theorem WellFormed.upheld_of_run (h : s.WellFormed f) (hupholds : Policy.Upholds Allowed R)
    (hallows : Allows f P Allowed) (hR : s.Upheld R) (hP : Throughout P calls s)
    (hrun : Store.run calls s = .ok (history, t)) : t.Upheld R := by
  induction calls generalizing s history with
  | nil =>
    cases hrun
    exact hR
  | cons call calls ih =>
    obtain ⟨answer, u, later, hrespond, hrest, -⟩ := run_cons_eq_ok_iff.1 hrun
    obtain ⟨hhere, hlater⟩ := hP answer u hrespond
    have hR' := h.upheld_of_respond hupholds hallows hR hrespond hhere
    exact ih (h.respond hrespond) hR' hlater hrest

/-- What every turn keeps of the policy is kept in a run. -/
theorem WellFormed.policy_of_run {Q : π → Prop} (h : s.WellFormed f)
    (hturn : ∀ {index : Nat} {set set' : CacheSet} {turn : Turn} {policy policy' : π},
      set.WellFormed f index → set.Takes policy turn policy' set' → Q policy → Q policy')
    (hrun : Store.run calls s = .ok (history, t)) (hQ : Q s.policy) : Q t.policy := by
  induction calls generalizing s history with
  | nil =>
    cases hrun
    exact hQ
  | cons call calls ih =>
    obtain ⟨answer, u, later, hrespond, hrest, -⟩ := run_cons_eq_ok_iff.1 hrun
    refine ih (h.respond hrespond) hrest ?_
    rcases h.respond_cases hrespond with ⟨-, -, hpolicy⟩ | ⟨line, set, turn, set', htook⟩
    · rw [hpolicy]
      exact hQ
    · obtain ⟨-, -, -, hset⟩ := h.of_maps htook.maps
      exact hturn hset htook.takes hQ

/-- A new store has the policy that its configuration names and sets that were never
touched. -/
theorem untouched_of_ofConfig {c : Config} {random : UInt64 → Random.Generator}
    {s : Store AnyPolicy} (hbuilt : (ofConfig c random).result = .ok s) :
    AnyPolicy.ofConfig c s.geometry random = .ok s.policy ∧
      ∀ {index : Nat} {set : CacheSet}, s.sets[index]? = some set → AnyPolicy.Untouched set := by
  obtain ⟨geometry, policy, hgeometry, hpolicy, hcreate⟩ := ofConfig_eq_ok_iff.1 hbuilt
  refine ⟨?_, fun hset => (untouched_of_create hcreate hset).1⟩
  obtain ⟨geometry', sets, hgeometry', -, rfl⟩ := create_eq_ok_iff.1 hcreate
  rw [hgeometry] at hgeometry'
  cases hgeometry'
  exact hpolicy

end Store

end AssocCache

/-! ## Policies that need no room -/

namespace AssocCache

namespace AnyPolicy

/-- The policy counts touches without end, and so has a limit on them. -/
def countsTouches : AnyPolicy → Bool
  | .lru _ | .fullyAssociativeLru _ | .writeBackAware _ => true
  | .lfu _ | .random _ | .staticRrip _ | .dynamicRrip _ | .thrashResistant _ | .bimodal _
  | .typeAwareRrip _ => false

/-- A policy that fits a set fits it for good, unless it counts touches. -/
theorem fits_of_roomless {policy : AnyPolicy} {set : CacheSet}
    (h : policy.countsTouches = false) (hfits : Policy.Dependable.Fits 0 policy set)
    (room : Nat) : Policy.Dependable.Fits room policy set := by
  cases policy with
  | lru _ | fullyAssociativeLru _ | writeBackAware _ => cases h
  | lfu _ | random _ | staticRrip _ | dynamicRrip _ | thrashResistant _ | bimodal _
  | typeAwareRrip _ => exact hfits

end AnyPolicy

/-- A run succeeds that 64 bits can count, unless the policy counts touches too. -/
theorem Store.long_run_ok {c : Config} {random : UInt64 → Random.Generator}
    {s : Store AnyPolicy} (hbuilt : (ofConfig c random).result = .ok s)
    (hroomless : s.policy.countsTouches = false) {calls : List Call}
    (hlength : calls.length < 2 ^ 63) : ∃ history t, run calls s = .ok (history, t) := by
  have hready := ready_of_ofConfig hbuilt (show 0 < 2 ^ 32 by decide)
  have hstats : s.stats = {} := by
    obtain ⟨_, _, _, _, hcreate⟩ := ofConfig_eq_ok_iff.1 hbuilt
    exact stats_of_create hcreate
  have hspare : 0 + 2 * calls.length < 2 ^ 64 := by omega
  refine Ready.run_ok (f := _) calls ⟨hready.wellFormed, fun hset =>
    AnyPolicy.fits_of_roomless hroomless (hready.fits hset) _, ?_, hready.occupancy_eq⟩
  rw [hstats]
  exact ⟨hspare, hspare, hspare, hspare, hspare⟩

/-- Each call counts at most once in each of the statistics. -/
theorem Store.roomy_of_run {c : Config} {s₀ s : Store AnyPolicy} {calls : List Call}
    {history : List Exchange} {spare : Nat} (hbuilt : (ofConfig c).result = .ok s₀)
    (hrun : run calls s₀ = .ok (history, s)) (hlength : calls.length + spare < 2 ^ 64) :
    s.stats.Roomy spare := by
  obtain ⟨hhits, hmisses, hevictions, hwritebacks⟩ :=
    Tally.mk.inj (tally_of_built hbuilt hrun)
  have hoccupancy := balance_of_built hbuilt hrun
  have hreplies : (repliesOf history).length ≤ calls.length := by
    rw [← calls_of_run hrun, List.length_map]
    exact List.length_filterMap_le _ _
  have hlookups : (lookupsOf history).length ≤ calls.length :=
    (List.length_filterMap_le _ _).trans hreplies
  have hinstalls : (installsOf history).length ≤ calls.length :=
    (List.length_filterMap_le _ _).trans hreplies
  have hhit := List.countP_le_length (l := lookupsOf history) (p := (·.hit))
  have hmiss := List.countP_le_length (l := lookupsOf history) (p := (!·.hit))
  have hevicted := List.countP_le_length (l := installsOf history) (p := (·.evicted.isSome))
  have hdirty := List.countP_le_length (l := installsOf history)
    (p := (·.evicted.any (·.wasDirty)))
  exact ⟨by omega, by omega, by omega, by omega, by omega⟩

theorem Store.long_of_fault {c : Config} {s : Store AnyPolicy}
    (hbuilt : (ofConfig c).result = .ok s) (hroomless : s.policy.countsTouches = false)
    {calls : List Call} {fault : Fault} (hrun : run calls s = .error fault) :
    2 ^ 63 ≤ calls.length := by
  by_contra hshort
  obtain ⟨_, _, hok⟩ := long_run_ok hbuilt hroomless (Nat.lt_of_not_le hshort)
  rw [hrun] at hok
  cases hok

end AssocCache
