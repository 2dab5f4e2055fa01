import AssocCache.Proofs.Config.Consistent
import AssocCache.Proofs.Policy.Scanning
import AssocCache.Proofs.Store.LongRuns

/-!
# The duel in the runs of a store

Dynamic prediction keeps two counters for the whole store.  Fills of the leaders move the
selection counter, the followers read it, and every fill that the bimodal rule governs moves
the other one on.

Both counters are what the arrivals of the history so far make of them, whatever else was
called in between (`WellFormed.duels_of_run`, by induction on the calls).  So the history
says which prediction any line starts with, and the counters never leave their ranges
(`duel_of_run`).
-/

/-!
## Duelling

What a duel of the two insertion rules should come to, as a walk over the sets that lines
come into (`Duel.after`), and the two counters of dynamic prediction that follow it.

The walk counts all fills that the bimodal rule has governed, and the policy only those
since the last whole interval (`DynamicRrip.Follows`).  Every turn of a set keeps the policy
on the walk, and a line that comes in gets the prediction that the walk asks for
(`DynamicRrip.Follows.takes`).
-/

namespace AssocCache

open Success CacheSet

/-! ### The walk -/

/-- The settings of a duel. -/
structure Duel where
  /-- How many sets apart the leaders for a rule are. -/
  stride : Nat
  /-- Where the selection counter saturates. -/
  selectorMax : Nat
  /-- One bimodal fill in so many is predicted as the static rule would. -/
  interval : Nat
  /-- The most distant prediction. -/
  max : Nat

/-- How a duel stands. -/
structure Score where
  /-- The selection counter: the higher, the worse for the static rule. -/
  selector : Nat
  /-- How many fills the bimodal rule has governed. -/
  governed : Nat

namespace Duel

variable {duel : Duel} {score : Score} {index : Nat}

/-- The selection counter starts in the middle. -/
def start (duel : Duel) : Score := ⟨duel.selectorMax / 2, 0⟩

/-- The bimodal rule governs the fills of its own leaders, and those of the followers while
it is ahead. -/
def Governs (duel : Duel) (score : Score) (index : Nat) : Prop :=
  index % duel.stride = 1 ∨ index % duel.stride ≠ 0 ∧ duel.selectorMax / 2 < score.selector

instance : Decidable (duel.Governs score index) := inferInstanceAs (Decidable (_ ∨ _ ∧ _))

/-- The selection counter after a fill of a set: a fill of a leader counts against the rule
that it leads for, and a fill of a follower does not count. -/
def walk (duel : Duel) (selector index : Nat) : Nat :=
  if index % duel.stride = 0 then min (selector + 1) duel.selectorMax
  else if index % duel.stride = 1 then selector - 1
  else selector

/-- The score after a fill of a set. -/
def fill (duel : Duel) (score : Score) (index : Nat) : Score where
  selector := duel.walk score.selector index
  governed := if duel.Governs score index then score.governed + 1 else score.governed

/-- The score after the fills of some sets, in their order. -/
def after (duel : Duel) (sets : List Nat) : Score := sets.foldl duel.fill duel.start

/-- The prediction for the next new line, if that comes into the set. -/
def insertion (duel : Duel) (score : Score) (index : Nat) : Nat :=
  if duel.Governs score index ∧ ¬ duel.interval ∣ score.governed + 1 then duel.max
  else duel.max - 1

theorem walk_le {selector : Nat} (h : selector ≤ duel.selectorMax) (index : Nat) :
    duel.walk selector index ≤ duel.selectorMax := by
  unfold walk
  split
  · exact Nat.min_le_right _ _
  · split <;> omega

/-- The selection counter never passes its saturation point. -/
theorem selector_after_le (duel : Duel) (sets : List Nat) :
    (duel.after sets).selector ≤ duel.selectorMax := by
  induction sets using List.reverseRecOn with
  | nil => exact Nat.div_le_self _ _
  | append_singleton sets index ih =>
    rw [after, List.foldl_append]
    exact walk_le ih index

end Duel

/-! ### The counters of the policy -/

namespace DynamicRrip

variable {duel : Duel} {score : Score} {policy policy' counted : DynamicRrip}
  {set set' : CacheSet} {index way tag : Nat} {kind : MemoryKind} {access : AccessKind}
  {victim : Option Block} {turn : Turn}

/-- The policy duels by these settings and has got as far as the score. -/
structure Follows (policy : DynamicRrip) (duel : Duel) (score : Score) : Prop where
  selectorMax_eq : policy.selectorMax = duel.selectorMax
  interval_eq : policy.interval = duel.interval
  max_eq : policy.max = duel.max
  selector_eq : policy.selector = score.selector
  fills_eq : policy.bimodalFills = score.governed % duel.interval

/-- A fill moves the selection counter on, and does not change which rule governs it. -/
theorem Follows.countFill (h : policy.Follows duel score) (hstride : 2 ≤ duel.stride)
    (hcount : policy.countFill (.ofIndex index duel.stride) = .ok counted) :
    counted = { policy with selector := duel.walk score.selector index } ∧
      counted.ruleFor (.ofIndex index duel.stride) =
        if duel.Governs score index then .brrip else .srrip := by
  unfold DuelRole.ofIndex at hcount ⊢
  rw [if_neg (Nat.not_lt.2 hstride)] at hcount ⊢
  by_cases hzero : index % duel.stride = 0
  · rw [if_pos hzero] at hcount ⊢
    obtain ⟨next, hnext, hcount⟩ := bind_eq_ok_iff.1 hcount
    obtain ⟨-, rfl⟩ := Word.add_eq_ok_iff.1 hnext
    cases hcount
    refine ⟨?_, ?_⟩
    · rw [Duel.walk, if_pos hzero, h.selector_eq, h.selectorMax_eq]
    · rw [if_neg]
      · rfl
      · simp [Duel.Governs, hzero]
  · rw [if_neg hzero] at hcount ⊢
    by_cases hone : index % duel.stride = 1
    · rw [if_pos hone] at hcount ⊢
      cases hcount
      refine ⟨?_, (if_pos (.inl hone)).symm⟩
      rw [Duel.walk, if_neg hzero, if_pos hone, h.selector_eq]
    · rw [if_neg hone] at hcount ⊢
      cases hcount
      refine ⟨?_, ?_⟩
      · rw [Duel.walk, if_neg hzero, if_neg hone, ← h.selector_eq]
      · rw [ruleFor, selected, h.selector_eq, h.selectorMax_eq]
        simp [Duel.Governs, hzero, hone]

/-- A fill under the rule that governs it gets the prediction of the duel, wherever the
selection counter stands. -/
theorem Follows.insertion (h : policy.Follows duel score) (hinterval : 0 < duel.interval)
    {selector prediction : Nat} (hinsertion : DynamicRrip.insertion { policy with selector }
      (if duel.Governs score index then .brrip else .srrip) = .ok (prediction, policy')) :
    prediction = duel.insertion score index ∧
      policy' = { policy with
        selector, bimodalFills := (duel.fill score index).governed % duel.interval } := by
  unfold Duel.insertion Duel.fill
  by_cases hgoverns : duel.Governs score index
  · rw [if_pos hgoverns] at hinsertion ⊢
    obtain ⟨fills, hfills, hinsertion⟩ := bind_eq_ok_iff.1 hinsertion
    obtain ⟨-, rfl⟩ := Word.add_eq_ok_iff.1 hfills
    have hcomplete : duel.interval ≤ score.governed % duel.interval + 1 ↔
        duel.interval ∣ score.governed + 1 := Bimodal.le_mod_add_one_iff hinterval
    rw [← h.fills_eq, ← h.interval_eq] at hcomplete
    split at hinsertion
    · rename_i hlast
      cases hinsertion
      have hlast := hcomplete.1 hlast
      rw [h.interval_eq] at hlast
      refine ⟨?_, ?_⟩
      · rw [if_neg fun hcount => hcount.2 hlast, h.max_eq]
      · rw [Nat.dvd_iff_mod_eq_zero.1 hlast]
    · rename_i hearly
      cases hinsertion
      have hless := Nat.lt_of_not_le hearly
      rw [h.interval_eq] at hearly hcomplete
      refine ⟨?_, ?_⟩
      · rw [if_pos ⟨hgoverns, fun hlast => hearly (hcomplete.2 hlast)⟩, h.max_eq]
      · rw [← Nat.mod_add_mod, ← h.fills_eq, ← h.interval_eq, Nat.mod_eq_of_lt hless]
  · rw [if_neg hgoverns] at hinsertion ⊢
    cases hinsertion
    refine ⟨?_, ?_⟩
    · rw [if_neg fun hcount => hgoverns hcount.1, h.max_eq]
    · rw [← h.fills_eq]

/-- A line that comes in moves the duel on, and gets the prediction of the duel. -/
theorem Follows.accept (h : policy.Follows duel score) (hstride : 2 ≤ duel.stride)
    (hinterval : 0 < duel.interval) (hrole : set.role = .ofIndex index duel.stride)
    (haccept : set.accept policy way tag kind access = .ok (policy', set')) :
    policy'.Follows duel (duel.fill score index) ∧
      ∃ block, set'.blocks[way]? = some block ∧ block.word = duel.insertion score index := by
  obtain ⟨counted, prediction, block, hcount, hinsertion, hb, hblocks⟩ :=
    insertion_of_accept haccept
  rw [hrole] at hcount hinsertion
  obtain ⟨rfl, hrule⟩ := h.countFill hstride hcount
  rw [hrule] at hinsertion
  obtain ⟨rfl, rfl⟩ := h.insertion hinterval hinsertion
  have hfilled : set'.blocks[way]? = some
      { block.fill tag kind access.isWrite with word := duel.insertion score index } := by
    rw [hblocks, List.getElem?_set_self (List.getElem?_eq_some_iff.1 hb).1]
  exact ⟨⟨h.selectorMax_eq, h.interval_eq, h.max_eq, rfl, rfl⟩, _, hfilled, rfl⟩

/-- A turn keeps the policy on the duel, which only an arrival moves on. -/
theorem Follows.takes (h : policy.Follows duel score) (hstride : 2 ≤ duel.stride)
    (hinterval : 0 < duel.interval) (hrole : set.role = .ofIndex index duel.stride)
    (htakes : set.Takes policy turn policy' set') :
    match turn with
    | .arrival way .. => policy'.Follows duel (duel.fill score index) ∧
        ∃ block, set'.blocks[way]? = some block ∧ block.word = duel.insertion score index
    | .hit .. | .departure .. => policy'.Follows duel score := by
  cases htakes with
  | hit hb hv hhit =>
    rw [hit_eq hb hv] at hhit
    obtain ⟨marked, -, hhit⟩ := bind_eq_ok_iff.1 hhit
    cases hhit
    exact h
  | arrival hbring =>
    rcases bringIn_cases hbring with ⟨-, -, haccept⟩ |
      ⟨chosen, aged, block, left, vacated, -, hchoice, -, hvacate, haccept⟩
    · exact h.accept hstride hinterval hrole haccept
    · obtain ⟨_, hvictim, hchoice⟩ := bind_eq_ok_iff.1 hchoice
      cases hchoice
      obtain ⟨-, -, rfl, -, hrole', -⟩ := vacate_cases_of_silent (fun _ _ => rfl) hvacate
      refine h.accept hstride hinterval ?_ haccept
      rw [hrole', (Prediction.adjusted_of_victim hvictim).role_eq, hrole]
  | departure hvacate =>
    obtain ⟨-, -, rfl, -⟩ := vacate_cases_of_silent (fun _ _ => rfl) hvacate
    exact h

end DynamicRrip

end AssocCache

/-! ## Arrivals of a history -/

namespace AssocCache

open Success

/-- The arrival that is told of. -/
def Outcome.install? : Outcome → Option Install
  | .arrival placed => some placed
  | .hit _ _ | .departure _ => none

theorem Reply.install?_eq (reply : Reply) : reply.install? = reply.outcome?.bind (·.install?) := by
  cases reply with
  | lookup lookup => cases hway : lookup.way <;> simp [install?, outcome?, hway, Outcome.install?]
  | install placed => rfl
  | access outcome =>
    obtain ⟨lookup, _ | placed⟩ := outcome
    · cases hway : lookup.way <;> simp [install?, outcome?, hway, Outcome.install?]
    · rfl
  | departure evicted => cases evicted <;> rfl

theorem installsOf_cons (x : Exchange) (history : List Exchange) :
    installsOf (x :: history) = (x.outcome?.bind (·.install?)).toList ++ installsOf history := by
  obtain ⟨call, refusal | reply⟩ := x
  · rfl
  · rw [installsOf, repliesOf_answered, List.filterMap_cons, reply.install?_eq]
    show _ = (reply.outcome?.bind (·.install?)).toList ++ _
    cases reply.outcome?.bind (·.install?) <;> rfl

namespace CacheSet

variable {π : Type} [Policy π] [Policy.Tame π] {set set' : CacheSet} {policy policy' : π}
  {turn : Turn}

/-- No turn changes the part of a set in a duel. -/
theorem Takes.role_eq (h : set.Takes policy turn policy' set') : set'.role = set.role := by
  have haccept : ∀ {u v : CacheSet} {p p' : π} {way tag : Nat} {kind : MemoryKind}
      {access : AccessKind}, u.accept p way tag kind access = .ok (p', v) → v.role = u.role := by
    intro u v p p' way tag kind access haccept
    obtain ⟨_, -, -, hadjusted⟩ := accept_adjusted haccept
    exact hadjusted.role_eq
  have hvacate : ∀ {u v : CacheSet} {p p' : π} {way : Nat} {block : Block},
      u.vacate p way = .ok (some block, p', v) → v.role = u.role := by
    intro u v p p' way block hvacate
    obtain ⟨_, -, ⟨-, -, hadjusted⟩ | ⟨-, hnone, -⟩⟩ := vacate_cases hvacate
    · exact hadjusted.role_eq
    · cases hnone
  cases h with
  | hit hb hv hhit => exact (hit_adjusted hb hv hhit).role_eq
  | arrival hbring =>
    rcases bringIn_cases hbring with ⟨-, -, hfill⟩ |
      ⟨chosen, aged, block, left, vacated, -, hchoice, -, hleave, hfill⟩
    · exact haccept hfill
    · exact (haccept hfill).trans
        ((hvacate hleave).trans (Policy.Tame.chooseVictim hchoice).role_eq)
  | departure hleave => exact hvacate hleave

end CacheSet

/-! ## The duel of a configuration -/

/-- The duel that a configuration describes. -/
def Config.duel (c : Config) : Duel where
  stride := c.params.leaderStride.toNat
  selectorMax := 2 ^ c.params.selectorBits.toNat - 1
  interval := c.params.bimodalInterval.toNat
  max := 2 ^ c.params.predictionBits.toNat - 1

/-- A new policy is at the start of the duel. -/
theorem DynamicRrip.follows_of_ofConfig {c : Config} {g : Geometry} {policy : AnyPolicy}
    (hpolicy : c.policy = .dynamicRrip) (hinterval : 0 < c.duel.interval)
    (h : AnyPolicy.ofConfig c g = .ok policy) :
    ∃ value, policy = .dynamicRrip value ∧ value.Follows c.duel c.duel.start := by
  unfold AnyPolicy.ofConfig at h
  rw [hpolicy] at h
  obtain ⟨built, hbuilt, rfl⟩ := map_eq_ok_iff.1 h
  obtain ⟨selectorMax, hselectorMax, hbuilt⟩ := bind_eq_ok_iff.1 hbuilt
  obtain ⟨max, hmax, hbuilt⟩ := bind_eq_ok_iff.1 hbuilt
  obtain ⟨-, rfl⟩ := Word.ones_eq_ok_iff.1 hselectorMax
  obtain ⟨-, rfl⟩ := Word.ones_eq_ok_iff.1 hmax
  cases hbuilt
  exact ⟨_, rfl, rfl, Nat.max_eq_left hinterval, rfl, rfl, (Nat.zero_mod _).symm⟩

namespace Store

/-- The sets of a policy that duels have the parts that their places give them. -/
theorem role_of_layout {π : Type} [Policy π] {c : Config} {g : Geometry} {policy : π}
    {sets : Array CacheSet} {index : Nat} {set : CacheSet} (h : layout c g policy = .ok sets)
    (hscanned : Policy.fullyAssociative policy = false) (hduels : Policy.duelsSets policy = true)
    (hset : sets[index]? = some set) : set.role = .ofIndex index c.duel.stride := by
  unfold layout at h
  rw [hscanned, if_neg Bool.false_ne_true] at h
  obtain ⟨stride, hstride, h⟩ := bind_eq_ok_iff.1 h
  obtain ⟨-, -, hpure⟩ := bind_eq_ok_iff.1 h
  obtain rfl := pure_eq_ok_iff.1 hpure
  rw [mapError_eq_ok_iff, leaderStride, hduels, if_pos rfl] at hstride
  split at hstride
  · cases hstride
  · cases hstride
    obtain ⟨hlt, hget⟩ := Array.getElem?_eq_some_iff.1 hset
    rw [Array.getElem_ofFn] at hget
    rw [← hget]
    rfl

/-! ## Runs -/

/-- The store has got as far in the duel as the score. -/
structure Duels (duel : Duel) (score : Score) (s : Store AnyPolicy) : Prop where
  policy : ∃ policy, s.policy = .dynamicRrip policy ∧ policy.Follows duel score
  roles : ∀ {index : Nat} {set : CacheSet}, s.sets[index]? = some set →
    set.role = .ofIndex index duel.stride

variable {c : Config} {f : Frame} {duel : Duel} {score : Score} {s₀ s t : Store AnyPolicy}
  {call : Call} {calls : List Call} {answer : Except Refusal Reply} {history : List Exchange}

/-- A call that is answered moves the duel on if a line came in, and the line got the
prediction of the duel. -/
theorem Duels.respond (h : s.Duels duel score) (hwell : s.WellFormed f)
    (hstride : 2 ≤ duel.stride) (hinterval : 0 < duel.interval)
    (hrespond : s.respond call = .ok (answer, t)) :
    match (Exchange.outcome? ⟨call, answer⟩).bind (·.install?) with
    | some install => t.Duels duel (duel.fill score install.set) ∧
        (t.block? install.set install.way).map (·.word) = some (duel.insertion score install.set)
    | none => t.Duels duel score := by
  rcases hwell.respond_cases hrespond with ⟨hnone, hsets, hpolicy⟩ | ⟨line, set, turn, set', htook⟩
  · rw [hnone]
    exact ⟨by rw [hpolicy]; exact h.policy, by rw [hsets]; exact h.roles⟩
  · obtain ⟨policy, hpolicy, hfollows⟩ := h.policy
    have hrole := h.roles htook.maps.2
    have htakes := htook.takes
    have hroles : ∀ {index : Nat} {found : CacheSet}, t.sets[index]? = some found →
        found.role = .ofIndex index duel.stride := by
      intro index found hfound
      by_cases hindex : index = line.set
      · subst hindex
        rw [htook.set_eq] at hfound
        cases hfound
        rw [htakes.role_eq, hrole]
      · rw [htook.getElem?_of_ne hindex] at hfound
        exact h.roles hfound
    rw [hpolicy] at htakes
    obtain ⟨value, hvalue, hturn⟩ := (AnyPolicy.dynamicRrip policy).takes_cases htakes
    have hnext := hfollows.takes hstride hinterval hrole hturn
    rw [htook.outcome_eq]
    cases turn with
    | hit way block access => exact ⟨⟨value, hvalue, hnext⟩, hroles⟩
    | departure way block => exact ⟨⟨value, hvalue, hnext⟩, hroles⟩
    | arrival way tag kind access victim =>
      obtain ⟨hfollows', block, hb, hword⟩ := hnext
      refine ⟨⟨⟨value, hvalue, hfollows'⟩, hroles⟩, ?_⟩
      show (t.block? line.set way).map _ = _
      rw [block?, htook.set_eq]
      show set'.blocks[way]?.map _ = _
      rw [hb]
      exact congrArg some hword

/-- The duel of a store is what the arrivals make of it, by induction on the calls. -/
theorem WellFormed.duels_of_run (hwell : s.WellFormed f) (h : s.Duels duel score)
    (hstride : 2 ≤ duel.stride) (hinterval : 0 < duel.interval)
    (hrun : Store.run calls s = .ok (history, t)) :
    t.Duels duel (((installsOf history).map Install.set).foldl duel.fill score) := by
  induction calls generalizing s score history with
  | nil =>
    cases hrun
    exact h
  | cons call calls ih =>
    obtain ⟨answer, u, later, hrespond, hrest, rfl⟩ := run_cons_eq_ok_iff.1 hrun
    have hnext := h.respond hwell hstride hinterval hrespond
    have hu := hwell.respond hrespond
    rw [installsOf_cons]
    split at hnext
    · rename_i install harrival
      rw [harrival]
      exact ih hu hnext.1 hrest
    · rename_i harrival
      rw [harrival]
      exact ih hu hnext hrest

/-- The duel of a configuration has leaders for both rules, and its counters fit into 32 bits. -/
theorem duel_of_ofConfig (hbuilt : (ofConfig c).result = .ok s₀)
    (hpolicy : c.policy = .dynamicRrip) :
    2 ≤ c.duel.stride ∧ 0 < c.duel.interval ∧ c.duel.interval < 2 ^ 32 ∧
      c.duel.selectorMax + 1 < 2 ^ 32 ∧ s₀.Duels c.duel c.duel.start := by
  obtain ⟨_, hconsistent, -⟩ := Config.geometry_eq_ok_iff.1 (wellFormed_of_ofConfig hbuilt).1
  have hrange := hconsistent.settings
  rw [Config.SettingsInRange, hpolicy] at hrange
  obtain ⟨-, hselector, hstride, hinterval⟩ := hrange
  obtain ⟨geometry, built, -, hnamed, hcreate⟩ := ofConfig_eq_ok_iff.1 hbuilt
  obtain ⟨value, rfl, hfollows⟩ := DynamicRrip.follows_of_ofConfig hpolicy hinterval hnamed
  obtain ⟨_, sets, -, hlayout, rfl⟩ := create_eq_ok_iff.1 hcreate
  have hpower : 2 ^ c.params.selectorBits.toNat ≤ 2 ^ 16 :=
    Nat.pow_le_pow_right (by decide) hselector.2
  refine ⟨hstride, hinterval, UInt32.toNat_lt _, ?_, ⟨value, rfl, hfollows⟩,
    role_of_layout hlayout rfl rfl⟩
  show 2 ^ c.params.selectorBits.toNat - 1 + 1 < 2 ^ 32
  omega

/-- A store under dynamic prediction answers every run that 64 bits can count.  In every
store that a run leads to, the selection counter is where the walk over the arrivals of the
history has got to, and neither of the two counters is about to leave 32 bits.  Whatever the
next call is, a line that comes in gets the prediction of the duel: the most distant one if
its fill is governed by the bimodal rule and is not the last of an interval of such fills of
the whole store, and one step short of that otherwise. -/
theorem duel_of_run (hbuilt : (ofConfig c).result = .ok s₀) (hpolicy : c.policy = .dynamicRrip) :
    (∀ calls : List Call, calls.length < 2 ^ 63 → ∃ history s, run calls s₀ = .ok (history, s)) ∧
    ∀ calls history s, run calls s₀ = .ok (history, s) →
      let score := c.duel.after ((installsOf history).map Install.set)
      (∃ policy, s.policy = .dynamicRrip policy ∧ policy.selector = score.selector ∧
        policy.selector + 1 < 2 ^ 32 ∧ policy.bimodalFills + 1 < 2 ^ 32) ∧
      ∀ call answer t install, s.respond call = .ok (answer, t) →
        Exchange.outcome? ⟨call, answer⟩ = some (.arrival install) →
        (t.block? install.set install.way).map (·.word) =
          some (c.duel.insertion score install.set) := by
  obtain ⟨hstride, hinterval, hintervalMax, hselectorMax, hstart⟩ := duel_of_ofConfig hbuilt hpolicy
  have hwell₀ := (wellFormed_of_ofConfig hbuilt).2
  refine ⟨fun calls hlength => ?_, fun calls history s hrun => ?_⟩
  · obtain ⟨policy, hnamed, -⟩ := hstart.policy
    exact long_run_ok hbuilt (by rw [hnamed]; rfl) hlength
  · intro score
    have hduels : s.Duels c.duel score := hwell₀.duels_of_run hstart hstride hinterval hrun
    refine ⟨?_, fun call answer t install hrespond harrival => ?_⟩
    · obtain ⟨policy, hnamed, hfollows⟩ := hduels.policy
      have hselector : score.selector ≤ c.duel.selectorMax := c.duel.selector_after_le _
      have hfills := Nat.mod_lt score.governed hinterval
      rw [← hfollows.fills_eq] at hfills
      refine ⟨policy, hnamed, hfollows.selector_eq, ?_, by omega⟩
      rw [hfollows.selector_eq]
      omega
    · have hnext := hduels.respond (hwell₀.run hrun) hstride hinterval hrespond
      rw [harrival] at hnext
      exact hnext.2

/-- Four sets, of which the first leads for the static rule and the last two follow.  A fill
of the first set puts the bimodal rule ahead.  The first fill that it governs is one of the
third set, and so that of the fourth set completes an interval of two. -/
theorem duel_of_three_fills :
    ∃ s₀ history s policy answer t, (ofConfig { Config.ofShape .dynamicRrip 256 64 1 with
        addressBits := 32, params := { leaderStride := 4, bimodalInterval := 2 } }).result =
          .ok s₀ ∧
      run [.fill 0 .read, .fill 128 .write] s₀ = .ok (history, s) ∧
      s.policy = .dynamicRrip policy ∧ policy.selector = 512 ∧
      s.respond (.access 192 .read) = .ok (answer, t) ∧
      (t.block? 2 0).map (·.word) = some 3 ∧ (t.block? 3 0).map (·.word) = some 2 := by
  obtain ⟨s₀, history, s, answer, t, hbuilt, hrun, hrespond, harrival, hsets, hword⟩ :
      ∃ s₀ history s answer t, (ofConfig { Config.ofShape .dynamicRrip 256 64 1 with
          addressBits := 32, params := { leaderStride := 4, bimodalInterval := 2 } }).result =
            .ok s₀ ∧
        run [.fill 0 .read, .fill 128 .write] s₀ = .ok (history, s) ∧
        s.respond (.access 192 .read) = .ok (answer, t) ∧
        Exchange.outcome? ⟨.access 192 .read, answer⟩ = some (.arrival ⟨3, 0, none⟩) ∧
        (installsOf history).map Install.set = [0, 2] ∧
        (t.block? 2 0).map (·.word) = some 3 := ⟨_, _, _, _, _, rfl, rfl, rfl, rfl, rfl, rfl⟩
  obtain ⟨⟨policy, hpolicy, hselector, -⟩, hinsertion⟩ :=
    (duel_of_run hbuilt rfl).2 _ _ _ hrun
  have hlast := hinsertion _ _ _ _ hrespond harrival
  rw [hsets] at hselector hlast
  exact ⟨s₀, history, s, policy, answer, t, hbuilt, hrun, hpolicy, hselector, hrespond, hword,
    hlast⟩

end Store

end AssocCache
