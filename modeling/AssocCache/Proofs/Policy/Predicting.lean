import AssocCache.Policy.Rereference
import AssocCache.Proofs.Policy.Ranking

/-!
# Predicting policies are dependable

The policies that keep a prediction in each block.  No prediction passes the most
distant one (`Prediction.Bounded`), and no hook changes that.  In a set of such
blocks every round of ageing brings the most distant block one step closer to
the maximum, so the victim search ends with a victim (`Prediction.victim_ok`).
-/

namespace AssocCache

open Success CacheSet

namespace Prediction

variable {max way : Nat} {set : CacheSet} {block : Block}

/-- No prediction passes the most distant one. -/
def Bounded (max : Nat) (set : CacheSet) : Prop :=
  ∀ block ∈ set.blocks, block.word ≤ max

theorem Bounded.put (h : Bounded max set) (hword : block.word ≤ max) :
    Bounded max (set.put way block) := by
  intro found hfound
  rcases List.mem_or_eq_of_mem_set hfound with hold | rfl
  · exact h found hold
  · exact hword

theorem Bounded.word_le (h : Bounded max set) (hb : set.blocks[way]? = some block) :
    block.word ≤ max :=
  h block (List.mem_of_getElem? hb)

/-- No hook is needed for a prediction to stay where it is. -/
theorem Bounded.touch (h : Bounded max set) (hb : set.blocks[way]? = some block)
    (access : AccessKind) : Bounded max (set.put way (block.touch access)) := by
  have hword := h.word_le hb
  exact h.put hword

theorem Bounded.enter (h : Bounded max set) (hb : set.blocks[way]? = some block) (tag : Nat)
    (kind : MemoryKind) (dirty : Bool) :
    Bounded max ((set.put way (block.fill tag kind dirty)).enter tag way) := by
  have hword := h.word_le hb
  exact h.put hword

theorem Bounded.depart (h : Bounded max set) (hb : set.blocks[way]? = some block) (tag : Nat) :
    Bounded max ((set.put way block.clear).forget tag) := by
  have hword := h.word_le hb
  exact h.put hword

/-! ## The victim search -/

/-- The block after a step of ageing that does not fault. -/
def older (max : Nat) (block : Block) : Block :=
  { block with word := min (block.word + 1) max }

theorem mapM_ageBlock_eq {blocks : List Block} (h : ∀ block ∈ blocks, block.word + 1 < 2 ^ 64) :
    blocks.mapM (ageBlock max) = .ok (blocks.map (older max)) := by
  induction blocks with
  | nil => rfl
  | cons block rest ih =>
    have hblock : ageBlock max block = .ok (older max block) :=
      ageBlock_eq_ok_iff.2 ⟨h block List.mem_cons_self, rfl⟩
    have hrest := ih fun other hother => h other (List.mem_cons_of_mem _ hother)
    rw [List.mapM_cons, hblock, hrest]
    rfl

theorem age_eq (hmax : max + 1 < 2 ^ 64) (h : Bounded max set) :
    age max set = .ok { set with blocks := set.blocks.map (older max) } := by
  have hblocks : set.blocks.mapM (ageBlock max) = .ok (set.blocks.map (older max)) := by
    refine mapM_ageBlock_eq fun block hblock => ?_
    have := h block hblock
    omega
  exact bind_eq_ok_iff.2 ⟨_, hblocks, rfl⟩

theorem Bounded.age (max : Nat) (set : CacheSet) :
    Bounded max { set with blocks := set.blocks.map (older max) } := by
  intro block hblock
  obtain ⟨young, -, rfl⟩ := List.mem_map.1 hblock
  exact Nat.min_le_right _ _

/-- A search succeeds if some block reaches the maximum before the rounds are used
up. -/
theorem searchVictim_ok (hmax : max + 1 < 2 ^ 64) (rounds : Nat) :
    ∀ {set : CacheSet}, Bounded max set →
      (∃ block ∈ set.blocks, max ≤ block.word + rounds) →
      ∃ way set', searchVictim max (rounds + 1) set = .ok (way, set') ∧
        way < set.blocks.length ∧ Bounded max set' := by
  induction rounds with
  | zero =>
    intro set hbounded hnear
    obtain ⟨block, hmem, hle⟩ := hnear
    have hword : block.word = max := by
      have := hbounded block hmem
      omega
    cases hfind : set.blocks.findIdx? (·.word == max) with
    | none =>
      have hnone := List.findIdx?_eq_none_iff.1 hfind block hmem
      simp [hword] at hnone
    | some way =>
      obtain ⟨hlt, -, -⟩ := List.findIdx?_eq_some_iff_getElem.1 hfind
      exact ⟨way, set, by rw [searchVictim, hfind], hlt, hbounded⟩
  | succ rounds ih =>
    intro set hbounded hnear
    cases hfind : set.blocks.findIdx? (·.word == max) with
    | some way =>
      obtain ⟨hlt, -, -⟩ := List.findIdx?_eq_some_iff_getElem.1 hfind
      exact ⟨way, set, by rw [searchVictim, hfind], hlt, hbounded⟩
    | none =>
      obtain ⟨block, hmem, hle⟩ := hnear
      -- The block is one step closer in the aged set.
      have hcloser : ∃ aged ∈ set.blocks.map (older max), max ≤ aged.word + rounds := by
        refine ⟨older max block, List.mem_map_of_mem hmem, ?_⟩
        have hword : (older max block).word = min (block.word + 1) max := rfl
        omega
      obtain ⟨way, set', hsearch, hlt, hbounded'⟩ := ih (Bounded.age max set) hcloser
      refine ⟨way, set', ?_, ?_, hbounded'⟩
      · rw [searchVictim, hfind]
        exact bind_eq_ok_iff.2 ⟨_, age_eq hmax hbounded, hsearch⟩
      · rwa [List.length_map] at hlt

/-- A set with a way has a victim. -/
theorem victim_ok (hmax : max + 1 < 2 ^ 64) (hbounded : Bounded max set)
    (hpos : 0 < set.blocks.length) :
    ∃ way set', victim max set = .ok (way, set') ∧ way < set.blocks.length ∧
      Bounded max set' := by
  refine searchVictim_ok hmax max hbounded ⟨set.blocks[0], List.getElem_mem hpos, ?_⟩
  exact Nat.le_add_left _ _

end Prediction

open Prediction

/-! ## Static prediction -/

/-- What static prediction needs of a set. -/
structure StaticRrip.Fits (policy : StaticRrip) (set : CacheSet) : Prop where
  max_lt : policy.max + 1 < 2 ^ 64
  insertion_le : policy.insertion ≤ policy.max
  bounded : Bounded policy.max set

instance : Policy.Dependable StaticRrip where
  Fits _ := StaticRrip.Fits
  weaken h := h
  chooseVictim _ hpos _ hfits := by
    obtain ⟨way, aged, hvictim, hlt, hbounded⟩ := victim_ok hfits.max_lt hfits.bounded hpos
    refine ⟨way, _, aged, bind_eq_ok_iff.2 ⟨_, hvictim, rfl⟩, hlt, ?_⟩
    exact ⟨{ hfits with bounded := hbounded }, fun _ _ hother => hother⟩
  onHit {_ policy _ _ way set block} access _ hb _ hfits := by
    have hword := setWord_eq (getElem?_put_self hb (block.touch access)) 0
    refine ⟨policy, _, bind_eq_ok_iff.2 ⟨_, hword, rfl⟩, ?_, fun _ _ hother => hother⟩
    exact { hfits with bounded := (hfits.bounded.touch hb access).put (Nat.zero_le _) }
  onFill {_ policy _ _ way set block} tag kind access _ hb _ hfits := by
    have hfilled := getElem?_fill_self hb (block.fill tag kind access.isWrite) tag
    refine ⟨policy, _, policy, _, rfl,
      bind_eq_ok_iff.2 ⟨_, setWord_eq hfilled policy.insertion, rfl⟩, ?_,
      fun _ _ hother => hother⟩
    exact { hfits with
      bounded := (hfits.bounded.enter hb tag kind access.isWrite).put hfits.insertion_le }
  onInvalidate {_ policy _ _ way set block} _ hb _ hfits := by
    refine ⟨policy, set, rfl, fun block' hb' => ?_⟩
    exact ⟨{ hfits with bounded := hfits.bounded.depart hb' block.tag }, fun _ _ hother => hother⟩

/-! ## Dynamic prediction -/

namespace DynamicRrip

/-- The counters of the duel are inside their ranges. -/
structure Sound (policy : DynamicRrip) : Prop where
  max_lt : policy.max + 1 < 2 ^ 64
  selector_le : policy.selector ≤ policy.selectorMax
  selectorMax_lt : policy.selectorMax + 1 < 2 ^ 32
  fills_lt : policy.bimodalFills < policy.interval
  interval_lt : policy.interval < 2 ^ 32

theorem Sound.countFill {policy : DynamicRrip} (h : policy.Sound) (role : DuelRole) :
    ∃ counted, policy.countFill role = .ok counted ∧ counted.Sound ∧ counted.max = policy.max := by
  have hselector := h.selector_le
  have hmax := h.selectorMax_lt
  cases role with
  | follower => exact ⟨policy, rfl, h, rfl⟩
  | srripLeader =>
    have hnext : Word.add 32 policy.selector 1 = .ok (policy.selector + 1) :=
      Word.add_eq_ok_iff.2 ⟨by omega, rfl⟩
    refine ⟨_, bind_eq_ok_iff.2 ⟨_, hnext, rfl⟩, ?_, rfl⟩
    exact { h with selector_le := Nat.min_le_right _ _ }
  | brripLeader =>
    refine ⟨_, rfl, ?_, rfl⟩
    exact { h with selector_le := Nat.le_trans (Nat.sub_le _ _) hselector }

theorem Sound.insertion {policy : DynamicRrip} (h : policy.Sound) (rule : InsertionRule) :
    ∃ prediction next, policy.insertion rule = .ok (prediction, next) ∧ next.Sound ∧
      next.max = policy.max ∧ prediction ≤ policy.max := by
  have hfills := h.fills_lt
  have hinterval := h.interval_lt
  cases rule with
  | srrip => exact ⟨_, _, rfl, h, rfl, Nat.sub_le _ _⟩
  | brrip =>
    have hnext : Word.add 32 policy.bimodalFills 1 = .ok (policy.bimodalFills + 1) :=
      Word.add_eq_ok_iff.2 ⟨by omega, rfl⟩
    by_cases hlast : policy.interval ≤ policy.bimodalFills + 1
    · refine ⟨_, _, bind_eq_ok_iff.2 ⟨_, hnext, if_pos hlast⟩, ?_, rfl, Nat.sub_le _ _⟩
      have hpos : 0 < policy.interval := by omega
      exact { h with fills_lt := hpos }
    · refine ⟨_, _, bind_eq_ok_iff.2 ⟨_, hnext, if_neg hlast⟩, ?_, rfl, Nat.le_refl _⟩
      exact { h with fills_lt := Nat.lt_of_not_le hlast }

end DynamicRrip

instance : Policy.Dependable DynamicRrip where
  Fits _ policy set := policy.Sound ∧ Bounded policy.max set
  weaken h := h
  chooseVictim _ hpos _ hfits := by
    obtain ⟨way, aged, hvictim, hlt, hbounded⟩ := victim_ok hfits.1.max_lt hfits.2 hpos
    refine ⟨way, _, aged, bind_eq_ok_iff.2 ⟨_, hvictim, rfl⟩, hlt, ?_⟩
    exact ⟨⟨hfits.1, hbounded⟩, fun _ _ hother => hother⟩
  onHit {_ policy _ _ way set block} access _ hb _ hfits := by
    have hword := setWord_eq (getElem?_put_self hb (block.touch access)) 0
    refine ⟨policy, _, bind_eq_ok_iff.2 ⟨_, hword, rfl⟩, ?_, fun _ _ hother => hother⟩
    exact ⟨hfits.1, (hfits.2.touch hb access).put (Nat.zero_le _)⟩
  onFill {_ policy _ _ way set block} tag kind access _ hb _ hfits := by
    have hfilled := getElem?_fill_self hb (block.fill tag kind access.isWrite) tag
    obtain ⟨counted, hcount, hsound, hmax⟩ := hfits.1.countFill set.role
    obtain ⟨prediction, next, hinsertion, hsound', hmax', hle⟩ :=
      hsound.insertion (counted.ruleFor set.role)
    have hall : next.max = policy.max := hmax'.trans hmax
    refine ⟨policy, _, next, _, rfl, bind_eq_ok_iff.2 ⟨counted, hcount,
      bind_eq_ok_iff.2 ⟨_, hinsertion, bind_eq_ok_iff.2 ⟨_, setWord_eq hfilled prediction, rfl⟩⟩⟩,
      ?_, fun other _ hother => ?_⟩
    · rw [hall]
      refine ⟨hsound', (hfits.2.enter hb tag kind access.isWrite).put ?_⟩
      rw [← hmax]
      exact hle
    · rw [hall]
      exact ⟨hsound', hother.2⟩
  onInvalidate {_ policy _ _ way set block} _ hb _ hfits := by
    refine ⟨policy, set, rfl, fun block' hb' => ?_⟩
    exact ⟨⟨hfits.1, hfits.2.depart hb' block.tag⟩, fun _ _ hother => hother⟩

/-! ## Memory-type aware prediction -/

theorem Intervals.touch_ok {i : Intervals} {index : Nat} (h : index < i.counters.count) :
    ∃ touched, i.touch index = .ok touched ∧ touched.counters.count = i.counters.count := by
  have hcounter : i.counters.counterAt index = .ok (i.counters.written.getD index 0) := if_pos h
  exact ⟨_, bind_eq_ok_iff.2 ⟨_, hcounter, rfl⟩, rfl⟩

theorem Intervals.isComplete_ok {i : Intervals} {index : Nat} (h : index < i.counters.count) :
    ∃ complete, i.isComplete index = .ok complete := by
  have hcounter : i.counters.counterAt index = .ok (i.counters.written.getD index 0) := if_pos h
  exact ⟨_, bind_eq_ok_iff.2 ⟨_, hcounter, rfl⟩⟩

namespace TypeAwareRrip

/-- What memory-type aware prediction needs of a set. -/
structure Fits (policy : TypeAwareRrip) (set : CacheSet) : Prop where
  max_lt : policy.max + 1 < 2 ^ 64
  index_lt : set.index < policy.intervals.counters.count
  bounded : Bounded policy.max set

theorem hitPrediction_le (policy : TypeAwareRrip) (block : Block) :
    policy.hitPrediction block ≤ block.word := by
  unfold hitPrediction
  split
  · exact Nat.zero_le _
  · exact Nat.sub_le _ _

theorem insertion_le (policy : TypeAwareRrip) (kind : MemoryKind) (onInterval : Bool) :
    policy.insertion kind onInterval ≤ policy.max := by
  unfold insertion
  split
  · exact Nat.sub_le _ _
  · cases kind
    · exact Nat.le_refl _
    · exact Nat.sub_le _ _

/-- A touch counts in the row of counters and changes nothing else. -/
theorem touch_ok {policy : TypeAwareRrip} {set : CacheSet}
    (h : set.index < policy.intervals.counters.count) :
    ∃ touched, policy.touch set = .ok touched ∧ touched.max = policy.max ∧
      touched.intervals.counters.count = policy.intervals.counters.count := by
  obtain ⟨intervals, htouch, hcount⟩ := Intervals.touch_ok h
  exact ⟨_, bind_eq_ok_iff.2 ⟨_, htouch, rfl⟩, rfl, hcount⟩

theorem Fits.congr {policy policy' : TypeAwareRrip} {set : CacheSet} (h : Fits policy set)
    (hmax : policy'.max = policy.max)
    (hcount : policy'.intervals.counters.count = policy.intervals.counters.count) :
    Fits policy' set := by
  refine ⟨?_, ?_, ?_⟩
  · rw [hmax]
    exact h.max_lt
  · rw [hcount]
    exact h.index_lt
  · rw [hmax]
    exact h.bounded

end TypeAwareRrip

instance : Policy.Dependable TypeAwareRrip where
  Fits _ := TypeAwareRrip.Fits
  weaken h := h
  chooseVictim {_ policy _ _ set} _ hpos _ hfits := by
    obtain ⟨way, aged, hvictim, hlt, hbounded⟩ := victim_ok hfits.max_lt hfits.bounded hpos
    have hindex : aged.index = set.index := (adjusted_of_victim hvictim).index_eq
    refine ⟨way, _, aged, bind_eq_ok_iff.2 ⟨_, hvictim, rfl⟩, hlt, ?_, fun _ _ hother => hother⟩
    exact ⟨hfits.max_lt, hindex ▸ hfits.index_lt, hbounded⟩
  onHit {_ policy _ _ way set block} access _ hb _ hfits := by
    obtain ⟨touched, htouch, hmax, hcount⟩ := TypeAwareRrip.touch_ok hfits.index_lt
    have hhere := getElem?_put_self hb (block.touch access)
    have hchange := change_eq hhere fun block =>
      { block with word := touched.hitPrediction block }
    refine ⟨touched, _, bind_eq_ok_iff.2 ⟨touched, htouch, bind_eq_ok_iff.2 ⟨_, hchange, rfl⟩⟩,
      ?_, fun _ _ hother => hother.congr hmax hcount⟩
    refine TypeAwareRrip.Fits.congr ⟨hfits.max_lt, hfits.index_lt, ?_⟩ hmax hcount
    have hold := hfits.bounded.word_le hb
    have hnew := touched.hitPrediction_le (block.touch access)
    exact (hfits.bounded.touch hb access).put (Nat.le_trans hnew hold)
  onFill {_ policy _ _ way set block} tag kind access _ hb _ hfits := by
    obtain ⟨touched, htouch, hmax, hcount⟩ := TypeAwareRrip.touch_ok hfits.index_lt
    have hindex : set.index < touched.intervals.counters.count := by
      rw [hcount]
      exact hfits.index_lt
    obtain ⟨onInterval, hcomplete⟩ := Intervals.isComplete_ok hindex
    have hfilled := getElem?_fill_self hb (block.fill tag kind access.isWrite) tag
    have hchange := change_eq hfilled fun block =>
      { block with word := touched.insertion block.kind onInterval }
    refine ⟨touched, _, touched, _, bind_eq_ok_iff.2 ⟨_, htouch, rfl⟩,
      bind_eq_ok_iff.2 ⟨onInterval, hcomplete, bind_eq_ok_iff.2 ⟨_, hchange, rfl⟩⟩, ?_,
      fun _ _ hother => hother.congr hmax hcount⟩
    refine TypeAwareRrip.Fits.congr ⟨hfits.max_lt, hfits.index_lt, ?_⟩ hmax hcount
    refine (hfits.bounded.enter hb tag kind access.isWrite).put ?_
    rw [← hmax]
    exact touched.insertion_le _ _
  onInvalidate {_ policy _ _ way set block} _ hb _ hfits := by
    refine ⟨policy, set, rfl, fun block' hb' => ?_⟩
    exact ⟨⟨hfits.max_lt, hfits.index_lt, hfits.bounded.depart hb' block.tag⟩,
      fun _ _ hother => hother⟩

end AssocCache
