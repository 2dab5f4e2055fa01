import AssocCache.Policy.Stacking
import AssocCache.Proofs.CacheSet.StackMoves
import AssocCache.Proofs.Coupled
import AssocCache.Proofs.Policy.FrontMoving
import AssocCache.Proofs.Policy.Predicting

/-!
# Stack policies are dependable

The policies that choose by the recency stack.  The stack of a well-formed set
lists every way, so a way that exists is always found in it and its last way
exists.  No hook adds a way or drops one.
-/

namespace AssocCache

open Success

namespace CacheSet

variable {set set' : CacheSet} {way : Nat}

/-- Moves and changes of the stack leave the set where it is. -/
theorem moveTo_ok (h : way ∈ set.stack) (position : Nat) :
    ∃ set', set.moveTo way position = .ok set' ∧ set'.index = set.index ∧
      set'.blocks = set.blocks ∧ way ∈ set'.stack := by
  refine ⟨_, moveTo_eq_ok_iff.2 ⟨h, rfl⟩, rfl, rfl, ?_⟩
  exact (Recency.mem_place h position way).2 h

theorem promote_ok (h : way ∈ set.stack) (distance : Nat) :
    ∃ set', set.promote way distance = .ok set' ∧ set'.index = set.index := by
  obtain ⟨set', hmove, hindex, -, -⟩ := moveTo_ok h (set.stack.idxOf way - distance)
  exact ⟨set', (promote_eq h distance).trans hmove, hindex⟩

namespace WellFormed

variable {f : Frame} {index : Nat}

theorem tailWay_ok (h : set.WellFormed f index) (hpos : 0 < set.blocks.length) :
    ∃ way, set.tailWay = .ok way ∧ way < set.blocks.length := by
  unfold tailWay
  cases hlast : set.stack.getLast? with
  | none =>
    have hempty := List.getLast?_eq_none_iff.1 hlast
    have hlength := h.stack_perm.length_eq
    rw [hempty, List.length_nil, List.length_range, ← h.length_blocks] at hlength
    omega
  | some way => exact ⟨way, rfl, h.mem_stack.1 (List.mem_of_getLast? hlast)⟩

end WellFormed

end CacheSet

open CacheSet

/-! ## Bimodal insertion -/

/-- The fills since the last exception are fewer than the interval. -/
def Bimodal.Sound (policy : Bimodal) : Prop :=
  policy.fills < policy.interval ∧ policy.interval < 2 ^ 32

theorem Bimodal.Sound.lt {policy : Bimodal} (h : policy.Sound) : policy.fills + 1 < 2 ^ 32 :=
  Nat.lt_of_le_of_lt h.1 h.2

theorem Bimodal.Sound.counted {policy : Bimodal} (h : policy.Sound) : policy.counted.Sound := by
  refine ⟨?_, h.2⟩
  rw [Bimodal.fills_counted h.1]
  exact Nat.mod_lt _ (Nat.zero_lt_of_lt h.1)

instance : Policy.Dependable Bimodal where
  Fits _ policy _ := policy.Sound
  weaken h := h
  chooseVictim hset hpos _ hfits := by
    obtain ⟨way, htail, hlt⟩ := hset.tailWay_ok hpos
    exact ⟨way, _, _, bind_eq_ok_iff.2 ⟨way, htail, rfl⟩, hlt, .refl hfits⟩
  onHit {_ policy _ _ way set block} access hset hb _ hfits := by
    have hmem : way ∈ (set.put way (block.touch access)).stack := hset.mem_stack_of_getElem? hb
    obtain ⟨moved, hmove, -⟩ := moveTo_ok hmem 0
    exact ⟨policy, moved, bind_eq_ok_iff.2 ⟨moved, hmove, rfl⟩, .of_forall fun _ => hfits⟩
  onFill {_ policy _ _ way set block} tag kind access hset hb _ hfits := by
    have hmem : way ∈ ((set.put way (block.fill tag kind access.isWrite)).enter tag way).stack :=
      hset.mem_stack_of_getElem? hb
    have hsound : policy.counted.Sound := hfits.counted
    refine ⟨policy, _, policy.counted, _, rfl, Bimodal.onInsert_eq hmem hfits.lt access, ?_⟩
    exact .of_forall fun _ => hsound
  onInvalidate {_ policy _ _ way set block} hset hb _ hfits := by
    obtain ⟨moved, hmove, -⟩ := moveTo_ok (hset.mem_stack_of_getElem? hb) set.stack.length
    exact ⟨policy, moved, bind_eq_ok_iff.2 ⟨moved, hmove, rfl⟩,
      fun _ _ => .of_forall fun _ => hfits⟩

/-! ## Thrash-resistant replacement -/

namespace ThrashResistant

/-- The set has a counter. -/
def Fits (policy : ThrashResistant) (set : CacheSet) : Prop :=
  set.index < policy.intervals.counters.count

theorem touch_ok {policy : ThrashResistant} {set : CacheSet} (h : Fits policy set) :
    ∃ touched, policy.touch set = .ok touched ∧
      touched.intervals.counters.count = policy.intervals.counters.count := by
  obtain ⟨intervals, htouch, hcount⟩ := Intervals.touch_ok h
  exact ⟨⟨intervals⟩, bind_eq_ok_iff.2 ⟨intervals, htouch, rfl⟩, hcount⟩

/-- An insertion ends with the way at one of the ends of the stack. -/
theorem onInsert_ok {policy : ThrashResistant} {set : CacheSet} {way : Nat} {block : Block}
    (h : Fits policy set) (hmem : way ∈ set.stack) (hnodup : set.stack.Nodup)
    (hb : set.blocks[way]? = some block) (access : AccessKind) :
    ∃ set', Policy.onInsert policy set way access = .ok (policy, set') ∧
      set'.index = set.index := by
  obtain ⟨onInterval, hcomplete⟩ := Intervals.isComplete_ok h
  exact ⟨_, onInsert_eq hmem hnodup hb hcomplete access, rfl⟩

end ThrashResistant

instance : Policy.Dependable ThrashResistant where
  Fits _ := ThrashResistant.Fits
  weaken h := h
  chooseVictim hset hpos _ hfits := by
    obtain ⟨way, htail, hlt⟩ := hset.tailWay_ok hpos
    exact ⟨way, _, _, bind_eq_ok_iff.2 ⟨way, htail, rfl⟩, hlt, .refl hfits⟩
  onHit {_ policy _ _ way set block} access hset hb _ hfits := by
    obtain ⟨touched, htouch, hcount⟩ := ThrashResistant.touch_ok hfits
    have hmem : way ∈ (set.put way (block.touch access)).stack := hset.mem_stack_of_getElem? hb
    obtain ⟨moved, hmove, hindex, -, -⟩ := moveTo_ok hmem 0
    refine ⟨touched, moved, bind_eq_ok_iff.2 ⟨touched, htouch, bind_eq_ok_iff.2 ⟨moved, hmove, rfl⟩⟩,
      ?_, fun other _ hother => ?_⟩
    · rw [ThrashResistant.Fits, hindex, hcount]
      exact hfits
    · rw [ThrashResistant.Fits, hcount]
      exact hother
  onFill {_ policy _ _ way set block} tag kind access hset hb _ hfits := by
    obtain ⟨touched, htouch, hcount⟩ := ThrashResistant.touch_ok hfits
    have hfits' : touched.Fits ((set.put way (block.fill tag kind access.isWrite)).enter tag way) := by
      rw [ThrashResistant.Fits, hcount]
      exact hfits
    have hmem : way ∈ ((set.put way (block.fill tag kind access.isWrite)).enter tag way).stack :=
      hset.mem_stack_of_getElem? hb
    have hfilled := getElem?_fill_self hb (block.fill tag kind access.isWrite) tag
    obtain ⟨set', hinsert, hindex⟩ := ThrashResistant.onInsert_ok hfits' hmem
      (show ((set.put way _).enter tag way).stack.Nodup from hset.nodup_stack) hfilled access
    refine ⟨touched, _, touched, set', bind_eq_ok_iff.2 ⟨touched, htouch, rfl⟩, hinsert, ?_,
      fun other _ hother => ?_⟩
    · rw [ThrashResistant.Fits, hindex]
      exact hfits'
    · rw [ThrashResistant.Fits, hcount]
      exact hother
  onInvalidate {_ policy _ _ way set block} hset hb _ hfits := by
    obtain ⟨moved, hmove, hindex, -, -⟩ :=
      moveTo_ok (hset.mem_stack_of_getElem? hb) set.stack.length
    refine ⟨policy, moved, bind_eq_ok_iff.2 ⟨moved, hmove, rfl⟩, fun block' _ => ?_⟩
    have hfits' : moved.index < policy.intervals.counters.count := by
      rw [hindex]
      exact hfits
    exact ⟨hfits', fun _ _ hother => hother⟩

/-! ## Write-back aware replacement -/

namespace WriteBackAware

/-- The counter of the set has room. -/
def Fits (room : Nat) (policy : WriteBackAware) (set : CacheSet) : Prop :=
  ∃ count, policy.counters.counterAt set.index = .ok count ∧ count + room < 2 ^ 32

theorem Fits.weaken {room : Nat} {policy : WriteBackAware} {set : CacheSet}
    (h : Fits (room + 1) policy set) : Fits room policy set := by
  obtain ⟨count, hcount, hroom⟩ := h
  exact ⟨count, hcount, by omega⟩

/-- Only the place of the set matters. -/
theorem Fits.of_index_eq {room : Nat} {policy : WriteBackAware} {set set' : CacheSet}
    (h : Fits room policy set) (hindex : set'.index = set.index) : Fits room policy set' := by
  unfold Fits
  rw [hindex]
  exact h

theorem nextCount_ok {count room : Nat} (h : count + (room + 1) < 2 ^ 32) (counterMax : Nat)
    (access : AccessKind) (kind : MemoryKind) :
    ∃ next, nextCount counterMax count access kind = .ok next ∧ next + room < 2 ^ 32 := by
  have hnext : Word.add 32 count 1 = .ok (count + 1) := Word.add_eq_ok_iff.2 ⟨by omega, rfl⟩
  have hrise : ∃ next, (do pure (Nat.min (← Word.add 32 count 1) counterMax) : Except Fault Nat) =
      .ok next ∧ next + room < 2 ^ 32 := by
    refine ⟨_, bind_eq_ok_iff.2 ⟨_, hnext, rfl⟩, ?_⟩
    have hmin : Nat.min (count + 1) counterMax ≤ count + 1 := Nat.min_le_left _ _
    omega
  cases access <;> cases kind
  · exact hrise
  · exact ⟨count - 1, rfl, by omega⟩
  · exact hrise
  · exact ⟨count - 1, rfl, by omega⟩
  · exact ⟨count, rfl, by omega⟩
  · exact ⟨count, rfl, by omega⟩

/-- A hit moves the way in the stack and leaves the counters as they are. -/
theorem onHit_ok {policy : WriteBackAware} {set : CacheSet} {way count : Nat} {block : Block}
    (hcount : policy.counters.counterAt set.index = .ok count) (hmem : way ∈ set.stack)
    (hb : set.blocks[way]? = some block) :
    ∃ set', Policy.onHit policy set way = .ok (policy, set') ∧ set'.index = set.index := by
  have hblock := blockAt_eq_ok_iff.2 hb
  cases hkind : block.kind with
  | nvm =>
    obtain ⟨moved, hmove, hindex, -, -⟩ := moveTo_ok hmem 0
    refine ⟨moved, bind_eq_ok_iff.2 ⟨_, hblock, ?_⟩, hindex⟩
    rw [hkind]
    exact bind_eq_ok_iff.2 ⟨moved, hmove, rfl⟩
  | dram =>
    obtain ⟨moved, hmove, hindex⟩ := promote_ok hmem (count / 2)
    refine ⟨moved, bind_eq_ok_iff.2 ⟨_, hblock, ?_⟩, hindex⟩
    rw [hkind]
    exact bind_eq_ok_iff.2 ⟨count, hcount, bind_eq_ok_iff.2 ⟨moved, hmove, rfl⟩⟩

/-- The policy with another count for a set. -/
def recounted (policy : WriteBackAware) (index count : Nat) : WriteBackAware :=
  { policy with counters := policy.counters.write index count }

theorem counterAt_recounted {policy : WriteBackAware} {index count : Nat}
    (hcount : policy.counters.counterAt index = .ok count) (next other : Nat) :
    (policy.recounted index next).counters.counterAt other =
      if other = index then .ok next else policy.counters.counterAt other :=
  Counters.counterAt_write_of_eq_ok hcount next other

/-- A line is inserted if the next count of its set can be worked out, and this count is all
that changes of the policy. -/
theorem coupled_onInsert {policy : WriteBackAware} {set : CacheSet} {way count : Nat}
    {block : Block} (hcount : policy.counters.counterAt set.index = .ok count)
    (hmem : way ∈ set.stack) (hb : set.blocks[way]? = some block) (access : AccessKind) :
    Coupled (fun _ => False)
      (fun next x => x.1 = policy.recounted set.index next ∧ x.2.index = set.index)
      (nextCount policy.counterMax count access block.kind)
      (Policy.onInsert policy set way access) := by
  obtain ⟨moved, hmove, hindex, -, -⟩ :=
    moveTo_ok hmem (insertionPosition count (set.associativity - 1) access block.kind)
  cases hnext : nextCount policy.counterMax count access block.kind with
  | ok next =>
    refine .of_eq_ok rfl (bind_eq_ok_iff.2 ⟨count, hcount, bind_eq_ok_iff.2
      ⟨block, blockAt_eq_ok_iff.2 hb, bind_eq_ok_iff.2 ⟨next, hnext, bind_eq_ok_iff.2
        ⟨moved, hmove, rfl⟩⟩⟩⟩) ⟨rfl, hindex⟩
  | error fault =>
    have hfails : Policy.onInsert policy set way access = .error fault := by
      simp only [Policy.onInsert, hcount, blockAt_eq_ok_iff.2 hb, hnext, bind, Except.bind]
    rw [hfails]
    exact .error fault

end WriteBackAware

instance : Policy.Dependable WriteBackAware where
  Fits := WriteBackAware.Fits
  weaken := WriteBackAware.Fits.weaken
  chooseVictim hset hpos _ hfits := by
    obtain ⟨way, htail, hlt⟩ := hset.tailWay_ok hpos
    exact ⟨way, _, _, bind_eq_ok_iff.2 ⟨way, htail, rfl⟩, hlt, .refl hfits⟩
  onHit {_ policy _ _ way set block} access hset hb _ hfits := by
    have ⟨count, hcount, _⟩ := hfits
    have hcounter : policy.counters.counterAt (set.put way (block.touch access)).index =
      .ok count := hcount
    have hmem : way ∈ (set.put way (block.touch access)).stack := hset.mem_stack_of_getElem? hb
    obtain ⟨moved, hhit, hindex⟩ :=
      WriteBackAware.onHit_ok hcounter hmem (getElem?_put_self hb (block.touch access))
    exact ⟨policy, moved, hhit, hfits.weaken.of_index_eq hindex, fun _ _ => .weaken⟩
  onFill {room policy _ _ way set block} tag kind access hset hb _ hfits := by
    obtain ⟨count, hcount, hroom⟩ := hfits
    have hcounter : policy.counters.counterAt
      ((set.put way (block.fill tag kind access.isWrite)).enter tag way).index = .ok count := hcount
    have hfilled := getElem?_fill_self hb (block.fill tag kind access.isWrite) tag
    have hmem : way ∈ ((set.put way (block.fill tag kind access.isWrite)).enter tag way).stack :=
      hset.mem_stack_of_getElem? hb
    obtain ⟨next, hnext, hroom'⟩ := WriteBackAware.nextCount_ok hroom policy.counterMax access kind
    obtain ⟨⟨policy', moved⟩, hinsert, rfl, hindex⟩ :=
      (WriteBackAware.coupled_onInsert hcounter hmem hfilled access).exists_ok hnext
    refine ⟨policy, _, _, moved, rfl, hinsert, ?_, ?_⟩
    · refine ⟨next, ?_, hroom'⟩
      rw [hindex, WriteBackAware.counterAt_recounted hcounter, if_pos rfl]
    · intro other hother hbefore
      obtain ⟨count', hcount', hroom''⟩ := hbefore
      refine ⟨count', ?_, by omega⟩
      rw [WriteBackAware.counterAt_recounted hcounter, if_neg, hcount']
      exact fun hsame => hother (hsame.trans hset.index_eq)
  onInvalidate {_ policy _ _ way set block} hset hb _ hfits := by
    obtain ⟨moved, hmove, hindex, -, -⟩ :=
      moveTo_ok (hset.mem_stack_of_getElem? hb) set.stack.length
    exact ⟨policy, moved, bind_eq_ok_iff.2 ⟨moved, hmove, rfl⟩, fun block' _ =>
      ⟨hfits.of_index_eq hindex, fun _ _ hother => hother⟩⟩

end AssocCache
