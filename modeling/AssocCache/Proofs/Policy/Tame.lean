import AssocCache.Policy
import AssocCache.Policy.Any
import AssocCache.Policy.Rereference
import AssocCache.Fault
import Mathlib.Data.List.Basic

/-!
# Tame policies

A policy is tame if its hooks touch nothing of a set but the words of the blocks
and the order of the recency stack (`Policy.Tame`).  All policies that a
configuration can name are tame, so which lines a set holds is decided by the set
alone.
-/

/-!
## What a policy may change of a set

A replacement policy keeps its knowledge in the words of the blocks and in the
order of the recency stack.  `CacheSet.Adjusted` says that two sets differ in
nothing else.  The lemmas below show it of every operation on a set that the
policies use.

There are two groups.

* The frame.  `Adjusted` is reflexive and transitive, and whatever does not read
  the words is equal on both sides: the lookups, the vacancy, the occupancy.
* The operations.  A new word (`adjusted_of_change`), a move in the stack
  (`adjusted_of_moveTo`) and the ageing of predictions (`adjusted_of_victim`) all
  adjust.
-/

namespace AssocCache

/-- The block without the policy's word. -/
def Block.bare (b : Block) : Block := { b with word := 0 }

theorem Block.bare_eq_bare_iff {b c : Block} :
    b.bare = c.bare ↔ b.tag = c.tag ∧ b.valid = c.valid ∧ b.dirty = c.dirty ∧
      b.setIndex = c.setIndex ∧ b.wayIndex = c.wayIndex ∧ b.kind = c.kind := by
  simp [Block.bare]

theorem Block.holds_bare (b : Block) (tag : Nat) : b.bare.holds tag = b.holds tag := rfl

namespace CacheSet

/-- The second set is the first one but for the words of the blocks and the order
of the stack. -/
structure Adjusted (set set' : CacheSet) : Prop where
  index_eq : set'.index = set.index
  role_eq : set'.role = set.role
  tagIndex_eq : set'.tagIndex = set.tagIndex
  blocks_eq : set'.blocks.map Block.bare = set.blocks.map Block.bare
  stack_perm : set'.stack.Perm set.stack

namespace Adjusted

variable {set set' set'' : CacheSet}

theorem refl (set : CacheSet) : set.Adjusted set := ⟨rfl, rfl, rfl, rfl, .refl _⟩

theorem trans (h : set.Adjusted set') (h' : set'.Adjusted set'') : set.Adjusted set'' where
  index_eq := h'.index_eq.trans h.index_eq
  role_eq := h'.role_eq.trans h.role_eq
  tagIndex_eq := h'.tagIndex_eq.trans h.tagIndex_eq
  blocks_eq := h'.blocks_eq.trans h.blocks_eq
  stack_perm := h'.stack_perm.trans h.stack_perm

theorem symm (h : set.Adjusted set') : set'.Adjusted set :=
  ⟨h.index_eq.symm, h.role_eq.symm, h.tagIndex_eq.symm, h.blocks_eq.symm, h.stack_perm.symm⟩

theorem length_blocks (h : set.Adjusted set') : set'.blocks.length = set.blocks.length := by
  simpa using congrArg List.length h.blocks_eq

theorem getElem?_bare (h : set.Adjusted set') (way : Nat) :
    set'.blocks[way]?.map Block.bare = set.blocks[way]?.map Block.bare := by
  rw [← List.getElem?_map, ← List.getElem?_map, h.blocks_eq]

/-- A block has a counterpart in the adjusted set. -/
theorem exists_block (h : set.Adjusted set') {way : Nat} {block : Block}
    (hb : set.blocks[way]? = some block) :
    ∃ block', set'.blocks[way]? = some block' ∧ block'.bare = block.bare := by
  have hmap := h.getElem?_bare way
  rw [hb, Option.map_some] at hmap
  exact Option.map_eq_some_iff.1 hmap

theorem exists_block_rev (h : set.Adjusted set') {way : Nat} {block' : Block}
    (hb : set'.blocks[way]? = some block') :
    ∃ block, set.blocks[way]? = some block ∧ block'.bare = block.bare := by
  have hmap := h.getElem?_bare way
  rw [hb, Option.map_some] at hmap
  obtain ⟨block, hblock, heq⟩ := Option.map_eq_some_iff.1 hmap.symm
  exact ⟨block, hblock, heq.symm⟩

theorem occupancy_eq (h : set.Adjusted set') : set'.occupancy = set.occupancy := by
  have hcount := congrArg (List.countP (·.valid)) h.blocks_eq
  rw [List.countP_map, List.countP_map] at hcount
  exact hcount

theorem put (h : set.Adjusted set') (way : Nat) {block block' : Block}
    (hb : block'.bare = block.bare) : (set.put way block).Adjusted (set'.put way block') where
  index_eq := h.index_eq
  role_eq := h.role_eq
  tagIndex_eq := h.tagIndex_eq
  blocks_eq := by
    simp only [CacheSet.put]
    rw [List.map_set, List.map_set, h.blocks_eq, hb]
  stack_perm := h.stack_perm

theorem forget (h : set.Adjusted set') (tag : Nat) : (set.forget tag).Adjusted (set'.forget tag) where
  index_eq := h.index_eq
  role_eq := h.role_eq
  tagIndex_eq := by simp only [CacheSet.forget, h.tagIndex_eq]
  blocks_eq := h.blocks_eq
  stack_perm := h.stack_perm

end Adjusted

/-! ### The operations of the policies -/

variable {set set' : CacheSet} {way : Nat}

theorem blockAt_eq_ok_iff {block : Block} :
    set.blockAt way = .ok block ↔ set.blocks[way]? = some block :=
  entryAt_eq_ok_iff

/-- A change that succeeds is the change of a block. -/
theorem change_eq_ok_iff {f : Block → Block} :
    set.change way f = .ok set' ↔
      ∃ block, set.blocks[way]? = some block ∧ set' = set.put way (f block) := by
  unfold change
  split
  · rename_i block hb
    simp [blockAt_eq_ok_iff.1 hb, eq_comm]
  · rename_i fault hb
    have hnone : ∀ block, set.blocks[way]? ≠ some block := fun block h => by
      rw [blockAt_eq_ok_iff.2 h] at hb
      cases hb
    simp [hnone]

/-- A move that succeeds places a way that the stack lists. -/
theorem moveTo_eq_ok_iff {position : Nat} :
    set.moveTo way position = .ok set' ↔
      way ∈ set.stack ∧ set' = { set with stack := Recency.place set.stack way position } := by
  unfold moveTo stackPosition
  by_cases hmem : way ∈ set.stack
  · obtain ⟨i, hi⟩ := Option.ne_none_iff_exists'.1 (mt List.idxOf?_eq_none_iff.1 (not_not.2 hmem))
    simp [hi, hmem, eq_comm]
  · simp [List.idxOf?_eq_none_iff.2 hmem, hmem]

theorem adjusted_of_change {f : Block → Block} (hf : ∀ block, (f block).bare = block.bare)
    (h : set.change way f = .ok set') : set.Adjusted set' := by
  obtain ⟨block, hb, rfl⟩ := change_eq_ok_iff.1 h
  have hself : set.put way block = set := by
    obtain ⟨hlt, rfl⟩ := List.getElem?_eq_some_iff.1 hb
    simp [CacheSet.put]
  have hput := (Adjusted.refl set).put way (hf block)
  rwa [hself] at hput

theorem adjusted_of_changeWord {f : Nat → Nat} (h : set.changeWord way f = .ok set') :
    set.Adjusted set' := by
  refine adjusted_of_change ?_ h
  intro block
  rfl

theorem adjusted_of_setWord {word : Nat} (h : set.setWord way word = .ok set') :
    set.Adjusted set' :=
  adjusted_of_changeWord h

theorem adjusted_of_moveTo {position : Nat} (h : set.moveTo way position = .ok set') :
    set.Adjusted set' := by
  obtain ⟨hmem, rfl⟩ := moveTo_eq_ok_iff.1 h
  exact ⟨rfl, rfl, rfl, rfl, Recency.place_perm hmem position⟩

theorem adjusted_of_promote {distance : Nat} (h : set.promote way distance = .ok set') :
    set.Adjusted set' := by
  unfold promote at h
  split at h
  · exact adjusted_of_moveTo h
  · cases h

end CacheSet

/-! ### Ageing -/

namespace Prediction

theorem ageBlock_eq_ok_iff {max : Nat} {block block' : Block} :
    ageBlock max block = .ok block' ↔
      block.word + 1 < 2 ^ (64 : Nat) ∧ block' = { block with word := min (block.word + 1) max } := by
  unfold ageBlock
  simp only [Success.bind_eq_ok_iff, Success.pure_eq_ok_iff, Word.add_eq_ok_iff]
  constructor
  · rintro ⟨_, ⟨hlt, rfl⟩, rfl⟩
    exact ⟨hlt, rfl⟩
  · rintro ⟨hlt, rfl⟩
    exact ⟨_, ⟨hlt, rfl⟩, rfl⟩

theorem map_bare_of_mapM_ageBlock {max : Nat} {blocks aged : List Block}
    (h : blocks.mapM (ageBlock max) = .ok aged) :
    aged.map Block.bare = blocks.map Block.bare := by
  induction blocks generalizing aged with
  | nil =>
    simp only [List.mapM_nil, Success.pure_eq_ok_iff] at h
    rw [← h]
  | cons block blocks ih =>
    simp only [List.mapM_cons, Success.bind_eq_ok_iff, Success.pure_eq_ok_iff] at h
    obtain ⟨block', hblock, rest, hrest, rfl⟩ := h
    obtain ⟨-, rfl⟩ := ageBlock_eq_ok_iff.1 hblock
    rw [List.map_cons, List.map_cons, ih hrest]
    rfl

theorem adjusted_of_age {max : Nat} {set set' : CacheSet} (h : age max set = .ok set') :
    set.Adjusted set' := by
  simp only [age, Success.bind_eq_ok_iff, Success.pure_eq_ok_iff] at h
  obtain ⟨blocks, hblocks, rfl⟩ := h
  exact ⟨rfl, rfl, rfl, map_bare_of_mapM_ageBlock hblocks, .refl _⟩

theorem adjusted_of_searchVictim {max rounds way : Nat} {set set' : CacheSet}
    (h : searchVictim max rounds set = .ok (way, set')) : set.Adjusted set' := by
  induction rounds generalizing set with
  | zero => cases h
  | succ rounds ih =>
    rw [searchVictim] at h
    split at h
    · cases h
      exact .refl _
    · obtain ⟨aged, haged, hsearch⟩ := Success.bind_eq_ok_iff.1 h
      exact (adjusted_of_age haged).trans (ih hsearch)

theorem adjusted_of_victim {max way : Nat} {set set' : CacheSet}
    (h : victim max set = .ok (way, set')) : set.Adjusted set' :=
  adjusted_of_searchVictim h

end Prediction

/-! ## Tameness -/

open Success CacheSet

/-- The hooks of the policy do no more than adjust a set. -/
class Policy.Tame (π : Type) [Policy π] : Prop where
  chooseVictim {policy policy' : π} {set set' : CacheSet} {way : Nat} :
    Policy.chooseVictim policy set = .ok (way, policy', set') → set.Adjusted set'
  onHit {policy policy' : π} {set set' : CacheSet} {way : Nat} :
    Policy.onHit policy set way = .ok (policy', set') → set.Adjusted set'
  onFill {policy policy' : π} {set set' : CacheSet} {way : Nat} :
    Policy.onFill policy set way = .ok (policy', set') → set.Adjusted set'
  onInsert {policy policy' : π} {set set' : CacheSet} {way : Nat} {access : AccessKind} :
    Policy.onInsert policy set way access = .ok (policy', set') → set.Adjusted set'
  onInvalidate {policy policy' : π} {set set' : CacheSet} {way : Nat} :
    Policy.onInvalidate policy set way = .ok (policy', set') → set.Adjusted set'

/-- A hook that leaves the set alone adjusts it. -/
theorem CacheSet.adjusted_of_ok {π : Type} {policy policy' : π} {set set' : CacheSet}
    (h : (.ok (policy, set) : Except Fault (π × CacheSet)) = .ok (policy', set')) :
    set.Adjusted set' := by
  cases h
  exact .refl _

/-- A hook that gives up the tail of the stack leaves the set alone. -/
theorem CacheSet.adjusted_of_tailWay {π : Type} {policy policy' : π} {set set' : CacheSet}
    {way : Nat} (h : (do pure (← set.tailWay, policy, set)) = .ok (way, policy', set')) :
    set.Adjusted set' := by
  obtain ⟨tail, -, hpure⟩ := bind_eq_ok_iff.1 h
  cases hpure
  exact .refl _

/-- A hook that ends with an operation on the set does what the operation does. -/
theorem CacheSet.adjusted_of_result {π : Type} {policy policy' : π} {set set' : CacheSet}
    {operation : Except Fault CacheSet}
    (hop : ∀ {target}, operation = .ok target → set.Adjusted target)
    (h : (do pure (policy, ← operation)) = .ok (policy', set')) : set.Adjusted set' := by
  obtain ⟨target, htarget, hpure⟩ := bind_eq_ok_iff.1 h
  cases hpure
  exact hop htarget

/-- The victim search of the predicting policies. -/
theorem Prediction.adjusted_of_choice {π : Type} {policy policy' : π} {set set' : CacheSet}
    {max way : Nat}
    (h : (do
      let (way, set) ← victim max set
      pure (way, policy, set)) = .ok (way, policy', set')) : set.Adjusted set' := by
  obtain ⟨⟨found, aged⟩, hvictim, hpure⟩ := bind_eq_ok_iff.1 h
  cases hpure
  exact adjusted_of_victim hvictim

/-! ## The policies that rank by a number -/

theorem Lru.adjusted_of_stamp {policy policy' : Lru} {set set' : CacheSet} {way : Nat}
    (h : policy.stamp set way = .ok (policy', set')) : set.Adjusted set' := by
  simp only [Lru.stamp, bind_eq_ok_iff, pure_eq_ok_iff] at h
  obtain ⟨stamped, hstamped, clock, -, hpure⟩ := h
  cases hpure
  exact adjusted_of_setWord hstamped

instance : Policy.Tame Lru where
  chooseVictim h := by
    cases h
    exact .refl _
  onHit h := Lru.adjusted_of_stamp h
  onFill h := adjusted_of_ok h
  onInsert h := Lru.adjusted_of_stamp h
  onInvalidate h := adjusted_of_ok h

instance : Policy.Tame Lfu where
  chooseVictim h := by
    cases h
    exact .refl _
  onHit h := adjusted_of_result adjusted_of_changeWord h
  onFill h := adjusted_of_ok h
  onInsert h := adjusted_of_result adjusted_of_setWord h
  onInvalidate h := adjusted_of_ok h

instance : Policy.Tame RandomChoice where
  chooseVictim h := by
    cases h
    exact .refl _
  onHit h := adjusted_of_ok h
  onFill h := adjusted_of_ok h
  onInsert h := adjusted_of_ok h
  onInvalidate h := adjusted_of_ok h

theorem FullyAssociativeLru.adjusted_of_stamp {policy policy' : FullyAssociativeLru}
    {set set' : CacheSet} {way : Nat} (h : policy.stamp set way = .ok (policy', set')) :
    set.Adjusted set' := by
  simp only [FullyAssociativeLru.stamp, bind_eq_ok_iff, pure_eq_ok_iff] at h
  obtain ⟨block, hblock, clock, -, hpure⟩ := h
  cases hpure
  refine adjusted_of_setWord (change_eq_ok_iff.2 ⟨block, blockAt_eq_ok_iff.1 hblock, rfl⟩)

instance : Policy.Tame FullyAssociativeLru where
  chooseVictim {policy _ set _ _} h := by
    simp only [Policy.chooseVictim] at h
    split at h
    · cases h
      exact .refl _
    · cases h
  onHit h := FullyAssociativeLru.adjusted_of_stamp h
  onFill h := adjusted_of_ok h
  onInsert h := FullyAssociativeLru.adjusted_of_stamp h
  onInvalidate h := by
    obtain ⟨block, -, hpure⟩ := bind_eq_ok_iff.1 h
    exact adjusted_of_ok hpure

/-! ## The predicting policies -/

instance : Policy.Tame StaticRrip where
  chooseVictim h := Prediction.adjusted_of_choice h
  onHit h := adjusted_of_result adjusted_of_setWord h
  onFill h := adjusted_of_ok h
  onInsert h := adjusted_of_result adjusted_of_setWord h
  onInvalidate h := adjusted_of_ok h

instance : Policy.Tame DynamicRrip where
  chooseVictim h := Prediction.adjusted_of_choice h
  onHit h := adjusted_of_result adjusted_of_setWord h
  onFill h := adjusted_of_ok h
  onInsert h := by
    obtain ⟨counted, -, h⟩ := bind_eq_ok_iff.1 h
    obtain ⟨⟨prediction, policy⟩, -, h⟩ := bind_eq_ok_iff.1 h
    exact adjusted_of_result adjusted_of_setWord h
  onInvalidate h := adjusted_of_ok h

instance : Policy.Tame TypeAwareRrip where
  chooseVictim h := Prediction.adjusted_of_choice h
  onHit h := by
    obtain ⟨touched, -, h⟩ := bind_eq_ok_iff.1 h
    exact adjusted_of_result (adjusted_of_change (by intro _; rfl)) h
  onFill h := by
    obtain ⟨touched, -, hpure⟩ := bind_eq_ok_iff.1 h
    exact adjusted_of_ok hpure
  onInsert h := by
    obtain ⟨onInterval, -, h⟩ := bind_eq_ok_iff.1 h
    exact adjusted_of_result (adjusted_of_change (by intro _; rfl)) h
  onInvalidate h := adjusted_of_ok h

/-! ## The stack policies -/

instance : Policy.Tame Bimodal where
  chooseVictim h := adjusted_of_tailWay h
  onHit h := adjusted_of_result adjusted_of_moveTo h
  onFill h := adjusted_of_ok h
  onInsert h := by
    obtain ⟨fills, -, h⟩ := bind_eq_ok_iff.1 h
    split at h <;> exact adjusted_of_result adjusted_of_moveTo h
  onInvalidate h := adjusted_of_result adjusted_of_moveTo h

instance : Policy.Tame ThrashResistant where
  chooseVictim h := adjusted_of_tailWay h
  onHit h := by
    obtain ⟨touched, -, h⟩ := bind_eq_ok_iff.1 h
    exact adjusted_of_result adjusted_of_moveTo h
  onFill h := by
    obtain ⟨touched, -, hpure⟩ := bind_eq_ok_iff.1 h
    exact adjusted_of_ok hpure
  onInsert h := by
    obtain ⟨tailed, htail, h⟩ := bind_eq_ok_iff.1 h
    obtain ⟨onInterval, -, h⟩ := bind_eq_ok_iff.1 h
    refine (adjusted_of_moveTo htail).trans ?_
    split at h
    · exact adjusted_of_result adjusted_of_moveTo h
    · split at h
      · obtain ⟨block, -, h⟩ := bind_eq_ok_iff.1 h
        split at h
        · exact adjusted_of_result adjusted_of_moveTo h
        · exact adjusted_of_ok h
      · exact adjusted_of_ok h
  onInvalidate h := adjusted_of_result adjusted_of_moveTo h

instance : Policy.Tame WriteBackAware where
  chooseVictim h := adjusted_of_tailWay h
  onHit h := by
    obtain ⟨block, -, h⟩ := bind_eq_ok_iff.1 h
    split at h
    · exact adjusted_of_result adjusted_of_moveTo h
    · obtain ⟨count, -, h⟩ := bind_eq_ok_iff.1 h
      exact adjusted_of_result adjusted_of_promote h
  onFill h := adjusted_of_ok h
  onInsert h := by
    obtain ⟨count, -, h⟩ := bind_eq_ok_iff.1 h
    obtain ⟨block, -, h⟩ := bind_eq_ok_iff.1 h
    obtain ⟨next, -, h⟩ := bind_eq_ok_iff.1 h
    exact adjusted_of_result adjusted_of_moveTo h
  onInvalidate h := adjusted_of_result adjusted_of_moveTo h

/-! ## The policy of a configuration -/

theorem AnyPolicy.rewrap_eq_ok {policy policy' : AnyPolicy} {set' : CacheSet}
    {outcome : Except Fault (policy.opened.π × CacheSet)}
    (h : policy.rewrap outcome = .ok (policy', set')) :
    ∃ value, outcome = .ok (value, set') ∧ policy' = policy.opened.close value := by
  obtain ⟨⟨value, set⟩, houtcome, heq⟩ := map_eq_ok_iff.1 h
  cases heq
  exact ⟨value, houtcome, rfl⟩

instance : (policy : AnyPolicy) → Policy.Tame policy.opened.π
  | .lru _ => inferInstanceAs (Policy.Tame Lru)
  | .lfu _ => inferInstanceAs (Policy.Tame Lfu)
  | .random _ => inferInstanceAs (Policy.Tame RandomChoice)
  | .staticRrip _ => inferInstanceAs (Policy.Tame StaticRrip)
  | .dynamicRrip _ => inferInstanceAs (Policy.Tame DynamicRrip)
  | .thrashResistant _ => inferInstanceAs (Policy.Tame ThrashResistant)
  | .fullyAssociativeLru _ => inferInstanceAs (Policy.Tame FullyAssociativeLru)
  | .bimodal _ => inferInstanceAs (Policy.Tame Bimodal)
  | .typeAwareRrip _ => inferInstanceAs (Policy.Tame TypeAwareRrip)
  | .writeBackAware _ => inferInstanceAs (Policy.Tame WriteBackAware)

instance : Policy.Tame AnyPolicy where
  chooseVictim h := by
    obtain ⟨⟨way, value, set⟩, hchoice, heq⟩ := map_eq_ok_iff.1 h
    cases heq
    exact Policy.Tame.chooseVictim hchoice
  onHit h := by
    obtain ⟨value, hhook, -⟩ := AnyPolicy.rewrap_eq_ok h
    exact Policy.Tame.onHit hhook
  onFill h := by
    obtain ⟨value, hhook, -⟩ := AnyPolicy.rewrap_eq_ok h
    exact Policy.Tame.onFill hhook
  onInsert h := by
    obtain ⟨value, hhook, -⟩ := AnyPolicy.rewrap_eq_ok h
    exact Policy.Tame.onInsert hhook
  onInvalidate h := by
    obtain ⟨value, hhook, -⟩ := AnyPolicy.rewrap_eq_ok h
    exact Policy.Tame.onInvalidate hhook

end AssocCache
