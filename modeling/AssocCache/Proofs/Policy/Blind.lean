import AssocCache.Policy.Any
import AssocCache.Policy.Rereference
import AssocCache.Policy.Ranking
import AssocCache.Proofs.Policy.Tame

/-!
# What a policy does not see

A policy is blind to what a veil hides if its hooks do behind the veil what they do in the
open (`Policy.Blind`).

No policy sees the marks of pending writes.  The policies for hybrid memory see the kinds
of memory, and of these the write-back aware one sees which fills are write-backs.  The
other seven see neither (`AnyPolicy.blind_opened`).
-/

/-!
## Sets behind a veil

A `Veil` says what is hidden: the marks of pending writes, the kinds of memory behind
the lines, and which requests are write-backs.  `CacheSet.veiled` is what is left of a
set.

The operations of a set work through a veil.  Whatever reads neither a mark nor a kind
finds the same on both sides (`vacancy_veiled`, `find_veiled`, `leastWordWay_veiled`),
and a change of the words or of the stack leads to what is left of the changed set
(`change_veiled`, `moveTo_veiled`, `Prediction.victim_veiled`).
-/

namespace AssocCache

/-- What is hidden of the sets and of the requests. -/
structure Veil where
  /-- The marks of pending writes are hidden, and how the lines are accessed. -/
  marks : Bool
  /-- The kinds of memory are hidden. -/
  kinds : Bool
  /-- Where accesses are hidden, so is whether a request is a write-back. -/
  writebacks : Bool

/-- What is left of a block behind a veil. -/
def Block.veiled (v : Veil) (block : Block) : Block :=
  { block with
    dirty := !v.marks && block.dirty
    kind := if v.kinds then .dram else block.kind }

namespace Block

variable {v : Veil}

@[simp] theorem valid_veiled (block : Block) : (block.veiled v).valid = block.valid := rfl

@[simp] theorem tag_veiled (block : Block) : (block.veiled v).tag = block.tag := rfl

@[simp] theorem wayIndex_veiled (block : Block) : (block.veiled v).wayIndex = block.wayIndex := rfl

@[simp] theorem word_veiled (block : Block) : (block.veiled v).word = block.word := rfl

theorem kind_veiled (hkinds : v.kinds = false) (block : Block) :
    (block.veiled v).kind = block.kind := by
  simp [veiled, hkinds]

theorem clear_veiled (block : Block) : (block.veiled v).clear = block.clear.veiled v := by
  simp [clear, veiled]

end Block

namespace CacheSet

/-- What is left of a set behind a veil. -/
def veiled (v : Veil) (set : CacheSet) : CacheSet :=
  { set with blocks := set.blocks.map (Block.veiled v) }

variable {v : Veil} {set : CacheSet} {way : Nat}

@[simp] theorem index_veiled : (set.veiled v).index = set.index := rfl

@[simp] theorem blocks_veiled : (set.veiled v).blocks = set.blocks.map (Block.veiled v) := rfl

@[simp] theorem associativity_veiled : (set.veiled v).associativity = set.associativity :=
  List.length_map _

theorem blockAt_veiled (way : Nat) :
    (set.veiled v).blockAt way = (set.blockAt way).map (Block.veiled v) := by
  unfold blockAt entryAt
  rw [blocks_veiled, List.getElem?_map, List.length_map]
  cases set.blocks[way]? <;> rfl

theorem put_veiled (way : Nat) (block : Block) :
    (set.veiled v).put way (block.veiled v) = (set.put way block).veiled v := by
  simp [put, veiled, List.map_set]

/-! ### What is found -/

theorem find_veiled (tag : Nat) : (set.veiled v).find tag = set.find tag := by
  have hscan : (set.veiled v).scan tag = set.scan tag := by
    rw [scan, blocks_veiled, List.findIdx?_map]
    rfl
  rw [find, hscan]
  rfl

theorem vacancy_veiled : (set.veiled v).vacancy = set.vacancy := by
  rw [vacancy, blocks_veiled, List.findIdx?_map]
  rfl

theorem checkUniqueTags_veiled : (set.veiled v).checkUniqueTags = set.checkUniqueTags := by
  have hblocks : ∀ blocks : List Block,
      duplicateTag? (blocks.map (Block.veiled v)) = duplicateTag? blocks := by
    intro blocks
    induction blocks with
    | nil => rfl
    | cons block blocks ih =>
      rw [List.map_cons, duplicateTag?, duplicateTag?, ih, List.any_map]
      rfl
  rw [checkUniqueTags, blocks_veiled, hblocks]
  rfl

/-- The scan for the least word compares words only. -/
theorem leastWordWay_veiled : (set.veiled v).leastWordWay = set.leastWordWay := by
  rw [leastWordWay, blocks_veiled, List.zipIdx_map, List.foldl_map]
  rfl

/-! ### What is changed -/

/-- A change that does not look behind the veil. -/
theorem change_veiled (way : Nat) (f : Block → Block)
    (hf : ∀ block, f (block.veiled v) = (f block).veiled v) :
    (set.veiled v).change way f = (set.change way f).map (veiled v) := by
  unfold change
  rw [blockAt_veiled]
  cases set.blockAt way with
  | error fault => rfl
  | ok block =>
    show Except.ok ((set.veiled v).put way (f (block.veiled v))) = _
    rw [hf, put_veiled]
    rfl

theorem changeWord_veiled (way : Nat) (f : Nat → Nat) :
    (set.veiled v).changeWord way f = (set.changeWord way f).map (veiled v) :=
  change_veiled way _ fun _ => rfl

theorem setWord_veiled (way word : Nat) :
    (set.veiled v).setWord way word = (set.setWord way word).map (veiled v) :=
  changeWord_veiled way _

theorem moveTo_veiled (way position : Nat) :
    (set.veiled v).moveTo way position = (set.moveTo way position).map (veiled v) := by
  have hposition : (set.veiled v).stackPosition way = set.stackPosition way := rfl
  rw [moveTo, moveTo, hposition]
  cases set.stackPosition way <;> rfl

theorem moveToHead_veiled (way : Nat) :
    (set.veiled v).moveToHead way = (set.moveToHead way).map (veiled v) :=
  moveTo_veiled way 0

theorem moveToTail_veiled (way : Nat) :
    (set.veiled v).moveToTail way = (set.moveToTail way).map (veiled v) :=
  moveTo_veiled way set.stack.length

theorem promote_veiled (way distance : Nat) :
    (set.veiled v).promote way distance = (set.promote way distance).map (veiled v) := by
  have hposition : (set.veiled v).stackPosition way = set.stackPosition way := rfl
  rw [promote, promote, hposition]
  cases set.stackPosition way with
  | error fault => rfl
  | ok position => exact moveTo_veiled way _

theorem tailWay_veiled : (set.veiled v).tailWay = set.tailWay := rfl

end CacheSet

/-! ### Ageing -/

namespace Prediction

variable {v : Veil} {max : Nat}

theorem ageBlock_veiled (block : Block) :
    ageBlock max (block.veiled v) = (ageBlock max block).map (Block.veiled v) := by
  unfold ageBlock
  rw [Block.word_veiled]
  cases Word.add 64 block.word 1 <;> rfl

theorem mapM_ageBlock_veiled (blocks : List Block) :
    (blocks.map (Block.veiled v)).mapM (ageBlock max) =
      (blocks.mapM (ageBlock max)).map (List.map (Block.veiled v)) := by
  induction blocks with
  | nil => rfl
  | cons block blocks ih =>
    rw [List.map_cons, List.mapM_cons, List.mapM_cons, ageBlock_veiled, ih]
    cases ageBlock max block with
    | error fault => rfl
    | ok aged => cases blocks.mapM (ageBlock max) <;> rfl

theorem age_veiled (set : CacheSet) :
    age max (set.veiled v) = (age max set).map (CacheSet.veiled v) := by
  unfold age
  rw [CacheSet.blocks_veiled, mapM_ageBlock_veiled]
  cases set.blocks.mapM (ageBlock max) <;> rfl

/-- The search goes through the same rounds, by induction on them. -/
theorem searchVictim_veiled (rounds : Nat) (set : CacheSet) :
    searchVictim max rounds (set.veiled v) =
      (searchVictim max rounds set).map fun (way, set) => (way, set.veiled v) := by
  induction rounds generalizing set with
  | zero => rfl
  | succ rounds ih =>
    have hfound : (set.veiled v).blocks.findIdx? (·.word == max) =
        set.blocks.findIdx? (·.word == max) := by
      rw [CacheSet.blocks_veiled, List.findIdx?_map]
      rfl
    rw [searchVictim, searchVictim, hfound]
    cases set.blocks.findIdx? (·.word == max) with
    | some way => rfl
    | none =>
      dsimp only
      rw [age_veiled]
      cases age max set with
      | error fault => rfl
      | ok aged => exact ih aged

theorem victim_veiled (set : CacheSet) :
    victim max (set.veiled v) = (victim max set).map fun (way, set) => (way, set.veiled v) :=
  searchVictim_veiled (max + 1) set

end Prediction

/-! ## Blind policies -/

open CacheSet

namespace Veil

/-- Behind the veil the two accesses are the same to a lookup. -/
def SameLookup (v : Veil) (access access' : AccessKind) : Prop :=
  v.marks = false → access' = access

/-- Behind the veil the two accesses are the same to a fill. -/
structure SameFill (v : Veil) (access access' : AccessKind) : Prop where
  lookup : v.SameLookup access access'
  writeback : v.writebacks = false → (access' = .writeback ↔ access = .writeback)

/-- What is left of the outcome of a hook. -/
def behind {π : Type} (v : Veil) (outcome : Except Fault (π × CacheSet)) :
    Except Fault (π × CacheSet) :=
  outcome.map fun (policy, set) => (policy, set.veiled v)

/-- What is left of the outcome of a victim search. -/
def behindChoice {π : Type} (v : Veil) (outcome : Except Fault (Nat × π × CacheSet)) :
    Except Fault (Nat × π × CacheSet) :=
  outcome.map fun (way, policy, set) => (way, policy, set.veiled v)

end Veil

/-- The hooks of the policy do the same behind the veil. -/
structure Policy.Blind (π : Type) [Policy π] (v : Veil) : Prop where
  chooseVictim (policy : π) (set : CacheSet) :
    Policy.chooseVictim policy (set.veiled v) = v.behindChoice (Policy.chooseVictim policy set)
  onHit (policy : π) (set : CacheSet) (way : Nat) :
    Policy.onHit policy (set.veiled v) way = v.behind (Policy.onHit policy set way)
  onFill (policy : π) (set : CacheSet) (way : Nat) :
    Policy.onFill policy (set.veiled v) way = v.behind (Policy.onFill policy set way)
  onInsert (policy : π) (set : CacheSet) (way : Nat) (access : AccessKind) :
    Policy.onInsert policy (set.veiled v) way access =
      v.behind (Policy.onInsert policy set way access)
  onInsert_congr {access access' : AccessKind} (h : v.SameFill access access') (policy : π)
      (set : CacheSet) (way : Nat) :
    Policy.onInsert policy set way access' = Policy.onInsert policy set way access
  onInvalidate (policy : π) (set : CacheSet) (way : Nat) :
    Policy.onInvalidate policy (set.veiled v) way = v.behind (Policy.onInvalidate policy set way)

variable {v : Veil} {π : Type}

/-! ## Shapes of hooks -/

/-- A hook that ends with an operation on the set. -/
theorem Veil.behind_result (policy : π) {operation operation' : Except Fault CacheSet}
    (h : operation' = operation.map (CacheSet.veiled v)) :
    (do pure (policy, ← operation')) = v.behind (do pure (policy, ← operation)) := by
  subst h
  cases operation <;> rfl

/-- A hook that counts first and ends with an operation on the set. -/
theorem Veil.behind_bind {α : Type} {step : Except Fault α}
    {rest rest' : α → Except Fault (π × CacheSet)} (h : ∀ a, rest' a = v.behind (rest a)) :
    step >>= rest' = v.behind (step >>= rest) := by
  cases step with
  | error fault => rfl
  | ok a => exact h a

/-- A hook that goes on with what is left of the result of a step. -/
theorem Veil.behind_map_bind {α : Type} {g : α → α} {step : Except Fault α}
    {rest rest' : α → Except Fault (π × CacheSet)} (h : ∀ a, rest' (g a) = v.behind (rest a)) :
    step.map g >>= rest' = v.behind (step >>= rest) := by
  cases step with
  | error fault => rfl
  | ok a => exact h a

/-- A victim search that looks at the tail of the stack. -/
theorem Veil.behindChoice_tailWay (policy : π) (set : CacheSet) :
    (do pure (← (set.veiled v).tailWay, policy, set.veiled v)) =
      v.behindChoice (do pure (← set.tailWay, policy, set)) := by
  rw [tailWay_veiled]
  cases set.tailWay <;> rfl

/-- The victim search of the predicting policies. -/
theorem Veil.behindChoice_victim (policy : π) (max : Nat) (set : CacheSet) :
    (do
      let (way, set) ← Prediction.victim max (set.veiled v)
      pure (way, policy, set)) =
    v.behindChoice (do
      let (way, set) ← Prediction.victim max set
      pure (way, policy, set)) := by
  rw [Prediction.victim_veiled]
  cases Prediction.victim max set <;> rfl

/-! ## Policies that see neither marks nor kinds -/

theorem Lru.stamp_veiled (policy : Lru) (set : CacheSet) (way : Nat) :
    policy.stamp (set.veiled v) way = v.behind (policy.stamp set way) := by
  unfold stamp
  rw [setWord_veiled]
  apply Veil.behind_map_bind
  intro stamped
  exact Veil.behind_bind fun clock => rfl

theorem Lru.blind (v : Veil) : Policy.Blind Lru v where
  chooseVictim policy set := by
    simp only [Policy.chooseVictim, leastWordWay_veiled]
    rfl
  onHit := stamp_veiled
  onFill _ _ _ := rfl
  onInsert policy set way _ := stamp_veiled policy set way
  onInsert_congr _ _ _ _ := rfl
  onInvalidate _ _ _ := rfl

theorem Lfu.blind (v : Veil) : Policy.Blind Lfu v where
  chooseVictim policy set := by
    simp only [Policy.chooseVictim, leastWordWay_veiled]
    rfl
  onHit policy _ way := Veil.behind_result policy (changeWord_veiled way _)
  onFill _ _ _ := rfl
  onInsert policy _ way _ := Veil.behind_result policy (setWord_veiled way 1)
  onInsert_congr _ _ _ _ := rfl
  onInvalidate _ _ _ := rfl

theorem RandomChoice.blind (v : Veil) : Policy.Blind RandomChoice v where
  chooseVictim policy set := by
    simp only [Policy.chooseVictim, associativity_veiled]
    rfl
  onHit _ _ _ := rfl
  onFill _ _ _ := rfl
  onInsert _ _ _ _ := rfl
  onInsert_congr _ _ _ _ := rfl
  onInvalidate _ _ _ := rfl

theorem StaticRrip.blind (v : Veil) : Policy.Blind StaticRrip v where
  chooseVictim policy set := Veil.behindChoice_victim policy policy.max set
  onHit policy _ way := Veil.behind_result policy (setWord_veiled way 0)
  onFill _ _ _ := rfl
  onInsert policy _ way _ := Veil.behind_result policy (setWord_veiled way policy.insertion)
  onInsert_congr _ _ _ _ := rfl
  onInvalidate _ _ _ := rfl

theorem DynamicRrip.blind (v : Veil) : Policy.Blind DynamicRrip v where
  chooseVictim policy set := Veil.behindChoice_victim policy policy.max set
  onHit policy _ way := Veil.behind_result policy (setWord_veiled way 0)
  onFill _ _ _ := rfl
  onInsert _ _ way _ := by
    apply Veil.behind_bind
    intro counted
    apply Veil.behind_bind
    rintro ⟨prediction, policy⟩
    exact Veil.behind_result policy (setWord_veiled way prediction)
  onInsert_congr _ _ _ _ := rfl
  onInvalidate _ _ _ := rfl

theorem FullyAssociativeLru.stamp_veiled (policy : FullyAssociativeLru) (set : CacheSet)
    (way : Nat) : policy.stamp (set.veiled v) way = v.behind (policy.stamp set way) := by
  unfold stamp
  rw [blockAt_veiled]
  apply Veil.behind_map_bind
  intro block
  apply Veil.behind_bind
  intro clock
  have hput : (set.veiled v).put way _ = _ :=
    put_veiled way { block with word := policy.clock }
  exact congrArg (fun stamped => Except.ok (_, stamped)) hput

theorem FullyAssociativeLru.blind (v : Veil) : Policy.Blind FullyAssociativeLru v where
  chooseVictim policy set := by
    simp only [Policy.chooseVictim]
    cases policy.oldestWay? <;> rfl
  onHit := stamp_veiled
  onFill _ _ _ := rfl
  onInsert policy set way _ := stamp_veiled policy set way
  onInsert_congr _ _ _ _ := rfl
  onInvalidate policy set way := by
    simp only [Policy.onInvalidate]
    rw [blockAt_veiled]
    exact Veil.behind_map_bind fun block => rfl

theorem Bimodal.blind (v : Veil) : Policy.Blind Bimodal v where
  chooseVictim policy set := Veil.behindChoice_tailWay policy set
  onHit policy _ way := Veil.behind_result policy (moveToHead_veiled way)
  onFill _ _ _ := rfl
  onInsert policy _ way _ := by
    apply Veil.behind_bind
    intro fills
    split
    · exact Veil.behind_result _ (moveToHead_veiled way)
    · exact Veil.behind_result _ (moveToTail_veiled way)
  onInsert_congr _ _ _ _ := rfl
  onInvalidate policy _ way := Veil.behind_result policy (moveToTail_veiled way)

/-! ## Policies that see the kinds of memory -/

theorem ThrashResistant.holdsOtherDram_veiled (hkinds : v.kinds = false) (set : CacheSet)
    (way : Nat) : holdsOtherDram (set.veiled v) way = holdsOtherDram set way := by
  unfold holdsOtherDram
  rw [blocks_veiled, List.any_map]
  apply List.any_congr rfl
  intro block
  simp [Block.kind_veiled hkinds]

theorem ThrashResistant.blind (hkinds : v.kinds = false) : Policy.Blind ThrashResistant v where
  chooseVictim policy set := Veil.behindChoice_tailWay policy set
  onHit _ _ way := Veil.behind_bind fun touched =>
    Veil.behind_result touched (moveToHead_veiled way)
  onFill policy set _ := by
    show (do pure (← policy.touch set, set.veiled v)) = v.behind (do pure (← policy.touch set, set))
    cases policy.touch set <;> rfl
  onInsert policy set way access := by
    simp only [Policy.onInsert]
    rw [moveToTail_veiled]
    apply Veil.behind_map_bind
    intro tailed
    apply Veil.behind_bind
    intro onInterval
    rw [holdsOtherDram_veiled hkinds, blockAt_veiled]
    split
    · exact Veil.behind_result policy (moveToHead_veiled way)
    · split
      · apply Veil.behind_map_bind
        intro block
        rw [Block.kind_veiled hkinds]
        split
        · exact Veil.behind_result policy (moveToHead_veiled way)
        · rfl
      · rfl
  onInsert_congr _ _ _ _ := rfl
  onInvalidate policy _ way := Veil.behind_result policy (moveToTail_veiled way)

theorem TypeAwareRrip.hitPrediction_veiled (hkinds : v.kinds = false) (policy : TypeAwareRrip)
    (block : Block) : policy.hitPrediction (block.veiled v) = policy.hitPrediction block := by
  unfold hitPrediction
  rw [Block.kind_veiled hkinds, Block.word_veiled]

theorem TypeAwareRrip.blind (hkinds : v.kinds = false) : Policy.Blind TypeAwareRrip v where
  chooseVictim policy set := Veil.behindChoice_victim policy policy.max set
  onHit _ _ way := by
    apply Veil.behind_bind
    intro touched
    rw [change_veiled way _ fun block => by
      rw [hitPrediction_veiled hkinds]
      rfl]
    exact Veil.behind_map_bind fun changed => rfl
  onFill policy set _ := by
    show (do pure (← policy.touch set, set.veiled v)) = v.behind (do pure (← policy.touch set, set))
    cases policy.touch set <;> rfl
  onInsert policy _ way _ := by
    apply Veil.behind_bind
    intro onInterval
    rw [change_veiled way _ fun block =>
      congrArg (fun kind => { block.veiled v with word := policy.insertion kind onInterval })
        (Block.kind_veiled hkinds block)]
    exact Veil.behind_map_bind fun changed => rfl
  onInsert_congr _ _ _ _ := rfl
  onInvalidate _ _ _ := rfl

/-- A read is to the policy what a write is. -/
theorem WriteBackAware.insertionPosition_congr {access access' : AccessKind}
    (h : access' = .writeback ↔ access = .writeback) (count last : Nat) (kind : MemoryKind) :
    insertionPosition count last access' kind = insertionPosition count last access kind := by
  cases access <;> cases access' <;> cases kind <;> first | rfl | simp at h

theorem WriteBackAware.nextCount_congr {access access' : AccessKind}
    (h : access' = .writeback ↔ access = .writeback) (counterMax count : Nat) (kind : MemoryKind) :
    nextCount counterMax count access' kind = nextCount counterMax count access kind := by
  cases access <;> cases access' <;> cases kind <;> first | rfl | simp at h

theorem WriteBackAware.blind (hkinds : v.kinds = false) (hwritebacks : v.writebacks = false) :
    Policy.Blind WriteBackAware v where
  chooseVictim policy set := Veil.behindChoice_tailWay policy set
  onHit policy set way := by
    simp only [Policy.onHit]
    rw [blockAt_veiled]
    apply Veil.behind_map_bind
    intro block
    rw [Block.kind_veiled hkinds]
    cases block.kind with
    | nvm => exact Veil.behind_result policy (moveToHead_veiled way)
    | dram => exact Veil.behind_bind fun count => Veil.behind_result policy (promote_veiled way _)
  onFill _ _ _ := rfl
  onInsert policy set way access := by
    simp only [Policy.onInsert]
    apply Veil.behind_bind
    intro count
    rw [blockAt_veiled]
    apply Veil.behind_map_bind
    intro block
    rw [Block.kind_veiled hkinds, associativity_veiled]
    apply Veil.behind_bind
    intro next
    rw [moveTo_veiled]
    exact Veil.behind_map_bind fun moved => rfl
  onInsert_congr h policy set way := by
    simp only [Policy.onInsert, insertionPosition_congr (h.writeback hwritebacks),
      nextCount_congr (h.writeback hwritebacks)]
  onInvalidate policy _ way := Veil.behind_result policy (moveToTail_veiled way)

/-! ## Policies that a configuration can name -/

/-- Whether the policy is made for hybrid memory. -/
def PolicyKind.seesKinds (kind : PolicyKind) : Prop :=
  kind = .thrashResistant ∨ kind = .typeAwareRrip ∨ kind = .writeBackAware

/-- The policy of a configuration is blind to what it must not see. -/
theorem AnyPolicy.blind_opened {c : Config} {g : Geometry} {policy : AnyPolicy}
    (h : AnyPolicy.ofConfig c g = .ok policy)
    (hkinds : c.policy.seesKinds → v.kinds = false)
    (hwritebacks : c.policy = .writeBackAware → v.writebacks = false) :
    Policy.Blind policy.opened.π v := by
  unfold AnyPolicy.ofConfig at h
  cases hkind : c.policy <;> simp only [hkind] at h
  case lru =>
    cases h
    exact Lru.blind v
  case lfu =>
    cases h
    exact Lfu.blind v
  case random =>
    cases h
    exact RandomChoice.blind v
  case fullyAssociativeLru =>
    cases h
    exact FullyAssociativeLru.blind v
  case bimodal =>
    cases h
    exact Bimodal.blind v
  case staticRrip =>
    obtain ⟨_, -, rfl⟩ := Success.map_eq_ok_iff.1 h
    exact StaticRrip.blind v
  case dynamicRrip =>
    obtain ⟨_, -, rfl⟩ := Success.map_eq_ok_iff.1 h
    exact DynamicRrip.blind v
  case thrashResistant =>
    obtain ⟨_, -, rfl⟩ := Success.map_eq_ok_iff.1 h
    exact ThrashResistant.blind (hkinds (.inl hkind))
  case typeAwareRrip =>
    obtain ⟨_, -, rfl⟩ := Success.map_eq_ok_iff.1 h
    exact TypeAwareRrip.blind (hkinds (.inr (.inl hkind)))
  case writeBackAware =>
    obtain ⟨preset, -, hmap⟩ := Success.bind_eq_ok_iff.1 h
    obtain ⟨_, -, rfl⟩ := Success.map_eq_ok_iff.1 hmap
    exact WriteBackAware.blind (hkinds (.inr (.inr hkind))) (hwritebacks hkind)

end AssocCache
