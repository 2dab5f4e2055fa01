import AssocCache.Policy
import AssocCache.Policy.Counters

/-!
# Re-reference interval prediction

The policies that predict how far away the next use of a line is, and give up a line that is
predicted to be used last.
-/

/-!
## The victim search

Each block's word is its prediction, from zero for the near future to a maximum
for the distant one.  The first way with the maximum goes.  If there is none, all
predictions age by one step, and the search begins again.  Predictions never pass
the maximum, so one search after each possible prediction is enough.
-/

namespace AssocCache.Prediction

/-- The most distant prediction that fits into some bits. -/
def maxOfBits (bits : Nat) : Except Fault Nat := Word.ones 64 bits

/-- A block one step older. -/
def ageBlock (max : Nat) (block : Block) : Except Fault Block := do
  pure { block with word := Nat.min (← Word.add 64 block.word 1) max }

/-- All blocks of a set one step older. -/
def age (max : Nat) (set : CacheSet) : Except Fault CacheSet := do
  pure { set with blocks := ← set.blocks.mapM (ageBlock max) }

/-- The first way with the most distant prediction, and the set as it has aged
meanwhile, in at most `rounds` looks at the set. -/
def searchVictim (max : Nat) : Nat → CacheSet → Except Fault (Nat × CacheSet)
  | 0, set => .error (set.broken (.noDistantWay max))
  | rounds + 1, set =>
    match set.blocks.findIdx? (·.word == max) with
    | some way => .ok (way, set)
    | none => do searchVictim max rounds (← age max set)

/-- The victim of a set, and the set as it has aged meanwhile. -/
def victim (max : Nat) (set : CacheSet) : Except Fault (Nat × CacheSet) :=
  searchVictim max (max + 1) set

/-- What is traced when a victim was found. -/
def note (setIndex way : Nat) : String := s!"set {setIndex}: rrip victim way {way}"

end AssocCache.Prediction

/-!
## Static re-reference prediction

A new line is predicted a long way from its next use, and a line that was hit is
predicted to be used again at once.
-/

namespace AssocCache

/-- Static re-reference interval prediction. -/
structure StaticRrip where
  /-- The most distant prediction. -/
  max : Nat
  /-- The prediction of a new line. -/
  insertion : Nat
  deriving DecidableEq, Repr

namespace StaticRrip

/-- Predictions of some bits.  A new line is one step short of the most distant
prediction unless told otherwise, and never beyond it. -/
def build (bits : Nat) (insertion : Option Nat) : Except Fault StaticRrip := do
  let max ← Prediction.maxOfBits bits
  match insertion with
  | none => pure ⟨max, max - 1⟩
  | some prediction =>
    if prediction ≤ max then pure ⟨max, prediction⟩ else .error (.insertionBeyond max)

instance : Policy StaticRrip where
  chooseVictim policy set := do
    let (way, set) ← Prediction.victim policy.max set
    pure (way, policy, set)
  onHit policy set way := do
    pure (policy, ← set.setWord way 0)
  onInsert policy set way _ := do
    pure (policy, ← set.setWord way policy.insertion)
  victimNote _ index way := Prediction.note index way

end StaticRrip

/-!
## Dynamic re-reference prediction

Two insertion rules in a duel.  The static rule predicts a new line a long way
from its next use.  The bimodal rule predicts it as distant as can be, and only
one line in every interval as the static rule would.  A fill in a set that leads
for a rule counts against that rule, and the followers use the rule that is
ahead.
-/

/-- The two insertion rules of the duel. -/
inductive InsertionRule where
  | srrip
  | brrip
  deriving DecidableEq, Repr

/-- Dynamic re-reference interval prediction. -/
structure DynamicRrip where
  /-- The most distant prediction. -/
  max : Nat
  /-- The selection counter: the higher, the worse for the static rule. -/
  selector : Nat
  selectorMax : Nat
  /-- One bimodal fill in so many is predicted as the static rule would. -/
  interval : Nat
  /-- The bimodal fills since the last such one. -/
  bimodalFills : Nat
  deriving DecidableEq, Repr

namespace DynamicRrip

/-- Predictions and a selection counter of some bits each.  The counter starts in
the middle.  An interval of zero counts as one. -/
def build (bits selectorBits interval : Nat) : Except Fault DynamicRrip := do
  let selectorMax ← Word.ones 32 selectorBits
  let max ← Prediction.maxOfBits bits
  pure { max, selector := selectorMax / 2, selectorMax, interval := Nat.max interval 1,
         bimodalFills := 0 }

/-- The rule that is ahead. -/
def selected (policy : DynamicRrip) : InsertionRule :=
  if policy.selectorMax / 2 < policy.selector then .brrip else .srrip

/-- The rule that governs the fills of a set. -/
def ruleFor (policy : DynamicRrip) : DuelRole → InsertionRule
  | .srripLeader => .srrip
  | .brripLeader => .brrip
  | .follower => policy.selected

/-- Counts a fill of a set for the duel. -/
def countFill (policy : DynamicRrip) : DuelRole → Except Fault DynamicRrip
  | .srripLeader => do
    pure { policy with selector := Nat.min (← Word.add 32 policy.selector 1) policy.selectorMax }
  | .brripLeader => .ok { policy with selector := policy.selector - 1 }
  | .follower => .ok policy

/-- The prediction a rule has for the next new line. -/
def insertion (policy : DynamicRrip) : InsertionRule → Except Fault (Nat × DynamicRrip)
  | .srrip => .ok (policy.max - 1, policy)
  | .brrip => do
    let fills ← Word.add 32 policy.bimodalFills 1
    if policy.interval ≤ fills then
      pure (policy.max - 1, { policy with bimodalFills := 0 })
    else
      pure (policy.max, { policy with bimodalFills := fills })

instance : Policy DynamicRrip where
  chooseVictim policy set := do
    let (way, set) ← Prediction.victim policy.max set
    pure (way, policy, set)
  onHit policy set way := do
    pure (policy, ← set.setWord way 0)
  onInsert policy set way _ := do
    let policy ← policy.countFill set.role
    let (prediction, policy) ← policy.insertion (policy.ruleFor set.role)
    pure (policy, ← set.setWord way prediction)
  victimNote _ index way := Prediction.note index way
  duelsSets _ := true

end DynamicRrip

/-!
## Memory-type aware re-reference prediction

For a main memory that is part DRAM, part NVM.  A miss on NVM is costly, so a hit
on such a line predicts its next use at once, while a hit on a DRAM line only
brings its prediction nearer.  New DRAM lines start at the most distant
prediction and new NVM lines one step nearer.  A fill that completes its set's
interval starts nearer still.
-/

/-- Memory-type aware re-reference interval prediction. -/
structure TypeAwareRrip where
  /-- The most distant prediction. -/
  max : Nat
  intervals : Intervals
  /-- By how much a hit brings the prediction of a DRAM line nearer. -/
  dramHitStep : Nat

namespace TypeAwareRrip

/-- Predictions of some bits for a store with some sets. -/
def build (numSets bits interval dramHitStep : Nat) : Except Fault TypeAwareRrip := do
  let max ← Prediction.maxOfBits bits
  pure { max, intervals := ← Intervals.start numSets interval, dramHitStep }

/-- The prediction of a line that was hit. -/
def hitPrediction (policy : TypeAwareRrip) (block : Block) : Nat :=
  match block.kind with
  | .nvm => 0
  | .dram => block.word - policy.dramHitStep

/-- The prediction of a new line, by the memory behind it and by whether it
completes an interval. -/
def insertion (policy : TypeAwareRrip) (kind : MemoryKind) (onInterval : Bool) : Nat :=
  if onInterval then policy.max - 2
  else
    match kind with
    | .dram => policy.max
    | .nvm => policy.max - 1

/-- Counts a touch of the set. -/
def touch (policy : TypeAwareRrip) (set : CacheSet) : Except Fault TypeAwareRrip := do
  pure { policy with intervals := ← policy.intervals.touch set.index }

instance : Policy TypeAwareRrip where
  chooseVictim policy set := do
    let (way, set) ← Prediction.victim policy.max set
    pure (way, policy, set)
  onHit policy set way := do
    let policy ← policy.touch set
    let set ← set.change way fun block => { block with word := policy.hitPrediction block }
    pure (policy, set)
  onFill policy set _ := do
    pure (← policy.touch set, set)
  onInsert policy set way _ := do
    let onInterval ← policy.intervals.isComplete set.index
    let set ← set.change way fun block =>
      { block with word := policy.insertion block.kind onInterval }
    pure (policy, set)
  victimNote _ index way := Prediction.note index way

end TypeAwareRrip

end AssocCache
