import AssocCache.Fault
import Std.Data.HashMap

/-!
# Sets

A `CacheSet` is one associative bucket of a store: its blocks by way, the recency
stack of the stack policies, its part in a set duel and, in the fully
associative layout, an index from tag to way that spares a scan.

The operations here know no policy.  Those that can break a rule of the set
answer with a `Fault`.
-/

/-!
## Recency stacks

The order in which the stack policies value the ways of a set: a list of way
numbers, the most valued first.  The only change ever made to it is `place`,
which takes a way out and puts it back somewhere else, so all other ways keep
their order and nothing is lost (`mem_place`, `length_place`, `erase_place`).
-/

namespace AssocCache.Recency

/-- The stack with a way taken out and put back at a position, or at the end if
there are fewer ways before it. -/
def place (stack : List Nat) (way position : Nat) : List Nat :=
  let others := stack.erase way
  others.take position ++ way :: others.drop position

theorem place_perm_cons_erase (stack : List Nat) (way position : Nat) :
    (place stack way position).Perm (way :: stack.erase way) := by
  rw [place]
  exact List.perm_middle.trans (by simp)

theorem place_perm {stack : List Nat} {way : Nat} (h : way ∈ stack) (position : Nat) :
    (place stack way position).Perm stack :=
  (place_perm_cons_erase stack way position).trans (List.perm_cons_erase h).symm

theorem mem_place {stack : List Nat} {way : Nat} (h : way ∈ stack) (position w : Nat) :
    w ∈ place stack way position ↔ w ∈ stack :=
  (place_perm h position).mem_iff

theorem length_place {stack : List Nat} {way : Nat} (h : way ∈ stack) (position : Nat) :
    (place stack way position).length = stack.length :=
  (place_perm h position).length_eq

/-- The other ways keep their order. -/
theorem erase_place {stack : List Nat} {way : Nat} (h : stack.Nodup) (position : Nat) :
    (place stack way position).erase way = stack.erase way := by
  have hnot : way ∉ (stack.erase way).take position := fun hm =>
    h.not_mem_erase (List.mem_of_mem_take hm)
  rw [place, List.erase_append_right _ hnot, List.erase_cons_head, List.take_append_drop]

/-- A way that is moved to the front. -/
theorem place_zero (stack : List Nat) (way : Nat) : place stack way 0 = way :: stack.erase way :=
  rfl

/-- A way that is moved to the end. -/
theorem place_length_self (stack : List Nat) (way : Nat) :
    place stack way stack.length = stack.erase way ++ [way] := by
  have hlength : (stack.erase way).length ≤ stack.length := List.erase_sublist.length_le
  rw [place, List.take_of_length_le hlength, List.drop_eq_nil_of_le hlength]

end AssocCache.Recency

/-!
## Set duels

Two insertion rules are compared by giving each of them a few leader sets of its
own.  Which set leads for which rule follows from the set's index alone.
-/

namespace AssocCache

/-- The part a set plays in a duel between the static (SRRIP) and the bimodal
(BRRIP) insertion rule.  Followers use whichever rule is ahead. -/
inductive DuelRole where
  | follower
  | srripLeader
  | brripLeader
  deriving DecidableEq, Repr, Inhabited

/-- Of every `stride` sets the first leads for the static rule and the second
for the bimodal one.  A stride below two leaves no room for both, and all sets
follow. -/
def DuelRole.ofIndex (index stride : Nat) : DuelRole :=
  if stride < 2 then .follower
  else if index % stride = 0 then .srripLeader
  else if index % stride = 1 then .brripLeader
  else .follower

/-! ## The state of a set -/

/-- One associative bucket of a store. -/
structure CacheSet where
  index : Nat
  /-- The blocks, by way. -/
  blocks : List Block
  /-- The ways, the most recently used first. -/
  stack : List Nat
  role : DuelRole
  /-- The way of each resident tag, in the fully associative layout only. -/
  tagIndex : Option (Std.HashMap Nat Nat)

namespace CacheSet

/-- An empty set that finds its lines by a scan. -/
def scanned (index associativity : Nat) (role : DuelRole) : CacheSet where
  index := index
  blocks := (List.range associativity).map (Block.empty index)
  stack := List.range associativity
  role := role
  tagIndex := none

/-- An empty set that finds its lines through a tag index. -/
def indexed (index associativity : Nat) : CacheSet :=
  { scanned index associativity .follower with tagIndex := some ∅ }

/-- The number of ways. -/
def associativity (set : CacheSet) : Nat := set.blocks.length

/-- The number of valid blocks. -/
def occupancy (set : CacheSet) : Nat := set.blocks.countP (·.valid)

/-- The first way whose block carries the tag. -/
def scan (set : CacheSet) (tag : Nat) : Option Nat := set.blocks.findIdx? (·.holds tag)

/-- The way that carries the tag, through the tag index where there is one. -/
def find (set : CacheSet) (tag : Nat) : Option Nat :=
  match set.tagIndex with
  | some tagIndex => tagIndex[tag]?
  | none => set.scan tag

/-- The first way without a line. -/
def vacancy (set : CacheSet) : Option Nat := set.blocks.findIdx? (!·.valid)

/-- The fault of this set breaking a rule. -/
def broken (set : CacheSet) (cause : Inconsistency) : Fault := .inconsistent set.index cause

/-! ## Blocks -/

/-- The block of a way. -/
def blockAt (set : CacheSet) (way : Nat) : Except Fault Block := entryAt set.blocks way

/-- The set with a block replaced.  Out of range the set stays as it is. -/
def put (set : CacheSet) (way : Nat) (block : Block) : CacheSet :=
  { set with blocks := set.blocks.set way block }

/-- The set with a block changed. -/
def change (set : CacheSet) (way : Nat) (f : Block → Block) : Except Fault CacheSet :=
  match set.blockAt way with
  | .ok block => .ok (set.put way (f block))
  | .error fault => .error fault

/-- The set with the policy's word of a block changed. -/
def changeWord (set : CacheSet) (way : Nat) (f : Nat → Nat) : Except Fault CacheSet :=
  set.change way fun block => { block with word := f block.word }

/-- The set with the policy's word of a block replaced. -/
def setWord (set : CacheSet) (way word : Nat) : Except Fault CacheSet :=
  set.changeWord way fun _ => word

/-- The tag of the first valid block that a later valid block carries too. -/
def duplicateTag? : List Block → Option Nat
  | [] => none
  | block :: rest =>
    if block.valid && rest.any (·.holds block.tag) then some block.tag else duplicateTag? rest

/-- A fault if a tag is resident twice. -/
def checkUniqueTags (set : CacheSet) : Except Fault Unit :=
  match duplicateTag? set.blocks with
  | some tag => .error (set.broken (.duplicateTag tag))
  | none => .ok ()

/-! ## The tag index -/

/-- The tag index with an entry for the tag, where there is an index. -/
def enter (set : CacheSet) (tag way : Nat) : CacheSet :=
  { set with tagIndex := set.tagIndex.map (·.insert tag way) }

/-- The tag index without an entry for the tag, where there is an index. -/
def forget (set : CacheSet) (tag : Nat) : CacheSet :=
  { set with tagIndex := set.tagIndex.map (·.erase tag) }

/-! ## The recency stack -/

/-- How many ways are more recently used. -/
def stackPosition (set : CacheSet) (way : Nat) : Except Fault Nat :=
  match set.stack.idxOf? way with
  | some position => .ok position
  | none => .error (set.broken (.unstackedWay way))

/-- The least recently used way. -/
def tailWay (set : CacheSet) : Except Fault Nat :=
  match set.stack.getLast? with
  | some way => .ok way
  | none => .error (.overflow .subtract)

/-- Moves a way to a position of the stack, or to its end if there are fewer
ways. -/
def moveTo (set : CacheSet) (way position : Nat) : Except Fault CacheSet :=
  match set.stackPosition way with
  | .ok _ => .ok { set with stack := Recency.place set.stack way position }
  | .error fault => .error fault

/-- Makes a way the most recently used. -/
def moveToHead (set : CacheSet) (way : Nat) : Except Fault CacheSet := set.moveTo way 0

/-- Makes a way the least recently used. -/
def moveToTail (set : CacheSet) (way : Nat) : Except Fault CacheSet :=
  set.moveTo way set.stack.length

/-- Moves a way a number of positions towards the most recently used end, at
most to that end. -/
def promote (set : CacheSet) (way distance : Nat) : Except Fault CacheSet :=
  match set.stackPosition way with
  | .ok position => set.moveTo way (position - distance)
  | .error fault => .error fault

end CacheSet

end AssocCache
