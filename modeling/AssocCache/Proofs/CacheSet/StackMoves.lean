import AssocCache.Proofs.CacheSet.WellFormed

/-!
# Moves in the recency stack

The changes of a stack as data: a `StackMove` puts one way to a position, to either end, or
some positions nearer to the front.

A move of a way that the stack lists succeeds and changes nothing of the set but the stack.
Its way ends where `StackMove.target` says, and the other ways keep their order
(`CacheSet.exists_restacks`).  So after any moves the stack of a new set still lists every
way once (`CacheSet.stack_of_moves`).
-/

namespace AssocCache

open Success

/-! ## Positions -/

namespace Recency

variable {stack : List Nat} {way x y : Nat}

/-- A way that was moved is at its new position, or at the last one. -/
theorem idxOf_place_self (hmem : way ∈ stack) (hnodup : stack.Nodup) (position : Nat) :
    (place stack way position).idxOf way = min position (stack.length - 1) := by
  have hnot : way ∉ (stack.erase way).take position := fun hm =>
    hnodup.not_mem_erase (List.mem_of_mem_take hm)
  rw [place, List.idxOf_append_of_notMem hnot, List.idxOf_cons_self, Nat.add_zero,
    List.length_take, List.length_erase_of_mem hmem]

/-- Without a way the others are in the same order. -/
theorem idxOf_erase_lt_iff (stack : List Nat) (hx : x ≠ way) (hy : y ≠ way) :
    (stack.erase way).idxOf x < (stack.erase way).idxOf y ↔ stack.idxOf x < stack.idxOf y := by
  induction stack with
  | nil => rfl
  | cons first rest ih =>
    by_cases hfirst : first = way
    · subst hfirst
      rw [List.erase_cons_head, List.idxOf_cons_ne _ (Ne.symm hx), List.idxOf_cons_ne _ (Ne.symm hy),
        Nat.succ_lt_succ_iff]
    · have hkept : (first :: rest).erase way = first :: rest.erase way :=
        List.erase_cons_tail (by simpa using hfirst)
      rw [hkept]
      grind

/-- The ways that were not moved keep their order. -/
theorem idxOf_place_lt_iff (hnodup : stack.Nodup) (position : Nat) (hx : x ≠ way) (hy : y ≠ way) :
    (place stack way position).idxOf x < (place stack way position).idxOf y ↔
      stack.idxOf x < stack.idxOf y := by
  rw [← idxOf_erase_lt_iff _ hx hy, erase_place hnodup, idxOf_erase_lt_iff _ hx hy]

end Recency

/-! ## Moves -/

/-- A change of the recency stack. -/
inductive StackMove where
  | toPosition (way position : Nat)
  | toHead (way : Nat)
  | toTail (way : Nat)
  | promote (way distance : Nat)
  deriving DecidableEq, Repr

namespace StackMove

/-- The way that is moved. -/
def way : StackMove → Nat
  | toPosition way _ | toHead way | toTail way | promote way _ => way

/-- Where the way ends in a stack of some length, if it starts at a position. -/
def target (length start : Nat) : StackMove → Nat
  | toPosition _ position => min position (length - 1)
  | toHead _ => 0
  | toTail _ => length - 1
  | promote _ distance => start - distance

end StackMove

namespace CacheSet

/-- Makes a move. -/
def move (set : CacheSet) : StackMove → Except Fault CacheSet
  | .toPosition way position => set.moveTo way position
  | .toHead way => set.moveToHead way
  | .toTail way => set.moveToTail way
  | .promote way distance => set.promote way distance

/-- Makes one move after the other. -/
def moveAll (set : CacheSet) : List StackMove → Except Fault CacheSet
  | [] => .ok set
  | m :: moves => do (← set.move m).moveAll moves

/-- A way is nearer to the front of the stack than another one. -/
def Before (set : CacheSet) (x y : Nat) : Prop :=
  ∃ p q, set.stackPosition x = .ok p ∧ set.stackPosition y = .ok q ∧ p < q

variable {set next : CacheSet} {m : StackMove} {way x y : Nat}

theorem stackPosition_eq (hmem : way ∈ set.stack) :
    set.stackPosition way = .ok (set.stack.idxOf way) := by
  have hfound : set.stack.idxOf? way = some (set.stack.idxOf way) :=
    List.findIdx?_eq_some_of_exists ⟨way, hmem, beq_self_eq_true way⟩
  rw [stackPosition, hfound]

theorem promote_eq (hmem : way ∈ set.stack) (distance : Nat) :
    set.promote way distance = set.moveTo way (set.stack.idxOf way - distance) := by
  rw [promote, stackPosition_eq hmem]

/-- A way that was moved is at its new position, or at the last one. -/
theorem stackPosition_of_moveTo {ways position : Nat} (hperm : set.stack.Perm (List.range ways))
    (h : set.moveTo way position = .ok next) :
    next.stackPosition way = .ok (min position (ways - 1)) := by
  obtain ⟨hmem, rfl⟩ := moveTo_eq_ok_iff.1 h
  have hnodup : set.stack.Nodup := hperm.nodup_iff.2 List.nodup_range
  have hposition := Recency.idxOf_place_self hmem hnodup position
  rw [hperm.length_eq, List.length_range] at hposition
  rw [stackPosition_eq ((Recency.mem_place hmem position way).2 hmem)]
  exact congrArg Except.ok hposition

theorem before_iff (hx : x ∈ set.stack) (hy : y ∈ set.stack) :
    set.Before x y ↔ set.stack.idxOf x < set.stack.idxOf y := by
  unfold Before
  simp only [stackPosition_eq hx, stackPosition_eq hy, Except.ok.injEq]
  grind

/-- What a move makes of a set. -/
structure Restacks (set : CacheSet) (m : StackMove) (next : CacheSet) : Prop where
  move_eq : set.move m = .ok next
  rest_eq : next = { set with stack := next.stack }
  stack_perm : next.stack.Perm set.stack
  /-- The way ends where the move says. -/
  target_eq : next.stack.idxOf m.way = m.target set.stack.length (set.stack.idxOf m.way)
  /-- The other ways keep their order. -/
  order {x y : Nat} : x ≠ m.way → y ≠ m.way →
    (next.stack.idxOf x < next.stack.idxOf y ↔ set.stack.idxOf x < set.stack.idxOf y)

/-- A move that places its way at a position restacks the set, if the position is the one
that the move says. -/
theorem restacks_of_position (hnodup : set.stack.Nodup) (hmem : m.way ∈ set.stack) {position : Nat}
    (hmove : set.move m = set.moveTo m.way position)
    (htarget : min position (set.stack.length - 1) =
      m.target set.stack.length (set.stack.idxOf m.way)) :
    set.Restacks m { set with stack := Recency.place set.stack m.way position } where
  move_eq := hmove.trans (moveTo_eq_ok_iff.2 ⟨hmem, rfl⟩)
  rest_eq := rfl
  stack_perm := Recency.place_perm hmem position
  target_eq := (Recency.idxOf_place_self hmem hnodup position).trans htarget
  order := Recency.idxOf_place_lt_iff hnodup position

/-- Every move of a way that the stack lists succeeds. -/
theorem exists_restacks (hnodup : set.stack.Nodup) (hmem : m.way ∈ set.stack) :
    ∃ next, set.Restacks m next := by
  cases m with
  | toPosition way position => exact ⟨_, restacks_of_position hnodup hmem rfl rfl⟩
  | toHead way => exact ⟨_, restacks_of_position hnodup hmem rfl (Nat.zero_min _)⟩
  | toTail way =>
    exact ⟨_, restacks_of_position hnodup hmem rfl (Nat.min_eq_right (Nat.sub_le _ _))⟩
  | promote way distance =>
    have hstart : set.stack.idxOf way < set.stack.length := List.idxOf_lt_length_of_mem hmem
    refine ⟨_, restacks_of_position hnodup hmem (promote_eq hmem distance) ?_⟩
    show min (set.stack.idxOf way - distance) _ = set.stack.idxOf way - distance
    omega

/-- Moves of ways that the stack lists succeed, by induction on the moves. -/
theorem moveAll_ok (hnodup : set.stack.Nodup) {moves : List StackMove}
    (hways : ∀ m ∈ moves, m.way ∈ set.stack) :
    ∃ moved, set.moveAll moves = .ok moved ∧ moved = { set with stack := moved.stack } ∧
      moved.stack.Perm set.stack := by
  induction moves generalizing set with
  | nil => exact ⟨set, rfl, rfl, .refl _⟩
  | cons m moves ih =>
    obtain ⟨next, hnext⟩ := exists_restacks hnodup (hways m List.mem_cons_self)
    have hperm := hnext.stack_perm
    obtain ⟨moved, hmoved, hrest, hperm'⟩ := ih (hperm.nodup_iff.2 hnodup) fun later hlater =>
      hperm.mem_iff.2 (hways later (List.mem_cons_of_mem m hlater))
    refine ⟨moved, bind_eq_ok_iff.2 ⟨next, hnext.move_eq, hmoved⟩, ?_, hperm'.trans hperm⟩
    rw [hnext.rest_eq] at hrest
    exact hrest

/-- Any moves of the ways of a new set succeed, change nothing but the stack, and leave it a
permutation of the ways.  From there each move puts its way where it says, counted from the
front: to its position, or to the last one if there are fewer ways, to either end, or a
distance nearer to the front, at most to the front.  All other ways keep their order. -/
theorem stack_of_moves {index ways : Nat} {role : DuelRole} {set : CacheSet}
    {moves : List StackMove} (hset : set = scanned index ways role ∨ set = indexed index ways)
    (hways : ∀ m ∈ moves, m.way < ways) :
    ∃ moved, set.moveAll moves = .ok moved ∧ moved = { set with stack := moved.stack } ∧
      moved.stack.Perm (List.range ways) ∧
      ∀ m : StackMove, m.way < ways → ∃ start next,
        moved.stackPosition m.way = .ok start ∧ moved.move m = .ok next ∧
        next.stack.Perm (List.range ways) ∧
        next.stackPosition m.way = .ok (m.target ways start) ∧
        ∀ x < ways, ∀ y < ways, x ≠ m.way → y ≠ m.way → (next.Before x y ↔ moved.Before x y) := by
  have hstack : set.stack = List.range ways := by
    rcases hset with rfl | rfl <;> rfl
  have hlisted : ∀ m ∈ moves, m.way ∈ set.stack := fun m hm => by
    rw [hstack, List.mem_range]
    exact hways m hm
  obtain ⟨moved, hmoved, hrest, hperm⟩ :=
    moveAll_ok (hstack ▸ List.nodup_range) hlisted
  rw [hstack] at hperm
  refine ⟨moved, hmoved, hrest, hperm, fun m hm => ?_⟩
  have hnodup : moved.stack.Nodup := hperm.nodup_iff.2 List.nodup_range
  have hmem : ∀ {stack : List Nat}, stack.Perm (List.range ways) → ∀ {way}, way < ways →
      way ∈ stack := fun hstack _ hway => hstack.mem_iff.2 (List.mem_range.2 hway)
  obtain ⟨next, hnext⟩ := exists_restacks hnodup (hmem hperm hm)
  have hperm' := hnext.stack_perm.trans hperm
  refine ⟨_, next, stackPosition_eq (hmem hperm hm), hnext.move_eq, hperm', ?_, ?_⟩
  · rw [stackPosition_eq (hmem hperm' hm), hnext.target_eq, hperm.length_eq, List.length_range]
  · intro x hx y hy hxm hym
    rw [before_iff (hmem hperm' hx) (hmem hperm' hy), before_iff (hmem hperm hx) (hmem hperm hy)]
    exact hnext.order hxm hym

/-- Four ways.  The first one moves past the end, the last one two positions nearer to the
front, and the second one to the end. -/
theorem stack_of_three_moves :
    ∃ moved next, (scanned 0 4 .follower).moveAll [.toPosition 0 9, .promote 3 2, .toTail 1] =
        .ok moved ∧ moved.stack = [3, 2, 0, 1] ∧ moved.stack.Perm (List.range 4) ∧
      moved.move (.toHead 0) = .ok next ∧ next.stackPosition 0 = .ok 0 ∧
      (next.Before 3 2 ↔ moved.Before 3 2) := by
  obtain ⟨moved, hmoved, -, hperm, hnext⟩ :=
    stack_of_moves (.inl (rfl : scanned 0 4 .follower = _))
      (show ∀ m ∈ [StackMove.toPosition 0 9, .promote 3 2, .toTail 1], m.way < 4 by decide)
  obtain ⟨start, next, -, hmove, -, hposition, horder⟩ := hnext (.toHead 0) (by decide)
  have hstack : moved.stack = [3, 2, 0, 1] := by
    cases hmoved
    rfl
  exact ⟨moved, next, hmoved, hstack, hperm, hmove, hposition,
    horder 3 (by decide) 2 (by decide) (by decide) (by decide)⟩

end CacheSet

end AssocCache
