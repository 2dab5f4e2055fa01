import AssocCache.Policy.Ranking
import AssocCache.Proofs.CacheSet.Residence

/-!
# Ranking policies are dependable

The policies that choose by a number or by chance.  The way with the least word
exists (`leastWordWay_lt`), and a clock that has room for a touch does not leave
its width.

The fully associative policy chooses from its own map of time stamps.  Its
invariant (`FullyAssociativeLru.Fits`) makes the map the inverse of the stamps of
the valid blocks, so a full set always has an entry in it.
-/

/-!
## Dependable policies

A policy is dependable if its hooks never fault on the sets it has in its care
(`Policy.Dependable`).  What it needs to know of a set is its own affair: it says
with `Fits` whether a value of the policy fits a set, with room for some more
touches before a counter may leave its width.

`CacheSet.WellFormed.hit_ok`, `vacate_ok`, `chooseWay_ok` and `accept_ok` show
that under a dependable policy each step on a well-formed set succeeds.
-/

namespace AssocCache

open Success

/-- After a step on one set that set fits, and the other sets fit as before. -/
structure Policy.Fitting (before after : CacheSet → Prop) (index : Nat) (set' : CacheSet) :
    Prop where
  here : after set'
  elsewhere : ∀ other, other.index ≠ index → before other → after other

/-- The hooks of the policy never fault on a well-formed set that fits. -/
class Policy.Dependable (π : Type) [Policy π] where
  /-- The policy fits the set, with room for some touches. -/
  Fits : Nat → π → CacheSet → Prop
  weaken {room : Nat} {policy : π} {set : CacheSet} :
    Fits (room + 1) policy set → Fits room policy set
  chooseVictim {room : Nat} {policy : π} {f : Frame} {index : Nat} {set : CacheSet} :
    set.WellFormed f index → 0 < set.blocks.length → (∀ block ∈ set.blocks, block.valid = true) →
    Fits room policy set → ∃ way policy' set',
      Policy.chooseVictim policy set = .ok (way, policy', set') ∧ way < set.blocks.length ∧
      Policy.Fitting (Fits room policy) (Fits room policy') index set'
  onHit {room : Nat} {policy : π} {f : Frame} {index way : Nat} {set : CacheSet} {block : Block}
    (access : AccessKind) :
    set.WellFormed f index → set.blocks[way]? = some block → block.valid = true →
    Fits (room + 1) policy set → ∃ policy' set',
      Policy.onHit policy (set.put way (block.touch access)) way = .ok (policy', set') ∧
      Policy.Fitting (Fits (room + 1) policy) (Fits room policy') index set'
  onFill {room : Nat} {policy : π} {f : Frame} {index way : Nat} {set : CacheSet} {block : Block}
    (tag : Nat) (kind : MemoryKind) (access : AccessKind) :
    set.WellFormed f index → set.blocks[way]? = some block → block.valid = false →
    Fits (room + 1) policy set → ∃ told filled policy' set',
      Policy.onFill policy ((set.put way (block.fill tag kind access.isWrite)).enter tag way) way =
        .ok (told, filled) ∧
      Policy.onInsert told filled way access = .ok (policy', set') ∧
      Policy.Fitting (Fits (room + 1) policy) (Fits room policy') index set'
  onInvalidate {room : Nat} {policy : π} {f : Frame} {index way : Nat} {set : CacheSet}
    {block : Block} :
    set.WellFormed f index → set.blocks[way]? = some block → block.valid = true →
    Fits room policy set → ∃ policy' told,
      Policy.onInvalidate policy set way = .ok (policy', told) ∧
      ∀ block', told.blocks[way]? = some block' →
        Policy.Fitting (Fits room policy) (Fits room policy') index
          ((told.put way block'.clear).forget block.tag)

namespace Policy.Fitting

variable {before middle after : CacheSet → Prop} {index : Nat} {set set' : CacheSet}

theorem refl (h : before set) : Policy.Fitting before before index set :=
  ⟨h, fun _ _ hother => hother⟩

/-- A policy that looks at no set in particular. -/
theorem of_forall (h : ∀ set, after set) : Policy.Fitting before after index set :=
  ⟨h set, fun other _ _ => h other⟩

theorem trans (hfirst : Policy.Fitting before middle index set)
    (hsecond : Policy.Fitting middle after index set') : Policy.Fitting before after index set' where
  here := hsecond.here
  elsewhere other hother hbefore :=
    hsecond.elsewhere other hother (hfirst.elsewhere other hother hbefore)

end Policy.Fitting

open Policy.Dependable (Fits)

namespace CacheSet.WellFormed

variable {π : Type} [Policy π] [Policy.Tame π] [Policy.Dependable π] {f : Frame} {index : Nat}
  {room way tag : Nat} {policy : π} {set : CacheSet}

omit [Policy.Tame π] in
theorem hit_ok (h : set.WellFormed f index) (hfits : Fits (room + 1) policy set)
    (hfind : set.find tag = some way) (access : AccessKind) :
    ∃ policy' set', set.hit policy way access = .ok (policy', set') ∧
      Policy.Fitting (Fits (room + 1) policy) (Fits room policy') index set' := by
  obtain ⟨block, hb, hholds⟩ := h.find_eq_some_iff.1 hfind
  have hv := (Block.holds_iff.1 hholds).1
  rw [hit_eq hb hv]
  exact Policy.Dependable.onHit access h hb hv hfits

theorem vacate_ok (h : set.WellFormed f index) (hfits : Fits room policy set)
    (hway : way < set.blocks.length) :
    ∃ victim policy' set', set.vacate policy way = .ok (victim, policy', set') ∧
      Policy.Fitting (Fits room policy) (Fits room policy') index set' := by
  have hb := List.getElem?_eq_getElem hway
  cases hv : set.blocks[way].valid with
  | false =>
    refine ⟨none, policy, set, vacate_eq_ok_iff.2 ⟨_, hb, Or.inr ⟨hv, rfl, rfl, rfl⟩⟩, .refl hfits⟩
  | true =>
    obtain ⟨policy', told, htold, hfitting⟩ := Policy.Dependable.onInvalidate h hb hv hfits
    obtain ⟨block', hb', -⟩ := (Policy.Tame.onInvalidate htold).exists_block hb
    refine ⟨_, policy', _, vacate_eq_ok_iff.2 ⟨_, hb, Or.inl ⟨hv, rfl, ?_⟩⟩, hfitting block' hb'⟩
    exact ⟨told, block', htold, hb', rfl⟩

theorem chooseWay_ok (h : set.WellFormed f index) (hfits : Fits room policy set)
    (hpos : 0 < set.blocks.length) :
    ∃ way policy' set', (Store.chooseWay set policy).result = .ok (way, policy', set') ∧
      way < set.blocks.length ∧ Policy.Fitting (Fits room policy) (Fits room policy') index set' := by
  cases hvacancy : set.vacancy with
  | some way =>
    obtain ⟨block, hb, -⟩ := exists_of_vacancy hvacancy
    obtain ⟨hlt, -⟩ := List.getElem?_eq_some_iff.1 hb
    exact ⟨way, policy, set, chooseWay_eq_ok_iff.2 (Or.inl ⟨hvacancy, rfl, rfl⟩), hlt, .refl hfits⟩
  | none =>
    have hfull := vacancy_eq_none_iff.1 hvacancy
    obtain ⟨way, policy', set', hchoice, hlt, hfitting⟩ :=
      Policy.Dependable.chooseVictim h hpos hfull hfits
    have hlength := (Policy.Tame.chooseVictim hchoice).length_blocks
    refine ⟨way, policy', set', chooseWay_eq_ok_iff.2 (Or.inr ⟨hvacancy, hchoice, ?_⟩), hlt,
      hfitting⟩
    omega

omit [Policy.Dependable π] in
/-- An absent line enters a vacant way if both hooks of the policy let it. -/
theorem accept_of_hooks (h : set.WellFormed f index) {block : Block}
    (hb : set.blocks[way]? = some block) (hv : block.valid = false)
    (habsent : set.residence tag = none) (hhas : f.geometry.Has ⟨index, tag⟩) {kind : MemoryKind}
    (hkind : kind = .classify (f.geometry.addressOf ⟨index, tag⟩) f.regionBorder)
    {access : AccessKind} {told policy' : π} {filled set' : CacheSet}
    (hfill : Policy.onFill policy ((set.put way (block.fill tag kind access.isWrite)).enter tag way)
      way = .ok (told, filled))
    (hinsert : Policy.onInsert told filled way access = .ok (policy', set')) :
    set.accept policy way tag kind access = .ok (policy', set') := by
  refine accept_eq_ok_iff.2 ⟨block, hb, hv, told, filled, hfill, hinsert, ?_⟩
  -- The line was absent, so the set that holds it now holds nothing twice.
  subst hkind
  have hwell := h.fill hb hv (h.residence_eq_none_iff.1 habsent) hhas access.isWrite
  have hadjusted := (Policy.Tame.onFill hfill).trans (Policy.Tame.onInsert hinsert)
  exact duplicateTag?_eq_none_iff.2 (hwell.adjusted hadjusted).pairwise_blocks

theorem accept_ok (h : set.WellFormed f index) (hfits : Fits (room + 1) policy set)
    {block : Block} (hb : set.blocks[way]? = some block) (hv : block.valid = false)
    (habsent : set.residence tag = none) (hhas : f.geometry.Has ⟨index, tag⟩)
    (access : AccessKind) :
    ∃ policy' set', set.accept policy way tag
        (.classify (f.geometry.addressOf ⟨index, tag⟩) f.regionBorder) access =
          .ok (policy', set') ∧
      Policy.Fitting (Fits (room + 1) policy) (Fits room policy') index set' := by
  obtain ⟨told, filled, policy', set', hfill, hinsert, hfitting⟩ :=
    Policy.Dependable.onFill tag (.classify (f.geometry.addressOf ⟨index, tag⟩) f.regionBorder)
      access h hb hv hfits
  exact ⟨policy', set', h.accept_of_hooks hb hv habsent hhas rfl hfill hinsert, hfitting⟩

end CacheSet.WellFormed

end AssocCache

/-! ## The least word -/

namespace AssocCache

open Success CacheSet

variable {f : Frame} {index room way : Nat} {set set' : CacheSet} {block : Block}

theorem CacheSet.foldl_leastOf_lt {count : Nat} {candidates : List (Block × Nat)}
    {best : Nat × Nat} (hbest : best.2 < count)
    (hcandidates : ∀ candidate ∈ candidates, candidate.2 < count) :
    (candidates.foldl leastOf best).2 < count := by
  induction candidates generalizing best with
  | nil => exact hbest
  | cons candidate rest ih =>
    rw [List.foldl_cons]
    refine ih ?_ fun other hother => hcandidates other (List.mem_cons_of_mem _ hother)
    unfold leastOf
    split
    · exact hcandidates candidate List.mem_cons_self
    · exact hbest

/-- The way with the least word exists. -/
theorem CacheSet.leastWordWay_lt (hpos : 0 < set.blocks.length) :
    set.leastWordWay < set.blocks.length := by
  refine foldl_leastOf_lt hpos fun candidate hcandidate => ?_
  have hindex := List.mem_zipIdx hcandidate
  omega

theorem CacheSet.change_eq (hb : set.blocks[way]? = some block) (g : Block → Block) :
    set.change way g = .ok (set.put way (g block)) :=
  change_eq_ok_iff.2 ⟨block, hb, rfl⟩

theorem CacheSet.changeWord_eq (hb : set.blocks[way]? = some block) (g : Nat → Nat) :
    set.changeWord way g = .ok (set.put way { block with word := g block.word }) :=
  change_eq hb _

theorem CacheSet.setWord_eq (hb : set.blocks[way]? = some block) (word : Nat) :
    set.setWord way word = .ok (set.put way { block with word }) :=
  changeWord_eq hb _

theorem CacheSet.getElem?_put_self (hb : set.blocks[way]? = some block) (block' : Block) :
    (set.put way block').blocks[way]? = some block' := by
  obtain ⟨hlt, -⟩ := List.getElem?_eq_some_iff.1 hb
  exact List.getElem?_set_self hlt

theorem CacheSet.getElem?_fill_self (hb : set.blocks[way]? = some block) (block' : Block)
    (tag : Nat) : ((set.put way block').enter tag way).blocks[way]? = some block' :=
  getElem?_put_self hb block'

/-- A block of a set in which one block was replaced. -/
theorem CacheSet.block_cases {block' found : Block} {other : Nat}
    (hblocks : set'.blocks = set.blocks.set way block') (hfound : set'.blocks[other]? = some found) :
    other = way ∧ found = block' ∨ other ≠ way ∧ set.blocks[other]? = some found := by
  rw [hblocks, List.getElem?_set] at hfound
  by_cases hother : way = other
  · rw [if_pos hother] at hfound
    split at hfound
    · exact Or.inl ⟨hother.symm, (Option.some.inj hfound).symm⟩
    · cases hfound
  · rw [if_neg hother] at hfound
    exact Or.inr ⟨Ne.symm hother, hfound⟩

/-! ## Least recently used -/

theorem Lru.stamp_eq {policy : Lru} (hb : set.blocks[way]? = some block)
    (hclock : policy.clock + (room + 1) < 2 ^ 64) :
    policy.stamp set way =
      .ok (⟨policy.clock + 1⟩, set.put way { block with word := policy.clock }) := by
  have hnext : Word.add 64 policy.clock 1 = .ok (policy.clock + 1) :=
    Word.add_eq_ok_iff.2 ⟨by omega, rfl⟩
  simp [stamp, setWord_eq hb, hnext, bind, Except.bind, pure, Except.pure]

instance : Policy.Dependable Lru where
  Fits room policy _ := policy.clock + room < 2 ^ 64
  weaken h := by omega
  chooseVictim _ hpos _ hfits := ⟨_, _, _, rfl, leastWordWay_lt hpos, .refl hfits⟩
  onHit {room policy _ _ _ _ _} access _ hb _ hfits := by
    refine ⟨_, _, Lru.stamp_eq (getElem?_put_self hb _) hfits, ?_⟩
    have hclock : policy.clock + 1 + room < 2 ^ 64 := by omega
    exact .of_forall fun _ => hclock
  onFill {room policy _ _ _ _ _} tag kind access _ hb _ hfits := by
    refine ⟨_, _, _, _, rfl, Lru.stamp_eq (getElem?_put_self hb _) hfits, ?_⟩
    have hclock : policy.clock + 1 + room < 2 ^ 64 := by omega
    exact .of_forall fun _ => hclock
  onInvalidate _ _ _ hfits := ⟨_, _, rfl, fun _ _ => .of_forall fun _ => hfits⟩

/-! ## Least frequently used, and chance -/

instance : Policy.Dependable Lfu where
  Fits _ _ _ := True
  weaken _ := trivial
  chooseVictim _ hpos _ _ := ⟨_, _, _, rfl, leastWordWay_lt hpos, .of_forall fun _ => trivial⟩
  onHit {_ policy _ _ way set block} access _ hb _ _ := by
    have hcount := changeWord_eq (getElem?_put_self hb (block.touch access)) policy.countUse
    exact ⟨policy, _, bind_eq_ok_iff.2 ⟨_, hcount, rfl⟩, .of_forall fun _ => trivial⟩
  onFill {_ policy _ _ way set block} tag kind access _ hb _ _ := by
    have hfilled := getElem?_fill_self hb (block.fill tag kind access.isWrite) tag
    exact ⟨policy, _, policy, _, rfl, bind_eq_ok_iff.2 ⟨_, setWord_eq hfilled 1, rfl⟩,
      .of_forall fun _ => trivial⟩
  onInvalidate _ _ _ _ := ⟨_, _, rfl, fun _ _ => .of_forall fun _ => trivial⟩

instance : Policy.Dependable RandomChoice where
  Fits _ _ _ := True
  weaken _ := trivial
  chooseVictim {_ policy _ _ _} _ hpos _ _ :=
    ⟨_, _, _, rfl, policy.generator.below_lt policy.place hpos, .of_forall fun _ => trivial⟩
  onHit _ _ _ _ _ := ⟨_, _, rfl, .of_forall fun _ => trivial⟩
  onFill _ _ _ _ _ _ _ := ⟨_, _, _, _, rfl, rfl, .of_forall fun _ => trivial⟩
  onInvalidate _ _ _ _ := ⟨_, _, rfl, fun _ _ => .of_forall fun _ => trivial⟩

/-! ## Least recently used, fully associative -/

namespace FullyAssociativeLru

/-- The map knows the stamps of the valid blocks of the only set, and no others. -/
structure Fits (room : Nat) (policy : FullyAssociativeLru) (set : CacheSet) : Prop where
  index_eq : set.index = 0
  clock_pos : 0 < policy.clock
  clock_lt : policy.clock + room < 2 ^ 64
  word_lt : ∀ {way : Nat} {block : Block}, set.blocks[way]? = some block →
    block.word < policy.clock
  knows : ∀ {way : Nat} {block : Block}, set.blocks[way]? = some block →
    policy.recency[block.word]? = if block.valid then some way else none
  known : ∀ {time way : Nat}, policy.recency[time]? = some way →
    ∃ block, set.blocks[way]? = some block ∧ block.valid = true ∧ block.word = time

variable {policy : FullyAssociativeLru}

theorem getElem?_erase_recency (word time : Nat) :
    (policy.recency.erase word)[time]? = if time = word then none else policy.recency[time]? := by
  rw [Std.TreeMap.getElem?_erase]
  simp only [Nat.compare_eq_eq, @eq_comm Nat _ time]

/-- A full set has an oldest way. -/
theorem Fits.exists_oldestWay (h : Fits room policy set) (hpos : 0 < set.blocks.length)
    (hfull : ∀ block ∈ set.blocks, block.valid = true) :
    ∃ way, policy.oldestWay? = some way ∧ way < set.blocks.length := by
  have hfirst := h.knows (List.getElem?_eq_getElem hpos)
  rw [if_pos (hfull _ (List.getElem_mem hpos))] at hfirst
  have hmem : set.blocks[0].word ∈ policy.recency := by
    rw [← Std.TreeMap.isSome_getElem?_iff_mem, hfirst]
    rfl
  have hsome : policy.recency.minKey?.isSome = true := Std.TreeMap.isSome_minKey?_of_mem hmem
  obtain ⟨time, htime⟩ := Option.isSome_iff_exists.1 hsome
  have hin := (Std.TreeMap.minKey?_eq_some_iff_mem_and_forall.1 htime).1
  rw [← Std.TreeMap.isSome_getElem?_iff_mem] at hin
  obtain ⟨way, hway⟩ := Option.isSome_iff_exists.1 hin
  obtain ⟨block, hb, -, -⟩ := h.known hway
  refine ⟨way, ?_, (List.getElem?_eq_some_iff.1 hb).1⟩
  rw [oldestWay?, htime, Option.bind_some, hway]

/-- Two blocks with one stamp were never touched, so the map does not know it. -/
theorem Fits.none_of_same_word (h : Fits room policy set) (hb : set.blocks[way]? = some block)
    {other : Nat} {found : Block} (hfound : set.blocks[other]? = some found) (hne : other ≠ way)
    (hsame : found.word = block.word) : policy.recency[block.word]? = none := by
  have hhere := h.knows hb
  have hthere := h.knows hfound
  rw [hsame] at hthere
  cases hvalid : block.valid with
  | false =>
    rw [hvalid] at hhere
    exact hhere
  | true =>
    rw [hhere, hvalid, if_pos rfl] at hthere
    split at hthere
    · exact absurd (Option.some.inj hthere).symm hne
    · cases hthere

/-- A stamp that the map knows is that of another block, unless it is this one's. -/
theorem Fits.known_elsewhere (h : Fits room policy set) (hb : set.blocks[way]? = some block)
    {time other : Nat} (hother : policy.recency[time]? = some other) (htime : time ≠ block.word) :
    other ≠ way ∧ ∃ found, set.blocks[other]? = some found ∧ found.valid = true ∧
      found.word = time := by
  obtain ⟨found, hfound, hvalid, hword⟩ := h.known hother
  refine ⟨?_, found, hfound, hvalid, hword⟩
  intro hsame
  rw [hsame, hb] at hfound
  cases hfound
  exact htime hword.symm

/-- Stamping a way, once its block is valid, keeps the map the inverse of the
stamps.  The block may have been vacant just before. -/
theorem Fits.stamp (h : Fits (room + 1) policy set) (hb : set.blocks[way]? = some block)
    {told : CacheSet} {block' : Block} (hindex : told.index = 0)
    (htold : told.blocks = set.blocks.set way block') (hword : block'.word = block.word)
    (hv : block'.valid = true) :
    ∃ policy' set', policy.stamp told way = .ok (policy', set') ∧ Fits room policy' set' := by
  obtain ⟨hway, -⟩ := List.getElem?_eq_some_iff.1 hb
  have hget : told.blocks[way]? = some block' := by
    rw [htold, List.getElem?_set_self hway]
  have hclock := h.clock_lt
  have hnext : Word.add 64 policy.clock 1 = .ok (policy.clock + 1) :=
    Word.add_eq_ok_iff.2 ⟨by omega, rfl⟩
  refine ⟨_, _, bind_eq_ok_iff.2 ⟨block', blockAt_eq_ok_iff.2 hget,
    bind_eq_ok_iff.2 ⟨_, hnext, rfl⟩⟩, ?_⟩
  have hblocks : (told.put way { block' with word := policy.clock }).blocks =
      set.blocks.set way { block' with word := policy.clock } := by
    rw [blocks_put, htold, List.set_set]
  have hrecency : ∀ time,
      ((policy.recency.erase block'.word).insert policy.clock way)[time]? =
        if time = policy.clock then some way
        else if time = block.word then none
        else policy.recency[time]? := by
    intro time
    rw [Std.TreeMap.getElem?_insert, getElem?_erase_recency, hword]
    simp only [Nat.compare_eq_eq, @eq_comm Nat _ time]
  -- No other block has the stamp that is given up or the one that is given out.
  have hother : ∀ {other : Nat} {found : Block}, other ≠ way → set.blocks[other]? = some found →
      ((policy.recency.erase block'.word).insert policy.clock way)[found.word]? =
        policy.recency[found.word]? := by
    intro other found hne hfound
    have hlt := h.word_lt hfound
    rw [hrecency, if_neg (by omega)]
    split
    · rename_i hsame
      rw [hsame]
      exact (h.none_of_same_word hb hfound hne hsame).symm
    · rfl
  have hroom : policy.clock + 1 + room < 2 ^ 64 := by omega
  refine ⟨hindex, Nat.succ_pos _, hroom, ?_, ?_, ?_⟩
  · intro other found hfound
    rcases block_cases hblocks hfound with ⟨-, rfl⟩ | ⟨-, hfound⟩
    · exact Nat.lt_succ_self _
    · exact Nat.lt_succ_of_lt (h.word_lt hfound)
  · intro other found hfound
    rcases block_cases hblocks hfound with ⟨rfl, rfl⟩ | ⟨hne, hfound⟩
    · rw [hrecency, if_pos rfl, if_pos hv]
    · rw [hother hne hfound, h.knows hfound]
  · intro time other htime
    rw [hrecency] at htime
    split at htime
    · rename_i hnow
      cases htime
      exact ⟨_, getElem?_put_self hget _, hv, hnow.symm⟩
    · split at htime
      · cases htime
      · rename_i hgone
        obtain ⟨hne, found, hfound, hvalid, htime⟩ := h.known_elsewhere hb htime hgone
        refine ⟨found, ?_, hvalid, htime⟩
        rw [blocks_put, htold, List.set_set, List.getElem?_set_ne (Ne.symm hne)]
        exact hfound

/-- A line that leaves takes its stamp out of the map. -/
theorem Fits.depart (h : Fits room policy set) (hb : set.blocks[way]? = some block)
    (hv : block.valid = true) (tag : Nat) :
    Fits room { policy with recency := policy.recency.erase block.word }
      ((set.put way block.clear).forget tag) := by
  obtain ⟨hway, -⟩ := List.getElem?_eq_some_iff.1 hb
  have hstamp := h.knows hb
  rw [if_pos hv] at hstamp
  have hblocks : ((set.put way block.clear).forget tag).blocks =
      set.blocks.set way block.clear := rfl
  refine ⟨h.index_eq, h.clock_pos, h.clock_lt, ?_, ?_, ?_⟩
  · intro other found hfound
    rcases block_cases hblocks hfound with ⟨-, rfl⟩ | ⟨-, hfound⟩
    · have hword := h.word_lt hb
      exact hword
    · exact h.word_lt hfound
  · intro other found hfound
    rw [getElem?_erase_recency]
    rcases block_cases hblocks hfound with ⟨-, rfl⟩ | ⟨hne, hfound⟩
    · exact if_pos rfl
    · split
      · rename_i hsame
        rw [h.none_of_same_word hb hfound hne hsame] at hstamp
        cases hstamp
      · exact h.knows hfound
  · intro time other htime
    rw [getElem?_erase_recency] at htime
    split at htime
    · cases htime
    · rename_i hgone
      obtain ⟨hne, found, hfound, hvalid, htime⟩ := h.known_elsewhere hb htime hgone
      refine ⟨found, ?_, hvalid, htime⟩
      exact (List.getElem?_set_ne (Ne.symm hne)).trans hfound

/-- There is no other set to disturb. -/
theorem Fits.fitting {room' : Nat} {policy' : FullyAssociativeLru} (hset : set.WellFormed f index)
    (hbefore : Fits room policy set) (hafter : Fits room' policy' set') :
    Policy.Fitting (Fits room policy) (Fits room' policy') index set' := by
  refine ⟨hafter, fun other hother hfits => absurd ?_ hother⟩
  rw [hfits.index_eq, ← hset.index_eq, hbefore.index_eq]

instance : Policy.Dependable FullyAssociativeLru where
  Fits := Fits
  weaken h := { h with clock_lt := by have := h.clock_lt; omega }
  chooseVictim {room policy _ _ set} hset hpos hfull hfits := by
    obtain ⟨way, holdest, hlt⟩ := hfits.exists_oldestWay hpos hfull
    have hchoice : Policy.chooseVictim policy set = .ok (way, policy, set) := by
      simp only [Policy.chooseVictim, holdest]
    exact ⟨way, policy, set, hchoice, hlt, .refl hfits⟩
  onHit {room policy _ index way set block} access hset hb hv hfits := by
    have hindex : (set.put way (block.touch access)).index = 0 := hfits.index_eq
    obtain ⟨policy', set', hstamp, hafter⟩ := hfits.stamp hb hindex rfl rfl hv
    exact ⟨policy', set', hstamp, hfits.fitting hset hafter⟩
  onFill {room policy _ index way set block} tag kind access hset hb hv hfits := by
    have hindex : ((set.put way (block.fill tag kind access.isWrite)).enter tag way).index = 0 :=
      hfits.index_eq
    obtain ⟨policy', set', hstamp, hafter⟩ := hfits.stamp hb hindex rfl rfl rfl
    exact ⟨policy, _, policy', set', rfl, hstamp, hfits.fitting hset hafter⟩
  onInvalidate {room policy _ index way set block} hset hb hv hfits := by
    refine ⟨_, set, bind_eq_ok_iff.2 ⟨block, blockAt_eq_ok_iff.2 hb, rfl⟩, fun block' hb' => ?_⟩
    rw [hb] at hb'
    cases hb'
    exact hfits.fitting hset (hfits.depart hb hv block.tag)

end FullyAssociativeLru

end AssocCache
