import AssocCache.Proofs.CacheSet.Residence
import AssocCache.Proofs.Policy.FrontMoving
import AssocCache.Proofs.Policy.Ranking
import AssocCache.Proofs.Store.Predictions

/-!
# Distrust of DRAM

The two policies for hybrid memory give up lines of DRAM before lines of NVM, as long as
they are given no reason to trust a line of DRAM: none is hit, and none comes in with the
touch that completes the interval of its set (`Turn.DistrustsDram`).

* A thrash-resistant set then keeps its lines of NVM first in the stack
  (`ThrashResistant.upholds_nvmFirst`).
* In a set of memory-type aware predictions every line of DRAM then keeps the most distant
  prediction and comes before every line of NVM that has it as well
  (`TypeAwareRrip.upholds_dramDistant`).  A line that leaves a vacancy behind would spoil
  this, so no line may be made to leave.

In both cases the line that a full set gives up is one of NVM only if no line of DRAM is
there (`not_dram_of_evicted`).
-/

/-!
## Kinds of lines in a set

Which ways of a set hold lines of which memory, and the order in which a recency stack
values them.  `CacheSet.NvmFirst` says that no line of DRAM is valued above a line of
NVM.  Ways without a line may stand anywhere.

A way that moves to the front must not hold a line of DRAM (`NvmFirst.toFront`), and one
that moves to the end may hold a line of NVM only if no line of DRAM is left
(`NvmFirst.toEnd`).
-/

namespace AssocCache.CacheSet

variable {set told : CacheSet} {way other : Nat} {block : Block} {kind : MemoryKind}

/-- The way holds a line of this memory. -/
def CarriesKind (set : CacheSet) (way : Nat) (kind : MemoryKind) : Prop :=
  ∃ block, set.blocks[way]? = some block ∧ block.valid = true ∧ block.kind = kind

/-- In the recency stack no line of DRAM comes before a line of NVM. -/
def NvmFirst (set : CacheSet) : Prop :=
  set.stack.Pairwise fun way later => set.CarriesKind way .dram → ¬ set.CarriesKind later .nvm

theorem carriesKind_iff (hb : set.blocks[way]? = some block) :
    set.CarriesKind way kind ↔ block.valid = true ∧ block.kind = kind := by
  simp [CarriesKind, hb]

/-- Where a set differs in one block, the other ways hold what they did. -/
theorem carriesKind_of_ne (htold : told.blocks = set.blocks.set way block) (hne : other ≠ way)
    (kind : MemoryKind) : told.CarriesKind other kind ↔ set.CarriesKind other kind := by
  rw [CarriesKind, CarriesKind, htold, List.getElem?_set_ne (Ne.symm hne)]

theorem Adjusted.carriesKind_iff (h : set.Adjusted told) (way : Nat) (kind : MemoryKind) :
    told.CarriesKind way kind ↔ set.CarriesKind way kind := by
  constructor
  · intro ⟨block', hb', hv, hkind⟩
    obtain ⟨block, hb, hbare⟩ := h.exists_block_rev hb'
    obtain ⟨-, hvalid, -, -, -, hsame⟩ := Block.bare_eq_bare_iff.1 hbare
    exact ⟨block, hb, hvalid.symm.trans hv, hsame.symm.trans hkind⟩
  · intro ⟨block, hb, hv, hkind⟩
    obtain ⟨block', hb', hbare⟩ := h.exists_block hb
    obtain ⟨-, hvalid, -, -, -, hsame⟩ := Block.bare_eq_bare_iff.1 hbare
    exact ⟨block', hb', hvalid.trans hv, hsame.trans hkind⟩

/-- A set without lines. -/
theorem nvmFirst_of_vacant (hvacant : ∀ block ∈ set.blocks, block.valid = false) :
    set.NvmFirst := by
  refine List.pairwise_of_forall fun way later ⟨block, hb, hv, _⟩ => ?_
  rw [hvacant block (List.mem_of_getElem? hb)] at hv
  cases hv

namespace NvmFirst

/-- The other ways keep their order when one block is replaced. -/
theorem erase (h : set.NvmFirst) (hnodup : set.stack.Nodup)
    (htold : told.blocks = set.blocks.set way block) :
    (set.stack.erase way).Pairwise fun way later =>
      told.CarriesKind way .dram → ¬ told.CarriesKind later .nvm := by
  have hothers : ∀ other ∈ set.stack.erase way, other ≠ way := by
    rintro other hother rfl
    exact hnodup.not_mem_erase hother
  refine (h.sublist List.erase_sublist).imp_of_mem fun {first later} hfirst hlater hpair => ?_
  rw [carriesKind_of_ne htold (hothers first hfirst),
    carriesKind_of_ne htold (hothers later hlater)]
  exact hpair

/-- A way without a line of DRAM moves to the front. -/
theorem toFront (h : set.NvmFirst) (hnodup : set.stack.Nodup)
    (htold : told.blocks = set.blocks.set way block)
    (hstack : told.stack = Recency.place set.stack way 0)
    (hnot : ¬ told.CarriesKind way .dram) : told.NvmFirst := by
  rw [NvmFirst, hstack, Recency.place_zero]
  exact List.pairwise_cons.2 ⟨fun _ _ hdram => absurd hdram hnot, h.erase hnodup htold⟩

/-- A way moves to the end.  If it holds a line of NVM, then no way holds one of DRAM. -/
theorem toEnd (h : set.NvmFirst) (hnodup : set.stack.Nodup)
    (htold : told.blocks = set.blocks.set way block)
    (hstack : told.stack = Recency.place set.stack way set.stack.length)
    (hlast : told.CarriesKind way .nvm → ∀ other, ¬ told.CarriesKind other .dram) :
    told.NvmFirst := by
  rw [NvmFirst, hstack, Recency.place_length_self]
  refine List.pairwise_append.2 ⟨h.erase hnodup htold, List.pairwise_singleton _ _, ?_⟩
  intro other _ last hmem hdram hnvm
  rw [List.mem_singleton] at hmem
  subst hmem
  exact hlast hnvm other hdram

/-- If the last way holds a line of NVM, then no way holds one of DRAM. -/
theorem not_dram_of_last (h : set.NvmFirst) (hlast : set.stack.getLast? = some way)
    (hnvm : set.CarriesKind way .nvm) (hmem : other ∈ set.stack) :
    ¬ set.CarriesKind other .dram := by
  intro hdram
  obtain ⟨before, hstack⟩ := List.getLast?_eq_some_iff.1 hlast
  have hordered : (before ++ [way]).Pairwise fun way later =>
      set.CarriesKind way .dram → ¬ set.CarriesKind later .nvm := hstack ▸ h
  rw [hstack, List.mem_append, List.mem_singleton] at hmem
  rcases hmem with hbefore | rfl
  · exact (List.pairwise_append.1 hordered).2.2 other hbefore way (List.mem_singleton_self way)
      hdram hnvm
  · obtain ⟨block, hb, -, hkind⟩ := hdram
    obtain ⟨found, hfound, -, hkind'⟩ := hnvm
    rw [hb] at hfound
    cases hfound
    rw [hkind] at hkind'
    cases hkind'

end NvmFirst

end AssocCache.CacheSet

/-! ## Distrust -/

namespace AssocCache

open Success CacheSet

/-- The turn gives no reason to trust a line of DRAM: none is hit, and none comes in with
the touch that completes the interval of the set. -/
def Turn.DistrustsDram (intervals : Intervals) (index : Nat) : Turn → Prop
  | .hit _ block _ => block.kind = .nvm
  | .arrival _ _ kind _ _ => kind = .dram → intervals.isComplete index ≠ .ok true
  | .departure .. => True

/-! ## Thrash-resistant replacement -/

namespace ThrashResistant

variable {f : Frame} {index way tag : Nat} {policy policy' : ThrashResistant}
  {set set' : CacheSet} {block : Block} {kind : MemoryKind} {access : AccessKind}

/-- A line that comes in goes to the front of the stack if it completes an interval, or if
it is of NVM and a line of DRAM is there, and else to the end. -/
theorem onInsert_cases (h : Policy.onInsert policy set way access = .ok (policy', set'))
    (hb : set.blocks[way]? = some block) (hnodup : set.stack.Nodup) :
    policy' = policy ∧ way ∈ set.stack ∧
      ((policy.intervals.isComplete set.index = .ok true ∨
          holdsOtherDram set way = true ∧ block.kind = .nvm) ∧ set' = set.restack way 0 ∨
        policy.intervals.isComplete set.index = .ok false ∧
          (holdsOtherDram set way = true → block.kind ≠ .nvm) ∧
          set' = set.restack way set.stack.length) := by
  obtain ⟨onInterval, hcomplete, rfl, hmem, rfl⟩ := exists_of_onInsert h hb hnodup
  refine ⟨rfl, hmem, ?_⟩
  split
  · rename_i hfront
    refine .inl ⟨hfront.imp_left fun hdone => ?_, rfl⟩
    rw [hcomplete, hdone]
  · rename_i hback
    rw [not_or, not_and] at hback
    refine .inr ⟨?_, hback.2, rfl⟩
    rw [hcomplete, Bool.eq_false_of_not_eq_true hback.1]

/-- Where no other line is of DRAM, none is but that of the way. -/
theorem not_dram_of_holdsOtherDram
    (hways : ∀ {other : Nat} {found : Block}, set.blocks[other]? = some found →
      found.wayIndex = other)
    (hnone : holdsOtherDram set way = false) {other : Nat} (hne : other ≠ way) :
    ¬ set.CarriesKind other .dram := by
  intro ⟨found, hfound, hv, hkind⟩
  have hother : holdsOtherDram set way = true := by
    refine List.any_eq_true.2 ⟨found, List.mem_of_getElem? hfound, ?_⟩
    simp [hways hfound, hne, hv, hkind]
  rw [hnone] at hother
  cases hother

theorem nvmFirst_of_hit (h : set.NvmFirst) (hset : set.WellFormed f index)
    (hb : set.blocks[way]? = some block) (hv : block.valid = true) (hnvm : block.kind = .nvm)
    (hhit : set.hit policy way access = .ok (policy', set')) : set'.NvmFirst := by
  rw [hit_eq hb hv] at hhit
  obtain ⟨touched, -, hhit⟩ := bind_eq_ok_iff.1 hhit
  obtain ⟨moved, hmove, hhit⟩ := bind_eq_ok_iff.1 hhit
  cases hhit
  obtain ⟨-, rfl⟩ := moveTo_eq_ok_iff.1 hmove
  refine h.toFront hset.nodup_stack (blocks_put _ _ _) rfl fun hdram => ?_
  obtain ⟨-, hkind⟩ := (carriesKind_iff (getElem?_put_self hb (block.touch access))).1 hdram
  rw [Block.touch, hnvm] at hkind
  cases hkind

theorem nvmFirst_of_vacate (h : set.NvmFirst) (hset : set.WellFormed f index)
    (hvacate : set.vacate policy way = .ok (some block, policy', set')) : set'.NvmFirst := by
  obtain ⟨-, -, told, found, hhook, hfound, rfl⟩ := exists_of_vacate hvacate
  obtain ⟨moved, hmove, hhook⟩ := bind_eq_ok_iff.1 hhook
  cases hhook
  obtain ⟨-, rfl⟩ := moveTo_eq_ok_iff.1 hmove
  refine h.toEnd hset.nodup_stack (blocks_put _ _ _) rfl fun hnvm => ?_
  obtain ⟨hv, -⟩ := (carriesKind_iff (getElem?_put_self hfound found.clear)).1 hnvm
  cases hv

theorem nvmFirst_of_accept (h : set.NvmFirst) (hset : set.WellFormed f index)
    (haccept : set.accept policy way tag kind access = .ok (policy', set'))
    (hdistrust : kind = .dram → policy'.intervals.isComplete index ≠ .ok true) :
    set'.NvmFirst := by
  obtain ⟨block, hb, -, told, filled, hfill, hinsert, -⟩ := accept_eq_ok_iff.1 haccept
  obtain ⟨touched, -, hfill⟩ := bind_eq_ok_iff.1 hfill
  cases hfill
  have hfilled := getElem?_fill_self hb (block.fill tag kind access.isWrite) tag
  obtain ⟨rfl, hmem, hends⟩ := onInsert_cases hinsert hfilled hset.nodup_stack
  have hways : ∀ {other : Nat} {found : Block},
      ((set.put way (block.fill tag kind access.isWrite)).enter tag way).blocks[other]? =
        some found → found.wayIndex = other := by
    intro other found hfound
    rcases block_cases rfl hfound with ⟨rfl, rfl⟩ | ⟨-, hold⟩
    · exact (hset.blocks hb).wayIndex_eq
    · exact (hset.blocks hold).wayIndex_eq
  rcases hends with ⟨hfavour, rfl⟩ | ⟨-, hnofavour, rfl⟩
  · refine h.toFront hset.nodup_stack (blocks_put _ _ _) rfl ?_
    intro hdram
    obtain ⟨-, hkind⟩ := (carriesKind_iff hfilled).1 hdram
    rcases hfavour with hcomplete | ⟨-, hnvm⟩
    · refine hdistrust hkind ?_
      rw [← hset.index_eq]
      exact hcomplete
    · rw [hkind] at hnvm
      cases hnvm
  · refine h.toEnd hset.nodup_stack (blocks_put _ _ _) rfl ?_
    intro hnvm other hdram
    obtain ⟨-, hkind⟩ := (carriesKind_iff hfilled).1 hnvm
    have hnone := Bool.eq_false_of_not_eq_true (mt hnofavour (not_not.2 hkind))
    by_cases hne : other = way
    · subst hne
      obtain ⟨-, hkind'⟩ := (carriesKind_iff hfilled).1 hdram
      rw [hkind] at hkind'
      cases hkind'
    · exact not_dram_of_holdsOtherDram hways hnone hne hdram

/-- The tail of a full set goes. -/
theorem chooseVictim_cases {chosen : ThrashResistant} {aged : CacheSet}
    (h : Policy.chooseVictim policy set = .ok (way, chosen, aged)) :
    set.stack.getLast? = some way ∧ chosen = policy ∧ aged = set := by
  obtain ⟨last, hlast, h⟩ := bind_eq_ok_iff.1 h
  cases h
  exact ⟨tailWay_eq_ok_iff.1 hlast, rfl, rfl⟩

/-- Turns that distrust DRAM keep the lines of NVM first. -/
theorem upholds_nvmFirst :
    Policy.Upholds
      (fun index turn (policy : ThrashResistant) => turn.DistrustsDram policy.intervals index)
      fun _ set => set.NvmFirst where
  here hset _ h htakes hdistrust := by
    cases htakes with
    | hit hb hv hhit => exact nvmFirst_of_hit h hset hb hv hdistrust hhit
    | departure hvacate => exact nvmFirst_of_vacate h hset hvacate
    | arrival hbring =>
      rcases bringIn_cases hbring with ⟨-, -, haccept⟩ |
        ⟨chosen, aged, block, left, vacated, -, hchoice, -, hvacate, haccept⟩
      · exact nvmFirst_of_accept h hset haccept hdistrust
      · obtain ⟨-, rfl, rfl⟩ := chooseVictim_cases hchoice
        have hvacated := nvmFirst_of_vacate h hset hvacate
        exact nvmFirst_of_accept hvacated (hset.vacate hvacate).1 haccept hdistrust
  elsewhere _ _ _ _ _ h := h

/-- A line of NVM goes only where no line of DRAM is. -/
theorem not_dram_of_evicted (h : set.NvmFirst) (hset : set.WellFormed f index)
    (htakes : set.Takes policy (.arrival way tag kind access (some block)) policy' set')
    (hnvm : block.kind = .nvm) (other : Nat) : ¬ set.CarriesKind other .dram := by
  obtain ⟨chosen, aged, left, vacated, -, hchoice, hvacate, -⟩ := replacement_cases htakes
  obtain ⟨hlast, rfl, rfl⟩ := chooseVictim_cases hchoice
  obtain ⟨hb, hv, -⟩ := exists_of_vacate hvacate
  intro hdram
  have hmem : other ∈ aged.stack := by
    obtain ⟨found, hfound, -⟩ := hdram
    exact hset.mem_stack_of_getElem? hfound
  exact h.not_dram_of_last hlast ⟨block, hb, hv, hnvm⟩ hmem hdram

end ThrashResistant

/-! ## Memory-type aware prediction -/

namespace TypeAwareRrip

variable {f : Frame} {index way tag : Nat} {policy policy' : TypeAwareRrip}
  {set set' aged : CacheSet} {block : Block} {kind : MemoryKind} {access : AccessKind} {max : Nat}

/-- Every line of DRAM has the most distant prediction, and comes before all lines of NVM
that have it too.  While there is a vacancy, no line of NVM has it. -/
structure DramDistant (max : Nat) (set : CacheSet) : Prop where
  distant : ∀ {way : Nat} {block : Block}, set.blocks[way]? = some block → block.valid = true →
    block.kind = .dram → block.word = max
  before : ∀ {way later : Nat} {block found : Block}, set.blocks[way]? = some block →
    block.valid = true → block.kind = .dram → set.blocks[later]? = some found →
    found.valid = true → found.kind = .nvm → found.word = max → way < later
  nearer : ∀ {vacant block : Block}, vacant ∈ set.blocks → vacant.valid = false →
    block ∈ set.blocks → block.valid = true → block.kind = .nvm → block.word ≠ max

namespace DramDistant

/-- A set without lines. -/
theorem of_vacant (hvacant : ∀ block ∈ set.blocks, block.valid = false) : DramDistant max set := by
  refine ⟨fun hb hv _ => ?_, fun hb hv _ => ?_, fun _ _ hb hv => ?_⟩
  · rw [hvacant _ (List.mem_of_getElem? hb)] at hv
    cases hv
  · rw [hvacant _ (List.mem_of_getElem? hb)] at hv
    cases hv
  · rw [hvacant _ hb] at hv
    cases hv

/-- A vacancy after a line came in was there before. -/
theorem nearer_of_set (h : DramDistant max set) (hblocks : set'.blocks = set.blocks.set way block)
    (hv : block.valid = true) {vacant found : Block} (hvacant : vacant ∈ set'.blocks)
    (hfree : vacant.valid = false) (hfound : found ∈ set.blocks) (hv' : found.valid = true)
    (hkind : found.kind = .nvm) : found.word ≠ max := by
  rw [hblocks] at hvacant
  rcases List.mem_or_eq_of_mem_set hvacant with hold | rfl
  · exact h.nearer hold hfree hfound hv' hkind
  · rw [hv] at hfree
    cases hfree

/-- A line of NVM takes a way, with a nearer prediction. -/
theorem setNvm (h : DramDistant max set) (hblocks : set'.blocks = set.blocks.set way block)
    (hv : block.valid = true) (hkind : block.kind = .nvm) (hword : block.word ≠ max) :
    DramDistant max set' where
  distant hb hv' hdram := by
    rcases block_cases hblocks hb with ⟨-, rfl⟩ | ⟨-, hold⟩
    · rw [hkind] at hdram
      cases hdram
    · exact h.distant hold hv' hdram
  before hb hv' hdram hfound hvalid hnvm hmost := by
    rcases block_cases hblocks hb with ⟨-, rfl⟩ | ⟨-, hold⟩
    · rw [hkind] at hdram
      cases hdram
    · rcases block_cases hblocks hfound with ⟨-, rfl⟩ | ⟨-, hold'⟩
      · exact absurd hmost hword
      · exact h.before hold hv' hdram hold' hvalid hnvm hmost
  nearer hvacant hfree hb hv' hnvm := by
    have hb' := hblocks ▸ hb
    rcases List.mem_or_eq_of_mem_set hb' with hold | rfl
    · exact h.nearer_of_set hblocks hv hvacant hfree hold hv' hnvm
    · exact hword

/-- A line of DRAM takes a way before those of all lines of NVM with the most distant
prediction. -/
theorem setDram (h : DramDistant max set) (hblocks : set'.blocks = set.blocks.set way block)
    (hv : block.valid = true) (hkind : block.kind = .dram) (hword : block.word = max)
    (hfirst : ∀ {later : Nat} {found : Block}, set.blocks[later]? = some found → later ≠ way →
      found.valid = true → found.kind = .nvm → found.word = max → way < later) :
    DramDistant max set' where
  distant hb hv' hdram := by
    rcases block_cases hblocks hb with ⟨-, rfl⟩ | ⟨-, hold⟩
    · exact hword
    · exact h.distant hold hv' hdram
  before hb hv' hdram hfound hvalid hnvm hmost := by
    rcases block_cases hblocks hfound with ⟨-, rfl⟩ | ⟨hne, hold'⟩
    · rw [hkind] at hnvm
      cases hnvm
    · rcases block_cases hblocks hb with ⟨rfl, -⟩ | ⟨-, hold⟩
      · exact hfirst hold' hne hvalid hnvm hmost
      · exact h.before hold hv' hdram hold' hvalid hnvm hmost
  nearer hvacant hfree hb hv' hnvm := by
    have hb' := hblocks ▸ hb
    rcases List.mem_or_eq_of_mem_set hb' with hold | rfl
    · exact h.nearer_of_set hblocks hv hvacant hfree hold hv' hnvm
    · rw [hkind] at hnvm
      cases hnvm

/-- A full set ages only if no line in it is of DRAM. -/
theorem age (h : DramDistant max set) (hvacancy : set.vacancy = none)
    (hvictim : Prediction.victim max set = .ok (way, aged)) : DramDistant max aged := by
  cases hfirst : set.blocks.findIdx? (·.word == max) with
  | some first =>
    rw [Prediction.eq_of_victim hvictim (by rw [hfirst]; rfl)]
    exact h
  | none =>
    have hadjusted := Prediction.adjusted_of_victim hvictim
    have hnone : ∀ way, ¬ aged.CarriesKind way .dram := by
      intro way hdram
      obtain ⟨block, hb, hv, hkind⟩ := (hadjusted.carriesKind_iff way .dram).1 hdram
      have hnot := List.findIdx?_eq_none_iff.1 hfirst block (List.mem_of_getElem? hb)
      rw [h.distant hb hv hkind, beq_self_eq_true] at hnot
      cases hnot
    refine ⟨fun hb hv hdram => absurd ⟨_, hb, hv, hdram⟩ (hnone _),
      fun hb hv hdram => absurd ⟨_, hb, hv, hdram⟩ (hnone _), ?_⟩
    intro vacant _ hvacant hfree
    obtain ⟨way, hway⟩ := List.getElem?_of_mem hvacant
    obtain ⟨young, hyoung, hbare⟩ := hadjusted.exists_block_rev hway
    rw [(Block.bare_eq_bare_iff.1 hbare).2.1] at hfree
    rw [vacancy_eq_none_iff.1 hvacancy young (List.mem_of_getElem? hyoung)] at hfree
    cases hfree

end DramDistant

/-- A line that comes in is marked with the prediction that its memory and the interval of
its set call for. -/
theorem accept_cases (h : set.accept policy way tag kind access = .ok (policy', set')) :
    ∃ block onInterval, set.blocks[way]? = some block ∧ block.valid = false ∧
      policy'.intervals.isComplete set.index = .ok onInterval ∧
      set'.blocks = set.blocks.set way
        { block.fill tag kind access.isWrite with word := policy'.insertion kind onInterval } := by
  obtain ⟨block, hb, hv, told, filled, hfill, hinsert, -⟩ := accept_eq_ok_iff.1 h
  obtain ⟨touched, -, hfill⟩ := bind_eq_ok_iff.1 hfill
  cases hfill
  obtain ⟨onInterval, hcomplete, hinsert⟩ := bind_eq_ok_iff.1 hinsert
  obtain ⟨marked, hmark, hinsert⟩ := bind_eq_ok_iff.1 hinsert
  cases hinsert
  obtain ⟨found, hfound, rfl⟩ := change_eq_ok_iff.1 hmark
  rw [getElem?_fill_self hb] at hfound
  cases hfound
  exact ⟨block, onInterval, hb, hv, hcomplete, List.set_set _⟩

/-- The line of the first way with the most distant prediction leaves a full set. -/
theorem bringIn_full_cases {chosen left : TypeAwareRrip} {vacated : CacheSet}
    (hchoice : Policy.chooseVictim policy set = .ok (way, chosen, aged))
    (hvacate : aged.vacate chosen way = .ok (some block, left, vacated)) :
    Prediction.victim policy.max set = .ok (way, aged) ∧ left = policy ∧
      aged.blocks[way]? = some block ∧ block.valid = true ∧ vacated.index = aged.index ∧
      vacated.blocks = aged.blocks.set way block.clear := by
  obtain ⟨_, hvictim, hchoice⟩ := bind_eq_ok_iff.1 hchoice
  cases hchoice
  obtain ⟨hb, hv, rfl, hindex, -, hblocks⟩ := vacate_cases_of_silent (fun _ _ => rfl) hvacate
  exact ⟨hvictim, rfl, hb, hv, hindex, hblocks⟩

/-- A line takes a way that comes before those of all lines of NVM with the most distant
prediction. -/
theorem dramDistant_of_arrival (h : DramDistant policy.max set) (hpos : 0 < policy.max)
    {onInterval : Bool}
    (hblocks : set'.blocks = set.blocks.set way
      { block.fill tag kind access.isWrite with word := policy.insertion kind onInterval })
    (hdistrust : kind = .dram → onInterval = false)
    (hfirst : ∀ {later : Nat} {found : Block}, set.blocks[later]? = some found → later ≠ way →
      found.valid = true → found.kind = .nvm → found.word = policy.max → way < later) :
    DramDistant policy.max set' := by
  cases kind with
  | nvm =>
    refine h.setNvm hblocks rfl rfl ?_
    show policy.insertion .nvm onInterval ≠ policy.max
    unfold insertion
    split
    · omega
    · dsimp only
      omega
  | dram =>
    refine h.setDram hblocks rfl rfl ?_ hfirst
    rw [hdistrust rfl]
    rfl

/-- A line of NVM that is hit is predicted to be used again at once. -/
theorem dramDistant_of_hit (h : DramDistant max set) (hpos : 0 < max)
    (hb : set.blocks[way]? = some block) (hv : block.valid = true) (hnvm : block.kind = .nvm)
    (hhit : set.hit policy way access = .ok (policy', set')) : DramDistant max set' := by
  rw [hit_eq hb hv] at hhit
  obtain ⟨touched, -, hhit⟩ := bind_eq_ok_iff.1 hhit
  obtain ⟨marked, hmark, hhit⟩ := bind_eq_ok_iff.1 hhit
  cases hhit
  obtain ⟨found, hfound, rfl⟩ := change_eq_ok_iff.1 hmark
  rw [getElem?_put_self hb] at hfound
  cases hfound
  refine h.setNvm (List.set_set _) hv hnvm ?_
  have hkind : (block.touch access).kind = .nvm := hnvm
  show policy'.hitPrediction (block.touch access) ≠ max
  rw [hitPrediction, hkind]
  exact Nat.ne_of_lt hpos

/-- Turns that distrust DRAM keep its lines distant, if no line is made to leave. -/
theorem upholds_dramDistant :
    Policy.Upholds
      (fun index turn (policy : TypeAwareRrip) => turn.DistrustsDram policy.intervals index ∧
        ∀ way block, turn ≠ .departure way block)
      fun policy set => 0 < policy.max ∧ DramDistant policy.max set where
  here {_ index policy policy' _ _ _} hset _ h htakes hallowed := by
    obtain ⟨hpos, h⟩ := h
    obtain ⟨hdistrust, hstays⟩ := hallowed
    have hmax : policy'.max = policy.max := constant.takes hset htakes
    rw [← hmax] at hpos h
    refine ⟨hpos, ?_⟩
    cases htakes with
    | departure hvacate => exact absurd rfl (hstays _ _)
    | hit hb hv hhit => exact dramDistant_of_hit h hpos hb hv hdistrust hhit
    | arrival hbring =>
      rename_i way tag kind access victim
      have hnever : ∀ {told : CacheSet} {onInterval : Bool}, told.index = index →
          policy'.intervals.isComplete told.index = .ok onInterval → kind = .dram →
          onInterval = false := by
        intro told onInterval hindex hcomplete hkind
        rw [hindex] at hcomplete
        refine Bool.eq_false_of_not_eq_true fun htrue => hdistrust hkind ?_
        rw [hcomplete, htrue]
      rcases bringIn_cases hbring with ⟨hvacancy, -, haccept⟩ |
        ⟨chosen, aged, block, left, vacated, hvacancy, hchoice, -, hvacate, haccept⟩
      · obtain ⟨block, onInterval, hb, hfree, hcomplete, hblocks⟩ := accept_cases haccept
        refine dramDistant_of_arrival h hpos hblocks (hnever hset.index_eq hcomplete) ?_
        intro later found hfound _ hv hnvm hmost
        exact absurd hmost (h.nearer (List.mem_of_getElem? hb) hfree (List.mem_of_getElem? hfound)
          hv hnvm)
      · obtain ⟨hvictim, -, hb, -, hindex, hvacated⟩ := bringIn_full_cases hchoice hvacate
        obtain ⟨found, onInterval, hfound, -, hcomplete, hblocks⟩ := accept_cases haccept
        have haged := (Prediction.adjusted_of_victim hvictim).index_eq
        rw [hvacated, List.getElem?_set_self (List.getElem?_eq_some_iff.1 hb).1] at hfound
        cases hfound
        rw [hvacated, List.set_set] at hblocks
        rw [← hmax] at hvictim
        refine dramDistant_of_arrival (h.age hvacancy hvictim) hpos hblocks
          (hnever (hindex.trans (haged.trans hset.index_eq)) hcomplete) ?_
        intro later found hfound hne _ _ hmost
        have hfirst := Prediction.of_findIdx? (Prediction.first_of_searchVictim hvictim)
        exact Nat.lt_of_le_of_ne (hfirst.2 hfound hmost) (Ne.symm hne)
  elsewhere hset h htakes _ _ h' := by
    rw [constant.takes hset htakes]
    exact h'

/-- A line of NVM goes only where no line of DRAM is. -/
theorem not_dram_of_evicted (h : DramDistant policy.max set)
    (htakes : set.Takes policy (.arrival way tag kind access (some block)) policy' set')
    (hnvm : block.kind = .nvm) (other : Nat) : ¬ set.CarriesKind other .dram := by
  obtain ⟨chosen, aged, left, vacated, hvacancy, hchoice, hvacate, -⟩ := replacement_cases htakes
  obtain ⟨hvictim, -, hb, hv, -, -⟩ := bringIn_full_cases hchoice hvacate
  have haged := h.age hvacancy hvictim
  obtain ⟨hmost, hfirst⟩ := Prediction.of_findIdx? (Prediction.first_of_searchVictim hvictim)
  intro hdram
  obtain ⟨line, hline, hvalid, hkind⟩ :=
    ((Prediction.adjusted_of_victim hvictim).carriesKind_iff other .dram).2 hdram
  have hbefore := haged.before hline hvalid hkind hb hv hnvm (hmost hb)
  exact Nat.not_lt.2 (hfirst hline (haged.distant hline hvalid hkind)) hbefore

end TypeAwareRrip

end AssocCache
