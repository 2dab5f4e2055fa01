import AssocCache.Proofs.Policy.DramDistrust

/-!
# Scans through one way

A policy that distrusts new lines puts them where they go first.  So when lines keep coming
into a full set and none is hit, each of them pushes out the one before it, and the others
stay.

`AnyPolicy.Primed` says which way a full set gives up next, for the policies that can
distrust new lines, and `AnyPolicy.Distrusts` says when they do.

* Whatever the other sets do, a set stays primed (`primed_of_takes`).
* A line that a set distrusts primes the set for the way it came into
  (`primed_of_arrival`).  Each policy needs an argument of its own: the line has the least
  word, or it is last in the stack, or it comes first among those with the most distant
  prediction.
-/

namespace AssocCache

open Success CacheSet

/-! ## The least word -/

/-- A scan for the least word settles on the first block that has it, unless no word is
below the starting point. -/
theorem CacheSet.foldl_leastOf_cases {blocks : List Block} {start least way : Nat}
    {best : Nat × Nat} (h : (blocks.zipIdx start).foldl leastOf best = (least, way)) :
    least ≤ best.1 ∧ (∀ block ∈ blocks, least ≤ block.word) ∧
      (best = (least, way) ∨ ∃ i block, way = start + i ∧ blocks[i]? = some block ∧
        block.word = least ∧ least < best.1 ∧
        ∀ j found, j < i → blocks[j]? = some found → least < found.word) := by
  induction blocks generalizing start best with
  | nil =>
    rw [List.zipIdx_nil, List.foldl_nil] at h
    subst h
    exact ⟨Nat.le_refl _, by simp, .inl rfl⟩
  | cons first rest ih =>
    rw [List.zipIdx_cons, List.foldl_cons] at h
    obtain ⟨hbest, hrest, hcases⟩ := ih h
    have hnext : leastOf best (first, start) =
        if first.word < best.1 then (first.word, start) else best := rfl
    rw [hnext] at hbest hcases
    -- The word of the first candidate is the new starting point, or not below the old one.
    split at hbest
    · rename_i hless
      rw [if_pos hless] at hcases
      refine ⟨by omega, List.forall_mem_cons.2 ⟨hbest, hrest⟩, .inr ?_⟩
      rcases hcases with hsame | ⟨i, block, rfl, hb, hword, hlt, hbefore⟩
      · cases hsame
        exact ⟨0, first, rfl, rfl, rfl, hless, fun _ _ hlt => absurd hlt (Nat.not_lt_zero _)⟩
      · refine ⟨i + 1, block, by omega, hb, hword, by omega, fun j found hj hfound => ?_⟩
        cases j with
        | zero =>
          cases hfound
          exact hlt
        | succ j => exact hbefore j found (Nat.lt_of_succ_lt_succ hj) hfound
    · rename_i hless
      rw [if_neg hless] at hcases
      refine ⟨hbest, List.forall_mem_cons.2 ⟨by omega, hrest⟩, hcases.imp_right ?_⟩
      rintro ⟨i, block, rfl, hb, hword, hlt, hbefore⟩
      refine ⟨i + 1, block, by omega, hb, hword, hlt, fun j found hj hfound => ?_⟩
      cases j with
      | zero =>
        cases hfound
        omega
      | succ j => exact hbefore j found (Nat.lt_of_succ_lt_succ hj) hfound

/-- The way that is given up comes before all others that have no greater word. -/
theorem CacheSet.word_lt_of_lt_leastWordWay {set : CacheSet} {other : Nat} {found : Block}
    (hfound : set.blocks[other]? = some found) (hother : other < set.leastWordWay) :
    ∃ block, set.blocks[set.leastWordWay]? = some block ∧ block.word < found.word := by
  obtain ⟨least, way, hscan⟩ : ∃ least way,
      set.blocks.zipIdx.foldl leastOf (2 ^ 64 - 1, 0) = (least, way) := ⟨_, _, rfl⟩
  have hway : set.leastWordWay = way := by rw [leastWordWay, hscan]
  rw [hway] at hother ⊢
  obtain ⟨-, -, hzero | ⟨i, block, rfl, hb, rfl, -, hbefore⟩⟩ := foldl_leastOf_cases hscan
  · cases hzero
    exact absurd hother (Nat.not_lt_zero _)
  · rw [Nat.zero_add] at hother ⊢
    exact ⟨block, hb, hbefore other found hother hfound⟩

/-- A way is given up if no word is less than its word, and those before it are greater. -/
theorem CacheSet.leastWordWay_eq_of_first {set : CacheSet} {way : Nat} {block : Block}
    (hb : set.blocks[way]? = some block) (hword : block.word < 2 ^ 64 - 1)
    (hleast : ∀ found ∈ set.blocks, block.word ≤ found.word)
    (hbefore : ∀ {other : Nat} {found : Block}, set.blocks[other]? = some found → other < way →
      block.word < found.word) : set.leastWordWay = way := by
  obtain ⟨least, chosen, hscan⟩ : ∃ least chosen,
      set.blocks.zipIdx.foldl leastOf (2 ^ 64 - 1, 0) = (least, chosen) := ⟨_, _, rfl⟩
  have hchosen : set.leastWordWay = chosen := by rw [leastWordWay, hscan]
  rw [hchosen]
  obtain ⟨-, hle, hzero | ⟨i, first, rfl, hfirst, rfl, -, hearlier⟩⟩ := foldl_leastOf_cases hscan
  · cases hzero
    exact absurd (hle block (List.mem_of_getElem? hb)) (Nat.not_le.2 hword)
  · rw [Nat.zero_add]
    rcases Nat.lt_trichotomy i way with hlt | rfl | hlt
    · exact absurd (hle block (List.mem_of_getElem? hb)) (Nat.not_le.2 (hbefore hfirst hlt))
    · rfl
    · have hless := hearlier way block hlt hb
      exact absurd (hleast first (List.mem_of_getElem? hfirst)) (Nat.not_le.2 hless)

/-! ## Use counts -/

namespace Lfu

variable {f : Frame} {index way tag : Nat} {policy policy' : Lfu} {set set' : CacheSet}
  {block gone : Block} {kind : MemoryKind} {access : AccessKind} {turn : Turn}

/-- Every line was used once at least, and counts can tell that from nothing. -/
structure Counts (policy : Lfu) (set : CacheSet) : Prop where
  max_pos : 0 < policy.maxCount
  used : ∀ block ∈ set.blocks, block.valid = true → 0 < block.word

theorem constant : Policy.Constant Lfu.maxCount where
  chooseVictim h := by
    cases h
    rfl
  onHit h := by
    obtain ⟨_, -, h⟩ := bind_eq_ok_iff.1 h
    cases h
    rfl
  onFill h := by
    cases h
    rfl
  onInsert h := by
    obtain ⟨_, -, h⟩ := bind_eq_ok_iff.1 h
    cases h
    rfl
  onInvalidate h := by
    cases h
    rfl

/-- A line that comes in was used once. -/
theorem accept_cases (h : set.accept policy way tag kind access = .ok (policy', set')) :
    ∃ block, set.blocks[way]? = some block ∧ policy' = policy ∧
      set'.blocks = set.blocks.set way { block.fill tag kind access.isWrite with word := 1 } := by
  obtain ⟨block, hb, -, told, filled, hfill, hinsert, -⟩ := accept_eq_ok_iff.1 h
  cases hfill
  obtain ⟨counted, hcount, hinsert⟩ := bind_eq_ok_iff.1 hinsert
  cases hinsert
  obtain ⟨found, hfound, rfl⟩ := change_eq_ok_iff.1 hcount
  rw [getElem?_fill_self hb] at hfound
  cases hfound
  exact ⟨block, hb, rfl, List.set_set _⟩

/-- What a turn does to the blocks of a set. -/
theorem takes_cases (htakes : set.Takes policy turn policy' set') :
    policy' = policy ∧ match turn with
      | .hit way block access => set.blocks[way]? = some block ∧ block.valid = true ∧
          set'.blocks = set.blocks.set way
            { block.touch access with word := policy.countUse block.word }
      | .arrival way tag kind access _ => ∃ block, set.blocks[way]? = some block ∧
          set'.blocks = set.blocks.set way { block.fill tag kind access.isWrite with word := 1 }
      | .departure way block => set.blocks[way]? = some block ∧ block.valid = true ∧
          set'.blocks = set.blocks.set way block.clear := by
  cases htakes with
  | hit hb hv hhit =>
    rw [hit_eq hb hv] at hhit
    obtain ⟨counted, hcount, hhit⟩ := bind_eq_ok_iff.1 hhit
    cases hhit
    obtain ⟨found, hfound, rfl⟩ := change_eq_ok_iff.1 hcount
    rw [getElem?_put_self hb] at hfound
    cases hfound
    exact ⟨rfl, hb, hv, List.set_set _⟩
  | arrival hbring =>
    rcases bringIn_cases hbring with ⟨-, -, haccept⟩ |
      ⟨chosen, aged, block, left, vacated, -, hchoice, -, hvacate, haccept⟩
    · obtain ⟨block, hb, rfl, hblocks⟩ := accept_cases haccept
      exact ⟨rfl, block, hb, hblocks⟩
    · cases hchoice
      obtain ⟨hgone, -, rfl, -, -, hvacated⟩ := vacate_cases_of_silent (fun _ _ => rfl) hvacate
      obtain ⟨cleared, hcleared, rfl, hblocks⟩ := accept_cases haccept
      have hlt := (List.getElem?_eq_some_iff.1 hgone).1
      rw [hvacated, List.getElem?_set_self hlt] at hcleared
      cases hcleared
      rw [hvacated, List.set_set] at hblocks
      exact ⟨rfl, block, hgone, hblocks⟩
  | departure hvacate =>
    obtain ⟨hb, hv, rfl, -, -, hblocks⟩ := vacate_cases_of_silent (fun _ _ => rfl) hvacate
    exact ⟨rfl, hb, hv, hblocks⟩

/-- A block is replaced by one that was used. -/
theorem Counts.replace (h : Counts policy set) (hblocks : set'.blocks = set.blocks.set way block)
    (hused : block.valid = true → 0 < block.word) : Counts policy set' where
  max_pos := h.max_pos
  used found hfound := by
    rw [hblocks] at hfound
    rcases List.mem_or_eq_of_mem_set hfound with hold | rfl
    · exact h.used found hold
    · exact hused

/-- Use counts are positive throughout. -/
theorem upholds_counts : Policy.Upholds (fun _ _ _ => True) Counts where
  here {_ _ _ _ _ _ turn} _ _ h htakes _ := by
    obtain ⟨rfl, hturn⟩ := takes_cases htakes
    cases turn with
    | hit way block access =>
      obtain ⟨-, -, hblocks⟩ := hturn
      have hpos := h.max_pos
      refine h.replace hblocks fun _ => ?_
      show 0 < countUse _ _
      unfold countUse
      omega
    | arrival way tag kind access victim =>
      obtain ⟨block, -, hblocks⟩ := hturn
      exact h.replace hblocks fun _ => Nat.one_pos
    | departure way block =>
      obtain ⟨-, -, hblocks⟩ := hturn
      exact h.replace hblocks fun hv => absurd hv Bool.false_ne_true
  elsewhere hset _ htakes _ _ h :=
    ⟨by rw [constant.takes hset htakes]; exact h.max_pos, h.used⟩

/-- A line that replaces another one goes next: its count is the least there is, and those
of the ways before it were greater than the count of the line that went. -/
theorem leastWordWay_of_arrival (h : Counts policy set)
    (htakes : set.Takes policy (.arrival way tag kind access (some gone)) policy' set') :
    set'.leastWordWay = way := by
  obtain ⟨chosen, aged, left, vacated, hvacancy, hchoice, -, -⟩ := replacement_cases htakes
  obtain ⟨-, block, hb, hblocks⟩ := takes_cases htakes
  cases hchoice
  have hlt := (List.getElem?_eq_some_iff.1 hb).1
  have hused : ∀ {other : Nat} {line : Block}, set.blocks[other]? = some line →
      0 < line.word := fun hline =>
    have hmem := List.mem_of_getElem? hline
    h.used _ hmem (vacancy_eq_none_iff.1 hvacancy _ hmem)
  have hnew : set'.blocks[set.leastWordWay]? =
      some { block.fill tag kind access.isWrite with word := 1 } := by
    rw [hblocks, List.getElem?_set_self hlt]
  refine leastWordWay_eq_of_first hnew (by dsimp only; omega) ?_ ?_
  · intro line hline
    obtain ⟨other, hother⟩ := List.getElem?_of_mem hline
    rcases block_cases hblocks hother with ⟨-, rfl⟩ | ⟨-, hold⟩
    · exact Nat.le_refl _
    · exact hused hold
  · intro other line hline hother
    rcases block_cases hblocks hline with ⟨rfl, -⟩ | ⟨-, hold⟩
    · exact absurd hother (Nat.lt_irrefl _)
    · obtain ⟨least, hleast, hless⟩ := word_lt_of_lt_leastWordWay hold hother
      have hpos := hused hleast
      dsimp only
      omega

end Lfu

/-! ## The end of the stack -/

/-- A way that was moved to the end of the stack. -/
theorem CacheSet.getLast?_of_moveToTail {set set' : CacheSet} {way : Nat}
    (h : set.moveToTail way = .ok set') : set'.stack.getLast? = some way := by
  obtain ⟨-, rfl⟩ := moveTo_eq_ok_iff.1 h
  rw [Recency.place_length_self, List.getLast?_concat]

namespace Bimodal

variable {way tag : Nat} {policy policy' : Bimodal} {set set' : CacheSet} {gone : Block}
  {kind : MemoryKind} {access : AccessKind} {turn : Turn}

/-- The fills are counted, and a line that does not complete an interval goes to the end of
the stack. -/
theorem accept_cases (h : set.accept policy way tag kind access = .ok (policy', set')) :
    policy' = policy.counted ∧
      (policy.fills + 1 < policy.interval → set'.stack.getLast? = some way) := by
  obtain ⟨entered, -, -, told, filled, hfill, hinsert, -⟩ := accept_eq_ok_iff.1 h
  cases hfill
  obtain ⟨fills, hfills, hinsert⟩ := bind_eq_ok_iff.1 hinsert
  obtain ⟨-, rfl⟩ := Word.add_eq_ok_iff.1 hfills
  split at hinsert
  · rename_i hcomplete
    obtain ⟨moved, -, hinsert⟩ := bind_eq_ok_iff.1 hinsert
    cases hinsert
    exact ⟨by rw [counted, if_pos hcomplete], fun hless => absurd hcomplete (Nat.not_le.2 hless)⟩
  · rename_i hincomplete
    obtain ⟨moved, hmove, hinsert⟩ := bind_eq_ok_iff.1 hinsert
    cases hinsert
    exact ⟨by rw [counted, if_neg hincomplete], fun _ => getLast?_of_moveToTail hmove⟩

theorem policy_of_chooseVictim {aged : CacheSet}
    (h : Policy.chooseVictim policy set = .ok (way, policy', aged)) : policy' = policy := by
  obtain ⟨last, -, h⟩ := bind_eq_ok_iff.1 h
  cases h
  rfl

theorem policy_of_vacate {victim : Option Block}
    (h : set.vacate policy way = .ok (victim, policy', set')) : policy' = policy := by
  obtain ⟨block, -, ⟨-, -, told, block', hhook, -, -⟩ | ⟨-, -, rfl, -⟩⟩ := vacate_eq_ok_iff.1 h
  · obtain ⟨moved, -, hhook⟩ := bind_eq_ok_iff.1 hhook
    cases hhook
    rfl
  · rfl

/-- The policy counts the arrivals, and nothing else. -/
theorem policy_of_takes (htakes : set.Takes policy turn policy' set') :
    policy' = if turn.isArrival then policy.counted else policy := by
  cases htakes with
  | hit hb hv hhit =>
    rw [hit_eq hb hv] at hhit
    obtain ⟨moved, -, hhit⟩ := bind_eq_ok_iff.1 hhit
    cases hhit
    rfl
  | arrival hbring =>
    rcases bringIn_cases hbring with ⟨-, -, haccept⟩ |
      ⟨chosen, aged, block, left, vacated, -, hchoice, -, hvacate, haccept⟩
    · exact (accept_cases haccept).1
    · obtain rfl := policy_of_chooseVictim hchoice
      obtain rfl := policy_of_vacate hvacate
      exact (accept_cases haccept).1
  | departure hvacate => exact policy_of_vacate hvacate

/-- A line that replaces another one goes next if it does not complete an interval. -/
theorem getLast?_of_arrival
    (htakes : set.Takes policy (.arrival way tag kind access (some gone)) policy' set')
    (hdistrust : policy.fills + 1 < policy.interval) : set'.stack.getLast? = some way := by
  obtain ⟨chosen, aged, left, vacated, -, hchoice, hvacate, haccept⟩ := replacement_cases htakes
  obtain rfl := policy_of_chooseVictim hchoice
  obtain rfl := policy_of_vacate hvacate
  exact (accept_cases haccept).2 hdistrust

end Bimodal

/-- A line of DRAM that replaces another one goes next if it does not complete an interval. -/
theorem ThrashResistant.getLast?_of_arrival {f : Frame} {index way tag : Nat}
    {policy policy' : ThrashResistant} {set set' : CacheSet} {gone : Block} {access : AccessKind}
    (hset : set.WellFormed f index)
    (htakes : set.Takes policy (.arrival way tag .dram access (some gone)) policy' set')
    (hdistrust : policy'.intervals.isComplete index ≠ .ok true) :
    set'.stack.getLast? = some way := by
  obtain ⟨chosen, aged, left, vacated, -, hchoice, hvacate, haccept⟩ := replacement_cases htakes
  have haged := hset.adjusted (Policy.Tame.chooseVictim hchoice)
  have hvacated := (haged.vacate hvacate).1
  obtain ⟨entered, hb, -, told, filled, hfill, hinsert, -⟩ := accept_eq_ok_iff.1 haccept
  obtain ⟨touched, -, hfill⟩ := bind_eq_ok_iff.1 hfill
  cases hfill
  have hfilled := getElem?_fill_self hb (entered.fill tag .dram access.isWrite) tag
  obtain ⟨rfl, -, ⟨hcomplete | ⟨-, hnvm⟩, -⟩ | ⟨-, -, rfl⟩⟩ :=
    onInsert_cases hinsert hfilled hvacated.nodup_stack
  · refine absurd ?_ hdistrust
    rw [← hvacated.index_eq]
    exact hcomplete
  · cases hnvm
  · show (Recency.place _ way _).getLast? = some way
    rw [Recency.place_length_self, List.getLast?_concat]

/-! ## The first of the most distant predictions -/

/-- A way stays the first with the most distant prediction when another line takes it that
has this prediction too. -/
theorem Prediction.findIdx?_eq_of_set {max way : Nat} {set set' : CacheSet} {block : Block}
    (hfirst : set.blocks.findIdx? (·.word == max) = some way)
    (hblocks : set'.blocks = set.blocks.set way block) (hword : block.word = max) :
    set'.blocks.findIdx? (·.word == max) = some way := by
  rw [List.findIdx?_eq_some_iff_getElem] at hfirst ⊢
  obtain ⟨hlt, -, hbefore⟩ := hfirst
  refine ⟨by rw [hblocks, List.length_set]; exact hlt, ?_, fun other hother => ?_⟩
  · simp [hblocks, hword]
  · simp only [hblocks]
    rw [List.getElem_set_ne (Nat.ne_of_gt hother)]
    exact hbefore other hother

namespace DynamicRrip

variable {way tag : Nat} {policy policy' : DynamicRrip} {set set' : CacheSet} {gone : Block}
  {kind : MemoryKind} {access : AccessKind}

/-- The fill is counted, and the new line has the prediction of the rule that governs it. -/
theorem insertion_of_accept (h : set.accept policy way tag kind access = .ok (policy', set')) :
    ∃ counted prediction block, policy.countFill set.role = .ok counted ∧
      counted.insertion (counted.ruleFor set.role) = .ok (prediction, policy') ∧
      set.blocks[way]? = some block ∧ set'.blocks = set.blocks.set way
        { block.fill tag kind access.isWrite with word := prediction } := by
  obtain ⟨block, hb, -, told, filled, hfill, hinsert, -⟩ := accept_eq_ok_iff.1 h
  cases hfill
  obtain ⟨counted, hcount, hinsert⟩ := bind_eq_ok_iff.1 hinsert
  obtain ⟨⟨prediction, next⟩, hinsertion, hinsert⟩ := bind_eq_ok_iff.1 hinsert
  obtain ⟨marked, hmark, hinsert⟩ := bind_eq_ok_iff.1 hinsert
  cases hinsert
  obtain ⟨found, hfound, rfl⟩ := change_eq_ok_iff.1 hmark
  rw [getElem?_fill_self hb] at hfound
  cases hfound
  exact ⟨counted, prediction, block, hcount, hinsertion, hb, List.set_set _⟩

/-- In a set that leads for the bimodal rule a new line has the most distant prediction, if
it does not complete an interval. -/
theorem accept_cases (h : set.accept policy way tag kind access = .ok (policy', set'))
    (hrole : set.role = .brripLeader) (hdistrust : policy.bimodalFills + 1 < policy.interval) :
    ∃ block, set.blocks[way]? = some block ∧ set'.blocks = set.blocks.set way
      { block.fill tag kind access.isWrite with word := policy.max } := by
  obtain ⟨counted, prediction, block, hcount, hinsertion, hb, hblocks⟩ := insertion_of_accept h
  rw [hrole] at hcount hinsertion
  cases hcount
  obtain ⟨fills, hfills, hinsertion⟩ := bind_eq_ok_iff.1 hinsertion
  obtain ⟨-, rfl⟩ := Word.add_eq_ok_iff.1 hfills
  rw [if_neg (Nat.not_le.2 hdistrust)] at hinsertion
  cases hinsertion
  exact ⟨block, hb, hblocks⟩

/-- A line that replaces another one takes the first way with the most distant prediction,
and has this prediction itself. -/
theorem first_of_arrival
    (htakes : set.Takes policy (.arrival way tag kind access (some gone)) policy' set')
    (hrole : set.role = .brripLeader) (hdistrust : policy.bimodalFills + 1 < policy.interval) :
    set'.blocks.findIdx? (·.word == policy.max) = some way := by
  obtain ⟨chosen, aged, left, vacated, -, hchoice, hvacate, haccept⟩ := replacement_cases htakes
  obtain ⟨_, hvictim, hchoice⟩ := bind_eq_ok_iff.1 hchoice
  cases hchoice
  obtain ⟨-, -, rfl, -, hrole', hvacated⟩ := vacate_cases_of_silent (fun _ _ => rfl) hvacate
  have hleads : vacated.role = .brripLeader :=
    hrole'.trans ((Prediction.adjusted_of_victim hvictim).role_eq.trans hrole)
  obtain ⟨entered, -, hblocks⟩ := accept_cases haccept hleads hdistrust
  rw [hvacated, List.set_set] at hblocks
  exact Prediction.findIdx?_eq_of_set (Prediction.first_of_searchVictim hvictim) hblocks rfl

end DynamicRrip

/-- A line of DRAM that replaces another one takes the first way with the most distant
prediction, and has this prediction itself if it does not complete an interval. -/
theorem TypeAwareRrip.first_of_arrival {f : Frame} {index way tag : Nat}
    {policy policy' : TypeAwareRrip} {set set' : CacheSet} {gone : Block} {access : AccessKind}
    (hset : set.WellFormed f index)
    (htakes : set.Takes policy (.arrival way tag .dram access (some gone)) policy' set')
    (hdistrust : policy'.intervals.isComplete index ≠ .ok true) :
    set'.blocks.findIdx? (·.word == policy'.max) = some way := by
  have hmax : policy'.max = policy.max := constant.takes hset htakes
  obtain ⟨chosen, aged, left, vacated, -, hchoice, hvacate, haccept⟩ := replacement_cases htakes
  obtain ⟨hvictim, -, -, -, hindex, hvacated⟩ := bringIn_full_cases hchoice hvacate
  have haged := (Prediction.adjusted_of_victim hvictim).index_eq
  obtain ⟨entered, onInterval, -, -, hcomplete, hblocks⟩ := accept_cases haccept
  rw [hindex, haged, hset.index_eq] at hcomplete
  have hfar : onInterval = false := by
    refine Bool.eq_false_of_not_eq_true fun hon => hdistrust ?_
    rw [hcomplete, hon]
  rw [hvacated, List.set_set] at hblocks
  rw [hmax]
  refine Prediction.findIdx?_eq_of_set (Prediction.first_of_searchVictim hvictim) hblocks ?_
  rw [hfar]
  exact hmax

/-! ## Primed sets -/

namespace AnyPolicy

/-- A full set gives up this way next, for the policies that distrust new lines at times. -/
def Primed (policy : AnyPolicy) (set : CacheSet) (way : Nat) : Prop :=
  match policy with
  | .lfu _ => set.leastWordWay = way
  | .bimodal _ | .thrashResistant _ => set.stack.getLast? = some way
  | .dynamicRrip policy => set.blocks.findIdx? (·.word == policy.max) = some way
  | .typeAwareRrip policy => set.blocks.findIdx? (·.word == policy.max) = some way
  | .lru _ | .random _ | .staticRrip _ | .fullyAssociativeLru _ | .writeBackAware _ => False

/-- The policy distrusts a line with this memory whose arrival in the set turns it into
`policy'`.  Use counts distrust every new line.  Bimodal insertion, and bimodal prediction in
a set that leads for it, distrust all but the one that completes an interval of such fills.
The policies for hybrid memory distrust lines of DRAM that do not complete an interval of
touches of the set. -/
def Distrusts (policy : AnyPolicy) (set : CacheSet) (kind : MemoryKind) (policy' : AnyPolicy) :
    Prop :=
  match policy with
  | .lfu _ => True
  | .bimodal policy => policy.fills + 1 < policy.interval
  | .dynamicRrip policy => set.role = .brripLeader ∧ policy.bimodalFills + 1 < policy.interval
  | .thrashResistant _ | .typeAwareRrip _ => kind = .dram ∧ ¬ policy'.OnInterval set.index
  | .lru _ | .random _ | .staticRrip _ | .fullyAssociativeLru _ | .writeBackAware _ => False

/-- If use counts rank the lines, they are positive. -/
def Counts (policy : AnyPolicy) (set : CacheSet) : Prop :=
  ∀ counts, policy = .lfu counts → counts.Counts set

variable {f : Frame} {index way tag : Nat} {policy policy' : AnyPolicy} {set set' other : CacheSet}
  {gone : Block} {kind : MemoryKind} {access : AccessKind} {turn : Turn}

/-- A primed set gives up the way and does not age. -/
theorem chooseVictim_of_primed (h : policy.Primed set way) :
    Policy.chooseVictim policy set = .ok (way, policy, set) := by
  cases policy with
  | lfu policy =>
    cases h
    rfl
  | bimodal policy | thrashResistant policy =>
    exact map_eq_ok_iff.2 ⟨_, bind_eq_ok_iff.2 ⟨_, tailWay_eq_ok_iff.2 h, rfl⟩, rfl⟩
  | dynamicRrip policy | typeAwareRrip policy =>
    have hvictim : Prediction.victim policy.max set = .ok (way, set) := by
      have hfirst : set.blocks.findIdx? (·.word == policy.max) = some way := h
      rw [Prediction.victim, Prediction.searchVictim, hfirst]
    exact map_eq_ok_iff.2 ⟨_, bind_eq_ok_iff.2 ⟨_, hvictim, rfl⟩, rfl⟩
  | _ => exact h.elim

/-- The turns of other sets leave a set primed. -/
theorem primed_of_takes (hset : set.WellFormed f index)
    (htakes : set.Takes policy turn policy' set') (h : policy.Primed other way) :
    policy'.Primed other way := by
  rw [← close_opened policy] at htakes
  obtain ⟨value', rfl, hturn⟩ := policy.takes_cases htakes
  cases policy with
  | lfu _ | bimodal _ | thrashResistant _ => exact h
  | dynamicRrip policy =>
    show other.blocks.findIdx? _ = some way
    rw [DynamicRrip.constant.takes hset hturn]
    exact h
  | typeAwareRrip policy =>
    show other.blocks.findIdx? _ = some way
    rw [TypeAwareRrip.constant.takes hset hturn]
    exact h
  | _ => exact h.elim

/-- A distrusted line that replaces another one primes the set for its way. -/
theorem primed_of_arrival (hset : set.WellFormed f index) (hcounts : policy.Counts set)
    (htakes : set.Takes policy (.arrival way tag kind access (some gone)) policy' set')
    (hdistrust : policy.Distrusts set kind policy') : policy'.Primed set' way := by
  rw [← close_opened policy] at htakes
  obtain ⟨value', rfl, hturn⟩ := policy.takes_cases htakes
  cases policy with
  | lfu policy => exact Lfu.leastWordWay_of_arrival (hcounts policy rfl) hturn
  | bimodal policy => exact Bimodal.getLast?_of_arrival hturn hdistrust
  | dynamicRrip policy =>
    show set'.blocks.findIdx? _ = some way
    rw [DynamicRrip.constant.takes hset hturn]
    exact DynamicRrip.first_of_arrival hturn hdistrust.1 hdistrust.2
  | thrashResistant policy =>
    obtain ⟨rfl, hnever⟩ := hdistrust
    refine ThrashResistant.getLast?_of_arrival hset hturn fun hcomplete => hnever ?_
    exact ⟨_, rfl, hset.index_eq ▸ hcomplete⟩
  | typeAwareRrip policy =>
    obtain ⟨rfl, hnever⟩ := hdistrust
    refine TypeAwareRrip.first_of_arrival hset hturn fun hcomplete => hnever ?_
    exact ⟨_, rfl, hset.index_eq ▸ hcomplete⟩
  | _ => exact hdistrust.elim

/-- Use counts are positive throughout. -/
theorem upholds_counts : Policy.Upholds (fun _ _ _ => True) Counts where
  here {_ _ policy _ _ _ _} hset hset' h htakes hallowed counts' hcounts' := by
    rw [← close_opened policy] at htakes
    obtain ⟨value', rfl, hturn⟩ := policy.takes_cases htakes
    cases policy <;> cases hcounts'
    exact Lfu.upholds_counts.here hset hset' (h _ rfl) hturn hallowed
  elsewhere {_ _ policy _ _ _ _ _} hset h htakes hallowed hother h' counts' hcounts' := by
    rw [← close_opened policy] at htakes
    obtain ⟨value', rfl, hturn⟩ := policy.takes_cases htakes
    cases policy <;> cases hcounts'
    exact Lfu.upholds_counts.elsewhere hset (h _ rfl) hturn hallowed hother (h' _ rfl)

end AnyPolicy

end AssocCache
