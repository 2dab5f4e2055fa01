import AssocCache.Proofs.Policy.Scanning
import AssocCache.Proofs.Store.LongRuns
import AssocCache.Proofs.Store.ScanResistance
import Mathlib.Data.List.DropRight

/-!
# Use counts in the runs of a store

Under least frequently used the word of a block is the number of uses of its line that the
answers told of: its latest fill and the hits since, cut off at the cap
(`WellFormed.counted_of_run`, by induction on the calls).  The counts of lines that are gone
stay behind in the blocks, and no count of a resident line depends on them.

So a line that has to go is one that was used least, by the answers alone
(`use_counts_of_run`).
-/

/-!
## The least used line

How least frequently used counts, and which line it gives up.  A count is cut off at a cap,
and one more use cuts it off in the same way (`Lfu.countUse_min`).

The way that is given up has the least word there is, and comes before all others that
have it too (`CacheSet.leastWordWay_spec`).  The scan starts from a word with all bits set
and takes a block only if its word is below, so a set whose words all have that value gives
up way 0.  That is the first of the ways with the least word, as elsewhere.
-/

namespace AssocCache

open Success CacheSet

/-- The way that is given up is the first of those with the least word, when words are 64
bits wide. -/
theorem CacheSet.leastWordWay_spec {set : CacheSet} {block : Block}
    (hwidth : ∀ found ∈ set.blocks, found.word < 2 ^ 64)
    (hblock : set.blocks[set.leastWordWay]? = some block) {other : Nat} {found : Block}
    (hfound : set.blocks[other]? = some found) :
    block.word ≤ found.word ∧ (found.word = block.word → set.leastWordWay ≤ other) := by
  have hleast : block.word ≤ found.word := by
    obtain ⟨least, way, hscan⟩ : ∃ least way,
        set.blocks.zipIdx.foldl leastOf (2 ^ 64 - 1, 0) = (least, way) := ⟨_, _, rfl⟩
    have hway : set.leastWordWay = way := by rw [leastWordWay, hscan]
    rw [hway] at hblock
    obtain ⟨-, hle, hnone | ⟨i, first, rfl, hfirst, rfl, -, -⟩⟩ := foldl_leastOf_cases hscan
    · -- No word is below the starting point, so the words have all bits set.
      cases hnone
      have hlt := hwidth block (List.mem_of_getElem? hblock)
      have hge := hle found (List.mem_of_getElem? hfound)
      omega
    · rw [Nat.zero_add, hfirst] at hblock
      cases hblock
      exact hle found (List.mem_of_getElem? hfound)
  refine ⟨hleast, fun hsame => Nat.le_of_not_lt fun hlt => ?_⟩
  obtain ⟨chosen, hchosen, hless⟩ := word_lt_of_lt_leastWordWay hfound hlt
  rw [hblock] at hchosen
  cases hchosen
  omega

namespace Lfu

variable {policy policy' : Lfu} {set set' : CacheSet} {way tag : Nat} {kind : MemoryKind}
  {access : AccessKind} {gone : Block}

/-- A cap of all 64 bits is the largest count of 64 bits. -/
theorem maxCount_ofCounterBits {bits : Nat} (hbits : bits ≤ 64) :
    (ofCounterBits bits).maxCount = 2 ^ bits - 1 := by
  show (if 64 ≤ bits then 2 ^ 64 - 1 else 2 ^ bits - 1) = _
  split
  · rw [Nat.le_antisymm hbits ‹_›]
  · rfl

/-- A count that is cut off at the cap stays so. -/
theorem countUse_min (hmax : policy.maxCount < 2 ^ 64) (uses : Nat) :
    policy.countUse (min uses policy.maxCount) = min (uses + 1) policy.maxCount := by
  unfold countUse
  omega

/-- A line that has to go was used least in its full set, and comes before all others that
were used as little. -/
theorem least_of_victim
    (hwidth : ∀ found ∈ set.blocks, found.valid = true → found.word < 2 ^ 64)
    (htakes : set.Takes policy (.arrival way tag kind access (some gone)) policy' set') :
    set.vacancy = none ∧ set.blocks[way]? = some gone ∧
      ∀ {other : Nat} {found : Block}, set.blocks[other]? = some found →
        gone.word ≤ found.word ∧ (found.word = gone.word → way ≤ other) := by
  obtain ⟨chosen, aged, left, vacated, hvacancy, hchoice, hvacate, -⟩ := replacement_cases htakes
  cases hchoice
  obtain ⟨hgone, -⟩ := exists_of_vacate hvacate
  have hfull := vacancy_eq_none_iff.1 hvacancy
  exact ⟨hvacancy, hgone, leastWordWay_spec (fun found h => hwidth found h (hfull found h)) hgone⟩

end Lfu

end AssocCache

/-! ## The events of a turn -/

namespace AssocCache

open Success

/-- Whether a line was hit. -/
def Event.isHit : Event → Bool
  | .hit _ => true
  | .filled _ _ | .left => false

/-- How often a line was hit since it was filled, if its events end with a fill and hits. -/
def hitsSinceFill (events : List Event) : Nat := (events.rtakeWhile Event.isHit).length

theorem hitsSinceFill_hit (events : List Event) (access : AccessKind) :
    hitsSinceFill (events ++ [.hit access]) = hitsSinceFill events + 1 := by
  rw [hitsSinceFill, List.rtakeWhile_concat_pos _ _ _ rfl, List.length_append]
  rfl

theorem hitsSinceFill_filled (events : List Event) (way : Nat) (access : AccessKind) :
    hitsSinceFill (events ++ [.filled way access]) = 0 := by
  rw [hitsSinceFill, List.rtakeWhile_concat_neg _ _ _ Bool.false_ne_true]
  rfl

/-- What is told of the line of address `a` when a call is about the line of address `b`. -/
def Outcome.events (blockSize a b : Nat) (access : AccessKind) : Outcome → List Event
  | .hit _ _ => if a / blockSize = b / blockSize then [.hit access] else []
  | .arrival install => Exchange.installEvents blockSize a b access install
  | .departure _ => if a / blockSize = b / blockSize then [.left] else []

namespace Store

section Events

variable {π : Type} [Policy π] {f : Frame} {s t : Store π} {call : Call}
  {answer : Except Refusal Reply} {line : Line} {set set' : CacheSet} {turn : Turn}

/-- The events of a call are what its answer tells. -/
theorem events_of_outcome (hrespond : s.respond call = .ok (answer, t)) (blockSize a : Nat) :
    ∃ access, Exchange.events blockSize a ⟨call, answer⟩ =
      ((Exchange.outcome? ⟨call, answer⟩).map
        (Outcome.events blockSize a call.address access)).getD [] := by
  -- A lookup tells of a hit, or of nothing.
  have hlookup : ∀ (lookup : Lookup) (b : Nat) (access : AccessKind),
      Exchange.lookupEvents blockSize a b access lookup =
        ((lookup.way.map (Outcome.hit lookup.set)).map
          (Outcome.events blockSize a b access)).getD [] := by
    intro lookup b access
    rw [Exchange.lookupEvents, Lookup.hit]
    cases lookup.way <;> simp [Outcome.events]
  cases responds_of_respond hrespond with
  | probe _ => exact ⟨_, hlookup _ _ _⟩
  | hit _ _ => exact ⟨_, (List.append_nil _).trans (hlookup _ _ _)⟩
  | fill _ => exact ⟨_, rfl⟩
  | miss _ hmiss _ =>
    rename_i b kind lookup install _ _
    have hnone : Exchange.lookupEvents blockSize a b kind lookup = [] := by
      rw [Exchange.lookupEvents, if_neg (by simp [hmiss])]
    exact ⟨kind, congrArg (· ++ _) hnone⟩
  | invalidate _ =>
    rename_i evicted _
    refine ⟨.read, ?_⟩
    cases evicted with
    | none => exact if_neg fun hgone => Bool.false_ne_true hgone.2
    | some evicted => simp [Exchange.events, Exchange.departureEvents, Exchange.outcome?,
        Except.toOption, Reply.outcome?, Outcome.events, Call.address]
  | refused _ => exact ⟨.read, by cases call <;> rfl⟩
  | missRefused _ _ _ => exact ⟨.read, rfl⟩

/-- The events of the line of a turn end with what the turn did to it. -/
theorem Took.events_of_line (h : s.WellFormed f) (hrespond : s.respond call = .ok (answer, t))
    (htook : Took s ⟨call, answer⟩ t line set turn set') :
    match turn with
    | .hit .. => ∃ access, Exchange.events s.geometry.blockSize (s.geometry.addressOf line)
        ⟨call, answer⟩ = [.hit access]
    | .arrival .. => ∃ earlier way access, Exchange.events s.geometry.blockSize
        (s.geometry.addressOf line) ⟨call, answer⟩ = earlier ++ [.filled way access]
    | .departure .. => True := by
  obtain ⟨-, hline, hhas, -⟩ := h.of_maps htook.maps
  rw [h.geometry_eq]
  have hsame : f.geometry.addressOf line / f.geometry.blockSize =
      call.address / f.geometry.blockSize := by
    rw [← h.valid.lineOf_eq_iff, h.valid.lineOf_addressOf hhas]
    exact hline
  obtain ⟨access, hevents⟩ :=
    events_of_outcome hrespond f.geometry.blockSize (f.geometry.addressOf line)
  rw [htook.outcome_eq] at hevents
  cases turn with
  | hit way block kind => exact ⟨access, hevents.trans (if_pos hsame)⟩
  | arrival way tag kind access' victim =>
    have hfilled : Exchange.installEvents f.geometry.blockSize (f.geometry.addressOf line)
        call.address access ⟨line.set, way, victim.map (s.departure line.set)⟩ =
          _ ++ [.filled way access] := congrArg _ (if_pos hsame)
    exact ⟨_, way, access, hevents.trans hfilled⟩
  | departure way block => trivial

/-- A line that the turn is not about, and that does not have to go for it, has no event. -/
theorem Took.events_of_other [Policy.Tame π] (h : s.WellFormed f)
    (hrespond : s.respond call = .ok (answer, t))
    (htook : Took s ⟨call, answer⟩ t line set turn set') {other : Line} (hne : other ≠ line)
    (hhas : f.geometry.Has other)
    (hstays : ∀ way tag kind access gone, turn = .arrival way tag kind access (some gone) →
      (⟨line.set, gone.tag⟩ : Line) ≠ other) :
    Exchange.events s.geometry.blockSize (s.geometry.addressOf other) ⟨call, answer⟩ = [] := by
  obtain ⟨-, hline, -, hset⟩ := h.of_maps htook.maps
  rw [h.geometry_eq]
  have hother : f.geometry.addressOf other / f.geometry.blockSize ≠
      call.address / f.geometry.blockSize := by
    rw [ne_eq, ← h.valid.lineOf_eq_iff, h.valid.lineOf_addressOf hhas]
    exact fun hsame => hne (hsame.trans hline.symm)
  obtain ⟨access, hevents⟩ :=
    events_of_outcome hrespond f.geometry.blockSize (f.geometry.addressOf other)
  rw [htook.outcome_eq] at hevents
  rw [hevents]
  cases turn with
  | hit way block kind => exact if_neg hother
  | departure way block => exact if_neg hother
  | arrival way tag kind access' victim =>
    show _ ++ _ = []
    rw [if_neg hother, List.append_nil, if_neg]
    rintro ⟨evicted, hevicted, haddress⟩
    obtain ⟨gone, rfl, rfl⟩ := Option.map_eq_some_iff.1 hevicted
    refine hstays way tag kind access' gone rfl ?_
    obtain ⟨-, block, hb, hv, hbare⟩ := CacheSet.exists_of_victim htook.takes
    have hgone : f.geometry.Has ⟨line.set, gone.tag⟩ := by
      rw [(Block.bare_eq_bare_iff.1 hbare).1]
      exact (hset.blocks hb).has hv
    have haligned := Nat.div_add_mod (f.geometry.addressOf other) f.geometry.blockSize
    rw [h.valid.addressOf_mod hhas, Nat.add_zero] at haligned
    rw [← h.valid.addressOf_eq_iff hgone hhas, ← haligned, ← haddress, departure, h.geometry_eq]

end Events

/-! ## Counts of a run -/

/-- How often a line was used since it came in, or the cap if it was more often. -/
def useCount (g : Geometry) (cap : Nat) (history : List Exchange) (line : Line) : Nat :=
  min (1 + hitsSinceFill (eventsOf g.blockSize (g.addressOf line) history)) cap

/-- The word of every line of the store is its use count. -/
def Counted (cap : Nat) (history : List Exchange) (s : Store AnyPolicy) : Prop :=
  ∀ ⦃index : Nat⦄ ⦃set : CacheSet⦄, s.sets[index]? = some set →
    ∀ ⦃way : Nat⦄ ⦃block : Block⦄, set.blocks[way]? = some block → block.valid = true →
      block.word = useCount s.geometry cap history ⟨index, block.tag⟩

variable {c : Config} {f : Frame} {cap : Nat} {s₀ s t : Store AnyPolicy} {policy policy' : Lfu}
  {call : Call} {calls : List Call} {answer : Except Refusal Reply}
  {past history : List Exchange} {index way : Nat} {line : Line} {set set' other : CacheSet}
  {turn : Turn} {block : Block}

theorem useCount_append (g : Geometry) (x : Exchange) (line : Line) :
    useCount g cap (past ++ [x]) line =
      min (1 + hitsSinceFill (eventsOf g.blockSize (g.addressOf line) past ++
        x.events g.blockSize (g.addressOf line))) cap := by
  simp [useCount, eventsOf]

/-- A line that stays in its way, while another one is hit, comes in or leaves, keeps its
count. -/
theorem Counted.of_bystander (hcounted : s.Counted cap past) (h : s.WellFormed f)
    (hrespond : s.respond call = .ok (answer, t))
    (htook : Took s ⟨call, answer⟩ t line set turn set') (hother : s.sets[index]? = some other)
    (hb : other.blocks[way]? = some block) (hv : block.valid = true)
    (hne : (⟨index, block.tag⟩ : Line) ≠ line)
    (hstays : ∀ way tag kind access gone, turn = .arrival way tag kind access (some gone) →
      (⟨line.set, gone.tag⟩ : Line) ≠ ⟨index, block.tag⟩) :
    block.word = useCount s.geometry cap (past ++ [⟨call, answer⟩]) ⟨index, block.tag⟩ := by
  have hhas := ((h.sets hother).blocks hb).has hv
  rw [useCount_append, htook.events_of_other h hrespond hne hhas hstays, List.append_nil]
  exact hcounted hother hb hv

/-- In the set that takes a turn, the line of the turn is counted and the others keep their
counts. -/
theorem Counted.of_took (hcounted : s.Counted policy.maxCount past) (h : s.WellFormed f)
    (ht : t.WellFormed f) (hpos : 0 < policy.maxCount) (hwidth : policy.maxCount < 2 ^ 64)
    (hrespond : s.respond call = .ok (answer, t))
    (htook : Took s ⟨call, answer⟩ t line set turn set')
    (hturn : set.Takes policy turn policy' set')
    (hb : set'.blocks[way]? = some block) (hv : block.valid = true) :
    block.word =
      useCount s.geometry policy.maxCount (past ++ [⟨call, answer⟩]) ⟨line.set, block.tag⟩ := by
  obtain ⟨-, -, -, hset⟩ := h.of_maps htook.maps
  have hset' := ht.sets htook.set_eq
  have hevents := htook.events_of_line h hrespond
  have htag := htook.tag_eq
  obtain ⟨-, hblocks⟩ := Lfu.takes_cases hturn
  -- Two ways never carry the same line.
  have happart : ∀ {u : CacheSet} {other : Nat} {found : Block}, u.WellFormed f line.set →
      u.blocks[way]? = some block → u.blocks[other]? = some found → found.valid = true →
      way ≠ other → block.tag ≠ found.tag := fun hu hblock hfound hvalid hne hsame =>
    hne (hu.unique ⟨block, hblock, Block.holds_iff.2 ⟨hv, hsame⟩⟩
      ⟨_, hfound, Block.holds_iff.2 ⟨hvalid, rfl⟩⟩)
  cases turn with
  | hit hitWay old access =>
    obtain ⟨hold, hvold, hblocks⟩ := hblocks
    rcases CacheSet.block_cases hblocks hb with ⟨rfl, rfl⟩ | ⟨hne, hsame⟩
    · have hword := hcounted htook.maps.2 hold hvold
      have hline : (⟨line.set, old.tag⟩ : Line) = line := Line.eq_iff.2 ⟨rfl, htag⟩
      obtain ⟨kind, hhit⟩ := hevents
      show policy.countUse old.word = useCount _ _ _ ⟨line.set, old.tag⟩
      rw [hword, hline, useCount_append, hhit, hitsSinceFill_hit, useCount,
        Lfu.countUse_min hwidth, Nat.add_assoc]
    · refine hcounted.of_bystander h hrespond htook htook.maps.2 hsame hv ?_ ?_
      · exact fun hline => happart hset hsame hold hvold hne
          ((Line.eq_iff.1 hline).2.trans htag.symm)
      · intro way tag kind access gone hturn
        cases hturn
  | arrival newWay tag kind access victim =>
    obtain ⟨old, hold, hblocks⟩ := hblocks
    have hnew : set'.blocks[newWay]? =
        some { old.fill tag kind access.isWrite with word := 1 } := by
      rw [hblocks, List.getElem?_set_self (List.getElem?_eq_some_iff.1 hold).1]
    rcases CacheSet.block_cases hblocks hb with ⟨rfl, rfl⟩ | ⟨hne, hsame⟩
    · have hline : (⟨line.set, tag⟩ : Line) = line := Line.eq_iff.2 ⟨rfl, htag⟩
      obtain ⟨earlier, at', kind, hfilled⟩ := hevents
      show 1 = useCount _ _ _ ⟨line.set, tag⟩
      rw [hline, useCount_append, hfilled, ← List.append_assoc, hitsSinceFill_filled]
      exact (Nat.min_eq_left hpos).symm
    · refine hcounted.of_bystander h hrespond htook htook.maps.2 hsame hv ?_ ?_
      · exact fun hline => happart hset' hb hnew rfl hne
          ((Line.eq_iff.1 hline).2.trans htag.symm)
      · intro way tag kind access gone hturn
        cases hturn
        obtain ⟨-, found, hfound, hvfound, hbare⟩ := CacheSet.exists_of_victim htook.takes
        rw [(Block.bare_eq_bare_iff.1 hbare).1]
        exact fun hline => happart hset hsame hfound hvfound hne (Line.eq_iff.1 hline).2.symm
  | departure leftWay gone =>
    obtain ⟨hgone, hvgone, hblocks⟩ := hblocks
    rcases CacheSet.block_cases hblocks hb with ⟨rfl, rfl⟩ | ⟨hne, hsame⟩
    · cases hv
    · refine hcounted.of_bystander h hrespond htook htook.maps.2 hsame hv ?_ ?_
      · exact fun hline => happart hset hsame hgone hvgone hne
          ((Line.eq_iff.1 hline).2.trans htag.symm)
      · intro way tag kind access gone hturn
        cases hturn

/-- A call that is answered leaves the word of every line its use count. -/
theorem Counted.respond (hcounted : s.Counted policy.maxCount past) (h : s.WellFormed f)
    (hpolicy : s.policy = .lfu policy) (hpos : 0 < policy.maxCount)
    (hwidth : policy.maxCount < 2 ^ 64) (hrespond : s.respond call = .ok (answer, t)) :
    t.policy = .lfu policy ∧ t.Counted policy.maxCount (past ++ [⟨call, answer⟩]) := by
  have ht := h.respond hrespond
  have hgeometry : t.geometry = s.geometry := ht.geometry_eq.trans h.geometry_eq.symm
  rcases h.respond_cases hrespond with ⟨hnone, hsets, hkept⟩ | ⟨line, set, turn, set', htook⟩
  · refine ⟨hkept.trans hpolicy, fun index set hset way block hb hv => ?_⟩
    rw [hsets] at hset
    obtain ⟨access, hevents⟩ := events_of_outcome hrespond s.geometry.blockSize
      (s.geometry.addressOf ⟨index, block.tag⟩)
    rw [hnone] at hevents
    rw [hgeometry, useCount_append, hevents, Option.map_none, Option.getD_none, List.append_nil]
    exact hcounted hset hb hv
  · have htakes := htook.takes
    rw [hpolicy] at htakes
    obtain ⟨policy', hpolicy', hturn⟩ := (AnyPolicy.lfu policy).takes_cases htakes
    have hsame := (Lfu.takes_cases hturn).1
    refine ⟨hpolicy'.trans (congrArg AnyPolicy.lfu hsame), ?_⟩
    intro index found hfound way block hb hv
    rw [hgeometry]
    by_cases hindex : index = line.set
    · subst hindex
      rw [htook.set_eq] at hfound
      cases hfound
      exact hcounted.of_took h ht hpos hwidth hrespond htook hturn hb hv
    · rw [htook.getElem?_of_ne hindex] at hfound
      refine hcounted.of_bystander h hrespond htook hfound hb hv ?_ ?_
      · exact fun hline => hindex (Line.eq_iff.1 hline).1
      · exact fun _ _ _ _ _ _ hline => hindex (Line.eq_iff.1 hline).1.symm

/-- The words of a run are use counts, by induction on the calls. -/
theorem WellFormed.counted_of_run (h : s.WellFormed f)
    (hcounted : s.Counted policy.maxCount past) (hpolicy : s.policy = .lfu policy)
    (hpos : 0 < policy.maxCount) (hwidth : policy.maxCount < 2 ^ 64)
    (hrun : Store.run calls s = .ok (history, t)) :
    t.policy = .lfu policy ∧ t.Counted policy.maxCount (past ++ history) := by
  induction calls generalizing s past history with
  | nil =>
    cases hrun
    rw [List.append_nil]
    exact ⟨hpolicy, hcounted⟩
  | cons call calls ih =>
    obtain ⟨answer, u, later, hrespond, hrest, rfl⟩ := run_cons_eq_ok_iff.1 hrun
    obtain ⟨hpolicy', hcounted'⟩ := hcounted.respond h hpolicy hpos hwidth hrespond
    rw [← List.singleton_append, ← List.append_assoc]
    exact ih (h.respond hrespond) hcounted' hpolicy' hrest

/-- A line has to go only from a set all of whose ways are taken.  Its word is the least of
the set, and that of no way before it is the same. -/
theorem Counted.least_of_eviction (hcounted : s.Counted policy.maxCount history)
    (h : s.WellFormed f) (hpolicy : s.policy = .lfu policy) (hwidth : policy.maxCount < 2 ^ 64)
    (hrespond : s.respond call = .ok (answer, t)) {install : Install}
    (harrival : Exchange.outcome? ⟨call, answer⟩ = some (.arrival install))
    {evicted : Eviction} (hevicted : evicted ∈ install.evicted) :
    ∃ set gone, s.sets[install.set]? = some set ∧ set.blocks[install.way]? = some gone ∧
      (∀ block ∈ set.blocks, block.valid = true) ∧
      evicted.address = s.geometry.addressOf ⟨install.set, gone.tag⟩ ∧
      ∀ {way : Nat} {block : Block}, set.blocks[way]? = some block →
        gone.word ≤ block.word ∧ (block.word = gone.word → install.way ≤ way) := by
  rcases h.respond_cases hrespond with ⟨hnone, -, -⟩ | ⟨line, set, turn, set', htook⟩
  · rw [harrival] at hnone
    cases hnone
  · have htold := harrival.symm.trans htook.outcome_eq
    cases turn with
    | hit way block access => cases htold
    | departure way block => cases htold
    | arrival way tag kind access victim =>
      cases htold
      obtain ⟨gone, rfl, rfl⟩ := Option.map_eq_some_iff.1 hevicted
      have htakes := htook.takes
      rw [hpolicy] at htakes
      obtain ⟨policy', -, hturn⟩ := (AnyPolicy.lfu policy).takes_cases htakes
      have hwords : ∀ found ∈ set.blocks, found.valid = true → found.word < 2 ^ 64 := by
        intro found hfound hv
        obtain ⟨other, hother⟩ := List.getElem?_of_mem hfound
        rw [hcounted htook.maps.2 hother hv]
        exact Nat.lt_of_le_of_lt (Nat.min_le_right _ _) hwidth
      obtain ⟨hvacancy, hgone, hleast⟩ := Lfu.least_of_victim hwords hturn
      exact ⟨set, gone, htook.maps.2, hgone, CacheSet.vacancy_eq_none_iff.1 hvacancy, rfl, hleast⟩

/-- The largest count of a configuration is positive and fits into 64 bits. -/
theorem maxCount_of_ofConfig (hbuilt : (ofConfig c).result = .ok s₀) (hpolicy : c.policy = .lfu) :
    ∃ policy, s₀.policy = .lfu policy ∧ policy.maxCount = 2 ^ c.params.useCountBits.toNat - 1 ∧
      0 < policy.maxCount ∧ policy.maxCount < 2 ^ 64 := by
  have hnamed := (untouched_of_ofConfig hbuilt).1
  obtain ⟨_, hconsistent, -⟩ := Config.geometry_eq_ok_iff.1 (wellFormed_of_ofConfig hbuilt).1
  have hrange := hconsistent.settings
  unfold AnyPolicy.ofConfig at hnamed
  rw [hpolicy] at hnamed
  rw [Config.SettingsInRange, hpolicy] at hrange
  have hcap := Lfu.maxCount_ofCounterBits hrange.2
  have hlow : 2 ^ 1 ≤ 2 ^ c.params.useCountBits.toNat := Nat.pow_le_pow_right (by decide) hrange.1
  have hhigh : 2 ^ c.params.useCountBits.toNat ≤ 2 ^ 64 :=
    Nat.pow_le_pow_right (by decide) hrange.2
  refine ⟨_, (Except.ok.inj hnamed).symm, hcap, ?_, ?_⟩
  · omega
  · omega

/-- A store of least frequently used lines answers every run that 64 bits can count.  In every
store that a run leads to, the word of every valid block is the number of uses of its line
since it came in, by the answers, or the largest count of the configuration if that is
smaller.  It fits into 64 bits.  Whatever the next call is, a line that has to go was used
least among the lines of its set, all of whose ways are taken, and comes before the others
that were used as little. -/
theorem use_counts_of_run (hbuilt : (ofConfig c).result = .ok s₀) (hpolicy : c.policy = .lfu) :
    (∀ calls : List Call, calls.length < 2 ^ 63 → ∃ history s, run calls s₀ = .ok (history, s)) ∧
    ∀ calls history s, run calls s₀ = .ok (history, s) →
      let count := useCount s.geometry (2 ^ c.params.useCountBits.toNat - 1) history
      (∀ index way block, s.block? index way = some block → block.valid = true →
        block.word = count ⟨index, block.tag⟩ ∧ block.word < 2 ^ 64) ∧
      ∀ call answer t install, s.respond call = .ok (answer, t) →
        Exchange.outcome? ⟨call, answer⟩ = some (.arrival install) →
        ∀ evicted ∈ install.evicted, ∃ gone,
          s.block? install.set install.way = some gone ∧ gone.valid = true ∧
          evicted.address = s.geometry.addressOf ⟨install.set, gone.tag⟩ ∧
          ∀ way < s.geometry.associativity, ∃ block,
            s.block? install.set way = some block ∧ block.valid = true ∧
            count ⟨install.set, gone.tag⟩ ≤ count ⟨install.set, block.tag⟩ ∧
            (count ⟨install.set, block.tag⟩ = count ⟨install.set, gone.tag⟩ →
              install.way ≤ way) := by
  obtain ⟨policy, hnamed, hcap, hpos, hwidth⟩ := maxCount_of_ofConfig hbuilt hpolicy
  refine ⟨fun calls hlength => long_run_ok hbuilt (by rw [hnamed]; rfl) hlength, ?_⟩
  intro calls history s hrun count
  have hwell₀ := (wellFormed_of_ofConfig hbuilt).2
  have hwell := hwell₀.run hrun
  have hempty : s₀.Counted policy.maxCount [] := by
    intro index set hset way block hb hv
    have hfree := ((untouched_of_ofConfig hbuilt).2 hset block (List.mem_of_getElem? hb)).1
    rw [hfree] at hv
    cases hv
  obtain ⟨hpolicy', hcounted⟩ := hwell₀.counted_of_run hempty hnamed hpos hwidth hrun
  rw [List.nil_append] at hcounted
  have hcount : ∀ {index : Nat} {set : CacheSet} {way : Nat} {block : Block},
      s.sets[index]? = some set → set.blocks[way]? = some block → block.valid = true →
      block.word = count ⟨index, block.tag⟩ := by
    intro index set way block hset hb hv
    show block.word = useCount _ (2 ^ c.params.useCountBits.toNat - 1) _ _
    rw [← hcap]
    exact hcounted hset hb hv
  refine ⟨fun index way block hblock hv => ?_, ?_⟩
  · obtain ⟨set, hset, hb⟩ := Option.bind_eq_some_iff.1 hblock
    refine ⟨hcount hset hb hv, ?_⟩
    rw [hcounted hset hb hv]
    exact Nat.lt_of_le_of_lt (Nat.min_le_right _ _) hwidth
  · intro call answer t install hrespond harrival evicted hevicted
    obtain ⟨set, gone, hset, hgone, hfull, haddress, hleast⟩ :=
      hcounted.least_of_eviction hwell hpolicy' hwidth hrespond harrival hevicted
    have hvgone := hfull gone (List.mem_of_getElem? hgone)
    refine ⟨gone, Option.bind_eq_some_iff.2 ⟨set, hset, hgone⟩, hvgone, haddress, ?_⟩
    intro way hway
    rw [hwell.geometry_eq, ← (hwell.sets hset).length_blocks] at hway
    obtain ⟨block, hb⟩ : ∃ block, set.blocks[way]? = some block :=
      ⟨_, List.getElem?_eq_getElem hway⟩
    have hv := hfull block (List.mem_of_getElem? hb)
    refine ⟨block, Option.bind_eq_some_iff.2 ⟨set, hset, hb⟩, hv, ?_⟩
    rw [← hcount hset hgone hvgone, ← hcount hset hb hv]
    exact hleast hb

/-- Two ways whose counts have one bit.  A line that was hit counts no more than one that
was not, so the lower way has to go although its line was used more. -/
theorem use_counts_of_saturated_lines :
    ∃ s₀ history s answer t, (ofConfig { Config.ofShape .lfu 128 64 2 with
        addressBits := 32, params := { useCountBits := 1 } }).result = .ok s₀ ∧
      run [.fill 0 .read, .fill 64 .read, .probe 0 .write] s₀ = .ok (history, s) ∧
      s.respond (.access 128 .read) = .ok (answer, t) ∧
      Exchange.outcome? ⟨.access 128 .read, answer⟩ = some (.arrival ⟨0, 0, some ⟨0, true⟩⟩) ∧
      ∃ gone, s.block? 0 0 = some gone ∧ gone.word = useCount s.geometry 1 history ⟨0, gone.tag⟩ ∧
        ∀ way < 2, ∃ block, s.block? 0 way = some block ∧
          useCount s.geometry 1 history ⟨0, gone.tag⟩ ≤
            useCount s.geometry 1 history ⟨0, block.tag⟩ := by
  obtain ⟨s₀, history, s, answer, t, hbuilt, hrun, hrespond, houtcome, hways⟩ :
      ∃ s₀ history s answer t, (ofConfig { Config.ofShape .lfu 128 64 2 with
          addressBits := 32, params := { useCountBits := 1 } }).result = .ok s₀ ∧
        run [.fill 0 .read, .fill 64 .read, .probe 0 .write] s₀ = .ok (history, s) ∧
        s.respond (.access 128 .read) = .ok (answer, t) ∧
        Exchange.outcome? ⟨.access 128 .read, answer⟩ =
          some (.arrival ⟨0, 0, some ⟨0, true⟩⟩) ∧ s.geometry.associativity = 2 :=
    ⟨_, _, _, _, _, rfl, rfl, rfl, rfl, rfl⟩
  obtain ⟨hcounts, hleast⟩ := (use_counts_of_run hbuilt rfl).2 _ _ _ hrun
  obtain ⟨gone, hgone, hv, -, hothers⟩ := hleast _ _ _ _ hrespond houtcome ⟨0, true⟩ rfl
  refine ⟨s₀, history, s, answer, t, hbuilt, hrun, hrespond, houtcome, gone, hgone,
    (hcounts _ _ _ hgone hv).1, fun way hway => ?_⟩
  obtain ⟨block, hblock, -, hle, -⟩ := hothers way (hways.symm ▸ hway)
  exact ⟨block, hblock, hle⟩

end Store

end AssocCache
