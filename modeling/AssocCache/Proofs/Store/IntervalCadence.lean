import AssocCache.Proofs.CacheSet.StackMoves
import AssocCache.Proofs.Policy.DramDistrust
import AssocCache.Proofs.Policy.Touches
import AssocCache.Proofs.Store.LongRuns

/-!
# The cadence of intervals in the runs of a store

Two policies count the touches of each set, and what is counted is what the answers tell: the
hits of the set and the lines that came into it (`touchCount`).  The counter of a set is the
remainder of its touches by the length of an interval and one (`Store.Paced`).  Each call that
is answered keeps it so, and by induction a whole run does (`Paced.respond`, `Paced.run`).

So the touches of a set alone say which fills are on its interval, and with them where lines
start (`Store.interval_cadence_of_run`).  The other sets have no say.
-/

/-!
## Where lines start that come in on the interval

Two policies look whether the fill of a line completed the interval of its set.  Memory-type
aware prediction then gives the line a nearer prediction (`TypeAwareRrip.word_of_arrival`).
Thrash-resistant replacement puts it to the front of the stack, where otherwise only a line of
NVM goes that joins a line of DRAM (`ThrashResistant.position_of_arrival`).

The touch is counted before the line is placed, so both look at the counter that the turn
leaves behind.
-/

namespace AssocCache

open Success CacheSet

variable {f : Frame} {index way tag : Nat} {set set' : CacheSet} {kind : MemoryKind}
  {access : AccessKind} {victim : Option Block}

/-- The word of a line that came in. -/
theorem TypeAwareRrip.word_of_arrival {policy policy' : TypeAwareRrip}
    (hset : set.WellFormed f index)
    (h : set.Takes policy (.arrival way tag kind access victim) policy' set') :
    ∃ onInterval, policy'.intervals.isComplete index = .ok onInterval ∧
      set'.blocks[way]?.map (·.word) = some (policy'.insertion kind onInterval) := by
  obtain ⟨left, vacated, hvacated, haccept⟩ := accept_of_arrival hset h
  obtain ⟨block, onInterval, hb, -, hcomplete, hblocks⟩ := accept_cases haccept
  rw [hvacated.index_eq] at hcomplete
  refine ⟨onInterval, hcomplete, ?_⟩
  rw [hblocks, List.getElem?_set_self (List.getElem?_eq_some_iff.1 hb).1]
  rfl

/-- The place of a line that came in. -/
theorem ThrashResistant.position_of_arrival {policy policy' : ThrashResistant}
    (hset : set.WellFormed f index)
    (h : set.Takes policy (.arrival way tag kind access victim) policy' set') :
    ∃ onInterval, policy'.intervals.isComplete index = .ok onInterval ∧
      set'.stackPosition way = .ok
        (if onInterval = true ∨ holdsOtherDram set' way = true ∧ kind = .nvm then 0
          else f.geometry.associativity - 1) := by
  obtain ⟨left, vacated, hvacated, haccept⟩ := accept_of_arrival hset h
  obtain ⟨block, hb, -, told, filled, hfill, hinsert, -⟩ := accept_eq_ok_iff.1 haccept
  obtain ⟨touched, -, hfill⟩ := bind_eq_ok_iff.1 hfill
  have hfilled : filled = (vacated.put way (block.fill tag kind access.isWrite)).enter tag way :=
    (Prod.mk.inj (Except.ok.inj hfill)).2.symm
  have hentered : filled.blocks[way]? = some (block.fill tag kind access.isWrite) := by
    rw [hfilled]
    exact getElem?_fill_self hb _ tag
  have hperm : filled.stack.Perm (List.range f.geometry.associativity) := by
    rw [hfilled]
    exact hvacated.stack_perm
  have hindex : filled.index = index := by
    rw [hfilled]
    exact hvacated.index_eq
  obtain ⟨onInterval, hcomplete, rfl, hmem, rfl⟩ :=
    exists_of_onInsert hinsert hentered (hperm.nodup_iff.2 List.nodup_range)
  rw [hindex] at hcomplete
  refine ⟨onInterval, hcomplete, ?_⟩
  rw [stackPosition_of_moveTo hperm (moveTo_eq hmem _)]
  -- The move changed the stack and not the blocks.
  show Except.ok (min (if onInterval = true ∨ holdsOtherDram filled way = true ∧ kind = .nvm then 0
    else filled.stack.length) _) = Except.ok (if onInterval = true ∨
      holdsOtherDram filled way = true ∧ kind = .nvm then 0 else _)
  split
  · rw [Nat.zero_min]
  · rw [hperm.length_eq, List.length_range, Nat.min_eq_right (Nat.sub_le _ _)]

end AssocCache

/-! ## Touches of a history -/

namespace AssocCache

open Success

/-- The set that is touched. -/
def Outcome.touched? : Outcome → Option Nat
  | .hit set _ => some set
  | .arrival install => some install.set
  | .departure _ => none

/-- The set that a call touched, if it touched one. -/
def Exchange.touched? (x : Exchange) : Option Nat :=
  x.outcome?.bind Outcome.touched?

/-- How often a set was touched. -/
def touchCount (index : Nat) (history : List Exchange) : Nat :=
  history.countP (·.touched? == some index)

theorem touchCount_append (index : Nat) (past : List Exchange) (x : Exchange) :
    touchCount index (past ++ [x]) =
      touchCount index past + if x.touched? = some index then 1 else 0 := by
  rw [touchCount, List.countP_append, List.countP_singleton]
  simp only [beq_iff_eq]
  rfl

theorem touchCount_append_of_arrival {x : Exchange} {install : Install}
    (harrival : x.outcome? = some (.arrival install)) (past : List Exchange) :
    touchCount install.set (past ++ [x]) = touchCount install.set past + 1 := by
  rw [touchCount_append, Exchange.touched?, harrival]
  exact congrArg _ (if_pos rfl)

theorem Turn.touched?_outcome {π : Type} (s : Store π) (index : Nat) (turn : Turn) :
    (turn.outcome s index).touched? = if turn.isTouch then some index else none := by
  cases turn <;> rfl

/-- A policy that counts touches up to an interval has no limit on them. -/
theorem AnyPolicy.countsTouches_of_intervals? {policy : AnyPolicy} {intervals : Intervals}
    (h : policy.intervals? = some intervals) : policy.countsTouches = false := by
  cases policy with
  | thrashResistant _ | typeAwareRrip _ => rfl
  | _ => cases h

/-- An interval has 32 bits. -/
theorem Config.touchInterval?_lt {c : Config} {interval : Nat}
    (h : c.touchInterval? = some interval) : interval < 2 ^ 32 := by
  cases hkind : c.policy <;>
    simp only [Config.touchInterval?, hkind, reduceCtorEq, Option.some.injEq] at h
  case thrashResistant | typeAwareRrip =>
    rw [← h]
    exact UInt32.toNat_lt _

namespace Store

/-! ## The counters of a store -/

/-- The counters of the policy are as far as the touches of a history take them. -/
def Paced (interval : Nat) (history : List Exchange) (s : Store AnyPolicy) : Prop :=
  ∃ intervals, s.policy.intervals? = some intervals ∧ intervals.interval = interval ∧
    ∀ index < s.geometry.numSets, intervals.counters.counterAt index =
      .ok (touchCount index history % (interval + 1))

variable {c : Config} {f : Frame} {s₀ s t : Store AnyPolicy} {interval index : Nat}
  {call : Call} {calls : List Call} {answer : Except Refusal Reply} {past history : List Exchange}

namespace Paced

/-- The latest touch of a set completed its interval if it was the last one of a stretch. -/
theorem isComplete_eq (h : s.Paced interval history) (hindex : index < s.geometry.numSets) :
    ∃ intervals, s.policy.intervals? = some intervals ∧ intervals.isComplete index =
      .ok (touchCount index history % (interval + 1) == interval) := by
  obtain ⟨intervals, hintervals, rfl, hcounters⟩ := h
  exact ⟨intervals, hintervals, Intervals.isComplete_eq (hcounters index hindex)⟩

/-- Each call that is answered moves the counter of the set that it touched. -/
theorem respond (h : s.Paced interval past) (hwell : s.WellFormed f)
    (hrespond : s.respond call = .ok (answer, t)) :
    t.Paced interval (past ++ [⟨call, answer⟩]) := by
  obtain ⟨intervals, hintervals, rfl, hcounters⟩ := h
  have hgeometry : t.geometry = s.geometry :=
    (hwell.respond hrespond).geometry_eq.trans hwell.geometry_eq.symm
  unfold Paced
  simp only [touchCount_append, hgeometry]
  rcases hwell.respond_cases hrespond with ⟨hnone, -, hpolicy⟩ | ⟨line, set, turn, set', htook⟩
  · rw [Exchange.touched?, hnone, hpolicy]
    exact ⟨intervals, hintervals, rfl, hcounters⟩
  · obtain ⟨-, -, hhas, hset⟩ := hwell.of_maps htook.maps
    obtain ⟨after, hafter, htouch⟩ := AnyPolicy.touch_of_takes hset htook.takes hintervals
    rw [Exchange.touched?, htook.outcome_eq, Option.bind_some, Turn.touched?_outcome]
    by_cases htouches : turn.isTouch = true
    · rw [if_pos htouches] at htouch ⊢
      obtain ⟨hinterval, count, hcount, hmoved⟩ := Intervals.counterAt_of_touch htouch
      have hline : line.set < s.geometry.numSets := hwell.geometry_eq ▸ hhas.1
      rw [hcounters _ hline] at hcount
      cases hcount
      refine ⟨after, hafter, hinterval, fun index hindex => ?_⟩
      rw [hmoved]
      by_cases hsame : index = line.set
      · rw [if_pos hsame, if_pos (congrArg some hsame.symm), Intervals.next_mod, hsame]
      · rw [if_neg hsame, if_neg fun hother => hsame (Option.some.inj hother).symm]
        exact hcounters index hindex
    · rw [if_neg htouches] at htouch ⊢
      cases htouch
      exact ⟨intervals, hafter, rfl, hcounters⟩

/-- The counters of a run, by induction on the calls. -/
theorem run (h : s.Paced interval past) (hwell : s.WellFormed f)
    (hrun : Store.run calls s = .ok (history, t)) : t.Paced interval (past ++ history) := by
  induction calls generalizing s past history with
  | nil =>
    cases hrun
    rw [List.append_nil]
    exact h
  | cons call calls ih =>
    obtain ⟨answer, u, later, hrespond, hrest, rfl⟩ := run_cons_eq_ok_iff.1 hrun
    have hlater := ih (h.respond hwell hrespond) (hwell.respond hrespond) hrest
    rwa [List.append_assoc] at hlater

end Paced

/-- No set of a new store has been touched. -/
theorem paced_of_ofConfig (hbuilt : (ofConfig c).result = .ok s₀)
    (hinterval : c.touchInterval? = some interval) : s₀.Paced interval [] := by
  obtain ⟨hnamed, -⟩ := untouched_of_ofConfig hbuilt
  obtain ⟨intervals, hintervals, hsame, hzero⟩ :=
    AnyPolicy.exists_intervals_of_ofConfig hnamed hinterval
  refine ⟨intervals, hintervals, hsame, fun index hindex => ?_⟩
  rw [hzero index hindex]
  exact congrArg Except.ok (Nat.zero_mod _).symm

/-! ## The policies of a run -/

/-- Memory-type aware prediction stays what it is, with the same most distant prediction. -/
theorem typeAwareRrip_of_run (hbuilt : (ofConfig c).result = .ok s₀)
    (hpolicy : c.policy = .typeAwareRrip) (hrun : run calls s₀ = .ok (history, s)) :
    ∃ policy, s.policy = .typeAwareRrip policy ∧
      policy.max = 2 ^ c.params.typeAwarePredictionBits.toNat - 1 := by
  have hnamed := (untouched_of_ofConfig hbuilt).1
  unfold AnyPolicy.ofConfig at hnamed
  rw [hpolicy] at hnamed
  obtain ⟨built, hbuild, hclosed⟩ := map_eq_ok_iff.1 hnamed
  obtain ⟨max, hmax, hbuild⟩ := bind_eq_ok_iff.1 hbuild
  obtain ⟨intervals, -, hbuild⟩ := bind_eq_ok_iff.1 hbuild
  cases hbuild
  obtain ⟨-, rfl⟩ := Word.ones_eq_ok_iff.1 hmax
  refine (wellFormed_of_ofConfig hbuilt).2.policy_of_run (Q := fun any => ∃ policy,
    any = .typeAwareRrip policy ∧ policy.max = 2 ^ c.params.typeAwarePredictionBits.toNat - 1)
    (fun hset htakes hkept => ?_) hrun ⟨_, hclosed.symm, rfl⟩
  obtain ⟨policy, rfl, hmax⟩ := hkept
  obtain ⟨policy', rfl, hturn⟩ := (AnyPolicy.typeAwareRrip policy).takes_cases htakes
  exact ⟨policy', rfl, (TypeAwareRrip.constant.takes hset hturn).trans hmax⟩

/-- Thrash-resistant replacement stays what it is. -/
theorem thrashResistant_of_run (hbuilt : (ofConfig c).result = .ok s₀)
    (hpolicy : c.policy = .thrashResistant) (hrun : run calls s₀ = .ok (history, s)) :
    ∃ policy, s.policy = .thrashResistant policy := by
  have hnamed := (untouched_of_ofConfig hbuilt).1
  unfold AnyPolicy.ofConfig at hnamed
  rw [hpolicy] at hnamed
  obtain ⟨built, -, hclosed⟩ := map_eq_ok_iff.1 hnamed
  refine (wellFormed_of_ofConfig hbuilt).2.policy_of_run
    (Q := fun any => ∃ policy, any = .thrashResistant policy)
    (fun _ htakes hkept => ?_) hrun ⟨built, hclosed.symm⟩
  obtain ⟨policy, rfl⟩ := hkept
  obtain ⟨policy', rfl, -⟩ := (AnyPolicy.thrashResistant policy).takes_cases htakes
  exact ⟨policy', rfl⟩

/-! ## Fills on the interval -/

variable {install : Install}

namespace Paced

/-- What the policy sees of the interval when a line comes in. -/
theorem isComplete_of_arrival (h : s.Paced interval past) (hwell : s.WellFormed f)
    (hrespond : s.respond call = .ok (answer, t))
    (harrival : Exchange.outcome? ⟨call, answer⟩ = some (.arrival install)) :
    ∃ intervals, t.policy.intervals? = some intervals ∧ intervals.isComplete install.set =
      .ok ((touchCount install.set past + 1) % (interval + 1) == interval) := by
  obtain ⟨access, line, set, way, victim, set', -, htook⟩ := hwell.took_of_arrival hrespond harrival
  obtain ⟨-, -, hhas, -⟩ := hwell.of_maps htook.maps
  cases harrival.symm.trans htook.outcome_eq
  have hindex : line.set < t.geometry.numSets := (hwell.respond hrespond).geometry_eq ▸ hhas.1
  have hcomplete := (h.respond hwell hrespond).isComplete_eq hindex
  rwa [touchCount_append_of_arrival harrival] at hcomplete

/-- The prediction of a line that came in, under memory-type aware prediction. -/
theorem word_of_arrival (h : s.Paced interval past) (hwell : s.WellFormed f)
    {policy : TypeAwareRrip} (hpolicy : s.policy = .typeAwareRrip policy)
    (hrespond : s.respond call = .ok (answer, t))
    (harrival : Exchange.outcome? ⟨call, answer⟩ = some (.arrival install)) :
    (t.block? install.set install.way).map (·.word) = some (policy.insertion
      (s.kindOf call.address)
      ((touchCount install.set past + 1) % (interval + 1) == interval)) := by
  obtain ⟨intervals, hintervals, hcomplete⟩ := h.isComplete_of_arrival hwell hrespond harrival
  obtain ⟨access, line, set, way, victim, set', -, htook⟩ := hwell.took_of_arrival hrespond harrival
  obtain ⟨-, -, -, hset⟩ := hwell.of_maps htook.maps
  cases harrival.symm.trans htook.outcome_eq
  have htakes := htook.takes
  rw [hpolicy] at htakes
  obtain ⟨policy', hpolicy', hturn⟩ := (AnyPolicy.typeAwareRrip policy).takes_cases htakes
  rw [hpolicy'] at hintervals
  cases hintervals
  obtain ⟨onInterval, hseen, hword⟩ := TypeAwareRrip.word_of_arrival hset hturn
  cases hseen.symm.trans hcomplete
  have hmax : policy'.max = policy.max := TypeAwareRrip.constant.takes hset hturn
  have hsame : policy'.insertion = policy.insertion := by
    funext kind onInterval
    unfold TypeAwareRrip.insertion
    rw [hmax]
  rw [block?, htook.set_eq, ← hsame]
  exact hword

/-- The place of a line that came in, under thrash-resistant replacement. -/
theorem position_of_arrival (h : s.Paced interval past) (hwell : s.WellFormed f)
    {policy : ThrashResistant} (hpolicy : s.policy = .thrashResistant policy)
    (hrespond : s.respond call = .ok (answer, t))
    (harrival : Exchange.outcome? ⟨call, answer⟩ = some (.arrival install)) :
    ∃ set, t.sets[install.set]? = some set ∧ set.stackPosition install.way = .ok
      (if (touchCount install.set past + 1) % (interval + 1) = interval ∨
          ThrashResistant.holdsOtherDram set install.way = true ∧ s.kindOf call.address = .nvm
        then 0 else s.geometry.associativity - 1) := by
  obtain ⟨intervals, hintervals, hcomplete⟩ := h.isComplete_of_arrival hwell hrespond harrival
  obtain ⟨access, line, set, way, victim, set', -, htook⟩ := hwell.took_of_arrival hrespond harrival
  obtain ⟨-, -, -, hset⟩ := hwell.of_maps htook.maps
  cases harrival.symm.trans htook.outcome_eq
  have htakes := htook.takes
  rw [hpolicy] at htakes
  obtain ⟨policy', hpolicy', hturn⟩ := (AnyPolicy.thrashResistant policy).takes_cases htakes
  rw [hpolicy'] at hintervals
  cases hintervals
  obtain ⟨onInterval, hseen, hposition⟩ := ThrashResistant.position_of_arrival hset hturn
  cases hseen.symm.trans hcomplete
  simp only [beq_iff_eq, ← hwell.geometry_eq] at hposition
  exact ⟨set', htook.set_eq, hposition⟩

end Paced

/-- Thrash-resistant replacement and memory-type aware prediction with any interval answer
every run that 64 bits can count.  In every store that a run leads to, the counter of each set
is the remainder of its touches by the length of an interval and one, and so it is at most the
interval and within 32 bits.  Whatever the next call is, a line that it brings in comes with
the touch that follows those of its set.  It is on the interval if the number of that touch
leaves the remainder that the interval is.  Memory-type aware prediction then starts the line
two steps short of the most distant prediction, and otherwise at the most distant one for DRAM
and one step short of it for NVM.  Thrash-resistant replacement then puts it to the front of
the stack, and otherwise to the end, unless it is of NVM and joins a line of DRAM. -/
theorem interval_cadence_of_run (hbuilt : (ofConfig c).result = .ok s₀)
    (hinterval : c.touchInterval? = some interval) :
    (∀ calls : List Call, calls.length < 2 ^ 63 → ∃ history s, run calls s₀ = .ok (history, s)) ∧
    ∀ calls history s, run calls s₀ = .ok (history, s) →
      (∃ intervals, s.policy.intervals? = some intervals ∧ intervals.interval = interval ∧
        interval < 2 ^ 32 ∧ ∀ index < s.geometry.numSets, ∃ count,
          intervals.counters.counterAt index = .ok count ∧
          count = touchCount index history % (interval + 1) ∧ count ≤ interval) ∧
      ∀ call answer t install, s.respond call = .ok (answer, t) →
        Exchange.outcome? ⟨call, answer⟩ = some (.arrival install) →
        let touch := touchCount install.set history + 1
        let max := 2 ^ c.params.typeAwarePredictionBits.toNat - 1
        (t.policy.OnInterval install.set ↔ touch % (interval + 1) = interval) ∧
        (c.policy = .typeAwareRrip → (t.block? install.set install.way).map (·.word) = some
          (if touch % (interval + 1) = interval then max - 2
            else match s.kindOf call.address with
              | .dram => max
              | .nvm => max - 1)) ∧
        (c.policy = .thrashResistant → ∃ set, t.sets[install.set]? = some set ∧
          set.stackPosition install.way = .ok
            (if touch % (interval + 1) = interval ∨
                ThrashResistant.holdsOtherDram set install.way = true ∧
                  s.kindOf call.address = .nvm
              then 0 else s.geometry.associativity - 1)) := by
  have hfresh := (wellFormed_of_ofConfig hbuilt).2
  have hstart := paced_of_ofConfig hbuilt hinterval
  have hroomless : s₀.policy.countsTouches = false := by
    obtain ⟨_, hintervals, -⟩ := hstart
    exact AnyPolicy.countsTouches_of_intervals? hintervals
  refine ⟨fun _ hlength => long_run_ok hbuilt hroomless hlength, fun calls history s hrun => ?_⟩
  have hwell := hfresh.run hrun
  have hpaced : s.Paced interval history := hstart.run hfresh hrun
  refine ⟨?_, fun call answer t install hrespond harrival => ⟨?_, fun hpolicy => ?_,
    fun hpolicy => ?_⟩⟩
  · obtain ⟨intervals, hintervals, hsame, hcounters⟩ := hpaced
    refine ⟨intervals, hintervals, hsame, Config.touchInterval?_lt hinterval,
      fun index hindex => ?_⟩
    exact ⟨_, hcounters index hindex, rfl,
      Nat.le_of_lt_succ (Nat.mod_lt _ (Nat.succ_pos interval))⟩
  · obtain ⟨intervals, hintervals, hcomplete⟩ :=
      hpaced.isComplete_of_arrival hwell hrespond harrival
    rw [AnyPolicy.OnInterval, hintervals]
    simp only [Option.mem_some_iff, exists_eq_left', hcomplete, Except.ok.injEq, beq_iff_eq]
  · obtain ⟨policy, hnamed, hmax⟩ := typeAwareRrip_of_run hbuilt hpolicy hrun
    have hword := hpaced.word_of_arrival hwell hnamed hrespond harrival
    simp only [TypeAwareRrip.insertion, hmax, beq_iff_eq] at hword
    exact hword
  · obtain ⟨policy, hnamed⟩ := thrashResistant_of_run hbuilt hpolicy hrun
    exact hpaced.position_of_arrival hwell hnamed hrespond harrival

/-- Two sets of two ways under memory-type aware prediction with an interval of two.  A line
of NVM that comes into the first set is its second touch and on the interval.  One that comes
into the second set is its third touch, since that was also hit.  The miss, the refusal and the
line that left do not count. -/
theorem interval_cadence_of_two_sets :
    ∃ s₀ history s answer t answer' t', (ofConfig { Config.ofShape .typeAwareRrip 4 1 2 with
        regionBorder := some 100, params := { typeAwareInterval := 2 } }).result = .ok s₀ ∧
      run [.fill 0 .read, .fill 1 .write, .access 1 .read, .probe 3 .read, .fill 0 .read,
        .invalidate 1] s₀ = .ok (history, s) ∧
      s.respond (.fill 102 .read) = .ok (answer, t) ∧ t.policy.OnInterval 0 ∧
      (t.block? 0 1).map (·.word) = some 5 ∧
      s.respond (.access 103 .read) = .ok (answer', t') ∧ ¬ t'.policy.OnInterval 1 ∧
      (t'.block? 1 0).map (·.word) = some 6 := by
  obtain ⟨s₀, hbuilt, hnvm₀, heval⟩ : ∃ s₀,
      (ofConfig { Config.ofShape .typeAwareRrip 4 1 2 with
        regionBorder := some 100, params := { typeAwareInterval := 2 } }).result = .ok s₀ ∧
      s₀.kindOf 103 = .nvm ∧
      (do
        let past ← run [.fill 0 .read, .fill 1 .write, .access 1 .read, .probe 3 .read,
          .fill 0 .read, .invalidate 1] s₀
        let x ← past.2.respond (.fill 102 .read)
        let y ← past.2.respond (.access 103 .read)
        pure (Exchange.outcome? ⟨.fill 102 .read, x.1⟩,
          Exchange.outcome? ⟨.access 103 .read, y.1⟩, touchCount 0 past.1,
          touchCount 1 past.1)) =
        .ok (some (.arrival ⟨0, 1, none⟩), some (.arrival ⟨1, 0, none⟩), 1, 2) :=
    ⟨_, rfl, rfl, rfl⟩
  obtain ⟨⟨history, s⟩, hrun, heval⟩ := bind_eq_ok_iff.1 heval
  obtain ⟨⟨answer, t⟩, hrespond, heval⟩ := bind_eq_ok_iff.1 heval
  obtain ⟨⟨answer', t'⟩, hrespond', heval⟩ := bind_eq_ok_iff.1 heval
  obtain ⟨harrival, harrival', htouches, htouches'⟩ := by
    simpa only [pure_eq_ok_iff, Prod.mk.injEq] using heval
  have hfresh := (wellFormed_of_ofConfig hbuilt).2
  have hwell := hfresh.run hrun
  have hnvm : s.kindOf 103 = .nvm := by
    rw [kindOf, hwell.geometry_eq, hwell.regionBorder_eq, ← hfresh.regionBorder_eq]
    exact hnvm₀
  have hcalls := ((interval_cadence_of_run hbuilt rfl).2 _ _ _ hrun).2
  obtain ⟨hon, hword, -⟩ := hcalls _ _ _ _ hrespond harrival
  obtain ⟨hoff, hword', -⟩ := hcalls _ _ _ _ hrespond' harrival'
  have hnear := hword rfl
  have hfar := hword' rfl
  simp only [htouches] at hon hnear
  simp only [htouches'] at hoff hfar
  rw [Call.address, hnvm] at hfar
  exact ⟨s₀, history, s, answer, t, answer', t', hbuilt, hrun, hrespond, hon.2 rfl, hnear,
    hrespond', fun h => absurd (hoff.1 h) (by decide), hfar⟩

end Store

end AssocCache
