import AssocCache.Proofs.Policy.FillCounting
import AssocCache.Proofs.Store.Buildable
import AssocCache.Proofs.Store.LongRuns

/-!
# Fill counts in the runs of a store

Under write-back aware replacement the counter of a set is where the lines that came into it
on demand take the walk from zero (`Store.Walked`), by what the answers of the run told
(`Store.fillCount`).  Each call that is answered keeps it so (`Walked.respond`), and the only
calls that are not answered are those that would take a counter out of its 32 bits
(`Walked.respond_eq_error_iff`).

No counter passes the largest count of the configuration.  So there are such calls only if
the largest count is the largest that 32 bits can hold (`Store.fill_counts_of_run`), and
then there are some (`Store.fill_counts_overflow`).
-/

namespace AssocCache

open Success

/-- The access and the memory of the line that came into a set with a call, if one did. -/
def Exchange.fill? (kindOf : Nat → MemoryKind) (index : Nat) (x : Exchange) :
    Option (AccessKind × MemoryKind) :=
  match x.outcome?, x.call.fetch? with
  | some (.arrival install), some access =>
    if install.set = index then some (access, kindOf x.call.address) else none
  | _, _ => none

namespace Exchange

variable {x : Exchange} {kindOf : Nat → MemoryKind} {index : Nat}

theorem fill?_of_arrival {install : Install} {access : AccessKind}
    (harrival : x.outcome? = some (.arrival install)) (hfetch : x.call.fetch? = some access) :
    x.fill? kindOf index =
      if install.set = index then some (access, kindOf x.call.address) else none := by
  rw [fill?, harrival, hfetch]

theorem fill?_of_other (h : ∀ install, x.outcome? ≠ some (.arrival install)) :
    x.fill? kindOf index = none := by
  unfold fill?
  split
  · rename_i harrival _
    exact absurd harrival (h _)
  · rfl

end Exchange

namespace Store

/-! ## Counts that a history tells -/

section Counts

variable {π : Type} {f : Frame} {s t : Store π} {max index : Nat} {past : List Exchange}
  {x : Exchange}

/-- The lines that came into a set, in their order. -/
def fillsOf (s : Store π) (index : Nat) (history : List Exchange) :
    List (AccessKind × MemoryKind) :=
  history.filterMap (Exchange.fill? s.kindOf index)

/-- Where the lines that came into a set take its counter. -/
def fillCount (s : Store π) (max index : Nat) (history : List Exchange) : Nat :=
  (s.fillsOf index history).foldl (WriteBackAware.walk max) 0

theorem fillCount_le (s : Store π) (max index : Nat) (history : List Exchange) :
    s.fillCount max index history ≤ max :=
  WriteBackAware.foldl_walk_le _ (Nat.zero_le _)

/-- A store keeps its border, so no line changes its memory. -/
theorem WellFormed.fillCount_congr (h : s.WellFormed f) (h' : t.WellFormed f) (max index : Nat)
    (history : List Exchange) : t.fillCount max index history = s.fillCount max index history := by
  have hkind : t.kindOf = s.kindOf := by
    funext a
    rw [kindOf, kindOf, h.geometry_eq, h.regionBorder_eq, h'.geometry_eq, h'.regionBorder_eq]
  rw [fillCount, fillCount, fillsOf, fillsOf, hkind]

theorem fillCount_append :
    s.fillCount max index (past ++ [x]) =
      match x.fill? s.kindOf index with
      | some fill => WriteBackAware.walk max (s.fillCount max index past) fill
      | none => s.fillCount max index past := by
  rw [fillCount, fillsOf, List.filterMap_append, List.foldl_append, List.filterMap_cons]
  cases x.fill? s.kindOf index <;> rfl

theorem fillCount_append_of_arrival {install : Install} {access : AccessKind}
    (harrival : x.outcome? = some (.arrival install)) (hfetch : x.call.fetch? = some access) :
    s.fillCount max index (past ++ [x]) =
      if install.set = index then
        WriteBackAware.walk max (s.fillCount max index past) (access, s.kindOf x.call.address)
      else s.fillCount max index past := by
  rw [fillCount_append, Exchange.fill?_of_arrival harrival hfetch]
  by_cases hset : install.set = index
  · rw [if_pos hset, if_pos hset]
  · rw [if_neg hset, if_neg hset]

theorem fillCount_append_of_other (h : ∀ install, x.outcome? ≠ some (.arrival install)) :
    s.fillCount max index (past ++ [x]) = s.fillCount max index past := by
  rw [fillCount_append, Exchange.fill?_of_other h]

end Counts

/-! ## The counters of a store -/

/-- The store is around a policy whose counters are where a history took them. -/
structure Walked (max : Nat) (history : List Exchange) (s : Store AnyPolicy)
    (policy : WriteBackAware) : Prop where
  policy_eq : s.policy = .writeBackAware policy
  max_eq : policy.counterMax = max
  counterAt_eq : ∀ index < s.geometry.numSets,
    policy.counters.counterAt index = .ok (s.fillCount max index history)

/-- A call that would bring a line in and with it take the counter of a set out of its 32
bits. -/
def Overfills (s : Store AnyPolicy) (max : Nat) (history : List Exchange) (call : Call) : Prop :=
  ∃ access line, call.fetch? = some access ∧ s.geometry.locate call.address = .ok line ∧
    s.residenceOf line = none ∧
    WriteBackAware.Overfills (s.fillCount max line.set history) access (s.kindOf call.address)

variable {c : Config} {f : Frame} {s₀ s t : Store AnyPolicy} {policy : WriteBackAware}
  {max : Nat} {call : Call} {calls : List Call} {answer : Except Refusal Reply}
  {past history : List Exchange} {line : Line} {set : CacheSet} {a : Nat}

/-- No call takes a counter too far if the largest count is below the largest number of 32
bits. -/
theorem not_overfills (hmax : max + 1 < 2 ^ 32) (s : Store AnyPolicy) (history : List Exchange)
    (call : Call) : ¬ s.Overfills max history call := by
  rintro ⟨-, line, -, -, -, -, -, hcount⟩
  have hle := s.fillCount_le max line.set history
  omega

/-- The line of the call maps to a set, which lacks it and has counted too far for it. -/
theorem overfills_iff (h : s.WellFormed f) (call : Call) (hmaps : s.Maps call.address line set) :
    s.Overfills max past call ↔
      ∃ access, call.fetch? = some access ∧ set.find line.tag = none ∧
        WriteBackAware.Overfills (s.fillCount max line.set past) access
          (s.kindOf call.address) := by
  have hfind : s.residenceOf line = none ↔ set.find line.tag = none := by
    rw [residenceOf_eq hmaps.2, ← Option.map_eq_none_iff, (h.sets hmaps.2).map_way_residence]
  constructor
  · rintro ⟨access, _, hfetch, hlocate, habsent, hover⟩
    rw [hmaps.1] at hlocate
    cases hlocate
    exact ⟨access, hfetch, hfind.1 habsent, hover⟩
  · rintro ⟨access, hfetch, habsent, hover⟩
    exact ⟨access, line, hfetch, hmaps.1, hfind.2 habsent, hover⟩

namespace Walked

/-- The statistics are not the business of the policy. -/
theorem recount (hw : s.Walked max past policy) (stats : Stats) :
    Walked max past { s with stats } policy :=
  ⟨hw.policy_eq, hw.max_eq, hw.counterAt_eq⟩

/-- The count of the set that a line maps to. -/
theorem counterAt_of_maps (hw : s.Walked max past policy) (h : s.WellFormed f)
    (hmaps : s.Maps a line set) :
    policy.counters.counterAt line.set = .ok (s.fillCount max line.set past) :=
  hw.counterAt_eq line.set (h.geometry_eq ▸ (h.of_maps hmaps).2.2.1.1)

/-- The policy after a set took a turn. -/
theorem policy_of_took (hw : s.Walked max past policy) (h : s.WellFormed f) {x : Exchange}
    {turn : Turn} {set' : CacheSet} (htook : Took s x t line set turn set') :
    policy.counters.counterAt line.set = .ok (s.fillCount max line.set past) ∧
      t.policy = .writeBackAware
        (policy.afterTurn line.set (s.fillCount max line.set past) turn) := by
  obtain ⟨-, -, -, hset⟩ := h.of_maps htook.maps
  have hcount := hw.counterAt_of_maps h htook.maps
  have htakes := htook.takes
  rw [hw.policy_eq] at htakes
  obtain ⟨policy', hpolicy', hturn⟩ := (AnyPolicy.writeBackAware policy).takes_cases htakes
  refine ⟨hcount, hpolicy'.trans ?_⟩
  rw [← WriteBackAware.policy_of_takes hset hcount hturn]
  rfl

/-- Each call that is answered takes the counters where its answer says. -/
theorem respond (hw : s.Walked max past policy) (h : s.WellFormed f)
    (hrespond : s.respond call = .ok (answer, t)) :
    ∃ policy', t.Walked max (past ++ [⟨call, answer⟩]) policy' := by
  have ht := h.respond hrespond
  have hgeometry : t.geometry = s.geometry := ht.geometry_eq.trans h.geometry_eq.symm
  by_cases harrival : ∃ install, Exchange.outcome? ⟨call, answer⟩ = some (.arrival install)
  · obtain ⟨install, harrival⟩ := harrival
    obtain ⟨access, line, set, way, victim, set', hfetch, htook⟩ :=
      h.took_of_arrival hrespond harrival
    obtain ⟨hcount, hpolicy⟩ := hw.policy_of_took h htook
    refine ⟨_, hpolicy, hw.max_eq, fun index hindex => ?_⟩
    rw [hgeometry] at hindex
    rw [h.fillCount_congr ht, fillCount_append_of_arrival htook.outcome_eq hfetch,
      WriteBackAware.afterTurn, WriteBackAware.counterAt_recounted hcount, hw.max_eq]
    by_cases hsame : index = line.set
    · rw [if_pos hsame, if_pos hsame.symm, hsame]
    · rw [if_neg hsame, if_neg (Ne.symm hsame)]
      exact hw.counterAt_eq index hindex
  · have hother : ∀ install, Exchange.outcome? ⟨call, answer⟩ ≠ some (.arrival install) :=
      fun install hinstall => harrival ⟨install, hinstall⟩
    have hkept : t.policy = .writeBackAware policy := by
      rcases h.respond_cases hrespond with ⟨-, -, hkept⟩ | ⟨line, set, turn, set', htook⟩
      · exact hkept.trans hw.policy_eq
      · have hpolicy := (hw.policy_of_took h htook).2
        cases turn with
        | arrival way tag kind access victim => exact absurd htook.outcome_eq (hother _)
        | hit way block access => exact hpolicy
        | departure way block => exact hpolicy
    refine ⟨policy, hkept, hw.max_eq, fun index hindex => ?_⟩
    rw [hgeometry] at hindex
    rw [h.fillCount_congr ht, fillCount_append_of_other hother]
    exact hw.counterAt_eq index hindex

/-- The counters of a run, by induction on the calls. -/
theorem run (hw : s.Walked max past policy) (h : s.WellFormed f)
    (hrun : Store.run calls s = .ok (history, t)) :
    ∃ policy', t.Walked max (past ++ history) policy' := by
  induction calls generalizing s past policy history with
  | nil =>
    cases hrun
    rw [List.append_nil]
    exact ⟨policy, hw⟩
  | cons call calls ih =>
    obtain ⟨answer, u, later, hrespond, hrest, rfl⟩ := run_cons_eq_ok_iff.1 hrun
    obtain ⟨_, hw'⟩ := hw.respond h hrespond
    have hlater := ih hw' (h.respond hrespond) hrest
    rwa [List.append_assoc] at hlater

/-! ## Calls that are not answered -/

/-- A line comes into its set if the next count can be worked out. -/
theorem coupled_bringIn (hw : s.Walked max past policy) (h : s.WellFormed f)
    (hmaps : s.Maps a line set) (hfind : set.find line.tag = none) (access : AccessKind) :
    Coupled (fun _ => False) (fun _ _ => True)
      (WriteBackAware.nextCount max (s.fillCount max line.set past) access (s.kindOf a))
      (set.bringIn s.policy line.tag (s.kindOf a) access) := by
  obtain ⟨-, -, hhas, hset⟩ := h.of_maps hmaps
  have hpos : 0 < set.blocks.length := by
    rw [hset.length_blocks]
    exact h.valid.associativity_pos
  have hcount := hw.counterAt_of_maps h hmaps
  have hkind : s.kindOf a = .classify (f.geometry.addressOf line) f.regionBorder := by
    rw [h.kindOf_eq hmaps, h.geometry_eq, h.regionBorder_eq]
  have hinside := WriteBackAware.coupled_bringIn hset hcount hpos hfind hhas hkind access
  rw [hw.max_eq] at hinside
  rw [hw.policy_eq]
  have hclosed := @AnyPolicy.coupled_bringIn (.writeBackAware policy) policy set line.tag
    (fun _ => False) access (s.kindOf a)
  exact (hinside.trans hclosed).mono fun _ _ _ => trivial

/-- An absent line comes in, and the statistics count it, unless the counter of the set would
leave its 32 bits. -/
theorem fillWithin_cases (hw : s.Walked max past policy) (h : s.WellFormed f)
    (hmaps : s.Maps a line set) (hfind : set.find line.tag = none) (hroomy : s.stats.Roomy 1)
    (access : AccessKind) :
    if WriteBackAware.Overfills (s.fillCount max line.set past) access (s.kindOf a) then
      s.fillWithin line set access = .error (.overflow .add)
    else ∃ install t, s.fillWithin line set access = .ok (install, t) := by
  have hbring := hw.coupled_bringIn h hmaps hfind access
  unfold Store.fillWithin
  rw [← h.kindOf_eq hmaps]
  rw [WriteBackAware.nextCount_eq] at hbring
  split
  · rw [if_pos ‹_›] at hbring
    dsimp only
    rw [hbring.eq_error rfl]
    rfl
  · rw [if_neg ‹_›] at hbring
    obtain ⟨⟨way, victim, policy', set'⟩, hend, -⟩ := hbring.exists_ok rfl
    obtain ⟨stats, hstats, -⟩ := hroomy.countFill victim
    exact ⟨_, _, bind_eq_ok_iff.2 ⟨_, hend, bind_eq_ok_iff.2 ⟨stats, hstats, rfl⟩⟩⟩

theorem probeWithin_ok (hw : s.Walked max past policy) (h : s.WellFormed f)
    (hmaps : s.Maps a line set) (hroomy : s.stats.Roomy 1) (access : AccessKind) :
    ∃ lookup t, s.probeWithin line set access = .ok (lookup, t) := by
  obtain ⟨-, -, -, hset⟩ := h.of_maps hmaps
  unfold Store.probeWithin
  cases hfind : set.find line.tag with
  | some way =>
    obtain ⟨set', hhit⟩ := WriteBackAware.hit_ok hset (hw.counterAt_of_maps h hmaps) hfind access
    obtain ⟨x, hend, -⟩ := (@AnyPolicy.coupled_hit (.writeBackAware policy) policy set way
      (fun _ => False) access).exists_ok hhit
    obtain ⟨stats, hstats, -⟩ := hroomy.countHit
    rw [hw.policy_eq]
    exact ⟨_, _, bind_eq_ok_iff.2 ⟨x, hend, bind_eq_ok_iff.2 ⟨stats, hstats, rfl⟩⟩⟩
  | none =>
    obtain ⟨stats, hstats, -⟩ := hroomy.countMiss
    exact ⟨_, _, bind_eq_ok_iff.2 ⟨stats, hstats, rfl⟩⟩

theorem invalidateWithin_ok (hw : s.Walked max past policy) (h : s.WellFormed f)
    (hmaps : s.Maps a line set) (hroomy : s.stats.Roomy 0)
    (hoccupancy : s.stats.occupancy = s.lineCount) :
    ∃ evicted t, s.invalidateWithin line set = .ok (evicted, t) := by
  obtain ⟨-, -, -, hset⟩ := h.of_maps hmaps
  unfold Store.invalidateWithin
  cases hfind : set.find line.tag with
  | none => exact ⟨none, s, rfl⟩
  | some way =>
    obtain ⟨block, hb, hholds⟩ := hset.find_eq_some_iff.1 hfind
    obtain ⟨victim, left, hleave⟩ :=
      WriteBackAware.vacate_ok hset policy (List.getElem?_eq_some_iff.1 hb).1
    obtain ⟨-, gone, rfl, -⟩ := hset.vacate_of_find hfind hleave
    obtain ⟨x, hend, rfl⟩ := (@AnyPolicy.coupled_vacate (.writeBackAware policy) policy set way
      (fun _ => False)).exists_ok hleave
    -- The line that leaves was counted.
    have hlines : 0 < set.occupancy :=
      List.countP_pos_iff.2 ⟨block, List.mem_of_getElem? hb, (Block.holds_iff.1 hholds).1⟩
    have hle := occupancy_le_lineCount hmaps.2
    obtain ⟨stats, hstats, -⟩ := hroomy.countDeparture (by omega)
    rw [hw.policy_eq]
    exact ⟨_, _, bind_eq_ok_iff.2 ⟨_, hend, bind_eq_ok_iff.2 ⟨stats, hstats, rfl⟩⟩⟩

/-- A call for an absent line takes the counter of its set too far, or is answered. -/
theorem respondWithin_of_fetch (hw : s.Walked max past policy) (h : s.WellFormed f)
    (hmaps : s.Maps call.address line set) (hfind : set.find line.tag = none)
    (hroomy : s.stats.Roomy 2) {access : AccessKind} (hfetch : call.fetch? = some access) :
    if WriteBackAware.Overfills (s.fillCount max line.set past) access (s.kindOf call.address) then
      s.respondWithin line set call = .error (.overflow .add)
    else ∃ answer t, s.respondWithin line set call = .ok (answer, t) := by
  cases call with
  | probe a access => cases hfetch
  | invalidate a => cases hfetch
  | fill a access =>
    cases hfetch
    have hfill := hw.fillWithin_cases h hmaps hfind hroomy.weaken access
    rw [respondWithin, hfind, Option.isSome_none, if_neg Bool.false_ne_true]
    split at hfill
    · rw [if_pos ‹_›, hfill]
      rfl
    · obtain ⟨install, t, hend⟩ := hfill
      rw [if_neg ‹_›]
      exact ⟨_, t, bind_eq_ok_iff.2 ⟨_, hend, rfl⟩⟩
  | access a access =>
    cases hfetch
    obtain ⟨stats, hstats, hroomy', -⟩ := hroomy.countMiss
    have hfill :
      if WriteBackAware.Overfills (s.fillCount max line.set past) access (s.kindOf a) then
        Store.fillWithin { s with stats } line set access = .error (.overflow .add)
      else ∃ install t, Store.fillWithin { s with stats } line set access = .ok (install, t) :=
      (hw.recount stats).fillWithin_cases (h.recount stats) hmaps hfind hroomy' access
    rw [respondWithin_access_of_miss hfind, Call.address]
    split at hfill
    · rw [if_pos ‹_›]
      simp only [hstats, hfill, bind, Except.bind]
    · obtain ⟨install, t, hend⟩ := hfill
      rw [if_neg ‹_›]
      exact ⟨_, t, bind_eq_ok_iff.2 ⟨stats, hstats, bind_eq_ok_iff.2 ⟨_, hend, rfl⟩⟩⟩

/-- A call that brings no line in is answered. -/
theorem respondWithin_of_other (hw : s.Walked max past policy) (h : s.WellFormed f)
    (hmaps : s.Maps call.address line set) (hroomy : s.stats.Roomy 1)
    (hoccupancy : s.stats.occupancy = s.lineCount)
    (hother : call.fetch? = none ∨ ∃ way, set.find line.tag = some way) :
    ∃ answer t, s.respondWithin line set call = .ok (answer, t) := by
  cases call with
  | probe a access =>
    obtain ⟨lookup, t, hend⟩ := hw.probeWithin_ok h hmaps hroomy access
    exact ⟨_, t, bind_eq_ok_iff.2 ⟨_, hend, rfl⟩⟩
  | invalidate a =>
    obtain ⟨evicted, t, hend⟩ := hw.invalidateWithin_ok h hmaps hroomy.weaken hoccupancy
    exact ⟨_, t, bind_eq_ok_iff.2 ⟨_, hend, rfl⟩⟩
  | fill a access =>
    obtain hnone | ⟨way, hfind⟩ := hother
    · cases hnone
    · rw [respondWithin, hfind]
      exact ⟨_, s, rfl⟩
  | access a access =>
    obtain hnone | ⟨way, hfind⟩ := hother
    · cases hnone
    · obtain ⟨lookup, t, hend⟩ := hw.probeWithin_ok h hmaps hroomy access
      rw [respondWithin_access_of_hit hfind]
      exact ⟨_, t, bind_eq_ok_iff.2 ⟨_, hend, rfl⟩⟩

/-- The calls that are not answered are those that would take a counter out of its 32 bits. -/
theorem respond_cases (hw : s.Walked max past policy) (h : s.WellFormed f)
    (hroomy : s.stats.Roomy 2) (hoccupancy : s.stats.occupancy = s.lineCount) (call : Call) :
    s.Overfills max past call ∧ s.respond call = .error (.overflow .add) ∨
      ¬ s.Overfills max past call ∧ ∃ answer t, s.respond call = .ok (answer, t) := by
  rcases h.maps_cases call.address with ⟨-, set, hmaps⟩ | ⟨-, houtside⟩
  · rw [respond_of_maps hmaps, overfills_iff h call hmaps]
    by_cases hfetch : ∃ access, call.fetch? = some access ∧
        set.find (f.geometry.lineOf call.address).tag = none
    · obtain ⟨access, hfetch, hfind⟩ := hfetch
      have hcases := hw.respondWithin_of_fetch h hmaps hfind hroomy hfetch
      split at hcases
      · exact .inl ⟨⟨access, hfetch, hfind, ‹_›⟩, hcases⟩
      · refine .inr ⟨?_, hcases⟩
        rintro ⟨_, hfetch', -, hover⟩
        rw [hfetch] at hfetch'
        cases hfetch'
        exact absurd hover ‹_›
    · refine .inr ⟨fun ⟨access, hsome, hfind, _⟩ => hfetch ⟨access, hsome, hfind⟩, ?_⟩
      refine hw.respondWithin_of_other h hmaps hroomy.weaken hoccupancy ?_
      cases hsome : call.fetch? with
      | none => exact .inl rfl
      | some access =>
        exact .inr (Option.ne_none_iff_exists'.1 fun hfind => hfetch ⟨access, hsome, hfind⟩)
  · refine .inr ⟨?_, _, _, respond_of_outside houtside⟩
    rintro ⟨access, line, -, hlocate, -⟩
    rw [houtside] at hlocate
    cases hlocate

/-- The calls that are not answered are those that would take a counter out of its 32 bits. -/
theorem respond_eq_error_iff (hw : s.Walked max past policy) (h : s.WellFormed f)
    (hroomy : s.stats.Roomy 2) (hoccupancy : s.stats.occupancy = s.lineCount) (call : Call)
    (fault : Fault) :
    s.respond call = .error fault ↔ fault = .overflow .add ∧ s.Overfills max past call := by
  rcases hw.respond_cases h hroomy hoccupancy call with ⟨hover, hend⟩ | ⟨hover, answer, t, hend⟩
  · rw [hend]
    simp [hover, eq_comm]
  · rw [hend]
    simp [hover]

end Walked

/-! ## The stores of configurations -/

/-- A new store has counted nothing, and its largest count has 32 bits. -/
theorem walked_of_ofConfig (hbuilt : (ofConfig c).result = .ok s₀)
    (hpolicy : c.policy = .writeBackAware) :
    (∃ policy, s₀.Walked (c.counterMax s₀.geometry) [] policy) ∧
      c.counterMax s₀.geometry < 2 ^ 32 := by
  have hnamed := (untouched_of_ofConfig hbuilt).1
  unfold AnyPolicy.ofConfig at hnamed
  rw [hpolicy] at hnamed
  obtain ⟨preset, hpreset, hmap⟩ := bind_eq_ok_iff.1 hnamed
  obtain ⟨policy, hstart, hsame⟩ := map_eq_ok_iff.1 hmap
  obtain ⟨row, hrow, hpure⟩ := bind_eq_ok_iff.1 hstart
  obtain ⟨hwidth, rfl⟩ := Word.mul_eq_ok_iff.1 hpreset
  cases hpure
  refine ⟨⟨_, hsame.symm, rfl, fun index hindex => Counters.counterAt_zeros hrow hindex⟩, ?_⟩
  unfold Config.counterMax
  cases c.params.writeBackCounterMax with
  | none => exact hwidth
  | some given => exact UInt32.toNat_lt given

/-- What is known of a store that a run leads to. -/
theorem walked_of_run (hbuilt : (ofConfig c).result = .ok s₀) (hpolicy : c.policy = .writeBackAware)
    (hrun : run calls s₀ = .ok (history, s)) :
    (∃ policy, s.Walked (c.counterMax s₀.geometry) history policy) ∧
      (calls.length < 2 ^ 63 → ∀ call fault, s.respond call = .error fault ↔
        fault = .overflow .add ∧ s.Overfills (c.counterMax s₀.geometry) history call) := by
  have hfresh := (wellFormed_of_ofConfig hbuilt).2
  obtain ⟨⟨policy₀, hwalked₀⟩, -⟩ := walked_of_ofConfig hbuilt hpolicy
  obtain ⟨policy, hwalked⟩ := hwalked₀.run hfresh hrun
  refine ⟨⟨policy, hwalked⟩, fun hlength call fault => ?_⟩
  exact hwalked.respond_eq_error_iff (hfresh.run hrun)
    (roomy_of_run hbuilt hrun (by omega)) (occupancy_of_built hbuilt hrun) call fault

/-- A run that 64 bits can count succeeds, unless the largest count is all that 32 bits can
hold. -/
theorem run_ok_of_counterMax (hbuilt : (ofConfig c).result = .ok s₀)
    (hpolicy : c.policy = .writeBackAware) (hmax : c.counterMax s₀.geometry + 1 < 2 ^ 32)
    (hlength : calls.length < 2 ^ 63) : ∃ history s, run calls s₀ = .ok (history, s) := by
  induction calls using List.reverseRecOn with
  | nil => exact ⟨[], s₀, rfl⟩
  | append_singleton calls call ih =>
    rw [List.length_append, List.length_singleton] at hlength
    obtain ⟨history, s, hrun⟩ := ih (by omega)
    have hfaults := (walked_of_run hbuilt hpolicy hrun).2 (by omega) call
    cases hrespond : s.respond call with
    | ok x =>
      exact ⟨_, x.2, (run_append _ _ _ _ _).2 ⟨history, s, [⟨call, x.1⟩], hrun,
        run_cons_eq_ok_iff.2 ⟨x.1, x.2, [], hrespond, rfl, rfl⟩, rfl⟩⟩
    | error fault =>
      exact absurd ((hfaults fault).1 hrespond).2 (not_overfills hmax s history call)

/-- In every store that a run leads to, the counter of each set is where the lines that came
into it take the walk from zero: a line that was read or written on demand takes it up by one
if it is in DRAM, to the largest count at most, and down by one if it is in NVM, to zero at
most.  A write-back leaves it where it is, and so does everything else.

However long the run was, no call takes a counter out of its 32 bits if the largest count is
below `2 ^ 32 - 1`, and so a run that the statistics can count succeeds.  In any case a call
ends such a run in just one way: it would bring an absent DRAM line on demand into a set that
has counted `2 ^ 32 - 1`, for which the sum is worked out before it is cut off. -/
theorem fill_counts_of_run (hbuilt : (ofConfig c).result = .ok s₀)
    (hpolicy : c.policy = .writeBackAware) :
    (c.counterMax s₀.geometry + 1 < 2 ^ 32 → ∀ calls : List Call, calls.length < 2 ^ 63 →
      ∃ history s, run calls s₀ = .ok (history, s)) ∧
    ∀ calls history s, run calls s₀ = .ok (history, s) →
      (∃ policy, s.policy = .writeBackAware policy ∧
        policy.counterMax = c.counterMax s₀.geometry ∧
        ∀ index < s.geometry.numSets,
          policy.counters.counterAt index = .ok ((s.fillsOf index history).foldl
            (WriteBackAware.walk (c.counterMax s₀.geometry)) 0) ∧
          s.fillCount (c.counterMax s₀.geometry) index history ≤ c.counterMax s₀.geometry) ∧
      (c.counterMax s₀.geometry + 1 < 2 ^ 32 →
        ∀ call, ¬ s.Overfills (c.counterMax s₀.geometry) history call) ∧
      (calls.length < 2 ^ 63 → ∀ call fault, s.respond call = .error fault ↔
        fault = .overflow .add ∧ s.Overfills (c.counterMax s₀.geometry) history call) := by
  refine ⟨fun hmax calls => run_ok_of_counterMax hbuilt hpolicy hmax, ?_⟩
  intro calls history s hrun
  obtain ⟨⟨policy, hwalked⟩, hfaults⟩ := walked_of_run hbuilt hpolicy hrun
  refine ⟨⟨policy, hwalked.policy_eq, hwalked.max_eq, fun index hindex => ?_⟩,
    fun hmax => not_overfills hmax s history, hfaults⟩
  exact ⟨hwalked.counterAt_eq index hindex, s.fillCount_le _ index history⟩

/-! ## Fills of different lines -/

/-- An absent line of a store with one set, where all memory is DRAM. -/
theorem WellFormed.exists_maps_of_single (h : s.WellFormed f) (hsingle : f.geometry.numSets = 1)
    (hborder : f.regionBorder = none) (ha : a < 2 ^ f.geometry.addressBits)
    (habsent : s.residence a = none) :
    ∃ line set, s.Maps a line set ∧ line.set = 0 ∧ set.find line.tag = none ∧
      s.kindOf a = .dram := by
  obtain ⟨-, set, hmaps⟩ := (h.maps_cases a).resolve_right fun houtside =>
    absurd ha (Nat.not_lt.2 houtside.1)
  have hlt := (h.valid.has_lineOf ha).1
  refine ⟨_, set, hmaps, by omega, ?_, ?_⟩
  · rw [h.residence_of_lt ha, residenceOf_eq hmaps.2] at habsent
    rw [← (h.sets hmaps.2).map_way_residence, habsent]
    rfl
  · rw [kindOf, h.regionBorder_eq, hborder]
    rfl

/-- A line of a byte that is absent comes in and is counted. -/
theorem Walked.fill_byte (hw : s.Walked max past policy) (h : s.WellFormed f)
    (hroomy : s.stats.Roomy 1) (hsingle : f.geometry.numSets = 1) (hbyte : f.geometry.blockSize = 1)
    (hborder : f.regionBorder = none) (ha : a < 2 ^ f.geometry.addressBits)
    (habsent : s.residence a = none) (hcount : s.fillCount max 0 past + 1 < 2 ^ 32) :
    ∃ answer t, s.respond (.fill a .read) = .ok (answer, t) ∧
      t.fillCount max 0 (past ++ [⟨.fill a .read, answer⟩]) =
        min (s.fillCount max 0 past + 1) max ∧
      ∀ b, b ≠ a → s.residence b = none → t.residence b = none := by
  obtain ⟨line, set, hmaps, hset, hfind, hkind⟩ :=
    h.exists_maps_of_single hsingle hborder ha habsent
  have hfill := hw.fillWithin_cases h hmaps hfind hroomy .read
  rw [hset, hkind, if_neg fun hover => absurd hover.2.2 (Nat.not_le.2 hcount)] at hfill
  obtain ⟨install, t, hend⟩ := hfill
  have hresult : (Store.fill a .read).outcome s = .ok (install, t) := by
    rw [fill_of_maps hmaps hfind, hend]
    rfl
  obtain ⟨ht, hfilled⟩ := h.fill hresult
  obtain ⟨line', set', way, victim, _, htook⟩ :=
    h.took_of_fill (x := ⟨.fill a .read, .ok (.install install)⟩) hresult rfl rfl rfl
  have hplace : line'.set = 0 := by
    have hlt := (h.of_maps htook.maps).2.2.1.1
    omega
  refine ⟨.ok (.install install), t, respond_of_ok rfl hresult, ?_, fun b hne hb => ?_⟩
  · rw [h.fillCount_congr ht, fillCount_append_of_arrival htook.outcome_eq rfl, if_pos hplace,
      Call.address, hkind]
    rfl
  · rw [hfilled.residence_eq, hbyte, Nat.div_one, Nat.div_one, if_neg hne]
    split
    · rfl
    · exact hb

/-- Fills of different lines of a byte count one each, up to the largest count. -/
theorem fillCount_of_bytes (hbuilt : (ofConfig c).result = .ok s₀)
    (hpolicy : c.policy = .writeBackAware) (hsingle : s₀.geometry.numSets = 1)
    (hbyte : s₀.geometry.blockSize = 1) (hborder : c.regionBorder = none) (n : Nat)
    (hwide : n ≤ 2 ^ s₀.geometry.addressBits) (hn : n < 2 ^ 32) :
    ∃ history s, run ((List.range n).map (.fill · .read)) s₀ = .ok (history, s) ∧
      s.fillCount (c.counterMax s₀.geometry) 0 history = min n (c.counterMax s₀.geometry) ∧
      ∀ b, n ≤ b → s.residence b = none := by
  have hfresh := (wellFormed_of_ofConfig hbuilt).2
  induction n with
  | zero =>
    obtain ⟨_, _, _, _, hcreate⟩ := ofConfig_eq_ok_iff.1 hbuilt
    exact ⟨[], s₀, rfl, (Nat.zero_min _).symm, fun b _ => residence_fresh hcreate b⟩
  | succ n ih =>
    obtain ⟨history, s, hrun, hcount, habsent⟩ := ih (by omega) (by omega)
    obtain ⟨⟨policy, hwalked⟩, -⟩ := walked_of_run hbuilt hpolicy hrun
    have hroomy : s.stats.Roomy 1 := roomy_of_run hbuilt hrun (by
      rw [List.length_map, List.length_range]
      omega)
    obtain ⟨answer, t, hrespond, hnext, hothers⟩ :=
      hwalked.fill_byte (hfresh.run hrun) hroomy hsingle hbyte (by rw [hborder]; rfl)
        (Nat.lt_of_succ_le hwide) (habsent n (Nat.le_refl n)) (by omega)
    refine ⟨history ++ [⟨.fill n .read, answer⟩], t, ?_, ?_, fun b hb => ?_⟩
    · rw [List.range_succ, List.map_append]
      exact (run_append _ _ _ _ _).2 ⟨history, s, _, hrun,
        run_cons_eq_ok_iff.2 ⟨answer, t, [], hrespond, rfl, rfl⟩, rfl⟩
    · rw [hnext, hcount]
      omega
    · exact hothers b (by omega) (habsent b (by omega))

/-- Three lines of a byte under a largest count of 2. -/
theorem fill_counts_of_three_bytes :
    ∃ s₀ history s policy, (ofConfig { Config.ofShape .writeBackAware 1 1 1 with
        regionBorder := none, params := { writeBackCounterMax := some 2 } }).result = .ok s₀ ∧
      run [.fill 0 .read, .fill 1 .read, .fill 2 .read] s₀ = .ok (history, s) ∧
      s.policy = .writeBackAware policy ∧ policy.counters.counterAt 0 = .ok 2 := by
  obtain ⟨s₀, hbuilt, hsingle, hbyte, hbits, hmax⟩ :
      ∃ s₀, (ofConfig { Config.ofShape .writeBackAware 1 1 1 with
          regionBorder := none, params := { writeBackCounterMax := some 2 } }).result = .ok s₀ ∧
        s₀.geometry.numSets = 1 ∧ s₀.geometry.blockSize = 1 ∧ s₀.geometry.addressBits = 64 ∧
        Config.counterMax { Config.ofShape .writeBackAware 1 1 1 with
          regionBorder := none, params := { writeBackCounterMax := some 2 } } s₀.geometry = 2 :=
    ⟨_, rfl, rfl, rfl, rfl, rfl⟩
  obtain ⟨history, s, hrun, hcount, -⟩ := fillCount_of_bytes hbuilt rfl hsingle hbyte rfl 3
    (by rw [hbits]; decide) (by decide)
  obtain ⟨⟨policy, hpolicy, -, hcounters⟩, -⟩ := (fill_counts_of_run hbuilt rfl).2 _ _ _ hrun
  have hindex : 0 < s.geometry.numSets := by
    have hfresh := (wellFormed_of_ofConfig hbuilt).2
    rw [(hfresh.run hrun).geometry_eq, hsingle]
    exact Nat.one_pos
  refine ⟨s₀, history, s, policy, hbuilt, hrun, hpolicy, (hcounters 0 hindex).1.trans ?_⟩
  rw [hmax] at hcount ⊢
  exact congrArg Except.ok hcount

/-- The largest count there is.  After as many fills the next one is not answered, where the
walk would stay. -/
theorem fill_counts_overflow :
    ∃ s₀ history s, (ofConfig { Config.ofShape .writeBackAware 1 1 1 with
        regionBorder := none, params := { writeBackCounterMax := some 4294967295 } }).result =
          .ok s₀ ∧
      run ((List.range 4294967295).map (.fill · .read)) s₀ = .ok (history, s) ∧
      s.respond (.fill 4294967295 .read) = .error (.overflow .add) := by
  obtain ⟨s₀, hbuilt, hsingle, hbyte, hbits, hmax⟩ :
      ∃ s₀, (ofConfig { Config.ofShape .writeBackAware 1 1 1 with
          regionBorder := none, params := { writeBackCounterMax := some 4294967295 } }).result =
            .ok s₀ ∧
        s₀.geometry.numSets = 1 ∧ s₀.geometry.blockSize = 1 ∧ s₀.geometry.addressBits = 64 ∧
        Config.counterMax { Config.ofShape .writeBackAware 1 1 1 with
          regionBorder := none, params := { writeBackCounterMax := some 4294967295 } }
            s₀.geometry = 4294967295 := ⟨_, rfl, rfl, rfl, rfl, rfl⟩
  obtain ⟨history, s, hrun, hcount, habsent⟩ := fillCount_of_bytes hbuilt rfl hsingle hbyte rfl
    4294967295 (by rw [hbits]; decide) (by decide)
  refine ⟨s₀, history, s, hbuilt, hrun, ?_⟩
  have h := (wellFormed_of_ofConfig hbuilt).2.run hrun
  obtain ⟨line, set, hmaps, hset, hfind, hkind⟩ := h.exists_maps_of_single hsingle rfl
    (by rw [hbits]; decide) (habsent 4294967295 (Nat.le_refl _))
  refine ((walked_of_run hbuilt rfl hrun).2 ?_ _ _).2
    ⟨rfl, (overfills_iff h (.fill _ _) hmaps).2 ⟨.read, rfl, hfind, nofun, hkind, ?_⟩⟩
  · rw [List.length_map, List.length_range]
    decide
  · rw [hset, hcount, hmax]
    decide

end Store

end AssocCache
