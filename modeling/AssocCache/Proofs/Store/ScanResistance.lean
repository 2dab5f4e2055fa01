import AssocCache.Proofs.Config.Consistent
import AssocCache.Proofs.Policy.Scanning

/-!
# Scan resistance

Lines keep coming into a full set, none of its lines is hit, and none is invalidated.  If
the policy distrusts every one of the new lines (`Store.Scans`), then all of them pass
through the way that the first one took: each pushes out the one before it, and the lines
in the other ways stay as they are (`scan_passes_through_one_way`).  The calls may concern
other sets in between, and may be refused.

The invariant is that the set is full, primed for the way, and holds the latest line there
(`Store.Scanned`).  Of the counters that make a policy trust a line, that of bimodal insertion
is spelled out: it is the number of fills of the store, up to whole intervals
(`bimodal_fills_of_run`).
-/

namespace AssocCache

open Success

/-- The call that brought a line into the set, and what the store says of the line. -/
def Exchange.arrival? (index : Nat) (x : Exchange) : Option (Call × Install) :=
  match x.outcome? with
  | some (.arrival install) => if install.set = index then some (x.call, install) else none
  | _ => none

/-- Whether the call brought a line in. -/
def Exchange.bringsLine (x : Exchange) : Bool :=
  match x.outcome? with
  | some (.arrival _) => true
  | _ => false

/-- The arrivals in a set, in the order of the calls. -/
def arrivals (index : Nat) (history : List Exchange) : List (Call × Install) :=
  history.filterMap (Exchange.arrival? index)

/-- A line came into the way and pushed out the one that an earlier call had brought there. -/
def PushesOut (g : Geometry) (way : Nat) (before : Call) (install : Install) : Prop :=
  install.way = way ∧
    install.evicted = some ⟨g.addressOf (g.lineOf before.address), before.isWrite⟩

/-- Use counts are those of a configuration that names them. -/
theorem AnyPolicy.lfu_of_ofConfig {c : Config} {g : Geometry} {counts : Lfu}
    (h : AnyPolicy.ofConfig c g = .ok (.lfu counts)) :
    c.policy = .lfu ∧ counts = .ofCounterBits c.params.useCountBits.toNat := by
  unfold AnyPolicy.ofConfig at h
  cases hkind : c.policy <;> simp only [hkind] at h
  case lfu =>
    cases h
    exact ⟨rfl, rfl⟩
  case staticRrip | dynamicRrip | thrashResistant | typeAwareRrip =>
    obtain ⟨_, -, hwrapped⟩ := map_eq_ok_iff.1 h
    cases hwrapped
  case writeBackAware =>
    obtain ⟨_, -, h⟩ := bind_eq_ok_iff.1 h
    obtain ⟨_, -, hwrapped⟩ := map_eq_ok_iff.1 h
    cases hwrapped
  case lru | random | fullyAssociativeLru | bimodal => cases h

namespace Store

/-- The call fits into a scan of the set: it hits no line of the set and makes none leave,
and a line that it brings in is distrusted. -/
def Scans (index : Nat) (s : Store AnyPolicy) (x : Exchange) (t : Store AnyPolicy) : Prop :=
  match x.outcome? with
  | some (.hit set _) => set ≠ index
  | some (.arrival install) => install.set = index → ∀ set, s.sets[index]? = some set →
    s.policy.Distrusts set (s.kindOf x.call.address) t.policy
  | some (.departure evicted) => (s.geometry.lineOf evicted.address).set ≠ index
  | none => True

/-- A scan has reached the set: it is full, and gives up the way next that the latest call
has brought a line into. -/
structure Scanned (s : Store AnyPolicy) (index way : Nat) (latest : Call) (set : CacheSet) :
    Prop where
  set_eq : s.sets[index]? = some set
  primed : s.policy.Primed set way
  full : ∀ block ∈ set.blocks, block.valid = true
  line_set : (s.geometry.lineOf latest.address).set = index
  holds : ∃ block, set.blocks[way]? = some block ∧
    block.tag = (s.geometry.lineOf latest.address).tag ∧ block.dirty = latest.isWrite

variable {f : Frame} {c : Config} {s₀ s t u : Store AnyPolicy} {x : Exchange}
  {first call latest : Call} {calls earlier : List Call} {answer : Except Refusal Reply}
  {history past : List Exchange} {index way : Nat} {set set' : CacheSet} {install : Install}

/-- A distrusted line that replaces another one. -/
theorem Took.scanned {line : Line} {tag : Nat} {kind : MemoryKind} {access : AccessKind}
    {gone : Block}
    (htook : Took s x t line set (.arrival way tag kind access (some gone)) set')
    (h : s.WellFormed f) (ht : t.WellFormed f) (hcounts : s.Upheld AnyPolicy.Counts)
    (hscan : s.Scans line.set x t) : t.Scanned line.set way x.call set' := by
  obtain ⟨-, hline, -, hset⟩ := h.of_maps htook.maps
  have hdistrust : s.policy.Distrusts set kind t.policy := by
    rw [Scans, htook.outcome_eq, ← htook.kind_eq] at hscan
    exact hscan rfl set htook.maps.2
  have hline' : t.geometry.lineOf x.call.address = line := by rw [ht.geometry_eq, hline]
  obtain ⟨hvacancy, -⟩ := CacheSet.exists_of_victim htook.takes
  obtain ⟨block, hb, hbare⟩ := CacheSet.bare_of_arrival htook.takes
  refine ⟨htook.set_eq, ?_, ?_, by rw [hline'], ?_⟩
  · exact AnyPolicy.primed_of_arrival hset (hcounts htook.maps.2) htook.takes hdistrust
  · intro found hfound
    have hmem := List.mem_map_of_mem (f := Block.bare) hfound
    rw [hbare] at hmem
    rcases List.mem_or_eq_of_mem_set hmem with hold | hnew
    · obtain ⟨before, hbefore, hsame⟩ := List.mem_map.1 hold
      rw [← (Block.bare_eq_bare_iff.1 hsame).2.1]
      exact CacheSet.vacancy_eq_none_iff.1 hvacancy before hbefore
    · exact (Block.bare_eq_bare_iff.1 hnew).2.1
  · have hlt : way < (set.blocks.map Block.bare).length := by
      rw [List.length_map]
      exact (List.getElem?_eq_some_iff.1 hb).1
    have hmap := congrArg (·[way]?) hbare
    rw [List.getElem?_map, List.getElem?_set_self hlt] at hmap
    obtain ⟨new, hnew, hsame⟩ := Option.map_eq_some_iff.1 hmap
    obtain ⟨htag, -, hdirty, -⟩ := Block.bare_eq_bare_iff.1 hsame
    rw [hline']
    exact ⟨new, hnew, htag.trans htook.tag_eq, hdirty.trans htook.isWrite_eq⟩

theorem Scanned.of_sets (hscanned : s.Scanned index way latest set)
    (hgeometry : t.geometry = s.geometry) (hset : t.sets[index]? = s.sets[index]?)
    (hprimed : t.policy.Primed set way) : t.Scanned index way latest set := by
  refine ⟨hset.trans hscanned.set_eq, hprimed, hscanned.full, ?_, ?_⟩
  · rw [hgeometry]
    exact hscanned.line_set
  · rw [hgeometry]
    exact hscanned.holds

/-- A turn of another set does not concern the scan. -/
theorem Took.scanned_elsewhere {line : Line} {turn : Turn} {found changed : CacheSet}
    (htook : Took s x t line found turn changed) (h : s.WellFormed f) (ht : t.WellFormed f)
    (hscanned : s.Scanned index way latest set) (hindex : index ≠ line.set) :
    x.arrival? index = none ∧ t.Scanned index way latest set := by
  obtain ⟨-, -, -, hset⟩ := h.of_maps htook.maps
  constructor
  · rw [Exchange.arrival?, htook.outcome_eq]
    cases turn with
    | arrival way tag kind access victim => exact if_neg (Ne.symm hindex)
    | hit way block access => rfl
    | departure way block => rfl
  · exact hscanned.of_sets (ht.geometry_eq.trans h.geometry_eq.symm)
      (htook.getElem?_of_ne hindex) (AnyPolicy.primed_of_takes hset htook.takes hscanned.primed)

/-- A line that comes into the set pushes out the latest one. -/
theorem Scanned.pushesOut (hscanned : s.Scanned index way latest set)
    {policy' : AnyPolicy} {way' tag : Nat} {kind : MemoryKind} {access : AccessKind}
    {victim : Option Block}
    (htakes : set.Takes s.policy (.arrival way' tag kind access victim) policy' set') :
    victim.isSome = true ∧
      PushesOut s.geometry way latest ⟨index, way', victim.map (s.departure index)⟩ := by
  cases htakes with
  | arrival hbring =>
    rcases CacheSet.bringIn_cases hbring with ⟨hvacancy, -, -⟩ |
      ⟨chosen, aged, gone, left, vacated, -, hchoice, rfl, hvacate, -⟩
    · obtain ⟨vacant, hvacant, hfree⟩ := CacheSet.exists_of_vacancy hvacancy
      rw [hscanned.full vacant (List.mem_of_getElem? hvacant)] at hfree
      cases hfree
    · rw [AnyPolicy.chooseVictim_of_primed hscanned.primed] at hchoice
      cases hchoice
      obtain ⟨hgone, -⟩ := CacheSet.exists_of_vacate hvacate
      obtain ⟨block, hb, htag, hdirty⟩ := hscanned.holds
      rw [hgone] at hb
      cases hb
      have hline : s.geometry.lineOf latest.address = ⟨index, gone.tag⟩ := by
        rw [← hscanned.line_set, htag]
      refine ⟨rfl, rfl, ?_⟩
      rw [Option.map_some, departure, hline, hdirty]

/-- A call of a scan leaves the set as it is, or brings a line into it that pushes out the
latest one. -/
theorem Scanned.respond (hscanned : s.Scanned index way latest set) (h : s.WellFormed f)
    (hcounts : s.Upheld AnyPolicy.Counts) (hrespond : s.respond call = .ok (answer, t))
    (hscan : s.Scans index ⟨call, answer⟩ t) :
    (Exchange.arrival? index ⟨call, answer⟩ = none ∧ t.Scanned index way latest set) ∨
      ∃ install set', Exchange.arrival? index ⟨call, answer⟩ = some (call, install) ∧
        PushesOut f.geometry way latest install ∧ t.Scanned index way call set' ∧
        ∀ other, other ≠ way →
          set'.blocks[other]?.map Block.bare = set.blocks[other]?.map Block.bare := by
  have ht := h.respond hrespond
  rcases h.respond_cases hrespond with ⟨hnone, hsets, hpolicy⟩ | ⟨line, found, turn, set', htook⟩
  · refine .inl ⟨by rw [Exchange.arrival?, hnone], ?_⟩
    refine hscanned.of_sets (ht.geometry_eq.trans h.geometry_eq.symm) (by rw [hsets]) ?_
    rw [hpolicy]
    exact hscanned.primed
  · by_cases hindex : index = line.set
    · subst hindex
      have hfound : found = set := Option.some.inj (htook.maps.2.symm.trans hscanned.set_eq)
      subst hfound
      have hscan' := hscan
      rw [Scans, htook.outcome_eq] at hscan'
      have htakes := htook.takes
      cases turn with
      | hit way block access => exact absurd rfl hscan'
      | departure way block =>
        cases htakes with
        | departure hvacate =>
          obtain ⟨hb, hv, -⟩ := CacheSet.exists_of_vacate hvacate
          have hline := h.lineOf_departure ((h.sets hscanned.set_eq).blocks hb) hv
          refine absurd ?_ hscan'
          rw [hline]
      | arrival way' tag kind access victim =>
        obtain ⟨hsome, hpushes⟩ := hscanned.pushesOut htakes
        obtain ⟨gone, rfl⟩ := Option.isSome_iff_exists.1 hsome
        have hway : way' = way := hpushes.1
        subst hway
        refine .inr ⟨_, set', ?_, h.geometry_eq ▸ hpushes, htook.scanned h ht hcounts hscan,
          fun _ => CacheSet.bare_getElem?_of_arrival htakes⟩
        rw [Exchange.arrival?, htook.outcome_eq]
        exact if_pos rfl
    · exact .inl (htook.scanned_elsewhere h ht hscanned hindex)

/-- Throughout a scan every line pushes out the one before it, and the other ways stay as
they are, by induction on the calls. -/
theorem Scanned.run (hscanned : s.Scanned index way latest set) (h : s.WellFormed f)
    (hcounts : s.Upheld AnyPolicy.Counts) (hscan : Throughout (Scans index) calls s)
    (hrun : Store.run calls s = .ok (history, t)) (place : Install) :
    ((latest, place) :: arrivals index history).IsChain
        (fun before after => PushesOut f.geometry way before.1 after.2) ∧
      ∃ set', t.sets[index]? = some set' ∧ ∀ other, other ≠ way →
        set'.blocks[other]?.map Block.bare = set.blocks[other]?.map Block.bare := by
  induction calls generalizing s latest set history place with
  | nil =>
    cases hrun
    exact ⟨.singleton _, set, hscanned.set_eq, fun _ _ => rfl⟩
  | cons call calls ih =>
    obtain ⟨answer, u, later, hrespond, hrest, rfl⟩ := run_cons_eq_ok_iff.1 hrun
    obtain ⟨hhere, hlater⟩ := hscan answer u hrespond
    have hu := h.respond hrespond
    have hcounts' := h.upheld_of_respond AnyPolicy.upholds_counts allows_any hcounts hrespond hhere
    rw [arrivals, List.filterMap_cons]
    rcases hscanned.respond h hcounts hrespond hhere with ⟨hnone, hscanned'⟩ |
      ⟨install, set₁, hsome, hpushes, hscanned', hothers⟩
    · rw [hnone]
      exact ih hscanned' hu hcounts' hlater hrest place
    · obtain ⟨hchain, set₂, hset₂, hothers'⟩ := ih hscanned' hu hcounts' hlater hrest install
      rw [hsome]
      refine ⟨List.isChain_cons_cons.2 ⟨hpushes, hchain⟩, set₂, hset₂, fun other hother => ?_⟩
      exact (hothers' other hother).trans (hothers other hother)

/-! ## What bimodal insertion counts -/

/-- Each arrival moves the counter of bimodal insertion one step on in its interval, by
induction on the calls. -/
theorem WellFormed.bimodal_fills (h : s.WellFormed f) {policy : Bimodal}
    (hpolicy : s.policy = .bimodal policy) (hless : policy.fills < policy.interval)
    (hrun : Store.run calls s = .ok (history, t)) :
    ∃ policy', t.policy = .bimodal policy' ∧ policy'.interval = policy.interval ∧
      policy'.fills = (policy.fills + history.countP (·.bringsLine)) % policy.interval := by
  induction calls generalizing s policy history with
  | nil =>
    cases hrun
    exact ⟨policy, hpolicy, rfl, (Nat.mod_eq_of_lt hless).symm⟩
  | cons call calls ih =>
    obtain ⟨answer, u, later, hrespond, hrest, rfl⟩ := run_cons_eq_ok_iff.1 hrun
    rw [List.countP_cons]
    rcases h.respond_cases hrespond with ⟨hnone, -, hsame⟩ | ⟨line, set, turn, set', htook⟩
    · have hbrings : Exchange.bringsLine ⟨call, answer⟩ = false := by
        rw [Exchange.bringsLine, hnone]
      rw [hbrings]
      exact ih (h.respond hrespond) (hsame.trans hpolicy) hless hrest
    · have htakes := htook.takes
      rw [hpolicy] at htakes
      obtain ⟨value, hvalue, hturn⟩ := (AnyPolicy.bimodal policy).takes_cases htakes
      have hnext : u.policy = .bimodal (if turn.isArrival then policy.counted else policy) := by
        rw [hvalue, ← Bimodal.policy_of_takes hturn]
        rfl
      have hbrings : Exchange.bringsLine ⟨call, answer⟩ = turn.isArrival := by
        rw [Exchange.bringsLine, htook.outcome_eq]
        cases turn <;> rfl
      rw [hbrings]
      cases harrival : turn.isArrival with
      | false =>
        rw [harrival] at hnext
        exact ih (h.respond hrespond) hnext hless hrest
      | true =>
        rw [harrival, if_pos rfl] at hnext
        have hfills := Bimodal.fills_counted hless
        have hless' : policy.counted.fills < policy.counted.interval := by
          rw [hfills]
          exact Nat.mod_lt _ (Nat.zero_lt_of_lt hless)
        obtain ⟨policy', hpolicy', hinterval, hcount⟩ := ih (h.respond hrespond) hnext hless' hrest
        refine ⟨policy', hpolicy', hinterval, hcount.trans ?_⟩
        show (policy.counted.fills + _) % policy.interval = _
        rw [hfills, Nat.mod_add_mod]
        congr 1
        simp only [if_true]
        omega

/-- The counter of bimodal insertion is the number of fills of the store, up to whole
intervals.  So the next fill is distrusted if it is not an interval-th one. -/
theorem bimodal_fills_of_run (hbuilt : (ofConfig c).result = .ok s₀)
    (hpolicy : c.policy = .bimodal) (hrun : run calls s₀ = .ok (history, s)) :
    ∃ policy, s.policy = .bimodal policy ∧
      policy.interval = max c.params.bimodalInterval.toNat 1 ∧
      policy.fills = history.countP (·.bringsLine) % policy.interval ∧
      ∀ set kind policy', s.policy.Distrusts set kind policy' ↔
        ¬ policy.interval ∣ history.countP (·.bringsLine) + 1 := by
  have hnamed := (untouched_of_ofConfig hbuilt).1
  unfold AnyPolicy.ofConfig at hnamed
  rw [hpolicy] at hnamed
  have hs₀ : s₀.policy = .bimodal (.start c.params.bimodalInterval.toNat) :=
    (Except.ok.inj hnamed).symm
  have hpos : 0 < (Bimodal.start c.params.bimodalInterval.toNat).interval :=
    Nat.lt_of_lt_of_le Nat.one_pos (Nat.le_max_right _ 1)
  obtain ⟨policy, hs, hinterval, hfills⟩ :=
    (wellFormed_of_ofConfig hbuilt).2.bimodal_fills hs₀ hpos hrun
  rw [← hinterval] at hpos hfills
  have hcount : policy.fills = history.countP (·.bringsLine) % policy.interval := by
    rw [hfills]
    exact congrArg (· % policy.interval) (Nat.zero_add _)
  refine ⟨policy, hs, hinterval, hcount, fun set kind policy' => ?_⟩
  rw [hs, Nat.dvd_iff_mod_eq_zero, ← Nat.mod_add_mod, ← hcount]
  have hless : policy.fills < policy.interval := by
    rw [hcount]
    exact Nat.mod_lt _ hpos
  show policy.fills + 1 < policy.interval ↔ _
  rcases Nat.lt_or_eq_of_le hless with hlt | heq
  · rw [Nat.mod_eq_of_lt hlt]
    exact ⟨fun _ => Nat.succ_ne_zero _, fun _ => hlt⟩
  · rw [← heq, Nat.mod_self]
    exact ⟨fun hlt => absurd hlt (Nat.lt_irrefl _), fun hne => absurd rfl hne⟩

/-! ## Runs of a scan -/

/-- In a new store no count is of any use yet, and counts have a bit at least. -/
theorem counts_of_ofConfig (hbuilt : (ofConfig c).result = .ok s₀) :
    s₀.Upheld AnyPolicy.Counts := by
  intro index set hset counts hcounts
  obtain ⟨hnamed, huntouched⟩ := untouched_of_ofConfig hbuilt
  rw [hcounts] at hnamed
  obtain ⟨hpolicy, rfl⟩ := AnyPolicy.lfu_of_ofConfig hnamed
  obtain ⟨_, hconsistent, -⟩ := Config.geometry_eq_ok_iff.1 (wellFormed_of_ofConfig hbuilt).1
  have hrange := hconsistent.settings
  rw [Config.SettingsInRange, hpolicy] at hrange
  refine ⟨?_, fun block hblock hv => ?_⟩
  · have hone : 1 < 2 ^ c.params.useCountBits.toNat :=
      Nat.one_lt_two_pow (Nat.one_le_iff_ne_zero.1 hrange.1)
    show 0 < if 64 ≤ c.params.useCountBits.toNat then 2 ^ 64 - 1 else
      2 ^ c.params.useCountBits.toNat - 1
    split <;> omega
  · rw [(huntouched hset block hblock).1] at hv
    cases hv

/-- In a store that a run leads to, a scan of a full set passes through the way that its first
line takes.  Every later line takes that way too, and pushes out the line that the scan
brought in before.  The other ways of the set keep their lines. -/
theorem scan_passes_through_one_way (hbuilt : (ofConfig c).result = .ok s₀)
    (hpast : run earlier s₀ = .ok (past, s))
    (hrun : run (first :: calls) s = .ok (⟨first, answer⟩ :: history, t))
    (hfirst : Exchange.outcome? ⟨first, answer⟩ = some (.arrival install))
    (hevicts : install.evicted.isSome = true)
    (hscan : Throughout (Scans install.set) (first :: calls) s) :
    (((first, install) :: arrivals install.set history).IsChain fun before after =>
        PushesOut s.geometry install.way before.1 after.2) ∧
      ∀ way, way ≠ install.way → (t.block? install.set way).map Block.bare =
        (s.block? install.set way).map Block.bare := by
  have hwell₀ := (wellFormed_of_ofConfig hbuilt).2
  have hwell := hwell₀.run hpast
  have hcounts := hwell₀.upheld_of_run AnyPolicy.upholds_counts allows_any
    (counts_of_ofConfig hbuilt) (throughout_of_forall (fun _ _ _ => trivial) earlier s₀) hpast
  obtain ⟨answer', u, later, hrespond, hrest, hhistory⟩ := run_cons_eq_ok_iff.1 hrun
  cases hhistory
  obtain ⟨hhere, hlater⟩ := hscan answer u hrespond
  have hu := hwell.respond hrespond
  have hcounts' :=
    hwell.upheld_of_respond AnyPolicy.upholds_counts allows_any hcounts hrespond hhere
  rcases hwell.respond_cases hrespond with ⟨hnone, -, -⟩ | ⟨line, set, turn, set₁, htook⟩
  · rw [hfirst] at hnone
    cases hnone
  · have hsame := hfirst.symm.trans htook.outcome_eq
    cases turn with
    | hit way block access => cases hsame
    | departure way block => cases hsame
    | arrival way tag kind access victim =>
      cases hsame
      obtain ⟨gone, rfl⟩ : ∃ gone, victim = some gone := by
        rw [Option.isSome_map] at hevicts
        exact Option.isSome_iff_exists.1 hevicts
      have hscanned := htook.scanned hwell hu hcounts hhere
      obtain ⟨hchain, set₂, hset₂, hothers⟩ := hscanned.run hu hcounts' hlater hrest _
      rw [hwell.geometry_eq]
      refine ⟨hchain, fun other hother => ?_⟩
      rw [block?, block?, hset₂, htook.maps.2]
      exact (hothers other hother).trans
        (CacheSet.bare_getElem?_of_arrival htook.takes hother)

/-- Two sets of two ways under bimodal insertion.  The first set holds a line that was hit.
Three lines pass through its other way, the second one written to, and a line comes into the
other set in between. -/
theorem scan_passes_through_second_way :
    ∃ s₀ past s answer history t, (ofConfig { Config.ofShape .bimodal 256 64 2 with
        addressBits := 32 }).result = .ok s₀ ∧
      run [.fill 0 .write, .fill 128 .read, .probe 0 .read] s₀ = .ok (past, s) ∧
      run [.fill 256 .read, .fill 384 .write, .access 64 .read, .access 512 .read] s =
        .ok (⟨.fill 256 .read, answer⟩ :: history, t) ∧
      (arrivals 0 history).map Prod.snd =
        [⟨0, 1, some ⟨256, false⟩⟩, ⟨0, 1, some ⟨384, true⟩⟩] ∧
      ∀ way, way ≠ 1 → (t.block? 0 way).map Block.bare = (s.block? 0 way).map Block.bare := by
  obtain ⟨s₀, past, s, answer, history, t, hbuilt, hpast, hrun, hfirst, harrivals, hscan⟩ :
      ∃ s₀ past s answer history t, (ofConfig { Config.ofShape .bimodal 256 64 2 with
          addressBits := 32 }).result = .ok s₀ ∧
        run [.fill 0 .write, .fill 128 .read, .probe 0 .read] s₀ = .ok (past, s) ∧
        run [.fill 256 .read, .fill 384 .write, .access 64 .read, .access 512 .read] s =
          .ok (⟨.fill 256 .read, answer⟩ :: history, t) ∧
        Exchange.outcome? ⟨.fill 256 .read, answer⟩ =
          some (.arrival ⟨0, 1, some ⟨128, false⟩⟩) ∧
        (arrivals 0 history).map Prod.snd =
          [⟨0, 1, some ⟨256, false⟩⟩, ⟨0, 1, some ⟨384, true⟩⟩] ∧
        Throughout (Scans 0)
          [.fill 256 .read, .fill 384 .write, .access 64 .read, .access 512 .read] s := by
    refine ⟨_, _, _, _, _, _, rfl, rfl, rfl, rfl, rfl, ?_⟩
    refine throughout_cons rfl ?_ (throughout_cons rfl ?_
      (throughout_cons rfl ?_ (throughout_cons rfl ?_ trivial)))
    · rintro - _ -
      show _ + 1 < _
      decide
    · rintro - _ -
      show _ + 1 < _
      decide
    · intro hset
      cases hset
    · rintro - _ -
      show _ + 1 < _
      decide
  obtain ⟨-, hothers⟩ := scan_passes_through_one_way hbuilt hpast hrun hfirst rfl hscan
  exact ⟨s₀, past, s, answer, history, t, hbuilt, hpast, hrun, harrivals, hothers⟩

end Store

end AssocCache
