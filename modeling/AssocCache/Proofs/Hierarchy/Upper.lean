import AssocCache.Proofs.Hierarchy.Conservation
import AssocCache.Proofs.Hierarchy.Demands
import Mathlib.Algebra.Order.BigOperators.Group.List

/-!
# The upper levels of a hierarchy

The levels of a hierarchy never look at the levels below them.  A hierarchy that is
built from the first configurations only does to its stores what the deeper one does to
its upper stores, and its main memory takes the place of the levels that are missing.

`Shadows` relates the two hierarchies in the midst of an access.  Each part of an access
that succeeds in the deeper hierarchy succeeds in the other one as well, and they stay
related, unless the cycles that the other one charges leave the range of a machine word.
Main memory may be asked more often there, so its cycles may well be more
(`upperCycles`).
-/

namespace AssocCache

open AssocCache.Action Success

/-- The hit latency of a level. -/
def Layout.latencyAt (layout : Layout) (level : Nat) : Nat :=
  (layout.shapes[level]?.map (·.hitLatency)).getD 0

namespace Hierarchy

variable {h h' g : Hierarchy} {l : Level} {layout : Layout} {lines level first address k : Nat}
  {asked pending : List Nat} {kind : AccessKind}

/-! ## Cycles of the upper levels -/

/-- The cycles that a level was charged. -/
def cyclesAt (h : Hierarchy) (level : Nat) : Nat :=
  h.layout.latencyAt level * ((h.tallyAt level).hits + (h.tallyAt level).misses)

/-- The cycles of the first levels, and of a main memory right below them. -/
def upperCycles (h : Hierarchy) (k : Nat) : Nat :=
  ((List.range k).map h.cyclesAt).sum + h.memoryLatency * (h.tallyAt (k - 1)).misses

theorem cyclesAt_eq (hl : h.levels[level]? = some l) : h.cyclesAt level = l.cycles := by
  rw [cyclesAt, tallyAt_eq hl, Layout.latencyAt, layout, List.getElem?_map, hl]
  rfl

theorem lookupCycles_eq (h : Hierarchy) :
    h.lookupCycles = ((List.range h.levels.length).map h.cyclesAt).sum := by
  unfold lookupCycles
  congr 1
  refine List.ext_getElem (by simp) fun level hleft hright => ?_
  rw [List.length_map] at hleft
  rw [List.getElem_map, List.getElem_map, List.getElem_range,
    cyclesAt_eq (List.getElem?_eq_getElem hleft)]

/-- A hierarchy that has counted more. -/
structure Grows (h h' : Hierarchy) : Prop where
  layout : h'.layout = h.layout
  hits : ∀ level, (h.tallyAt level).hits ≤ (h'.tallyAt level).hits
  misses : ∀ level, (h.tallyAt level).misses ≤ (h'.tallyAt level).misses

theorem Grows.refl (h : Hierarchy) : Grows h h :=
  ⟨rfl, fun _ => Nat.le_refl _, fun _ => Nat.le_refl _⟩

theorem Grows.trans {h₁ h₂ h₃ : Hierarchy} (hfirst : Grows h₁ h₂) (hsecond : Grows h₂ h₃) :
    Grows h₁ h₃ :=
  ⟨hsecond.layout.trans hfirst.layout, fun level => (hfirst.hits level).trans (hsecond.hits level),
    fun level => (hfirst.misses level).trans (hsecond.misses level)⟩

theorem Grows.of_levels_eq (hlevels : h'.levels = h.levels)
    (hlatency : h'.memoryLatency = h.memoryLatency) : Grows h h' := by
  have htally : ∀ level, h'.tallyAt level = h.tallyAt level := fun level => by
    rw [tallyAt, tallyAt, hlevels]
  refine ⟨?_, fun level => ?_, fun level => ?_⟩
  · rw [Hierarchy.layout, Hierarchy.layout, hlevels, hlatency]
  · rw [htally]
  · rw [htally]

theorem Counted.grows {tallied stored : Tally} (hcounted : Counted level tallied stored h h') :
    Grows h h' := by
  refine ⟨hcounted.layout, fun other => ?_, fun other => ?_⟩
  · rw [hcounted.tally]
    split
    · rename_i hother
      subst hother
      exact Nat.le_add_right _ _
    · exact Nat.le_refl _
  · rw [hcounted.tally]
    split
    · rename_i hother
      subst hother
      exact Nat.le_add_right _ _
    · exact Nat.le_refl _

theorem steady_grows (h₀ : Hierarchy) : Steady 0 (Grows h₀) where
  visit _ hgrows hstep := hgrows.trans (counted_of_visit hstep).grows
  deposit _ hgrows hstep := hgrows.trans (counted_of_deposit hstep).grows
  memoryAccess hgrows hstep := by
    obtain ⟨accesses, cycles, -, -, rfl⟩ := countMemoryAccess_eq_ok_iff.1 hstep
    exact hgrows.trans (.of_levels_eq rfl rfl)
  memoryWriteback hgrows hstep := by
    obtain ⟨writebacks, -, rfl⟩ := countMemoryWriteback_eq_ok_iff.1 hstep
    exact hgrows.trans (.of_levels_eq rfl rfl)

theorem Grows.upperCycles_le (hgrows : Grows h h') (k : Nat) :
    h.upperCycles k ≤ h'.upperCycles k := by
  have hlatency : h'.memoryLatency = h.memoryLatency := congrArg Layout.memoryLatency hgrows.layout
  unfold upperCycles
  rw [hlatency]
  refine Nat.add_le_add (List.sum_le_sum fun level _ => ?_)
    (Nat.mul_le_mul_left _ (hgrows.misses _))
  unfold cyclesAt
  rw [hgrows.layout]
  exact Nat.mul_le_mul_left _ (Nat.add_le_add (hgrows.hits level) (hgrows.misses level))

/-! ## Two hierarchies in the midst of an access -/

/-- A hierarchy has the upper levels of a deeper one, and its own ledger. -/
structure Shadows (layout : Layout) (lines : Nat) (asked pending : List Nat) (h g : Hierarchy) :
    Prop where
  pos : 0 < layout.depth
  le : layout.depth ≤ h.levels.length
  levels : g.levels = h.levels.take layout.depth
  memoryLatency : g.memoryLatency = h.memoryLatency
  ledger : Ledger layout lines asked pending g

/-- The only way in which the hierarchy without the lower levels can fail. -/
def Outgrown (k : Nat) (h : Hierarchy) (failure : Failure) : Prop :=
  failure = .aborted (.overflow .add) ∧ 2 ^ 64 ≤ h.upperCycles k

theorem Outgrown.grow {failure : Failure} (houtgrown : Outgrown k h failure)
    (hgrows : Grows h h') : Outgrown k h' failure :=
  ⟨houtgrown.1, houtgrown.2.trans (hgrows.upperCycles_le k)⟩

namespace Shadows

theorem getElem?_eq (hshadows : Shadows layout lines asked pending h g)
    (hlevel : level < layout.depth) : g.levels[level]? = h.levels[level]? := by
  rw [hshadows.levels, List.getElem?_take_of_lt hlevel]

theorem tallyAt_eq (hshadows : Shadows layout lines asked pending h g)
    (hlevel : level < layout.depth) : g.tallyAt level = h.tallyAt level := by
  rw [tallyAt, tallyAt, hshadows.getElem?_eq hlevel]

/-- The cycles charged so far, and those of the demands that main memory is still to
serve. -/
theorem upperCycles_eq (hshadows : Shadows layout lines asked pending h g) :
    h.upperCycles layout.depth =
      g.cycles + layout.memoryLatency * asked.count layout.depth := by
  have hpos := hshadows.pos
  have hledger := hshadows.ledger
  have hlatency : g.memoryLatency = layout.memoryLatency := by
    rw [← hledger.layout_eq]
    rfl
  have hlookups : g.lookupCycles = ((List.range layout.depth).map h.cyclesAt).sum := by
    rw [lookupCycles_eq, hledger.length_eq]
    congr 1
    refine List.map_congr_left fun level hlevel => ?_
    have hlt := List.mem_range.1 hlevel
    obtain ⟨l, hl⟩ : ∃ l, g.levels[level]? = some l :=
      ⟨_, List.getElem?_eq_getElem (hledger.length_eq ▸ hlt)⟩
    rw [cyclesAt_eq hl, cyclesAt_eq ((hshadows.getElem?_eq hlt).symm.trans hl)]
  have hmissed := hledger.demands (layout.depth - 1) (by omega)
  rw [Nat.sub_add_cancel hpos, demandsAt, hledger.length_eq, if_neg (Nat.lt_irrefl _),
    hshadows.tallyAt_eq (by omega)] at hmissed
  rw [upperCycles, ← hlookups, ← hmissed, ← hshadows.memoryLatency, hlatency, Nat.mul_add,
    hledger.cycles, Nat.add_assoc]

/-- What happens below is not seen. -/
theorem of_take_eq (hshadows : Shadows layout lines asked pending h g)
    (hlevels : h'.levels.take layout.depth = h.levels.take layout.depth)
    (hlayout : h'.layout = h.layout) : Shadows layout lines asked pending h' g where
  pos := hshadows.pos
  le := by
    rw [length_levels, hlayout, ← length_levels]
    exact hshadows.le
  levels := hshadows.levels.trans hlevels.symm
  memoryLatency := hshadows.memoryLatency.trans (congrArg Layout.memoryLatency hlayout).symm
  ledger := hshadows.ledger

/-- A level is exchanged in both hierarchies. -/
theorem set {lines' : Nat} {asked' pending' : List Nat} {l' : Level} {cycles' : Nat}
    (hshadows : Shadows layout lines asked pending h g) (cycles : Nat)
    (hledger : Ledger layout lines' asked' pending'
      { g with levels := g.levels.set level l', cycles := cycles' }) :
    Shadows layout lines' asked' pending' { h with levels := h.levels.set level l', cycles }
      { g with levels := g.levels.set level l', cycles := cycles' } where
  pos := hshadows.pos
  le := by
    show _ ≤ (h.levels.set level l').length
    rw [List.length_set]
    exact hshadows.le
  levels := by
    show g.levels.set level l' = (h.levels.set level l').take layout.depth
    rw [List.take_set, hshadows.levels]
  memoryLatency := hshadows.memoryLatency
  ledger := hledger

/-- A demand is put to a level of both hierarchies. -/
theorem visit (hshadows : Shadows layout lines (level :: asked) pending h g)
    (hlevel : level < layout.depth) {outcome : AccessOutcome}
    (hfull : (Hierarchy.visit address level kind).step h = (.ok outcome, h')) :
    Ends (Hierarchy.visit address level kind) g
      (fun answer g' => answer = outcome ∧ g'.cycles < 2 ^ 64 ∧
        Shadows layout lines (if outcome.hit then asked else (level + 1) :: asked)
          (due (level + 1) outcome.evicted ++ pending) h' g')
      (fun failure _ => Outgrown layout.depth h' failure) := by
  obtain ⟨l, store, tally, cycles, hl, haccess, -, hcount, rfl⟩ := visit_eq_ok_iff.1 hfull
  have hl' := (hshadows.getElem?_eq hlevel).trans hl
  have hledger := hshadows.ledger.answer (counted_of_answer hl' haccess hcount)
  have hshadows' := hshadows.set cycles hledger
  by_cases hlt : g.cycles + outcome.lookup.latency < 2 ^ 64
  · refine ends_of_ok (visit_eq_ok_iff.2 ⟨l, store, tally, _, hl', haccess,
      Word.add_eq_ok_iff.2 ⟨hlt, rfl⟩, hcount, rfl⟩) ⟨rfl, hlt, hshadows'⟩
  · obtain ⟨g', hstep⟩ := visit_of_overflow hl' haccess (if_neg hlt)
    refine ends_of_error hstep ⟨rfl, ?_⟩
    rw [hshadows'.upperCycles_eq]
    exact (Nat.le_of_not_lt hlt).trans (Nat.le_add_right _ _)

/-- A line is written back into a level of both hierarchies. -/
theorem deposit (hshadows : Shadows layout lines asked (level :: pending) h g)
    (hpos : 0 < level) (hlevel : level < layout.depth) (hlt : g.cycles < 2 ^ 64)
    {outcome : AccessOutcome}
    (hfull : (Hierarchy.deposit address level).step h = (.ok outcome, h')) :
    Ends (Hierarchy.deposit address level) g
      (fun answer g' => answer = outcome ∧ g'.cycles < 2 ^ 64 ∧
        Shadows layout lines asked (due (level + 1) outcome.evicted ++ pending) h' g')
      (fun failure _ => Outgrown layout.depth h' failure) := by
  obtain ⟨l, store, tally, hl, haccess, hcount, rfl⟩ := deposit_eq_ok_iff.1 hfull
  have hl' := (hshadows.getElem?_eq hlevel).trans hl
  have hstep := deposit_eq_ok_iff.2 ⟨l, store, tally, hl', haccess, hcount, rfl⟩
  exact ends_of_ok hstep ⟨rfl, hlt, hshadows.set _ (hshadows.ledger.deposit hpos hstep)⟩

/-- Counters of main memory are exchanged in the hierarchy without the lower levels. -/
theorem of_levels_eq {g' : Hierarchy} {lines' : Nat} {asked' pending' : List Nat}
    (hshadows : Shadows layout lines asked pending h g)
    (hledger : Ledger layout lines' asked' pending' g') (hlevels : g'.levels = g.levels)
    (hlatency : g'.memoryLatency = g.memoryLatency) :
    Shadows layout lines' asked' pending' h g' where
  pos := hshadows.pos
  le := hshadows.le
  levels := hlevels.trans hshadows.levels
  memoryLatency := hlatency.trans hshadows.memoryLatency
  ledger := hledger

/-- Main memory has served no more than what the last level above it missed, and taken no
more than what that level wrote back. -/
theorem memory_le (hshadows : Shadows layout lines asked pending h g) :
    g.memoryAccesses + asked.count layout.depth < 2 ^ 64 ∧
      g.memoryWritebacks + pending.count layout.depth < 2 ^ 64 := by
  have hpos := hshadows.pos
  have hledger := hshadows.ledger
  have hmissed := hledger.demands (layout.depth - 1) (by omega)
  have hreached := hledger.requests (layout.depth - 1) (by omega)
  have hfits := hledger.fits (layout.depth - 1)
  have hmisses := hfits.misses
  have hwritebacks := hfits.writebacks
  rw [Nat.sub_add_cancel hpos, demandsAt, hledger.length_eq, if_neg (Nat.lt_irrefl _)] at hmissed
  rw [Nat.sub_add_cancel hpos, requestsAt, hledger.length_eq, if_neg (Nat.lt_irrefl _)] at hreached
  omega

/-- Main memory serves a line where the deeper hierarchy has more levels. -/
theorem countMemoryAccess (hshadows : Shadows layout lines (layout.depth :: asked) pending h g) :
    Ends Hierarchy.countMemoryAccess g
      (fun _ g' => g'.cycles < 2 ^ 64 ∧ Shadows layout lines asked pending h g')
      (fun failure _ => Outgrown layout.depth h failure) := by
  have hshadows' := hshadows.of_levels_eq hshadows.ledger.serveMemory rfl rfl
  have hbound := hshadows.memory_le.1
  rw [List.count_cons_self] at hbound
  have haccesses : Word.add 64 g.memoryAccesses 1 = .ok (g.memoryAccesses + 1) :=
    Word.add_eq_ok_iff.2 ⟨by omega, rfl⟩
  by_cases hlt : g.cycles + g.memoryLatency < 2 ^ 64
  · refine ends_of_ok (countMemoryAccess_eq_ok_iff.2 ⟨_, _, haccesses,
      Word.add_eq_ok_iff.2 ⟨hlt, rfl⟩, rfl⟩) ⟨hlt, hshadows'⟩
  · have hcycles : Word.add 64 g.cycles g.memoryLatency = .error (.overflow .add) := if_neg hlt
    -- The line has been counted when the charge fails.
    have hstep : Hierarchy.countMemoryAccess.step g = (.error (.aborted (.overflow .add)),
        { g with memoryAccesses := g.memoryAccesses + 1 }) := by
      unfold Hierarchy.countMemoryAccess Hierarchy.charge
      simp [step_bind, step_assign, haccesses, hcycles, Except.bind]
    refine ends_of_error hstep ⟨rfl, ?_⟩
    rw [hshadows'.upperCycles_eq]
    exact (Nat.le_of_not_lt hlt).trans (Nat.le_add_right _ _)

/-- Main memory takes a line where the deeper hierarchy has more levels. -/
theorem countMemoryWriteback (hshadows : Shadows layout lines asked (layout.depth :: pending) h g)
    (hlt : g.cycles < 2 ^ 64) :
    Ends Hierarchy.countMemoryWriteback g
      (fun _ g' => g'.cycles < 2 ^ 64 ∧ Shadows layout lines asked pending h g')
      (fun failure _ => Outgrown layout.depth h failure) := by
  have hbound := hshadows.memory_le.2
  rw [List.count_cons_self] at hbound
  exact ends_of_ok (countMemoryWriteback_eq_ok_iff.2
    ⟨_, Word.add_eq_ok_iff.2 ⟨by omega, rfl⟩, rfl⟩)
    ⟨hlt, hshadows.of_levels_eq hshadows.ledger.writeMemory rfl rfl⟩

end Shadows

/-! ## Parts of an access -/

/-- Steps from some level on do not change the levels above. -/
theorem steady_take (h₀ : Hierarchy) (k : Nat) :
    Steady k fun h => h.levels.take k = h₀.levels.take k ∧ h.layout = h₀.layout where
  visit hle hsame hstep := by
    refine ⟨?_, (counted_of_visit hstep).layout.trans hsame.2⟩
    obtain ⟨l, store, tally, cycles, -, -, -, -, rfl⟩ := visit_eq_ok_iff.1 hstep
    show (List.set _ _ _).take k = _
    rw [List.take_set_of_le hle]
    exact hsame.1
  deposit hle hsame hstep := by
    refine ⟨?_, (counted_of_deposit hstep).layout.trans hsame.2⟩
    obtain ⟨l, store, tally, -, -, -, rfl⟩ := deposit_eq_ok_iff.1 hstep
    show (List.set _ _ _).take k = _
    rw [List.take_set_of_le hle]
    exact hsame.1
  memoryAccess hsame hstep := by
    obtain ⟨accesses, cycles, -, -, rfl⟩ := countMemoryAccess_eq_ok_iff.1 hstep
    exact hsame
  memoryWriteback hsame hstep := by
    obtain ⟨writebacks, -, rfl⟩ := countMemoryWriteback_eq_ok_iff.1 hstep
    exact hsame

theorem le_of_mem_route {depth first level : Nat} (hmem : level ∈ route depth first) :
    first ≤ level :=
  (List.mem_range'_1.1 hmem).1

/-- The lines on their way to one of the first levels or right below them. -/
def within (k : Nat) (transfers : List Transfer) : List Transfer :=
  transfers.filter fun transfer => transfer.level ≤ k

theorem within_cons (k : Nat) (transfer : Transfer) (transfers : List Transfer) :
    within k (transfer :: transfers) =
      if transfer.level ≤ k then transfer :: within k transfers else within k transfers := by
  simp [within, List.filter_cons]

theorem within_append (k : Nat) (transfers later : List Transfer) :
    within k (transfers ++ later) = within k transfers ++ within k later :=
  List.filter_append _ _

namespace Shadows

variable {n : Nat}

/-- A demand goes down both hierarchies, by induction on the levels that are left in the
one without the lower levels. -/
theorem descend (hshadows : Shadows layout lines (first :: asked) pending h g)
    (hlt : g.cycles < 2 ^ 64) (hfirst : first ≤ layout.depth) (hdepth : layout.depth ≤ n)
    {descent : Descent}
    (hfull : (Hierarchy.descend address (route n first) kind).step h = (.ok descent, h')) :
    Ends (Hierarchy.descend address (route layout.depth first) kind) g
      (fun answer g' => g'.cycles < 2 ^ 64 ∧ ∃ transfers : List Transfer,
        descent.victims = transfers.map (Transfer.victim n) ∧
        answer.victims = (within layout.depth transfers).map (Transfer.victim layout.depth) ∧
        (∀ transfer ∈ transfers, 0 < transfer.level ∧ transfer.level ≤ n) ∧
        Shadows layout lines (if answer.served then asked else layout.depth :: asked)
          ((within layout.depth transfers).map Transfer.level ++ pending) h' g')
      (fun failure _ => Outgrown layout.depth h' failure) := by
  induction hleft : layout.depth - first generalizing first kind pending h g descent with
  | zero =>
    obtain rfl : first = layout.depth := by omega
    obtain ⟨hlevels, hlayout⟩ := (steady_take h layout.depth).descend
      (fun level => le_of_mem_route) ⟨rfl, rfl⟩ hfull
    obtain ⟨transfers, hvictims, hbounds⟩ := victims_of_descend hdepth hfull
    have hnone : within layout.depth transfers = [] := by
      refine List.filter_eq_nil_iff.2 fun transfer htransfer => ?_
      have hbound := hbounds transfer htransfer
      simp only [decide_eq_true_eq]
      omega
    rw [route_self]
    refine ⟨hlt, transfers, hvictims, by rw [hnone]; rfl, fun transfer htransfer => ?_, ?_⟩
    · have hbound := hbounds transfer htransfer
      omega
    · rw [hnone]
      exact hshadows.of_take_eq hlevels hlayout
  | succ left ih =>
    have hlevel : first < layout.depth := by omega
    rw [route_of_lt (hlevel.trans_le hdepth)] at hfull
    rw [route_of_lt hlevel]
    obtain ⟨outcome, h₁, hvisit, hrest⟩ := descend_visit_eq_ok_iff.1 hfull
    have hgrows : Grows h₁ h' := by
      rcases hrest with ⟨-, -, rfl⟩ | ⟨-, rest, hrest, -⟩
      · exact Grows.refl _
      · exact (steady_grows h₁).descend (fun level _ => Nat.zero_le level) (Grows.refl h₁) hrest
    refine Ends.of_step_eq ?_ (step_descend_cons g)
    refine ends_bind.2 ((hshadows.visit hlevel hvisit).weaken ?_
      fun failure _ houtgrown => houtgrown.grow hgrows)
    rintro _ g₁ ⟨rfl, hlt₁, hshadows₁⟩
    rename_i outcome
    rcases hrest with ⟨hhit, rfl, rfl⟩ | ⟨hmiss, rest, hrest, rfl⟩
    · rw [hhit, if_pos rfl]
      rw [hhit, if_pos rfl, evicted_of_visit hvisit hhit] at hshadows₁
      exact ⟨hlt₁, [], rfl, rfl, by simp, hshadows₁⟩
    · rw [hmiss, if_neg Bool.false_ne_true] at hshadows₁
      rw [hmiss, if_neg Bool.false_ne_true]
      refine (ih hshadows₁ hlt₁ hlevel hrest (by omega)).bind ?_
      rintro answer g₂ ⟨hlt₂, transfers, hvictims, hanswer, hbounds, hshadows₂⟩
      have hkept : within layout.depth (transfer? (first + 1) outcome.evicted).toList =
          (transfer? (first + 1) outcome.evicted).toList := by
        refine List.filter_eq_self.2 fun transfer htransfer => ?_
        rw [level_of_transfer? (Option.mem_toList.1 htransfer)]
        exact decide_eq_true hlevel
      refine ⟨hlt₂, (transfer? (first + 1) outcome.evicted).toList ++ transfers, ?_, ?_, ?_, ?_⟩
      · dsimp only
        rw [hvictims, victim?_route, List.map_append, Option.toList_map]
      · dsimp only
        rw [hanswer, victim?_route, within_append, hkept, List.map_append, Option.toList_map]
      · intro transfer htransfer
        rcases List.mem_append.1 htransfer with hnew | hlater
        · rw [level_of_transfer? (Option.mem_toList.1 hnew)]
          omega
        · exact hbounds transfer hlater
      · rw [within_append, hkept, List.map_append, map_level_transfer?]
        refine hshadows₂.of_levels_eq (hshadows₂.ledger.perm ?_) rfl rfl
        rw [← List.append_assoc]
        exact List.perm_append_comm.append_right pending

/-- A line is written back in both hierarchies, by induction on the levels that are left
in the one without the lower levels. -/
theorem writeBack (hshadows : Shadows layout lines asked (first :: pending) h g)
    (hlt : g.cycles < 2 ^ 64) (hpos : 0 < first) (hfirst : first ≤ layout.depth)
    (hdepth : layout.depth ≤ n) {written : Option Nat}
    (hfull : (Hierarchy.writeBack (route n first) address).step h = (.ok written, h')) :
    Ends (Hierarchy.writeBack (route layout.depth first) address) g
      (fun _ g' => g'.cycles < 2 ^ 64 ∧ Shadows layout lines asked pending h' g')
      (fun failure _ => Outgrown layout.depth h' failure) := by
  induction hleft : layout.depth - first generalizing first address h g with
  | zero =>
    obtain rfl : first = layout.depth := by omega
    obtain ⟨hlevels, hlayout⟩ := (steady_take h layout.depth).writeBack
      (fun level => le_of_mem_route) ⟨rfl, rfl⟩ hfull
    rw [route_self, Hierarchy.writeBack]
    have hshadows' := hshadows.of_take_eq hlevels hlayout
    exact ends_bind.2 (hshadows'.countMemoryWriteback hlt)
  | succ left ih =>
    have hlevel : first < layout.depth := by omega
    rw [route_of_lt (hlevel.trans_le hdepth)] at hfull
    rw [route_of_lt hlevel]
    obtain ⟨outcome, h₁, hdeposit, hrest⟩ := writeBack_deposit_eq_ok_iff.1 hfull
    have hgrows : Grows h₁ h' := by
      rcases hrest with ⟨-, -, rfl⟩ | ⟨victim, -, hrest⟩
      · exact Grows.refl _
      · exact (steady_grows h₁).writeBack (fun level _ => Nat.zero_le level) (Grows.refl h₁) hrest
    refine Ends.of_step_eq ?_ (step_writeBack_cons g)
    refine ends_bind.2 ((hshadows.deposit hpos hlevel hlt hdeposit).weaken ?_
      fun failure _ houtgrown => houtgrown.grow hgrows)
    rintro _ g₁ ⟨rfl, hlt₁, hshadows₁⟩
    rename_i outcome
    rw [victim?_route] at hrest ⊢
    rw [← map_level_transfer?] at hshadows₁
    cases htransfer : transfer? (first + 1) outcome.evicted with
    | none =>
      rw [htransfer] at hrest hshadows₁
      rcases hrest with ⟨-, -, rfl⟩ | ⟨victim, hvictim, -⟩
      · exact ⟨hlt₁, hshadows₁⟩
      · cases hvictim
    | some transfer =>
      rw [htransfer] at hrest hshadows₁
      rcases hrest with ⟨hnone, -⟩ | ⟨victim, hvictim, hrest⟩
      · cases hnone
      · cases hvictim
        have hnext := level_of_transfer? htransfer
        rw [Transfer.victim, hnext] at hrest
        show Ends (Hierarchy.writeBack (route layout.depth (first + 1)) transfer.address) g₁ _ _
        rw [← hnext] at hrest ⊢
        exact ih hshadows₁ hlt₁ (by omega) (by omega) hrest (by omega)

/-- The lines that were pushed out of the upper levels are written back in both
hierarchies, the others in the deeper one alone. -/
theorem writeBackAll {transfers : List Transfer}
    (hshadows : Shadows layout lines asked
      ((within layout.depth transfers).map Transfer.level ++ pending) h g)
    (hlt : g.cycles < 2 ^ 64) (hdepth : layout.depth ≤ n)
    (hbounds : ∀ transfer ∈ transfers, 0 < transfer.level ∧ transfer.level ≤ n)
    {written : List Nat} (hfull : (Hierarchy.writeBackAll (transfers.map (Transfer.victim n))).step h =
      (.ok written, h')) :
    Ends (Hierarchy.writeBackAll
        ((within layout.depth transfers).map (Transfer.victim layout.depth))) g
      (fun _ g' => g'.cycles < 2 ^ 64 ∧ Shadows layout lines asked pending h' g')
      (fun failure _ => Outgrown layout.depth h' failure) := by
  induction transfers generalizing h g written with
  | nil =>
    obtain ⟨-, rfl⟩ := writeBackAll_nil_eq_ok_iff.1 hfull
    exact ⟨hlt, hshadows⟩
  | cons transfer transfers ih =>
    obtain ⟨⟨hpos, hle⟩, hbounds⟩ := List.forall_mem_cons.1 hbounds
    obtain ⟨first, h₁, rest, hfirst, hrest, -⟩ := writeBackAll_cons_eq_ok_iff.1 hfull
    have hgrows : Grows h₁ h' := (steady_grows h₁).writeBackAll (Grows.refl h₁) hrest
    by_cases hupper : transfer.level ≤ layout.depth
    · rw [within_cons, if_pos hupper] at hshadows ⊢
      rw [List.map_cons, Hierarchy.writeBackAll]
      refine ends_bind.2 ((hshadows.writeBack hlt hpos hupper hdepth hfirst).weaken ?_
        fun failure _ houtgrown => houtgrown.grow hgrows)
      rintro _ g₁ ⟨hlt₁, hshadows₁⟩
      exact (ih hshadows₁ hlt₁ hbounds hrest).bind fun _ _ hshadows₂ => hshadows₂
    · rw [within_cons, if_neg hupper] at hshadows ⊢
      have hsame := (steady_take h layout.depth).writeBack (fun level hlevel => ?_) ⟨rfl, rfl⟩ hfirst
      · exact ih (hshadows.of_take_eq hsame.1 hsame.2) hlt hbounds hrest
      · have hlow := le_of_mem_route hlevel
        omega

/-- A line is accessed in both hierarchies. -/
theorem accessLine (hshadows : Shadows layout lines [] [] h g) (hlt : g.cycles < 2 ^ 64)
    {written : List Nat}
    (hfull : (Hierarchy.accessLine address kind).step h = (.ok written, h')) :
    Ends (Hierarchy.accessLine address kind) g
      (fun _ g' => g'.cycles < 2 ^ 64 ∧ Shadows layout (lines + 1) [] [] h' g')
      (fun failure _ => Outgrown layout.depth h' failure) := by
  obtain ⟨descent, h₁, h₂, hdescend, hserved, hwrite⟩ := accessLine_eq_ok_iff.1 hfull
  rw [range_eq_route] at hdescend
  -- Main memory of the deeper hierarchy is far below.
  have hbelow : h₂.levels = h₁.levels ∧ h₂.layout = h₁.layout := by
    rcases hserved with ⟨-, rfl⟩ | ⟨-, hcount⟩
    · exact ⟨rfl, rfl⟩
    · obtain ⟨accesses, cycles, -, -, rfl⟩ := countMemoryAccess_eq_ok_iff.1 hcount
      exact ⟨rfl, rfl⟩
  have hgrows : Grows h₂ h' := (steady_grows h₂).writeBackAll (Grows.refl h₂) hwrite
  have hgrows₁ : Grows h₁ h' := by
    refine Grows.trans ⟨hbelow.2, fun level => ?_, fun level => ?_⟩ hgrows
    · rw [tallyAt, tallyAt, hbelow.1]
    · rw [tallyAt, tallyAt, hbelow.1]
  have hdemand := hshadows.of_levels_eq hshadows.ledger.demand rfl rfl
  unfold Hierarchy.accessLine
  refine ends_bind.2 ?_
  show Ends (Hierarchy.descend address (List.range g.levels.length) kind >>= _) g _ _
  rw [hshadows.ledger.length_eq, range_eq_route]
  refine ends_bind.2 ((hdemand.descend hlt (Nat.zero_le _) hshadows.le hdescend).weaken ?_
    fun failure _ houtgrown => houtgrown.grow hgrows₁)
  rintro ⟨served, victims⟩ g₁ ⟨hlt₁, transfers, hvictims, rfl, hbounds, hshadows₁⟩
  rw [hvictims] at hwrite
  have hshadows₂ := hshadows₁.of_take_eq (congrArg (List.take layout.depth) hbelow.1) hbelow.2
  cases served with
  | true => exact hshadows₂.writeBackAll hlt₁ hshadows.le hbounds hwrite
  | false =>
    refine ends_bind.2 ((hshadows₂.countMemoryAccess).weaken ?_
      fun failure _ houtgrown => houtgrown.grow hgrows)
    rintro _ g₂ ⟨hlt₂, hshadows₃⟩
    exact hshadows₃.writeBackAll hlt₂ hshadows.le hbounds hwrite

/-- All lines that are asked for are served by both hierarchies, by induction on them. -/
theorem serveDemands {demands : List Demand} (hshadows : Shadows layout lines [] [] h g)
    (hlt : g.cycles < 2 ^ 64)
    (hfull : (Action.forEach demands serveDemand).step h = (.ok (), h')) :
    Ends (Action.forEach demands serveDemand) g
      (fun _ g' => g'.cycles < 2 ^ 64 ∧ Shadows layout (lines + demands.length) [] [] h' g')
      (fun failure _ => Outgrown layout.depth h' failure) := by
  induction demands generalizing h g lines with
  | nil =>
    cases hfull
    exact ⟨hlt, hshadows⟩
  | cons demand demands ih =>
    obtain ⟨h₁, hfirst, hrest⟩ := Action.step_forEach_cons_eq_ok_iff.1 hfull
    obtain ⟨flushed, haccess⟩ := serveDemand_eq_ok_iff.1 hfirst
    have hgrows : Grows h₁ h' := (steady_grows h₁).serveDemands (Grows.refl h₁) hrest
    refine ends_forEach_cons.2 (ends_bind.2 ((hshadows.accessLine hlt haccess).weaken ?_
      fun failure _ houtgrown => houtgrown.grow hgrows))
    rintro _ g₁ ⟨hlt₁, hshadows₁⟩
    have hlater := ih hshadows₁ hlt₁ hrest
    rw [Nat.add_assoc, Nat.add_comm 1] at hlater
    exact hlater

end Shadows

/-! ## Hierarchies from configurations -/

/-- The first levels of a row are built from the first configurations. -/
theorem buildLevels_take {configs : List Config} {levels : List Level}
    (hbuilt : (buildLevels configs).result = .ok levels) (k : Nat) :
    (buildLevels (configs.take k)).result = .ok (levels.take k) := by
  induction configs generalizing levels k with
  | nil =>
    cases hbuilt
    rw [List.take_nil, List.take_nil]
    rfl
  | cons config configs ih =>
    cases k with
    | zero => rfl
    | succ k =>
      simp only [buildLevels, Logged.result_bind_eq_ok_iff] at hbuilt
      obtain ⟨store, hstore, later, hlater, hlevels⟩ := hbuilt
      cases hlevels
      rw [List.take_succ_cons, List.take_succ_cons, buildLevels, Logged.result_bind_eq_ok_iff]
      refine ⟨store, hstore, ?_⟩
      rw [Logged.result_bind_eq_ok_iff]
      exact ⟨later.take k, ih hlater k, rfl⟩

/-- A new hierarchy without the lower levels shadows the deeper one. -/
theorem shadows_of_ofConfig {c : HierarchyConfig} (hbuilt : (ofConfig c).result = .ok h)
    (hpos : 0 < k) (hk : k ≤ c.caches.length) :
    ∃ g, (ofConfig { c with caches := c.caches.take k }).result = .ok g ∧ g.cycles = 0 ∧
      g.layout.depth = k ∧ Shadows g.layout 0 [] [] h g := by
  obtain ⟨hne, levels, hlevels, rfl⟩ := ofConfig_eq_ok_iff.1 hbuilt
  have hlength := (buildLevels_eq_ok hlevels).1
  have hne' : c.caches.take k ≠ [] := by
    intro hnil
    rw [List.take_eq_nil_iff] at hnil
    rcases hnil with hzero | hnil
    · omega
    · exact hne hnil
  have hbuilt' : (ofConfig { c with caches := c.caches.take k }).result = .ok _ :=
    ofConfig_eq_ok_iff.2 ⟨hne', _, buildLevels_take hlevels k, rfl⟩
  have hledger := ledger_of_ofConfig hbuilt'
  have hdepth : (levels.take k).length = k := by
    rw [List.length_take, hlength]
    exact Nat.min_eq_left hk
  have hsame := hledger.length_eq.symm.trans hdepth
  refine ⟨_, hbuilt', rfl, hsame, ?_, ?_, ?_, rfl, hledger⟩
  · rw [hsame]
    exact hpos
  · rw [hsame, hlength]
    exact hk
  · rw [hsame]

/-- The levels of a hierarchy that runs traces to their end are the same without the
levels below them, and main memory serves and takes what the next level did.  The only
exception is a run whose cycles are more than a machine word can count. -/
theorem upper_levels_of_traces {c : HierarchyConfig} {h₀ h : Hierarchy} {traces : List Trace}
    {k : Nat} (hbuilt : (ofConfig c).result = .ok h₀)
    (hrun : (simulateAll traces).step h₀ = (.ok (), h)) (hpos : 0 < k)
    (hk : k ≤ c.caches.length) :
    ∃ g₀ last, (ofConfig { c with caches := c.caches.take k }).result = .ok g₀ ∧
      h.levels[k - 1]? = some last ∧
      (((h.levels.take k).map Level.cycles).sum + c.memoryLatency.toNat * last.tally.misses <
          2 ^ 64 ∧
        (∃ g, (simulateAll traces).step g₀ = (.ok (), g) ∧ g.levels = h.levels.take k ∧
          g.memoryAccesses = last.tally.misses ∧ g.memoryWritebacks = last.tally.writebacks) ∨
      2 ^ 64 ≤ ((h.levels.take k).map Level.cycles).sum +
          c.memoryLatency.toNat * last.tally.misses ∧
        ∃ g, (simulateAll traces).step g₀ = (.error (.store (.aborted (.overflow .add))), g)) := by
  obtain ⟨g₀, hbuilt', hcycles, hdepth, hshadows⟩ := shadows_of_ofConfig hbuilt hpos hk
  have hwell := wellFormed_of_ofConfig hbuilt
  obtain ⟨demands, journal, hdemands, -⟩ := (hwell.simulateAll_eq_ok_iff traces).1 hrun
  rw [step_simulateAll hdemands, Action.step_mapError_eq_ok_iff] at hrun
  have hlayout := (steady_layout h₀.layout).serveDemands rfl hrun
  obtain ⟨hlength, hlatency, -⟩ := geometry_of_layout hbuilt hlayout
  obtain ⟨last, hlast⟩ : ∃ last, h.levels[k - 1]? = some last :=
    ⟨_, List.getElem?_eq_getElem (by omega)⟩
  have hsum : h.upperCycles k =
      ((h.levels.take k).map Level.cycles).sum + c.memoryLatency.toNat * last.tally.misses := by
    rw [upperCycles, tallyAt_eq hlast, hlatency]
    congr 2
    refine List.ext_getElem (by simp; omega) fun level hleft hright => ?_
    rw [List.length_map, List.length_range] at hleft
    rw [List.getElem_map, List.getElem_map, List.getElem_range, List.getElem_take,
      cyclesAt_eq (List.getElem?_eq_getElem (by omega))]
  have hsize : g₀.lineSize = h₀.lineSize := by
    rw [lineSize, lineSize, hshadows.levels, hdepth]
    obtain ⟨rest, rfl⟩ := Nat.exists_eq_succ_of_ne_zero hpos.ne'
    cases h₀.levels <;> rfl
  refine ⟨g₀, last, hbuilt', hlast, ?_⟩
  rw [← hsum, step_simulateAll (hsize ▸ hdemands)]
  have hends := hshadows.serveDemands (by rw [hcycles]; decide) hrun
  rw [hdepth] at hends
  rcases hstep : (Action.forEach demands serveDemand).step g₀ with ⟨failure | _, g⟩
  · obtain ⟨rfl, hlarge⟩ := hends.of_error hstep
    refine Or.inr ⟨hlarge, g, ?_⟩
    rw [Action.step_mapError, hstep]
    rfl
  · obtain ⟨hlt, hshadows'⟩ := hends.of_ok hstep
    have hcount := hshadows'.upperCycles_eq
    rw [hdepth, List.count_nil, Nat.mul_zero, Nat.add_zero] at hcount
    have hlevels : g.levels = h.levels.take k := by
      rw [← hdepth]
      exact hshadows'.levels
    have hlast' : g.levels.getLast? = some last := by
      rw [hlevels, List.getLast?_eq_getElem?, List.length_take, Nat.min_eq_left (by omega),
        List.getElem?_take_of_lt (by omega)]
      exact hlast
    rw [hcount]
    exact Or.inl ⟨hlt, g, Action.step_mapError_eq_ok_iff.2 hstep, hlevels,
      hshadows'.ledger.memoryAccesses_eq List.not_mem_nil hlast',
      hshadows'.ledger.memoryWritebacks_eq hlast'⟩

/-- One line of 64 bytes above two lines of 128 bytes.  The first level alone ends with the
line of the second write, and main memory has served both lines and taken the first. -/
theorem upper_level_of_two_writes :
    ∃ h₀ h g₀ last, (ofConfig ⟨100, [.ofShape .lru 64 64 1, .ofShape .lru 256 128 1]⟩).result = .ok h₀ ∧
      (simulateAll [.text "W 0\nW 40\n".toList]).step h₀ = (.ok (), h) ∧
      (ofConfig ⟨100, [.ofShape .lru 64 64 1]⟩).result = .ok g₀ ∧ h.levels[0]? = some last ∧
      ∃ g, (simulateAll [.text "W 0\nW 40\n".toList]).step g₀ = (.ok (), g) ∧
        g.levels = h.levels.take 1 ∧ g.memoryAccesses = last.tally.misses ∧
        g.memoryWritebacks = last.tally.writebacks := by
  have hcheck : (match (ofConfig ⟨100, [.ofShape .lru 64 64 1, .ofShape .lru 256 128 1]⟩).result with
      | .ok h₀ =>
        (match (simulateAll [.text "W 0\nW 40\n".toList]).step h₀ with
          | (.ok _, h) => decide (((h.levels.take 1).map Level.cycles).sum +
            100 * (h.tallyAt 0).misses < 2 ^ 64)
          | (.error _, _) => false)
      | .error _ => false) = true := by
    decide +kernel
  split at hcheck
  · rename_i h₀ hbuilt
    split at hcheck
    · rename_i h hrun
      obtain ⟨g₀, last, hbuilt', hlast, ⟨-, hsame⟩ | ⟨hlarge, -⟩⟩ :=
        upper_levels_of_traces hbuilt hrun (Nat.one_pos) (by decide)
      · exact ⟨h₀, h, g₀, last, hbuilt, hrun, hbuilt', hlast, hsame⟩
      · have hsmall := of_decide_eq_true hcheck
        rw [tallyAt_eq hlast] at hsmall
        exact absurd hlarge (Nat.not_le.2 hsmall)
    · cases hcheck
  · cases hcheck

/-- A main memory that takes half of the cycles that a machine word can count serves one
line of the lower level, but both lines of the first level when that is the only one. -/
theorem not_upper_run_succeeds :
    ¬ ∀ (c : HierarchyConfig) (h₀ h : Hierarchy) (traces : List Trace) (k : Nat),
      (ofConfig c).result = .ok h₀ → (simulateAll traces).step h₀ = (.ok (), h) → 0 < k →
      k ≤ c.caches.length → ∃ g₀ g,
        (ofConfig { c with caches := c.caches.take k }).result = .ok g₀ ∧
        (simulateAll traces).step g₀ = (.ok (), g) := by
  intro hclaim
  have hfull : (match (ofConfig ⟨9223372036854775808,
        [.ofShape .lru 64 64 1, .ofShape .lru 256 128 1]⟩).result with
      | .ok h₀ =>
        (match (simulateAll [.text "R 0\nR 40\n".toList]).step h₀ with
          | (.ok _, _) => true
          | (.error _, _) => false)
      | .error _ => false) = true := by
    decide +kernel
  have hshort : (match (ofConfig ⟨9223372036854775808, [.ofShape .lru 64 64 1]⟩).result with
      | .ok g₀ =>
        (match (simulateAll [.text "R 0\nR 40\n".toList]).step g₀ with
          | (.ok _, _) => false
          | (.error _, _) => true)
      | .error _ => false) = true := by
    decide +kernel
  split at hfull
  · rename_i h₀ hbuilt
    split at hfull
    · rename_i h hrun
      obtain ⟨g₀, g, hbuilt', hrun'⟩ := hclaim _ _ _ _ 1 hbuilt hrun Nat.one_pos (by decide)
      have hsame : (ofConfig ⟨9223372036854775808, [.ofShape .lru 64 64 1]⟩).result = .ok g₀ :=
        hbuilt'
      rw [hsame] at hshort
      dsimp only at hshort
      rw [hrun'] at hshort
      cases hshort
    · cases hfull
  · cases hfull

end Hierarchy

end AssocCache
