import AssocCache.Proofs.Config.Consistent
import AssocCache.Proofs.Policy.DramDistrust
import AssocCache.Proofs.Policy.Touches

/-!
# Stores before a hybrid memory

The two policies for a memory that is part DRAM, part NVM, give up lines of DRAM before
lines of NVM.  The runs in question hit no line of DRAM, and bring none in with the touch
that completes the interval of its set (`Store.DistrustsDram`).  After such a run a line of
NVM has to go only from a set without a line of DRAM (`Store.GivesUpDramFirst`).

* Under thrash-resistant replacement any line may be made to leave in between, and the
  lines of NVM stay before those of DRAM in every recency stack
  (`nvm_outlasts_dram_in_stacks`).
* Under memory-type aware prediction no line may be made to leave
  (`nvm_outlasts_dram_in_predictions`).
-/

namespace AssocCache

open Success

namespace Store

/-- The call gives no reason to trust a line of DRAM: it hits none, and if it brings one in,
that does not complete the interval of the set. -/
def DistrustsDram (s : Store AnyPolicy) (x : Exchange) (t : Store AnyPolicy) : Prop :=
  match x.outcome? with
  | some (.hit _ _) => s.kindOf x.call.address = .nvm
  | some (.arrival install) =>
    s.kindOf x.call.address = .dram → ¬ t.policy.OnInterval install.set
  | some (.departure _) | none => True

/-- Whatever is asked of the store, a line of NVM has to go only from a set without a line
of DRAM. -/
def GivesUpDramFirst (s : Store AnyPolicy) : Prop :=
  ∀ (call : Call) (answer : Except Refusal Reply) (t : Store AnyPolicy) (install : Install)
    (evicted : Eviction) (set : CacheSet), s.respond call = .ok (answer, t) →
    Exchange.outcome? ⟨call, answer⟩ = some (.arrival install) →
    install.evicted = some evicted → s.kindOf evicted.address = .nvm →
    s.sets[install.set]? = some set → ∀ way, ¬ set.CarriesKind way .dram

variable {f : Frame} {c : Config} {s₀ s t : Store AnyPolicy} {x : Exchange} {call : Call}
  {calls : List Call} {answer : Except Refusal Reply} {history : List Exchange} {n : Nat}

/-! ## Short runs -/

/-- No call of a run completes an interval if the intervals are longer than the run. -/
theorem WellFormed.throughout_not_onInterval (h : s.WellFormed f)
    (hshort : ∀ intervals ∈ s.policy.intervals?,
      intervals.AtMost n ∧ n + calls.length < intervals.interval) :
    Throughout (fun s _ t => s.WellFormed f ∧ ∀ index, ¬ t.policy.OnInterval index) calls s := by
  induction calls generalizing s n with
  | nil => trivial
  | cons call calls ih =>
    intro answer t hrespond
    have hshort' : ∀ intervals ∈ t.policy.intervals?,
        intervals.AtMost (n + 1) ∧ n + 1 + calls.length < intervals.interval := by
      intro intervals hintervals
      rw [List.length_cons] at hshort
      rcases h.respond_cases hrespond with ⟨-, -, hpolicy⟩ | ⟨line, set, turn, set', htook⟩
      · rw [hpolicy] at hintervals
        obtain ⟨hmost, hroom⟩ := hshort intervals hintervals
        exact ⟨fun _ _ hcount => Nat.le_succ_of_le (hmost hcount), by omega⟩
      · obtain ⟨-, -, -, hset⟩ := h.of_maps htook.maps
        obtain ⟨before, hbefore, rfl | htouch⟩ :=
          AnyPolicy.intervals?_of_takes hset htook.takes hintervals
        · obtain ⟨hmost, hroom⟩ := hshort intervals hbefore
          exact ⟨fun _ _ hcount => Nat.le_succ_of_le (hmost hcount), by omega⟩
        · obtain ⟨hmost, hroom⟩ := hshort before hbefore
          obtain ⟨hinterval, hmost'⟩ := hmost.touch htouch
          exact ⟨hmost', by omega⟩
    refine ⟨⟨h, fun index hon => ?_⟩, ih (h.respond hrespond) hshort'⟩
    obtain ⟨intervals, hintervals, hcomplete⟩ := hon
    obtain ⟨hmost, hroom⟩ := hshort' intervals hintervals
    exact hmost.not_isComplete (by omega) index hcomplete

/-- A run of a new store distrusts DRAM if it is shorter than the interval and looks up
lines of NVM only. -/
theorem distrustsDram_of_short (hbuilt : (ofConfig c).result = .ok s₀)
    (hshort : ∀ interval ∈ c.touchInterval?, calls.length < interval)
    (hnvm : ∀ address access, .probe address access ∈ calls ∨ .access address access ∈ calls →
      s₀.kindOf address = .nvm) :
    Throughout DistrustsDram calls s₀ := by
  have hwell := (wellFormed_of_ofConfig hbuilt).2
  have hnamed := (untouched_of_ofConfig hbuilt).1
  have hfresh : ∀ intervals ∈ s₀.policy.intervals?,
      intervals.AtMost 0 ∧ 0 + calls.length < intervals.interval := by
    intro intervals hintervals
    obtain ⟨hinterval, hmost⟩ := AnyPolicy.intervals?_of_ofConfig hnamed hintervals
    rw [Nat.zero_add]
    exact ⟨hmost, hshort _ hinterval⟩
  have hnever := hwell.throughout_not_onInterval hfresh
  refine hnever.imp fun {s t call answer} hmem hrespond hshort => ?_
  obtain ⟨hs, hnot⟩ := hshort
  unfold DistrustsDram
  split
  · rename_i houtcome
    have hkind : s.kindOf call.address = s₀.kindOf call.address := by
      rw [kindOf, kindOf, hs.geometry_eq, hs.regionBorder_eq, hwell.regionBorder_eq]
    rw [hkind]
    obtain ⟨address, access, rfl | rfl⟩ := call_of_hit hrespond houtcome
    · exact hnvm address access (.inl hmem)
    · exact hnvm address access (.inr hmem)
  · exact fun _ => hnot _
  · trivial
  · trivial

/-! ## Lines of DRAM go first -/

/-- A call that distrusts DRAM leads to a turn that does. -/
theorem Took.distrustsDram {line : Line} {set set' : CacheSet} {turn : Turn}
    {intervals : Intervals} (h : Took s x t line set turn set') (hdistrust : s.DistrustsDram x t)
    (hintervals : t.policy.intervals? = some intervals) :
    turn.DistrustsDram intervals line.set := by
  rw [DistrustsDram, h.outcome_eq, ← h.kind_eq] at hdistrust
  cases turn with
  | hit way block access => exact hdistrust
  | arrival way tag kind access victim =>
    intro hkind hcomplete
    exact hdistrust hkind ⟨intervals, hintervals, hcomplete⟩
  | departure way block => trivial

/-- A store gives up lines of DRAM first if what its policy upholds makes every set do so. -/
theorem WellFormed.givesUpDramFirst (h : s.WellFormed f) (policy : AnyPolicy)
    {R : policy.opened.π → CacheSet → Prop}
    (hupheld : s.Upheld fun policy' set =>
      ∃ value, policy' = policy.opened.close value ∧ R value set)
    (hfirst : ∀ {index way tag : Nat} {kind : MemoryKind} {access : AccessKind} {gone : Block}
      {value value' : policy.opened.π} {set set' : CacheSet}, set.WellFormed f index → R value set →
      set.Takes value (.arrival way tag kind access (some gone)) value' set' → gone.kind = .nvm →
      ∀ other, ¬ set.CarriesKind other .dram) :
    s.GivesUpDramFirst := by
  intro call answer t install evicted set hrespond houtcome hevicted hnvm hset
  rcases h.respond_cases hrespond with ⟨hnone, -, -⟩ | ⟨line, found, turn, set', htook⟩
  · rw [houtcome] at hnone
    cases hnone
  · have hsame := houtcome.symm.trans htook.outcome_eq
    have htakes := htook.takes
    cases turn with
    | hit way block access => cases hsame
    | departure way block => cases hsame
    | arrival way tag kind access victim =>
      cases hsame
      obtain ⟨gone, rfl, rfl⟩ := Option.map_eq_some_iff.1 hevicted
      have hfound : found = set := Option.some.inj (htook.maps.2.symm.trans hset)
      subst hfound
      obtain ⟨-, block, hb, hv, hbare⟩ := CacheSet.exists_of_victim htakes
      have hblock := ((h.sets hset).blocks hb).of_bare hbare
      have hvalid : gone.valid = true := (Block.bare_eq_bare_iff.1 hbare).2.1.trans hv
      rw [h.kindOf_departure hblock hvalid] at hnvm
      obtain ⟨value, hvalue, hR⟩ := hupheld hset
      rw [hvalue] at htakes
      obtain ⟨value', -, hturn⟩ := policy.takes_cases htakes
      exact hfirst (h.sets hset) hR hturn hnvm

/-- Under thrash-resistant replacement, a run that distrusts DRAM leaves the lines of NVM
before those of DRAM in every recency stack, and the store gives up lines of DRAM first. -/
theorem nvm_outlasts_dram_in_stacks (hbuilt : (ofConfig c).result = .ok s₀)
    (hpolicy : c.policy = .thrashResistant) (hdistrust : Throughout DistrustsDram calls s₀)
    (hrun : run calls s₀ = .ok (history, s)) :
    (∀ (index : Nat) (set : CacheSet), s.sets[index]? = some set → set.NvmFirst) ∧
      s.GivesUpDramFirst := by
  obtain ⟨hnamed, huntouched⟩ := untouched_of_ofConfig hbuilt
  have hwell := (wellFormed_of_ofConfig hbuilt).2
  unfold AnyPolicy.ofConfig at hnamed
  rw [hpolicy] at hnamed
  obtain ⟨built, -, hclosed⟩ := map_eq_ok_iff.1 hnamed
  have hupholds := AnyPolicy.upholds_close (.thrashResistant built) ThrashResistant.upholds_nvmFirst
  have hfresh : s₀.Upheld fun policy set =>
      ∃ value, policy = .thrashResistant value ∧ set.NvmFirst := fun index set hset =>
    ⟨built, hclosed.symm, CacheSet.nvmFirst_of_vacant fun block hblock =>
      (huntouched hset block hblock).1⟩
  have hupheld := hwell.upheld_of_run hupholds ?allows hfresh hdistrust hrun
  case allows =>
    intro s t x line set set' turn _ htook hdistrust value hvalue
    refine htook.distrustsDram hdistrust ?_
    rw [hvalue]
    rfl
  refine ⟨fun index set hset => ?_, ?_⟩
  · obtain ⟨value, -, hfirst⟩ := hupheld hset
    exact hfirst
  · exact (hwell.run hrun).givesUpDramFirst (.thrashResistant built) hupheld fun hset hfirst =>
      ThrashResistant.not_dram_of_evicted hfirst hset

/-- Two ways for a line of DRAM and four of NVM.  The second line of NVM makes that of DRAM
go, and the fourth one makes a line of NVM go.  One was invalidated in between. -/
theorem nvm_outlasts_dram_in_stack_of_two :
    ∃ s₀ history s answer t set, (ofConfig { Config.ofShape .thrashResistant 128 64 2 with
        addressBits := 32, regionBorder := some 63 }).result = .ok s₀ ∧
      run [.fill 0 .read, .fill 64 .write, .access 64 .read, .fill 128 .read,
        .invalidate 64, .fill 256 .read] s₀ = .ok (history, s) ∧
      s.respond (.fill 192 .read) = .ok (answer, t) ∧
      Exchange.outcome? ⟨.fill 192 .read, answer⟩ = some (.arrival ⟨0, 1, some ⟨256, false⟩⟩) ∧
      s.sets[0]? = some set ∧ set.NvmFirst ∧ ∀ way, ¬ set.CarriesKind way .dram := by
  obtain ⟨s₀, hbuilt, hnvm, heval⟩ : ∃ s₀, (ofConfig { Config.ofShape .thrashResistant 128 64 2 with
        addressBits := 32, regionBorder := some 63 }).result = .ok s₀ ∧ s₀.kindOf 64 = .nvm ∧
      (do
        let (_, s) ← run [.fill 0 .read, .fill 64 .write, .access 64 .read, .fill 128 .read,
          .invalidate 64, .fill 256 .read] s₀
        let (answer, _) ← s.respond (.fill 192 .read)
        pure (Exchange.outcome? ⟨.fill 192 .read, answer⟩, s.kindOf 256, s.sets[0]?.isSome)) =
        .ok (some (.arrival ⟨0, 1, some ⟨256, false⟩⟩), .nvm, true) :=
    ⟨_, rfl, rfl, by decide +kernel⟩
  obtain ⟨⟨history, s⟩, hrun, heval⟩ := bind_eq_ok_iff.1 heval
  obtain ⟨⟨answer, t⟩, hrespond, heval⟩ := bind_eq_ok_iff.1 heval
  obtain ⟨houtcome, hkind, hsome⟩ := by simpa only [pure_eq_ok_iff, Prod.mk.injEq] using heval
  obtain ⟨set, hset⟩ := Option.isSome_iff_exists.1 hsome
  have hdistrust : Throughout DistrustsDram
      [.fill 0 .read, .fill 64 .write, .access 64 .read, .fill 128 .read,
        .invalidate 64, .fill 256 .read] s₀ := by
    refine distrustsDram_of_short hbuilt ?_ fun address access hmem => ?_
    · rintro _ ⟨⟩
      decide
    · obtain ⟨rfl, -⟩ : address = 64 ∧ access = .read := by simpa using hmem
      exact hnvm
  obtain ⟨hfirst, hgives⟩ := nvm_outlasts_dram_in_stacks hbuilt rfl hdistrust hrun
  exact ⟨s₀, history, s, answer, t, set, hbuilt, hrun, hrespond, houtcome, hset, hfirst 0 set hset,
    hgives _ _ _ _ _ set hrespond houtcome rfl hkind hset⟩

/-- Under memory-type aware prediction, a run that distrusts DRAM and makes no line leave
ends in a store that gives up lines of DRAM first. -/
theorem nvm_outlasts_dram_in_predictions (hbuilt : (ofConfig c).result = .ok s₀)
    (hpolicy : c.policy = .typeAwareRrip) (hdistrust : Throughout DistrustsDram calls s₀)
    (hstays : ∀ address, .invalidate address ∉ calls)
    (hrun : run calls s₀ = .ok (history, s)) : s.GivesUpDramFirst := by
  obtain ⟨hnamed, huntouched⟩ := untouched_of_ofConfig hbuilt
  obtain ⟨hgeometry, hwell⟩ := wellFormed_of_ofConfig hbuilt
  have hbits : c.predictionBits? = some c.params.typeAwarePredictionBits.toNat := by
    rw [Config.predictionBits?, hpolicy]
  have hmost := (AnyPolicy.mostDistant?_of_ofConfig hnamed hbits).1
  unfold AnyPolicy.ofConfig at hnamed
  rw [hpolicy] at hnamed
  obtain ⟨built, -, hclosed⟩ := map_eq_ok_iff.1 hnamed
  have hpos : 0 < built.max := by
    obtain ⟨_, hconsistent, -⟩ := Config.geometry_eq_ok_iff.1 hgeometry
    have hrange := hconsistent.settings
    rw [Config.SettingsInRange, hpolicy] at hrange
    rw [← hclosed] at hmost
    have hmax : built.max = 2 ^ c.params.typeAwarePredictionBits.toNat - 1 := Option.some.inj hmost
    have hone : 1 < 2 ^ c.params.typeAwarePredictionBits.toNat :=
      Nat.one_lt_two_pow (Nat.one_le_iff_ne_zero.1 hrange.1)
    omega
  have hupholds := AnyPolicy.upholds_close (.typeAwareRrip built) TypeAwareRrip.upholds_dramDistant
  have hfresh : s₀.Upheld fun policy set => ∃ value, policy = .typeAwareRrip value ∧
      0 < value.max ∧ TypeAwareRrip.DramDistant value.max set := fun index set hset =>
    ⟨built, hclosed.symm, hpos, .of_vacant fun block hblock => (huntouched hset block hblock).1⟩
  have hcalls : Throughout (fun s x t => s.DistrustsDram x t ∧
      ∀ evicted, x.outcome? ≠ some (.departure evicted)) calls s₀ := by
    refine hdistrust.imp fun hmem hrespond hdistrust => ⟨hdistrust, fun evicted houtcome => ?_⟩
    obtain ⟨address, rfl⟩ := call_of_departure hrespond houtcome
    exact hstays address hmem
  have hupheld := hwell.upheld_of_run hupholds ?allows hfresh hcalls hrun
  case allows =>
    intro s t x line set set' turn _ htook hcall value hvalue
    obtain ⟨hdistrust, hnever⟩ := hcall
    refine ⟨htook.distrustsDram hdistrust (by rw [hvalue]; rfl), ?_⟩
    rintro way block rfl
    exact hnever _ htook.outcome_eq
  exact (hwell.run hrun).givesUpDramFirst (.typeAwareRrip built) hupheld fun _ hR =>
    TypeAwareRrip.not_dram_of_evicted hR.2

/-- Two ways for a line of DRAM and three of NVM.  The second line of NVM makes that of DRAM
go, and the third one makes a line of NVM go. -/
theorem nvm_outlasts_dram_in_predictions_of_two :
    ∃ s₀ history s answer t set, (ofConfig { Config.ofShape .typeAwareRrip 128 64 2 with
        addressBits := 32, regionBorder := some 63 }).result = .ok s₀ ∧
      run [.fill 0 .read, .fill 64 .write, .access 64 .read, .fill 128 .read] s₀ =
        .ok (history, s) ∧
      s.respond (.fill 192 .read) = .ok (answer, t) ∧
      Exchange.outcome? ⟨.fill 192 .read, answer⟩ = some (.arrival ⟨0, 0, some ⟨128, false⟩⟩) ∧
      s.sets[0]? = some set ∧ ∀ way, ¬ set.CarriesKind way .dram := by
  obtain ⟨s₀, hbuilt, hnvm, heval⟩ : ∃ s₀, (ofConfig { Config.ofShape .typeAwareRrip 128 64 2 with
        addressBits := 32, regionBorder := some 63 }).result = .ok s₀ ∧ s₀.kindOf 64 = .nvm ∧
      (do
        let (_, s) ← run [.fill 0 .read, .fill 64 .write, .access 64 .read, .fill 128 .read] s₀
        let (answer, _) ← s.respond (.fill 192 .read)
        pure (Exchange.outcome? ⟨.fill 192 .read, answer⟩, s.kindOf 128, s.sets[0]?.isSome)) =
        .ok (some (.arrival ⟨0, 0, some ⟨128, false⟩⟩), .nvm, true) :=
    ⟨_, rfl, rfl, by decide +kernel⟩
  obtain ⟨⟨history, s⟩, hrun, heval⟩ := bind_eq_ok_iff.1 heval
  obtain ⟨⟨answer, t⟩, hrespond, heval⟩ := bind_eq_ok_iff.1 heval
  obtain ⟨houtcome, hkind, hsome⟩ := by simpa only [pure_eq_ok_iff, Prod.mk.injEq] using heval
  obtain ⟨set, hset⟩ := Option.isSome_iff_exists.1 hsome
  have hdistrust : Throughout DistrustsDram
      [.fill 0 .read, .fill 64 .write, .access 64 .read, .fill 128 .read] s₀ := by
    refine distrustsDram_of_short hbuilt ?_ fun address access hmem => ?_
    · rintro _ ⟨⟩
      decide
    · obtain ⟨rfl, -⟩ : address = 64 ∧ access = .read := by simpa using hmem
      exact hnvm
  have hgives := nvm_outlasts_dram_in_predictions hbuilt rfl hdistrust (by simp) hrun
  exact ⟨s₀, history, s, answer, t, set, hbuilt, hrun, hrespond, houtcome, hset,
    hgives _ _ _ _ _ set hrespond houtcome rfl hkind hset⟩

end Store

end AssocCache
