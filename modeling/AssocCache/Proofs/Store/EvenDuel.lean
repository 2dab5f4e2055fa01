import AssocCache.Proofs.Config.Consistent
import AssocCache.Proofs.Policy.Predicting
import AssocCache.Proofs.Store.LongRuns
import AssocCache.Proofs.Store.Opened
import AssocCache.Proofs.Store.Paired

/-!
# Dynamic prediction without exceptions

Under dynamic prediction with an interval of one, every line that the bimodal rule brings in
is an exception, and so is predicted as the static rule would.  A store that duels over
nothing is one under static prediction (`even_duel_runs_as_static`): the parts of the sets
and both counters of the duel change from call to call, and nobody sees it.
-/

/-!
## A duel that makes no difference

With an interval of one the bimodal rule predicts every line as the static rule does.  Then
dynamic prediction is static prediction, whatever parts the sets play in the duel and
wherever its counters stand (`DynamicRrip.Even`).

The second of two sets is the first one without its part in the duel
(`CacheSet.neutral`).  Each hook of the static policy does on it what the hook of the
dynamic policy does on the first one, and so does each step of an operation
(`DynamicRrip.mimics_static`).
-/

namespace AssocCache

open Success
open Policy (Matching Departing Mimics)

/-! ### Sets without a part in the duel -/

/-- The set without its part in the duel. -/
def CacheSet.neutral (set : CacheSet) : CacheSet := { set with role := .follower }

/-- A block changes in the same way, whatever part the set plays. -/
theorem CacheSet.coupled_change (set : CacheSet) (way : Nat) (f : Block → Block)
    {excused : Fault → Prop} :
    Coupled excused (fun told told' => told' = told.neutral) (set.change way f)
      (set.neutral.change way f) := by
  have hblock : set.neutral.blockAt way = set.blockAt way := rfl
  rw [change, change, hblock]
  cases set.blockAt way with
  | ok block => exact .ok rfl
  | error fault => exact .error fault

/-- The search for a victim does not look at the part of the set, by induction on the
rounds. -/
theorem Prediction.coupled_searchVictim (max rounds : Nat) (set : CacheSet)
    {excused : Fault → Prop} :
    Coupled excused (fun x x' => x' = (x.1, x.2.neutral)) (searchVictim max rounds set)
      (searchVictim max rounds set.neutral) := by
  induction rounds generalizing set with
  | zero => exact .error _
  | succ rounds ih =>
    have hblocks : set.neutral.blocks = set.blocks := rfl
    rw [searchVictim, searchVictim, hblocks]
    cases set.blocks.findIdx? (·.word == max) with
    | some way => exact .ok rfl
    | none =>
      have hage : Coupled excused (fun aged aged' => aged' = aged.neutral) (age max set)
          (age max set.neutral) := by
        apply Coupled.bind_same (set.blocks.mapM (ageBlock max))
        intro blocks _
        exact .ok rfl
      refine hage.bind ?_
      rintro aged _ rfl
      exact ih aged

namespace DynamicRrip

variable {policy : DynamicRrip} {static : StaticRrip} {set : CacheSet} {way tag : Nat}
  {access : AccessKind} {kind : MemoryKind} {excused : Fault → Prop}

/-- Both rules of the duel predict new lines as the static policy does. -/
structure Even (policy : DynamicRrip) (static : StaticRrip) : Prop where
  sound : policy.Sound
  interval_eq : policy.interval = 1
  max_eq : static.max = policy.max
  insertion_eq : static.insertion = policy.max - 1

/-- The fill is counted without a fault, and the rules stay even. -/
theorem Even.countFill (h : policy.Even static) (role : DuelRole) :
    ∃ counted, policy.countFill role = .ok counted ∧ counted.Even static := by
  obtain ⟨counted, hcount, hsound, hmax⟩ := h.sound.countFill role
  have hinterval : counted.interval = policy.interval := by
    cases role with
    | follower | brripLeader =>
      cases hcount
      rfl
    | srripLeader =>
      obtain ⟨_, -, hcount⟩ := bind_eq_ok_iff.1 hcount
      cases hcount
      rfl
  exact ⟨counted, hcount, hsound, hinterval.trans h.interval_eq, by rw [hmax, h.max_eq],
    by rw [hmax, h.insertion_eq]⟩

/-- Each rule predicts the next new line as the static policy does. -/
theorem Even.insertion (h : policy.Even static) (rule : InsertionRule) :
    ∃ next, policy.insertion rule = .ok (static.insertion, next) ∧ next.Even static := by
  cases rule with
  | srrip =>
    rw [h.insertion_eq]
    exact ⟨policy, rfl, h⟩
  | brrip =>
    obtain ⟨prediction, next, hinsertion, hsound, hmax, -⟩ := h.sound.insertion .brrip
    have hrule := hinsertion
    obtain ⟨fills, hfills, hrule⟩ := bind_eq_ok_iff.1 hrule
    obtain ⟨-, rfl⟩ := Word.add_eq_ok_iff.1 hfills
    rw [if_pos (by rw [h.interval_eq]; exact Nat.le_add_left 1 _)] at hrule
    cases hrule
    rw [h.insertion_eq]
    exact ⟨_, hinsertion, hsound, h.interval_eq, h.max_eq, h.insertion_eq⟩

/-- The second set is the first one without its part in the duel, and the rules are even. -/
def Beside (policy : DynamicRrip) (set : CacheSet) (static : StaticRrip) (set' : CacheSet) : Prop :=
  policy.Even static ∧ set' = set.neutral

/-- Both policies put a word into a block. -/
theorem Even.coupled_setWord (h : policy.Even static) (set : CacheSet) (way word : Nat) :
    Coupled excused (fun x x' => Beside x.1 x.2 x'.1 x'.2)
      (do pure (policy, ← set.setWord way word) : Except Fault (DynamicRrip × CacheSet))
      (do pure (static, ← set.neutral.setWord way word)) := by
  refine (set.coupled_change way _).bind ?_
  rintro told _ rfl
  exact .ok ⟨h, rfl⟩

theorem Even.coupled_onInsert (h : policy.Even static) (set : CacheSet) (way : Nat) :
    Coupled excused (fun x x' => Beside x.1 x.2 x'.1 x'.2)
      (Policy.onInsert policy set way access) (Policy.onInsert static set.neutral way access) := by
  obtain ⟨counted, hcount, hcounted⟩ := h.countFill set.role
  obtain ⟨next, hinsertion, hnext⟩ := hcounted.insertion (counted.ruleFor set.role)
  have hinsert : Policy.onInsert policy set way access =
      (do pure (next, ← set.setWord way static.insertion) : Except Fault _) := by
    show (policy.countFill set.role >>= _) = _
    rw [hcount]
    show (counted.insertion (counted.ruleFor set.role) >>= _) = _
    rw [hinsertion]
    rfl
  rw [hinsert]
  exact hnext.coupled_setWord set way static.insertion

/-! ### The steps -/

theorem Even.coupled_hit (h : policy.Even static) :
    Coupled excused (fun x x' => Beside x.1 x.2 x'.1 x'.2) (set.hit policy way access)
      (set.neutral.hit static way access) := by
  unfold CacheSet.hit
  split
  · apply Coupled.bind_same (set.blockAt way)
    intro block _
    split
    · exact h.coupled_setWord _ way 0
    · exact .error _
  · exact h.coupled_setWord set way 0

theorem Even.coupled_vacate (h : policy.Even static) :
    Coupled excused (fun x x' => x'.1 = x.1 ∧ Beside x.2.1 x.2.2 x'.2.1 x'.2.2)
      (set.vacate policy way) (set.neutral.vacate static way) := by
  unfold CacheSet.vacate
  apply Coupled.bind_same (set.blockAt way)
  intro block _
  split
  · refine (set.coupled_change way Block.clear).bind ?_
    rintro cleared _ rfl
    exact .ok ⟨rfl, h, rfl⟩
  · exact .ok ⟨rfl, h, rfl⟩

theorem Even.coupled_choose (h : policy.Even static) :
    Coupled excused (fun x x' => x'.1 = x.1 ∧ Beside x.2.1 x.2.2 x'.2.1 x'.2.2)
      (set.choose policy) (set.neutral.choose static) := by
  have hvacancy : set.neutral.vacancy = set.vacancy := rfl
  unfold CacheSet.choose
  rw [hvacancy]
  cases set.vacancy with
  | some way => exact .ok ⟨rfl, h, rfl⟩
  | none =>
    have hvictim : Coupled excused (fun x x' => x'.1 = x.1 ∧ Beside x.2.1 x.2.2 x'.2.1 x'.2.2)
        (Policy.chooseVictim policy set) (Policy.chooseVictim static set.neutral) := by
      show Coupled _ _ (Prediction.victim policy.max set >>= _)
        (Prediction.victim static.max set.neutral >>= _)
      rw [h.max_eq]
      refine (Prediction.coupled_searchVictim policy.max (policy.max + 1) set).bind ?_
      rintro ⟨way, aged⟩ _ rfl
      exact .ok ⟨rfl, h, rfl⟩
    refine hvictim.bind ?_
    intro ⟨way, chosen, aged⟩ ⟨way', chosen', aged'⟩ ⟨hway, heven, haged⟩
    obtain rfl : way' = way := hway
    obtain rfl : aged' = aged.neutral := haged
    by_cases hlt : way' < aged.associativity
    · exact .of_eq_ok (if_pos hlt) (if_pos hlt) ⟨rfl, heven, rfl⟩
    · show Coupled _ _ (if _ then _ else _) (if way' < aged.associativity then _ else _)
      rw [if_neg hlt, if_neg hlt]
      exact .error _

theorem Even.coupled_accept (h : policy.Even static) :
    Coupled excused (fun x x' => Beside x.1 x.2 x'.1 x'.2)
      (set.accept policy way tag kind access) (set.neutral.accept static way tag kind access) := by
  unfold CacheSet.accept
  apply Coupled.bind_same (set.blockAt way)
  intro block _
  split
  · exact .error _
  · refine (h.coupled_onInsert ((set.put way (block.fill tag kind access.isWrite)).enter tag way)
      way).bind ?_
    rintro ⟨policy₁, inserted⟩ ⟨static₁, _⟩ ⟨heven, rfl⟩
    apply Coupled.bind_same inserted.checkUniqueTags
    intro _ _
    exact .ok ⟨heven, rfl⟩

theorem Even.coupled_bringIn (h : policy.Even static) :
    Coupled excused
      (fun x x' => x'.1 = x.1 ∧ x'.2.1 = x.2.1 ∧ Beside x.2.2.1 x.2.2.2 x'.2.2.1 x'.2.2.2)
      (set.bringIn policy tag kind access) (set.neutral.bringIn static tag kind access) := by
  unfold CacheSet.bringIn
  refine h.coupled_choose.bind ?_
  intro ⟨way, policy₁, set₁⟩ ⟨way', static₁, set₁'⟩ ⟨hway, h₁, hset₁⟩
  obtain rfl : way' = way := hway
  obtain rfl : set₁' = set₁.neutral := hset₁
  refine h₁.coupled_vacate.bind ?_
  intro ⟨victim, policy₂, set₂⟩ ⟨victim', static₂, set₂'⟩ ⟨hvictim, h₂, hset₂⟩
  obtain rfl : victim' = victim := hvictim
  obtain rfl : set₂' = set₂.neutral := hset₂
  refine h₂.coupled_accept.bind ?_
  rintro ⟨policy₃, set₃⟩ ⟨static₃, _⟩ ⟨h₃, rfl⟩
  exact .ok ⟨rfl, rfl, h₃, rfl⟩

/-- The sets of a duel without a difference stay the same in their steps, the others with
them. -/
theorem Beside.matching {index : Nat} {static' : StaticRrip} {x : DynamicRrip × CacheSet}
    {x' : StaticRrip × CacheSet} (h : Beside x.1 x.2 x'.1 x'.2) :
    Matching Beside index policy static' x x' where
  here := h
  elsewhere _ hother := ⟨h.1, hother.2⟩

/-- The static policy does on its sets what the dynamic policy does on those of an even
duel. -/
theorem mimics_static (f : Frame) : Mimics f (fun _ => False) Beside where
  find_eq tag _ h := by
    rw [h.2]
    rfl
  hit access _ h _ := by
    obtain ⟨heven, rfl⟩ := h
    exact heven.coupled_hit.mono fun _ _ hafter => hafter.matching
  bringIn access _ h _ _ := by
    obtain ⟨heven, rfl⟩ := h
    refine heven.coupled_bringIn.mono ?_
    intro x x' ⟨hway, hvictim, hafter⟩
    exact ⟨hway, congrArg _ hvictim, hafter.matching⟩
  vacate _ h _ := by
    obtain ⟨heven, rfl⟩ := h
    refine heven.coupled_vacate.mono ?_
    intro x x' ⟨hvictim, hafter⟩
    exact ⟨congrArg _ hvictim, hafter.matching⟩

end DynamicRrip

end AssocCache

/-! ## Configurations -/

namespace AssocCache

open Success

/-- The second configuration describes the store of the first one under static prediction,
with the prediction of new lines left open. -/
structure Config.StaticTwin (c c' : Config) : Prop where
  policy_eq : c'.policy = .staticRrip
  capacity_eq : c'.capacity = c.capacity
  blockSize_eq : c'.blockSize = c.blockSize
  associativity_eq : c'.associativity = c.associativity
  addressBits_eq : c'.addressBits = c.addressBits
  hitLatency_eq : c'.hitLatency = c.hitLatency
  regionBorder_eq : c'.regionBorder = c.regionBorder
  predictionBits_eq : c'.params.predictionBits = c.params.predictionBits
  staticInsertion_eq : c'.params.staticInsertion = none

variable {c c' : Config} {g : Geometry}

/-- Static prediction asks less of a configuration than dynamic prediction. -/
theorem Config.StaticTwin.geometry (h : c.StaticTwin c') (hpolicy : c.policy = .dynamicRrip)
    (hgeometry : c.geometry = .ok g) : c'.geometry = .ok g := by
  obtain ⟨n, hconsistent, rfl⟩ := geometry_eq_ok_iff.1 hgeometry
  have hbits : 1 ≤ c.params.predictionBits.toNat ∧ c.params.predictionBits.toNat ≤ 8 := by
    have hrange := hconsistent.settings
    rw [SettingsInRange, hpolicy] at hrange
    exact hrange.1
  have hsettings : c'.SettingsInRange := by
    rw [SettingsInRange, h.policy_eq]
    refine ⟨by rw [h.predictionBits_eq]; exact hbits, ?_⟩
    rw [h.staticInsertion_eq]
    exact nofun
  have hsingle : c'.policy = .fullyAssociativeLru → n = 1 := by
    rw [h.policy_eq]
    exact nofun
  refine geometry_eq_ok_iff.2 ⟨n, ?_, ?_⟩
  · constructor
    case settings => exact hsettings
    case single_set => exact hsingle
    case sets_power => exact hconsistent.sets_power
    case capacity_pos => rw [h.capacity_eq]; exact hconsistent.capacity_pos
    case associativity_pos => rw [h.associativity_eq]; exact hconsistent.associativity_pos
    case blockSize_power => rw [h.blockSize_eq]; exact hconsistent.blockSize_power
    case sets_eq =>
      rw [h.blockSize_eq, h.associativity_eq, h.capacity_eq]
      exact hconsistent.sets_eq
    case addressBits_pos => rw [h.addressBits_eq]; exact hconsistent.addressBits_pos
    case addressBits_le => rw [h.addressBits_eq]; exact hconsistent.addressBits_le
    case bits_le =>
      rw [h.blockSize_eq, h.addressBits_eq]
      exact hconsistent.bits_le
  · unfold shape
    rw [h.capacity_eq, h.blockSize_eq, h.associativity_eq, h.addressBits_eq, h.hitLatency_eq]

namespace DynamicRrip

/-- The policies of the two configurations are even. -/
theorem even_of_ofConfig (htwin : c.StaticTwin c') (hpolicy : c.policy = .dynamicRrip)
    (hinterval : c.params.bimodalInterval.toNat = 1) (hgeometry : c.geometry = .ok g) :
    ∃ value static, AnyPolicy.ofConfig c g = .ok (.dynamicRrip value) ∧
      AnyPolicy.ofConfig c' g = .ok (.staticRrip static) ∧ value.Even static := by
  obtain ⟨n, hconsistent, -⟩ := Config.geometry_eq_ok_iff.1 hgeometry
  have hrange := hconsistent.settings
  rw [Config.SettingsInRange, hpolicy] at hrange
  obtain ⟨⟨-, hbits⟩, ⟨-, hselector⟩, -, -⟩ := hrange
  have hmax : Prediction.maxOfBits c.params.predictionBits.toNat =
      .ok (2 ^ c.params.predictionBits.toNat - 1) :=
    Word.ones_eq_ok_iff.2 ⟨by omega, rfl⟩
  have hselectorMax : Word.ones 32 c.params.selectorBits.toNat =
      .ok (2 ^ c.params.selectorBits.toNat - 1) :=
    Word.ones_eq_ok_iff.2 ⟨by omega, rfl⟩
  have hbuilt : build c.params.predictionBits.toNat c.params.selectorBits.toNat
      c.params.bimodalInterval.toNat = .ok _ :=
    bind_eq_ok_iff.2 ⟨_, hselectorMax, bind_eq_ok_iff.2 ⟨_, hmax, rfl⟩⟩
  have hstatic : StaticRrip.build c'.params.predictionBits.toNat
      (c'.params.staticInsertion.map UInt64.toNat) =
        .ok ⟨2 ^ c.params.predictionBits.toNat - 1, 2 ^ c.params.predictionBits.toNat - 1 - 1⟩ := by
    rw [htwin.predictionBits_eq, htwin.staticInsertion_eq]
    exact bind_eq_ok_iff.2 ⟨_, hmax, rfl⟩
  have hsound := AnyPolicy.dynamicRrip_of_build hbuilt (UInt32.toNat_lt _)
  refine ⟨_, ⟨2 ^ c.params.predictionBits.toNat - 1, 2 ^ c.params.predictionBits.toNat - 1 - 1⟩,
    ?_, ?_, hsound, ?_, rfl, rfl⟩
  · unfold AnyPolicy.ofConfig
    rw [hpolicy]
    exact map_eq_ok_iff.2 ⟨_, hbuilt, rfl⟩
  · unfold AnyPolicy.ofConfig
    rw [htwin.policy_eq]
    exact map_eq_ok_iff.2 ⟨_, hstatic, rfl⟩
  · show Nat.max c.params.bimodalInterval.toNat 1 = 1
    rw [hinterval]
    rfl

end DynamicRrip

namespace Store

open DynamicRrip (Even Beside mimics_static)

variable {value : DynamicRrip} {static : StaticRrip}

/-! ## New stores -/

/-- The sets of the second store are those of the first one without their parts. -/
theorem layout_static (hstride : 2 ≤ c.params.leaderStride.toNat) :
    layout c' g static = (layout c g value).map (·.map CacheSet.neutral) := by
  have hleaders : leaderStride c value = .ok c.params.leaderStride.toNat :=
    if_neg (Nat.not_lt.2 hstride)
  show (checkSize g).mapError BuildFailure.aborted >>= _ =
    Except.map _ (((leaderStride c value).mapError BuildFailure.rejected) >>= _)
  rw [hleaders]
  show _ = Except.map _ ((checkSize g).mapError BuildFailure.aborted >>= _)
  cases checkSize g with
  | error fault => rfl
  | ok _ =>
    refine congrArg Except.ok ?_
    dsimp only
    rw [Array.map_ofFn]
    rfl

/-- The store under static prediction beside one under dynamic prediction. -/
def staticTwin (name : String) (static : StaticRrip) (s : Store DynamicRrip) : Store StaticRrip :=
  { s with name, sets := s.sets.map CacheSet.neutral, policy := static }

/-- The two stores are built together, or neither is. -/
theorem result_create_static (htwin : c.StaticTwin c') (hpolicy : c.policy = .dynamicRrip)
    (hgeometry : c.geometry = .ok g) :
    (create c' static).result = (create c value).result.map (staticTwin c'.name static) := by
  have hstride : 2 ≤ c.params.leaderStride.toNat := by
    obtain ⟨_, hconsistent, -⟩ := Config.geometry_eq_ok_iff.1 hgeometry
    have hrange := hconsistent.settings
    rw [Config.SettingsInRange, hpolicy] at hrange
    exact hrange.2.2.1
  rw [result_create hgeometry, result_create (htwin.geometry hpolicy hgeometry),
    layout_static hstride, htwin.regionBorder_eq]
  cases layout c g value <;> rfl

/-- New stores are paired. -/
theorem paired_of_create_static {s : Store DynamicRrip} (hbuilt : (create c value).result = .ok s)
    (heven : value.Even static) (name : String) :
    Paired (frameOf c s.geometry value) Beside s (s.staticTwin name static) := by
  refine ⟨(wellFormed_of_create hbuilt).2, rfl, rfl, rfl, Array.size_map, ?_⟩
  intro index set hset
  refine ⟨set.neutral, ?_, ?_, rfl⟩
  · show (s.sets.map CacheSet.neutral)[index]? = _
    rw [Array.getElem?_map, hset]
    rfl
  · rw [policy_of_create hbuilt]
    exact heven

/-! ## Runs -/

/-- The stores around the two policies answer each run alike. -/
theorem coupled_run_static {s : Store DynamicRrip} {w w' : Store AnyPolicy}
    (hopened : (create c value).result = .ok s)
    (hopened' : (create c' static).result = .ok (s.staticTwin c'.name static))
    (heven : value.Even static) (hbuilt : (create c (AnyPolicy.dynamicRrip value)).result = .ok w)
    (hbuilt' : (create c' (AnyPolicy.staticRrip static)).result = .ok w') (calls : List Call) :
    Coupled (fun _ => False)
      (fun x x' => x'.1 = x.1 ∧ x'.2.stats = x.2.stats ∧
        ∀ index way : Nat, x'.2.block? index way = x.2.block? index way)
      (run calls w) (run calls w') := by
  obtain ⟨_, hcreate, -, hruns⟩ := AnyPolicy.run_opened (.dynamicRrip value) value hbuilt
  obtain ⟨_, hcreate', -, hruns'⟩ := AnyPolicy.run_opened (.staticRrip static) static hbuilt'
  cases hopened.symm.trans hcreate
  cases hopened'.symm.trans hcreate'
  have hpaired := paired_of_create_static hopened heven c'.name
  have hbeside : Coupled (fun _ => False) (Answering _ Beside) _ _ :=
    hpaired.run (mimics_static _) calls
  refine hbeside.transport (hruns calls) (hruns' calls) ?_
  rintro x x' y y' ⟨hhistory, hafter⟩ ⟨hx, hstats, hsets⟩ ⟨hx', hstats', hsets'⟩
  refine ⟨by rw [hx', hx, hhistory], by rw [hstats', hstats, hafter.stats_eq], fun index way => ?_⟩
  have hblocks : x'.2.block? index way = x.2.block? index way :=
    hafter.block?_eq (fun h => by rw [h.2]; rfl) index way
  unfold block? at hblocks ⊢
  rw [hsets, hsets']
  exact hblocks

/-- A configuration of dynamic prediction with an interval of one is accepted, and the same
store is described under static prediction.  Both are built, or neither is for want of room.
Every run gives the same answers in the two stores and ends with the same statistics and the
same block in every way, its prediction included.  A run that does not end so fails with the
same fault in both, and has more calls than the statistics can count. -/
theorem even_duel_runs_as_static (hpolicy : c.policy = .dynamicRrip)
    (hinterval : c.params.bimodalInterval.toNat = 1) (hgeometry : c.geometry = .ok g)
    (htwin : c.StaticTwin c') :
    (∃ failure, (ofConfig c).result = .error failure ∧ (ofConfig c').result = .error failure) ∨
      ∃ s s', (ofConfig c).result = .ok s ∧ (ofConfig c').result = .ok s' ∧
        s.geometry = g ∧ s'.geometry = g ∧
        ∀ calls : List Call,
          (∃ history t t', run calls s = .ok (history, t) ∧ run calls s' = .ok (history, t') ∧
              t'.stats = t.stats ∧
              ∀ index way : Nat, t'.block? index way = t.block? index way) ∨
            2 ^ 63 ≤ calls.length ∧
              ∃ fault, run calls s = .error fault ∧ run calls s' = .error fault := by
  obtain ⟨value, static, hnamed, hnamed', heven⟩ :=
    DynamicRrip.even_of_ofConfig htwin hpolicy hinterval hgeometry
  have hgeometry' := htwin.geometry hpolicy hgeometry
  have hwrapped := result_ofConfig hgeometry hnamed
  have hwrapped' := result_ofConfig hgeometry' hnamed'
  have hbuilt : (ofConfig c).result =
      (create c value).result.map fun s => { s with policy := .dynamicRrip value } :=
    hwrapped.trans (AnyPolicy.result_create_close hgeometry (.dynamicRrip value) value)
  have hbuilt' : (ofConfig c').result =
      (create c' static).result.map fun s => { s with policy := .staticRrip static } :=
    hwrapped'.trans (AnyPolicy.result_create_close hgeometry' (.staticRrip static) static)
  have hcreate : (create c' static).result =
      (create c value).result.map (staticTwin c'.name static) :=
    result_create_static htwin hpolicy hgeometry
  cases hopened : (create c value).result with
  | error failure =>
    rw [hopened] at hbuilt hcreate
    rw [hcreate] at hbuilt'
    exact .inl ⟨failure, hbuilt, hbuilt'⟩
  | ok s =>
    rw [hopened] at hbuilt hcreate
    rw [hcreate] at hbuilt'
    have hshape : s.geometry = g := geometry_of_create hopened hgeometry
    refine .inr ⟨_, _, hbuilt, hbuilt', hshape, hshape, fun calls => ?_⟩
    have hcoupled := coupled_run_static hopened hcreate heven (hwrapped.symm.trans hbuilt)
      (hwrapped'.symm.trans hbuilt') calls
    rcases hrun : run calls _ with fault | ⟨history, t⟩
    · exact .inr ⟨long_of_fault hbuilt rfl hrun, fault, rfl, hcoupled.eq_error hrun⟩
    · left
      obtain ⟨⟨history', t'⟩, hrun', hhistory, hstats, hblocks⟩ := hcoupled.exists_ok hrun
      obtain rfl : history' = history := hhistory
      exact ⟨history', t, t', rfl, hrun', hstats, hblocks⟩

/-- Two sets of one way, one for each rule of the duel.  Every fill of the first one counts
against the static rule, and still no prediction differs. -/
theorem even_duel_runs_as_static_of_two_leaders :
    ∃ g s s' history t t',
      ({ Config.ofShape .dynamicRrip 128 64 1 with
        addressBits := 32, params := { leaderStride := 2, bimodalInterval := 1 } } :
          Config).geometry = .ok g ∧
      (ofConfig { Config.ofShape .dynamicRrip 128 64 1 with
        addressBits := 32, params := { leaderStride := 2, bimodalInterval := 1 } }).result = .ok s ∧
      (ofConfig { Config.ofShape .staticRrip 128 64 1 with addressBits := 32 }).result = .ok s' ∧
      run [.access 0 .write, .fill 64 .read, .probe 64 .read, .access 128 .read, .invalidate 64,
        .access 192 .writeback] s = .ok (history, t) ∧
      run [.access 0 .write, .fill 64 .read, .probe 64 .read, .access 128 .read, .invalidate 64,
        .access 192 .writeback] s' = .ok (history, t') ∧
      t.stats.writebacks = 1 ∧ ∀ index way : Nat, t'.block? index way = t.block? index way := by
  have htwin : Config.StaticTwin
      { Config.ofShape .dynamicRrip 128 64 1 with
        addressBits := 32, params := { leaderStride := 2, bimodalInterval := 1 } }
      { Config.ofShape .staticRrip 128 64 1 with addressBits := 32 } :=
    ⟨rfl, rfl, rfl, rfl, rfl, rfl, rfl, rfl, rfl⟩
  rcases even_duel_runs_as_static rfl rfl rfl htwin with
    ⟨failure, hfailed, -⟩ | ⟨s, s', hbuilt, hbuilt', -, -, hruns⟩
  · cases hfailed
  · obtain ⟨history₀, t₀, hrun₀, hwritebacks⟩ : ∃ history₀ t₀,
        run [.access 0 .write, .fill 64 .read, .probe 64 .read, .access 128 .read,
          .invalidate 64, .access 192 .writeback] s = .ok (history₀, t₀) ∧
        t₀.stats.writebacks = 1 := by
      cases hbuilt
      exact ⟨_, _, rfl, rfl⟩
    rcases hruns [.access 0 .write, .fill 64 .read, .probe 64 .read, .access 128 .read,
      .invalidate 64, .access 192 .writeback] with
        ⟨history, t, t', hrun, hrun', -, hblocks⟩ | ⟨hlong, -⟩
    · cases hrun₀.symm.trans hrun
      exact ⟨_, s, s', _, _, t', rfl, hbuilt, hbuilt', hrun, hrun', hwritebacks, hblocks⟩
    · exact absurd hlong (by decide)

end Store

end AssocCache
