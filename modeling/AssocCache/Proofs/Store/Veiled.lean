import AssocCache.Proofs.Coupled
import AssocCache.Proofs.Policy.Blind
import AssocCache.Proofs.Store.Paired

/-!
# Stores behind a veil

Two stores that are the same behind a veil (`Veil.SameStore`) get the same calls, except
for what the veil hides of the accesses (`Veil.SameCall`).  Their policy is blind to what is
hidden.  They then answer alike behind the veil, and are again the same behind it
(`Veil.SameStore.run`).

What the answers report of a set is found again on both sides, so only the marks of the
lines that leave can differ.  These marks also decide how many write-backs are counted.
The count stays below the count of evictions, so it never leaves the range of a word
first and no fault tells the stores apart.
-/

namespace AssocCache

open Success CacheSet

variable {v : Veil} {excused : Fault → Prop} {set set' : CacheSet} {way : Nat}

/-! ## Steps on a set -/

namespace Veil

/-- What does not look behind the veil reads the same in two sets that are the same behind
it. -/
theorem read_eq {α : Type} (read : CacheSet → α) (hread : ∀ set, read (set.veiled v) = read set)
    (h : set'.veiled v = set.veiled v) : read set' = read set := by
  rw [← hread set', h, hread]

/-- What works through the veil leads to results that are the same behind it. -/
theorem coupled {α : Type} (operation : CacheSet → Except Fault α) (g : α → α)
    (hoperation : ∀ set, operation (set.veiled v) = (operation set).map g)
    (h : set'.veiled v = set.veiled v) :
    Coupled excused (fun a a' => g a' = g a) (operation set) (operation set') := by
  apply Coupled.of_map_eq
  rw [← hoperation, ← hoperation, h]

/-- The same policy with a set that is the same behind the veil. -/
def Same {π : Type} (v : Veil) (x x' : π × CacheSet) : Prop :=
  x'.1 = x.1 ∧ x'.2.veiled v = x.2.veiled v

theorem coupled_hook {π : Type} (hook : CacheSet → Except Fault (π × CacheSet))
    (hhook : ∀ set, hook (set.veiled v) = v.behind (hook set))
    (h : set'.veiled v = set.veiled v) : Coupled excused v.Same (hook set) (hook set') := by
  refine (coupled hook _ hhook h).mono ?_
  intro ⟨policy, told⟩ ⟨policy', told'⟩ hsame
  exact Prod.mk.inj hsame

theorem coupled_blockAt (h : set'.veiled v = set.veiled v) (way : Nat) :
    Coupled excused (fun block block' => block'.veiled v = block.veiled v) (set.blockAt way)
      (set'.blockAt way) :=
  coupled (blockAt · way) _ (fun _ => blockAt_veiled way) h

theorem valid_congr {block block' : Block} (h : block'.veiled v = block.veiled v) :
    block'.valid = block.valid := by
  rw [← Block.valid_veiled (v := v), h, Block.valid_veiled]

theorem tag_congr {block block' : Block} (h : block'.veiled v = block.veiled v) :
    block'.tag = block.tag := by
  rw [← Block.tag_veiled (v := v), h, Block.tag_veiled]

theorem put_congr (h : set'.veiled v = set.veiled v) {block block' : Block}
    (hblock : block'.veiled v = block.veiled v) (way : Nat) :
    (set'.put way block').veiled v = (set.put way block).veiled v := by
  rw [← put_veiled, ← put_veiled, h, hblock]

theorem touch_congr {block block' : Block} (hblock : block'.veiled v = block.veiled v)
    {access access' : AccessKind} (haccess : v.SameLookup access access') :
    (block'.touch access').veiled v = (block.touch access).veiled v := by
  simp only [Block.veiled, Block.touch, Block.mk.injEq] at hblock ⊢
  obtain ⟨htag, hvalid, hdirty, hset, hway, hkind, hword⟩ := hblock
  refine ⟨htag, hvalid, ?_, hset, hway, hkind, hword⟩
  cases hmarks : v.marks with
  | true => rfl
  | false =>
    have hsame : block'.dirty = block.dirty := by simpa [hmarks] using hdirty
    rw [haccess hmarks, hsame]

theorem fill_congr {block block' : Block} (hblock : block'.veiled v = block.veiled v)
    {access access' : AccessKind} (haccess : v.SameLookup access access') {kind kind' : MemoryKind}
    (hkind : v.kinds = false → kind' = kind) (tag : Nat) :
    (block'.fill tag kind' access'.isWrite).veiled v =
      (block.fill tag kind access.isWrite).veiled v := by
  simp only [Block.veiled, Block.fill, Block.mk.injEq] at hblock ⊢
  obtain ⟨-, -, -, hset, hway, -, hword⟩ := hblock
  refine ⟨trivial, trivial, ?_, hset, hway, ?_, hword⟩
  · cases hmarks : v.marks with
    | true => rfl
    | false => rw [haccess hmarks]
  · cases hkinds : v.kinds with
    | true => rfl
    | false => rw [hkind hkinds]

end Veil

namespace Policy.Blind

variable {π : Type} [Policy π] {access access' : AccessKind}

theorem hit (hblind : Policy.Blind π v) (h : set'.veiled v = set.veiled v) {block : Block}
    (hb : set.blocks[way]? = some block) (hv : block.valid = true)
    (haccess : v.SameLookup access access') (policy : π) :
    Coupled excused v.Same (set.hit policy way access) (set'.hit policy way access') := by
  have hblocks : Coupled excused _ (set.blockAt way) (set'.blockAt way) :=
    Veil.coupled_blockAt h way
  obtain ⟨block', hb', hblock⟩ := hblocks.exists_ok (blockAt_eq_ok_iff.2 hb)
  have hvalid : block'.valid = block.valid := Veil.valid_congr hblock
  rw [hit_eq hb hv, hit_eq (blockAt_eq_ok_iff.1 hb') (hvalid.trans hv)]
  apply Veil.coupled_hook (Policy.onHit policy · way) (hblind.onHit policy · way)
  exact Veil.put_congr h (Veil.touch_congr hblock haccess) way

theorem vacate (hblind : Policy.Blind π v) (h : set'.veiled v = set.veiled v) (policy : π)
    (way : Nat) :
    Coupled excused (fun x x' => x'.1.map (Block.veiled v) = x.1.map (Block.veiled v) ∧
        v.Same x.2 x'.2)
      (set.vacate policy way) (set'.vacate policy way) := by
  unfold CacheSet.vacate
  apply (Veil.coupled_blockAt h way).bind
  intro block block' hblock
  have hvalid : block'.valid = block.valid := Veil.valid_congr hblock
  have htag : block'.tag = block.tag := Veil.tag_congr hblock
  rw [hvalid, htag]
  split
  · apply (Veil.coupled_hook (Policy.onInvalidate policy · way)
      (hblind.onInvalidate policy · way) h).bind
    rintro ⟨_, told⟩ ⟨policy₁, told'⟩ ⟨rfl, htold⟩
    apply (Veil.coupled (change · way Block.clear) _
      (fun _ => change_veiled way _ Block.clear_veiled) htold).bind
    intro cleared cleared' hcleared
    refine .ok ⟨congrArg some hblock, rfl, ?_⟩
    exact congrArg (CacheSet.forget · block.tag) hcleared
  · exact .ok ⟨rfl, rfl, h⟩

theorem choose (hblind : Policy.Blind π v) (h : set'.veiled v = set.veiled v) (policy : π) :
    Coupled excused (fun x x' => x'.1 = x.1 ∧ v.Same x.2 x'.2) (set.choose policy)
      (set'.choose policy) := by
  unfold CacheSet.choose
  rw [Veil.read_eq vacancy (fun _ => vacancy_veiled) h]
  cases set.vacancy with
  | some way => exact .ok ⟨rfl, rfl, h⟩
  | none =>
    apply (Veil.coupled (Policy.chooseVictim policy) _ (hblind.chooseVictim policy) h).bind
    rintro ⟨way, chosen, aged⟩ ⟨way', chosen', aged'⟩ hsame
    simp only [Prod.mk.injEq] at hsame
    obtain ⟨rfl, rfl, haged⟩ := hsame
    dsimp only
    rw [Veil.read_eq associativity (fun _ => associativity_veiled) haged]
    split
    · exact .ok ⟨rfl, rfl, haged⟩
    · have hindex : aged'.index = aged.index := Veil.read_eq index (fun _ => index_veiled) haged
      rw [broken, broken, hindex]
      exact .error _

theorem accept (hblind : Policy.Blind π v) (h : set'.veiled v = set.veiled v)
    {kind kind' : MemoryKind} (hkind : v.kinds = false → kind' = kind)
    (haccess : v.SameFill access access') (policy : π) (way tag : Nat) :
    Coupled excused v.Same (set.accept policy way tag kind access)
      (set'.accept policy way tag kind' access') := by
  unfold CacheSet.accept
  apply (Veil.coupled_blockAt h way).bind
  intro block block' hblock
  have hvalid : block'.valid = block.valid := Veil.valid_congr hblock
  have hindex : set'.index = set.index := Veil.read_eq index (fun _ => index_veiled) h
  rw [hvalid, hindex]
  split
  · exact .error _
  · have hput := Veil.put_congr h (Veil.fill_congr hblock haccess.lookup hkind tag) way
    have henter : (CacheSet.enter _ tag way).veiled v = (CacheSet.enter _ tag way).veiled v :=
      congrArg (CacheSet.enter · tag way) hput
    apply (Veil.coupled_hook (Policy.onFill policy · way)
      (hblind.onFill policy · way) henter).bind
    rintro ⟨_, told⟩ ⟨policy₁, told'⟩ ⟨rfl, htold⟩
    dsimp only
    rw [hblind.onInsert_congr haccess]
    apply (Veil.coupled_hook (Policy.onInsert policy₁ · way access)
      (hblind.onInsert policy₁ · way access) htold).bind
    rintro ⟨_, inserted⟩ ⟨policy₂, inserted'⟩ ⟨rfl, hinserted⟩
    dsimp only
    rw [Veil.read_eq checkUniqueTags (fun _ => checkUniqueTags_veiled) hinserted]
    exact .bind_same inserted.checkUniqueTags fun _ _ => .ok ⟨rfl, hinserted⟩

theorem bringIn (hblind : Policy.Blind π v) (h : set'.veiled v = set.veiled v)
    {kind kind' : MemoryKind} (hkind : v.kinds = false → kind' = kind)
    (haccess : v.SameFill access access') (policy : π) (tag : Nat) :
    Coupled excused (fun x x' => x'.1 = x.1 ∧
        x'.2.1.map (Block.veiled v) = x.2.1.map (Block.veiled v) ∧ v.Same x.2.2 x'.2.2)
      (set.bringIn policy tag kind access) (set'.bringIn policy tag kind' access') := by
  unfold CacheSet.bringIn
  apply (hblind.choose h policy).bind
  rintro ⟨_, _, chosen⟩ ⟨way, policy₁, chosen'⟩ ⟨rfl, rfl, hchosen⟩
  apply (hblind.vacate hchosen policy₁ way).bind
  rintro ⟨victim, _, vacated⟩ ⟨victim', policy₂, vacated'⟩ ⟨hvictim, rfl, hvacated⟩
  apply (hblind.accept hvacated hkind haccess policy₂ way tag).bind
  rintro ⟨_, filled⟩ ⟨policy₃, filled'⟩ ⟨rfl, hfilled⟩
  exact .ok ⟨rfl, hvictim, rfl, hfilled⟩

end Policy.Blind

/-! ## Statistics and answers -/

/-- Behind the veil the two statistics are the same.  Neither has counted more write-backs
than evictions. -/
structure Veil.SameStats (v : Veil) (stats stats' : Stats) : Prop where
  hits_eq : stats'.hits = stats.hits
  misses_eq : stats'.misses = stats.misses
  evictions_eq : stats'.evictions = stats.evictions
  occupancy_eq : stats'.occupancy = stats.occupancy
  writebacks_eq : v.marks = false → stats'.writebacks = stats.writebacks
  covered : stats.writebacks ≤ stats.evictions
  covered' : stats'.writebacks ≤ stats'.evictions

/-- The count of write-backs has room wherever the count of evictions has. -/
theorem Stats.countReplacement_of_covered {stats : Stats} (h : stats.writebacks ≤ stats.evictions)
    (wasDirty : Bool) :
    stats.countReplacement wasDirty = (do
      let evictions ← Word.add 64 stats.evictions 1
      pure { stats with evictions, writebacks := stats.writebacks + wasDirty.toNat }) := by
  rw [countReplacement_eq]
  cases hadd : Word.add 64 stats.evictions 1 with
  | error fault => rfl
  | ok evictions =>
    obtain ⟨hlt, rfl⟩ := Word.add_eq_ok_iff.1 hadd
    cases wasDirty with
    | false => rfl
    | true =>
      have hroom : Word.add 64 stats.writebacks 1 = .ok (stats.writebacks + 1) :=
        Word.add_eq_ok_iff.2 ⟨by omega, rfl⟩
      simp [hroom, bind, Except.bind]

namespace Veil.SameStats

variable {stats stats' : Stats}

theorem countHit (h : v.SameStats stats stats') :
    Coupled excused v.SameStats stats.countHit stats'.countHit := by
  unfold Stats.countHit
  rw [h.hits_eq]
  exact .bind_same (Word.add 64 stats.hits 1) fun hits _ => .ok { h with hits_eq := rfl }

theorem countMiss (h : v.SameStats stats stats') :
    Coupled excused v.SameStats stats.countMiss stats'.countMiss := by
  unfold Stats.countMiss
  rw [h.misses_eq]
  exact .bind_same (Word.add 64 stats.misses 1) fun misses _ => .ok { h with misses_eq := rfl }

theorem countArrival (h : v.SameStats stats stats') :
    Coupled excused v.SameStats stats.countArrival stats'.countArrival := by
  unfold Stats.countArrival
  rw [h.occupancy_eq]
  exact .bind_same (Word.add 64 stats.occupancy 1) fun occupancy _ =>
    .ok { h with occupancy_eq := rfl }

theorem countDeparture (h : v.SameStats stats stats') :
    Coupled excused v.SameStats stats.countDeparture stats'.countDeparture := by
  unfold Stats.countDeparture
  rw [h.occupancy_eq]
  exact .bind_same (Word.sub stats.occupancy 1) fun occupancy _ =>
    .ok { h with occupancy_eq := rfl }

/-- Whether the line that leaves is dirty may differ where the veil hides it. -/
theorem countReplacement (h : v.SameStats stats stats') {wasDirty wasDirty' : Bool}
    (hdirty : v.marks = false → wasDirty' = wasDirty) :
    Coupled excused v.SameStats (stats.countReplacement wasDirty)
      (stats'.countReplacement wasDirty') := by
  have hcovered := h.covered
  have hcovered' := h.covered'
  rw [h.evictions_eq] at hcovered'
  have hle := wasDirty.toNat_le
  have hle' := wasDirty'.toNat_le
  rw [Stats.countReplacement_of_covered h.covered, Stats.countReplacement_of_covered h.covered',
    h.evictions_eq]
  apply Coupled.bind_same (Word.add 64 stats.evictions 1)
  intro evictions hadd
  obtain ⟨-, rfl⟩ := Word.add_eq_ok_iff.1 hadd
  refine .ok { h with evictions_eq := rfl, writebacks_eq := ?_, covered := ?_, covered' := ?_ }
  · intro hmarks
    show stats'.writebacks + wasDirty'.toNat = stats.writebacks + wasDirty.toNat
    rw [h.writebacks_eq hmarks, hdirty hmarks]
  · show stats.writebacks + wasDirty.toNat ≤ stats.evictions + 1
    omega
  · show stats'.writebacks + wasDirty'.toNat ≤ stats.evictions + 1
    omega

theorem countVacated (h : v.SameStats stats stats') {victim victim' : Option Block}
    (hvictim : victim'.map (Block.veiled v) = victim.map (Block.veiled v)) :
    Coupled excused v.SameStats (stats.countVacated victim) (stats'.countVacated victim') := by
  cases victim <;> cases victim'
  case none.none => exact .ok h
  case some.some => exact h.countDeparture
  all_goals cases hvictim

theorem countFill (h : v.SameStats stats stats') {victim victim' : Option Block}
    (hvictim : victim'.map (Block.veiled v) = victim.map (Block.veiled v)) :
    Coupled excused v.SameStats (stats.countFill victim) (stats'.countFill victim') := by
  cases victim <;> cases victim'
  case none.none => exact h.countArrival
  case some.some block block' =>
    apply h.countReplacement
    intro hmarks
    simpa [Block.veiled, hmarks] using congrArg Block.dirty (Option.some.inj hvictim)
  all_goals cases hvictim

end Veil.SameStats

/-- What is left of a departure behind a veil. -/
def Eviction.veiled (v : Veil) (evicted : Eviction) : Eviction :=
  { evicted with wasDirty := !v.marks && evicted.wasDirty }

/-- What is left of an install behind a veil. -/
def Install.veiled (v : Veil) (install : Install) : Install :=
  { install with evicted := install.evicted.map (Eviction.veiled v) }

/-- What is left of a reply behind a veil. -/
def Reply.veiled (v : Veil) : Reply → Reply
  | .lookup found => .lookup found
  | .install installed => .install (installed.veiled v)
  | .access outcome =>
    .access { outcome with install := outcome.install.map (Install.veiled v) }
  | .departure evicted => .departure (evicted.map (Eviction.veiled v))

/-- What is left of the answers of a history behind a veil. -/
def Veil.answers (v : Veil) (history : List Exchange) : List (Except Refusal Reply) :=
  history.map fun x => x.answer.map (Reply.veiled v)

/-- Two requests for the same operation at the same address, with accesses that are the same
behind the veil. -/
inductive Veil.SameCall (v : Veil) : Call → Call → Prop where
  | probe {address : Nat} {access access' : AccessKind} (h : v.SameLookup access access') :
      SameCall v (.probe address access) (.probe address access')
  | fill {address : Nat} {access access' : AccessKind} (h : v.SameFill access access') :
      SameCall v (.fill address access) (.fill address access')
  | access {address : Nat} {access access' : AccessKind} (h : v.SameFill access access') :
      SameCall v (.access address access) (.access address access')
  | invalidate {address : Nat} : SameCall v (.invalidate address) (.invalidate address)

theorem Veil.SameCall.address_eq {call call' : Call} (h : v.SameCall call call') :
    call'.address = call.address := by
  cases h <;> rfl

/-! ## Stores -/

/-- Behind the veil the two stores are the same. -/
structure Veil.SameStore {π : Type} (v : Veil) (s s' : Store π) : Prop where
  geometry_eq : s'.geometry = s.geometry
  regionBorder_eq : v.kinds = false → s'.regionBorder = s.regionBorder
  policy_eq : s'.policy = s.policy
  stats : v.SameStats s.stats s'.stats
  sets_eq : s'.sets.map (CacheSet.veiled v) = s.sets.map (CacheSet.veiled v)

/-- The same is left of two answers, and the stores are the same behind the veil. -/
def Veil.Answering {α β π : Type} (v : Veil) (g : α → β) (x x' : α × Store π) : Prop :=
  g x'.1 = g x.1 ∧ v.SameStore x.2 x'.2

namespace Veil.SameStore

variable {π : Type} {s s' : Store π} {line : Line} {index : Nat}

theorem exists_set (h : v.SameStore s s') (hset : s.sets[index]? = some set) :
    ∃ set', s'.sets[index]? = some set' ∧ set'.veiled v = set.veiled v := by
  have hleft : (s'.sets.map (CacheSet.veiled v))[index]? = some (set.veiled v) := by
    rw [h.sets_eq, Array.getElem?_map, hset]
    rfl
  rw [Array.getElem?_map] at hleft
  exact Option.map_eq_some_iff.1 hleft

theorem replace (h : v.SameStore s s') {policy policy' : π} (hpolicy : policy' = policy)
    (hset : set'.veiled v = set.veiled v) {stats stats' : Stats} (hstats : v.SameStats stats stats')
    (index : Nat) :
    v.SameStore (s.replace index set policy stats) (s'.replace index set' policy' stats') where
  geometry_eq := h.geometry_eq
  regionBorder_eq := h.regionBorder_eq
  policy_eq := hpolicy
  stats := hstats
  sets_eq := by
    simp only [Store.replace]
    rw [Array.map_setIfInBounds, Array.map_setIfInBounds, h.sets_eq, hset]

/-- The statistics change alike. -/
theorem recount (h : v.SameStore s s') {stats stats' : Stats} (hstats : v.SameStats stats stats') :
    v.SameStore { s with stats } { s' with stats := stats' } :=
  { h with stats := hstats }

theorem departure_eq (h : v.SameStore s s') {victim victim' : Option Block}
    (hvictim : victim'.map (Block.veiled v) = victim.map (Block.veiled v)) (index : Nat) :
    (victim'.map (s'.departure index)).map (Eviction.veiled v) =
      (victim.map (s.departure index)).map (Eviction.veiled v) := by
  have hleft : ∀ (t : Store π) (gone : Option Block),
      (gone.map (t.departure index)).map (Eviction.veiled v) =
        (gone.map (Block.veiled v)).map (t.departure index) := by
    intro t gone
    cases gone <;> rfl
  have hsame : s'.departure index = s.departure index := by
    unfold Store.departure
    rw [h.geometry_eq]
  rw [hleft, hleft, hvictim, hsame]

variable [Policy π]

theorem probeWithin (h : v.SameStore s s') (hblind : Policy.Blind π v) {f : Frame}
    (hwell : set.WellFormed f index) (hset : set'.veiled v = set.veiled v) (line : Line)
    {access access' : AccessKind} (haccess : v.SameLookup access access') :
    Coupled excused (v.Answering id) (s.probeWithin line set access)
      (s'.probeWithin line set' access') := by
  unfold Store.probeWithin
  rw [Veil.read_eq (find · line.tag) (fun _ => find_veiled line.tag) hset]
  cases hfind : set.find line.tag with
  | some way =>
    obtain ⟨block, hb, hholds⟩ := hwell.find_eq_some_iff.1 hfind
    obtain ⟨hv, -⟩ := Block.holds_iff.1 hholds
    rw [h.policy_eq]
    apply (hblind.hit hset hb hv haccess s.policy).bind
    rintro ⟨policy₁, told⟩ ⟨policy₁', told'⟩ ⟨hpolicy, htold⟩
    apply h.stats.countHit.bind
    intro stats stats' hstats
    refine .ok ⟨?_, h.replace hpolicy htold hstats line.set⟩
    rw [h.geometry_eq]
  | none =>
    apply h.stats.countMiss.bind
    intro stats stats' hstats
    refine .ok ⟨?_, h.recount hstats⟩
    rw [h.geometry_eq]

theorem fillWithin (h : v.SameStore s s') (hblind : Policy.Blind π v)
    (hset : set'.veiled v = set.veiled v) (line : Line) {access access' : AccessKind}
    (haccess : v.SameFill access access') :
    Coupled excused (v.Answering (Install.veiled v)) (s.fillWithin line set access)
      (s'.fillWithin line set' access') := by
  unfold Store.fillWithin
  have hkind : v.kinds = false →
      MemoryKind.classify (s'.geometry.addressOf line) s'.regionBorder =
        MemoryKind.classify (s.geometry.addressOf line) s.regionBorder := by
    intro hkinds
    rw [h.geometry_eq, h.regionBorder_eq hkinds]
  rw [h.policy_eq]
  apply (hblind.bringIn hset hkind haccess s.policy line.tag).bind
  rintro ⟨_, victim, policy₁, filled⟩ ⟨way, victim', policy₁', filled'⟩
    ⟨rfl, hvictim, hpolicy, hfilled⟩
  apply (h.stats.countFill hvictim).bind
  intro stats stats' hstats
  refine .ok ⟨?_, h.replace hpolicy hfilled hstats line.set⟩
  exact congrArg (Install.mk line.set way) (h.departure_eq hvictim line.set)

theorem invalidateWithin (h : v.SameStore s s') (hblind : Policy.Blind π v)
    (hset : set'.veiled v = set.veiled v) (line : Line) :
    Coupled excused (v.Answering (Option.map (Eviction.veiled v))) (s.invalidateWithin line set)
      (s'.invalidateWithin line set') := by
  unfold Store.invalidateWithin
  rw [Veil.read_eq (find · line.tag) (fun _ => find_veiled line.tag) hset]
  cases set.find line.tag with
  | none => exact .ok ⟨rfl, h⟩
  | some way =>
    dsimp only
    rw [h.policy_eq]
    apply (hblind.vacate hset s.policy way).bind
    rintro ⟨victim, policy₁, vacated⟩ ⟨victim', policy₁', vacated'⟩ ⟨hvictim, hpolicy, hvacated⟩
    apply (h.stats.countVacated hvictim).bind
    intro stats stats' hstats
    exact .ok ⟨h.departure_eq hvictim line.set, h.replace hpolicy hvacated hstats line.set⟩

theorem respondWithin (h : v.SameStore s s') (hblind : Policy.Blind π v) {f : Frame}
    (hwell : set.WellFormed f index) (hset : set'.veiled v = set.veiled v) (line : Line)
    {call call' : Call} (hcall : v.SameCall call call') :
    Coupled excused (v.Answering (Except.map (Reply.veiled v))) (s.respondWithin line set call)
      (s'.respondWithin line set' call') := by
  have hfind' : set'.find line.tag = set.find line.tag :=
    Veil.read_eq (find · line.tag) (fun _ => find_veiled line.tag) hset
  cases hcall with
  | probe haccess =>
    apply (h.probeWithin hblind hwell hset line haccess).bind
    rintro ⟨_, t⟩ ⟨lookup, t'⟩ ⟨rfl, hsame⟩
    exact .ok ⟨rfl, hsame⟩
  | fill haccess =>
    rw [Store.respondWithin, Store.respondWithin, hfind']
    split
    · exact .ok ⟨rfl, h⟩
    · apply (h.fillWithin hblind hset line haccess).bind
      rintro ⟨install, t⟩ ⟨install', t'⟩ ⟨hinstall, hsame⟩
      exact .ok ⟨congrArg (fun left => Except.ok (Reply.install left)) hinstall, hsame⟩
  | access haccess =>
    cases hfind : set.find line.tag with
    | some way =>
      rw [Store.respondWithin_access_of_hit hfind,
        Store.respondWithin_access_of_hit (hfind'.trans hfind)]
      apply (h.probeWithin hblind hwell hset line haccess.lookup).bind
      rintro ⟨_, t⟩ ⟨lookup, t'⟩ ⟨rfl, hsame⟩
      exact .ok ⟨rfl, hsame⟩
    | none =>
      rw [Store.respondWithin_access_of_miss hfind,
        Store.respondWithin_access_of_miss (hfind'.trans hfind)]
      apply h.stats.countMiss.bind
      intro stats stats' hstats
      apply ((h.recount hstats).fillWithin hblind hset line haccess).bind
      rintro ⟨install, t⟩ ⟨install', t'⟩ ⟨hinstall, hsame⟩
      refine .ok ⟨?_, hsame⟩
      rw [h.geometry_eq]
      exact congrArg (fun left => Except.ok (Reply.access ⟨_, some left⟩)) hinstall
  | invalidate =>
    apply (h.invalidateWithin hblind hset line).bind
    rintro ⟨evicted, t⟩ ⟨evicted', t'⟩ ⟨hevicted, hsame⟩
    exact .ok ⟨congrArg (fun left => Except.ok (Reply.departure left)) hevicted, hsame⟩

/-- The two stores answer a call alike behind the veil. -/
theorem respond (h : v.SameStore s s') (hblind : Policy.Blind π v) {f : Frame}
    (hwell : s.WellFormed f) {call call' : Call} (hcall : v.SameCall call call') :
    Coupled excused (v.Answering (Except.map (Reply.veiled v))) (s.respond call)
      (s'.respond call') := by
  rcases hwell.maps_cases call.address with ⟨-, set, hmaps⟩ | ⟨-, houtside⟩
  · obtain ⟨set', hset', hsame⟩ := h.exists_set hmaps.2
    have hmaps' : s'.Maps call'.address (f.geometry.lineOf call.address) set' := by
      refine ⟨?_, hset'⟩
      rw [h.geometry_eq, hcall.address_eq]
      exact hmaps.1
    rw [Store.respond_of_maps hmaps, Store.respond_of_maps hmaps']
    exact h.respondWithin hblind (hwell.sets hmaps.2) hsame _ hcall
  · have houtside' := houtside
    rw [← h.geometry_eq, ← hcall.address_eq] at houtside'
    rw [Store.respond_of_outside houtside, Store.respond_of_outside houtside', hcall.address_eq]
    exact .ok ⟨rfl, h⟩

/-- The two stores answer each run alike behind the veil, by induction on the calls. -/
theorem run [Policy.Tame π] (h : v.SameStore s s') (hblind : Policy.Blind π v) {f : Frame}
    (hwell : s.WellFormed f) {calls calls' : List Call}
    (hcalls : List.Forall₂ v.SameCall calls calls') :
    Coupled excused (v.Answering v.answers) (Store.run calls s) (Store.run calls' s') := by
  induction hcalls generalizing s s' with
  | nil => exact .ok ⟨rfl, h⟩
  | cons hcall hcalls ih =>
    apply (h.respond hblind hwell hcall).attach.bind
    intro ⟨answer, t⟩ ⟨answer', t'⟩ ⟨⟨hanswer, hsame⟩, hrespond, _⟩
    apply (ih hsame (hwell.respond hrespond)).bind
    intro ⟨history, u⟩ ⟨history', u'⟩ ⟨hhistory, hsame'⟩
    exact .ok ⟨List.cons_eq_cons.2 ⟨hanswer, hhistory⟩, hsame'⟩

end Veil.SameStore

end AssocCache
