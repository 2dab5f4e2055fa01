import AssocCache.Proofs.Coupled
import AssocCache.Proofs.Store.Paired

/-!
# Policies that agree about a set

Two values of one policy may differ in what they know of other sets and still do the
same to one set.  `Policy.Agreeing` says of such an agreement that no hook on the set
tells the two values apart, and that none ends the agreement.  Then no step of an
operation on the set does (`Agreeing.mimics`).

Nothing is asked where a hook of the first value faults.
-/

/-!
## Steps on other sets

A policy serves all sets of a store with one value.  `Policy.Apart` says of a relation
between two policies and a set of each that no hook on a set with another index ends
it.  So none of the steps of an operation on another set ends it either
(`Apart.hit`, `Apart.vacate`, `Apart.bringIn`).

A step that faults is not asked about.
-/

namespace AssocCache

/-- Whatever a computation leads to, it leads to something. -/
theorem Reaches.any {ε α : Type} (x : Except ε α) :
    Reaches (fun _ => True) (fun _ => True) x := by
  cases x with
  | ok a => exact .ok trivial
  | error e => exact .excuse trivial

/-- A step of the first computation alone. -/
theorem Reaches.bind_coupled {ε α β γ : Type} {P : α → Prop} {R : β → γ → Prop}
    {x : Except ε α} {f : α → Except ε β} {y : Except ε γ} (h : Reaches (fun _ => True) P x)
    (hf : ∀ a, P a → Coupled (fun _ => True) R (f a) y) :
    Coupled (fun _ => True) R (x >>= f) y := by
  cases h with
  | ok h => exact hf _ h
  | excuse he => exact .excuse he y

/-- A smaller counter leaves its range no earlier. -/
theorem Word.coupled_add {small large : Nat} (hle : small ≤ large) :
    Coupled (fun _ => True)
      (fun sum sum' => large + 1 < 2 ^ 64 ∧ sum = large + 1 ∧ sum' = small + 1)
      (Word.add 64 large 1) (Word.add 64 small 1) := by
  rcases hlarge : Word.add 64 large 1 with fault | sum
  · exact .excuse trivial _
  · obtain ⟨hlt, rfl⟩ := Word.add_eq_ok_iff.1 hlarge
    have hsmall : Word.add 64 small 1 = .ok (small + 1) :=
      Word.add_eq_ok_iff.2 ⟨by omega, rfl⟩
    rw [hsmall]
    exact .ok ⟨hlt, rfl, rfl⟩

/-- The choice of a way leaves the lines where they are. -/
theorem CacheSet.adjusted_of_choose {π : Type} [Policy π] [Policy.Tame π] {set set' : CacheSet}
    {policy policy' : π} {way : Nat} (h : set.choose policy = .ok (way, policy', set')) :
    set.Adjusted set' := by
  have hchosen : (Store.chooseWay set policy).result = .ok (way, policy', set') := by
    rw [result_chooseWay, h]
    rfl
  exact (chooseWay_cases hchosen).1

namespace Policy

variable {π : Type} {R : π → CacheSet → π → CacheSet → Prop}

/-- What is related under one value of the policy is related under another one. -/
structure Retains (R : π → CacheSet → π → CacheSet → Prop) (policy policy₁ : π) : Prop where
  keep : ∀ {set : CacheSet} {policy' : π} {set' : CacheSet},
    R policy set policy' set' → R policy₁ set policy' set'

theorem Retains.refl (policy : π) : Retains R policy policy := ⟨id⟩

theorem Retains.trans {policy policy₁ policy₂ : π} (h : Retains R policy policy₁)
    (h₁ : Retains R policy₁ policy₂) : Retains R policy policy₂ := ⟨h₁.keep ∘ h.keep⟩

/-- The hooks on sets with other indices keep what is related. -/
structure Apart [Policy π] (index : Nat) (R : π → CacheSet → π → CacheSet → Prop) : Prop where
  chooseVictim {policy : π} {set : CacheSet} : set.index ≠ index →
    Reaches (fun _ => True) (fun x => Retains R policy x.2.1) (Policy.chooseVictim policy set)
  onHit {policy : π} {set : CacheSet} {way : Nat} : set.index ≠ index →
    Reaches (fun _ => True) (fun x => Retains R policy x.1) (Policy.onHit policy set way)
  onFill {policy : π} {set : CacheSet} {way : Nat} : set.index ≠ index →
    Reaches (fun _ => True) (fun x => Retains R policy x.1) (Policy.onFill policy set way)
  onInsert {policy : π} {set : CacheSet} {way : Nat} {access : AccessKind} : set.index ≠ index →
    Reaches (fun _ => True) (fun x => Retains R policy x.1) (Policy.onInsert policy set way access)
  onInvalidate {policy : π} {set : CacheSet} {way : Nat} : set.index ≠ index →
    Reaches (fun _ => True) (fun x => Retains R policy x.1) (Policy.onInvalidate policy set way)

namespace Apart

variable [Policy π] {index way tag : Nat} {policy : π} {set : CacheSet} {access : AccessKind}
  {kind : MemoryKind}

theorem hit (h : Apart index R) (hother : set.index ≠ index) :
    Reaches (fun _ => True) (fun x => Retains R policy x.1) (set.hit policy way access) := by
  unfold CacheSet.hit
  split
  · refine (Reaches.any (set.blockAt way)).bind fun block _ => ?_
    split
    · exact h.onHit hother
    · exact .excuse trivial
  · exact h.onHit hother

theorem vacate (h : Apart index R) (hother : set.index ≠ index) :
    Reaches (fun _ => True) (fun x => Retains R policy x.2.1) (set.vacate policy way) := by
  unfold CacheSet.vacate
  refine (Reaches.any (set.blockAt way)).bind fun block _ => ?_
  split
  · refine (h.onInvalidate hother).bind fun ⟨policy₁, told⟩ hretains => ?_
    exact (Reaches.any (told.change way Block.clear)).bind fun _ _ => .ok hretains
  · exact .ok (.refl policy)

theorem choose (h : Apart index R) (hother : set.index ≠ index) :
    Reaches (fun _ => True) (fun x => Retains R policy x.2.1) (set.choose policy) := by
  unfold CacheSet.choose
  split
  · exact .ok (.refl policy)
  · refine (h.chooseVictim hother).bind ?_
    intro x hretains
    obtain ⟨way, chosen, aged⟩ := x
    dsimp only
    split
    · exact .ok hretains
    · exact .excuse trivial

variable [Policy.Tame π]

theorem accept (h : Apart index R) (hother : set.index ≠ index) :
    Reaches (fun _ => True) (fun x => Retains R policy x.1)
      (set.accept policy way tag kind access) := by
  unfold CacheSet.accept
  refine (Reaches.any (set.blockAt way)).bind fun block _ => ?_
  split
  · exact .excuse trivial
  · dsimp only
    have hfill : Reaches (fun _ => True) (fun x => Retains R policy x.1) (Policy.onFill policy
        ((set.put way (block.fill tag kind access.isWrite)).enter tag way) way) := h.onFill hother
    refine hfill.attach.bind ?_
    intro ⟨policy₁, filled⟩ ⟨hretains, htold⟩
    have hother₁ : filled.index ≠ index := by
      rw [(Policy.Tame.onFill htold).index_eq]
      exact hother
    refine (h.onInsert hother₁).bind ?_
    intro ⟨policy₂, inserted⟩ hinsert
    exact (Reaches.any inserted.checkUniqueTags).bind fun _ _ => .ok (hretains.trans hinsert)

theorem bringIn (h : Apart index R) (hother : set.index ≠ index) :
    Reaches (fun _ => True) (fun x => Retains R policy x.2.2.1)
      (set.bringIn policy tag kind access) := by
  unfold CacheSet.bringIn
  refine (h.choose hother).attach.bind ?_
  intro ⟨way, policy₁, set₁⟩ ⟨hchoose, hchosen⟩
  have hother₁ : set₁.index ≠ index := by
    rw [(CacheSet.adjusted_of_choose hchosen).index_eq]
    exact hother
  refine (h.vacate hother₁).attach.bind ?_
  intro ⟨victim, policy₂, set₂⟩ ⟨hvacate, hvacated⟩
  have hother₂ : set₂.index ≠ index := by
    obtain ⟨block, -, ⟨-, -, hcleared⟩ | ⟨-, -, -, rfl⟩⟩ := CacheSet.vacate_cases hvacated
    · rw [hcleared.index_eq]
      exact hother₁
    · exact hother₁
  refine (h.accept hother₂).bind ?_
  intro ⟨policy₃, set₃⟩ haccept
  exact .ok ((hchoose.trans hvacate).trans haccept)

end Apart

end Policy

/-! ## Agreement -/

open Policy (Matching Departing Mimics)

/-- A step that leads to the same sets, taken by two policies that agree. -/
theorem Coupled.same_set {π : Type} {agree : π → π → Prop} {policy policy' : π}
    (h : agree policy policy') (outcome : Except Fault CacheSet) :
    Coupled (fun _ => True) (fun x x' => agree x.1 x'.1 ∧ x'.2 = x.2)
      (do pure (policy, ← outcome) : Except Fault (π × CacheSet))
      (do pure (policy', ← outcome)) := by
  apply Coupled.bind_same outcome
  intro set _
  exact .ok ⟨h, rfl⟩

/-- The same choice, made by two policies that agree. -/
theorem Coupled.same_choice {π : Type} {agree : π → π → Prop} {policy policy' : π}
    (h : agree policy policy') (outcome : Except Fault (Nat × CacheSet)) :
    Coupled (fun _ => True) (fun x x' => x'.1 = x.1 ∧ agree x.2.1 x'.2.1 ∧ x'.2.2 = x.2.2)
      (do
        let (way, set) ← outcome
        pure (way, policy, set) : Except Fault (Nat × π × CacheSet))
      (do
        let (way, set) ← outcome
        pure (way, policy', set)) := by
  apply Coupled.bind_same outcome
  rintro ⟨way, set⟩ -
  exact .ok ⟨rfl, h, rfl⟩

/-- A relation that holds of sets with one index only has no other sets to lose. -/
theorem Policy.Matching.of_index {π π' : Type} {R : π → CacheSet → π' → CacheSet → Prop}
    {f : Frame} {index i : Nat} {policy : π} {policy' : π'} {set set' : CacheSet}
    {x : π × CacheSet} {x' : π' × CacheSet}
    (hindex : ∀ {policy set policy' set'}, R policy set policy' set' → set.index = index)
    (hset : set.WellFormed f i) (h : R policy set policy' set') (hafter : R x.1 x.2 x'.1 x'.2) :
    Matching R i policy policy' x x' where
  here := hafter
  elsewhere hother hrelated := by
    rw [hindex hrelated, ← hindex h, hset.index_eq] at hother
    exact absurd rfl hother

namespace Policy

variable {π : Type} [Policy π] {index : Nat} {role : DuelRole} {agree : π → π → Prop}

/-- The hooks on the sets with an index and a role do the same under policies that
agree, which then agree still. -/
structure Agreeing (index : Nat) (role : DuelRole) (agree : π → π → Prop) : Prop where
  chooseVictim {policy policy' : π} {set : CacheSet} :
    set.index = index → set.role = role → agree policy policy' →
    Coupled (fun _ => True) (fun x x' => x'.1 = x.1 ∧ agree x.2.1 x'.2.1 ∧ x'.2.2 = x.2.2)
      (Policy.chooseVictim policy set) (Policy.chooseVictim policy' set)
  onHit {policy policy' : π} {set : CacheSet} (way : Nat) :
    set.index = index → set.role = role → agree policy policy' →
    Coupled (fun _ => True) (fun x x' => agree x.1 x'.1 ∧ x'.2 = x.2)
      (Policy.onHit policy set way) (Policy.onHit policy' set way)
  onFill {policy policy' : π} {set : CacheSet} (way : Nat) :
    set.index = index → set.role = role → agree policy policy' →
    Coupled (fun _ => True) (fun x x' => agree x.1 x'.1 ∧ x'.2 = x.2)
      (Policy.onFill policy set way) (Policy.onFill policy' set way)
  onInsert {policy policy' : π} {set : CacheSet} (way : Nat) (access : AccessKind) :
    set.index = index → set.role = role → agree policy policy' →
    Coupled (fun _ => True) (fun x x' => agree x.1 x'.1 ∧ x'.2 = x.2)
      (Policy.onInsert policy set way access) (Policy.onInsert policy' set way access)
  onInvalidate {policy policy' : π} {set : CacheSet} (way : Nat) :
    set.index = index → set.role = role → agree policy policy' →
    Coupled (fun _ => True) (fun x x' => agree x.1 x'.1 ∧ x'.2 = x.2)
      (Policy.onInvalidate policy set way) (Policy.onInvalidate policy' set way)

/-- A policy agrees with itself. -/
theorem Agreeing.eq (index : Nat) (role : DuelRole) :
    Agreeing index role (fun policy policy' : π => policy' = policy) where
  chooseVictim _ _ := by
    rintro rfl
    exact .refl (fun _ => ⟨rfl, rfl, rfl⟩) _
  onHit _ _ _ := by
    rintro rfl
    exact .refl (fun _ => ⟨rfl, rfl⟩) _
  onFill _ _ _ := by
    rintro rfl
    exact .refl (fun _ => ⟨rfl, rfl⟩) _
  onInsert _ _ _ _ := by
    rintro rfl
    exact .refl (fun _ => ⟨rfl, rfl⟩) _
  onInvalidate _ _ _ := by
    rintro rfl
    exact .refl (fun _ => ⟨rfl, rfl⟩) _

omit [Policy π] in
/-- A set with an index and a role, the same under two policies that agree about it. -/
structure Sharing (index : Nat) (role : DuelRole) (agree : π → π → Prop) (policy : π)
    (set : CacheSet) (policy' : π) (set' : CacheSet) : Prop where
  index_eq : set.index = index
  role_eq : set.role = role
  agree : agree policy policy'
  set_eq : set' = set

omit [Policy π] in
/-- What was done to the set left its index and its role alone. -/
theorem Sharing.adjusted {policy policy' policy₁ policy₁' : π} {set set' set₁ : CacheSet}
    (h : Sharing index role agree policy set policy' set') (hadjusted : set.Adjusted set₁)
    (hagree : agree policy₁ policy₁') : Sharing index role agree policy₁ set₁ policy₁' set₁ :=
  ⟨hadjusted.index_eq.trans h.index_eq, hadjusted.role_eq.trans h.role_eq, hagree, rfl⟩

namespace Agreeing

variable {policy policy' : π} {set set' : CacheSet} {way tag : Nat} {access : AccessKind}
  {kind : MemoryKind}

variable [Policy.Tame π]

theorem hit (ha : Agreeing index role agree)
    (h : Sharing index role agree policy set policy' set') :
    Coupled (fun _ => True) (fun x x' => Sharing index role agree x.1 x.2 x'.1 x'.2)
      (set.hit policy way access) (set'.hit policy' way access) := by
  obtain rfl := h.set_eq
  have hhook : ∀ marked : CacheSet, marked.index = set'.index → marked.role = set'.role →
      Coupled (fun _ => True) (fun x x' => Sharing index role agree x.1 x.2 x'.1 x'.2)
        (Policy.onHit policy marked way) (Policy.onHit policy' marked way) := by
    intro marked hindex hrole
    have hmarked : Sharing index role agree policy marked policy' marked :=
      ⟨hindex.trans h.index_eq, hrole.trans h.role_eq, h.agree, rfl⟩
    refine (ha.onHit way hmarked.index_eq hmarked.role_eq h.agree).attach.mono ?_
    rintro ⟨policy₁, told⟩ ⟨policy₁', _⟩ ⟨⟨hagree, rfl⟩, hhit, -⟩
    exact hmarked.adjusted (Policy.Tame.onHit hhit) hagree
  unfold CacheSet.hit
  split
  · apply Coupled.bind_same (set'.blockAt way)
    intro block _
    split
    · exact hhook _ rfl rfl
    · exact .error _
  · exact hhook _ rfl rfl

theorem vacate (ha : Agreeing index role agree)
    (h : Sharing index role agree policy set policy' set') :
    Coupled (fun _ => True)
      (fun x x' => x'.1 = x.1 ∧ Sharing index role agree x.2.1 x.2.2 x'.2.1 x'.2.2)
      (set.vacate policy way) (set'.vacate policy' way) := by
  obtain rfl := h.set_eq
  unfold CacheSet.vacate
  apply Coupled.bind_same (set'.blockAt way)
  intro block _
  split
  · refine (ha.onInvalidate way h.index_eq h.role_eq h.agree).attach.bind ?_
    intro ⟨policy₁, told⟩ ⟨policy₁', told'⟩ ⟨⟨hagree, hsame⟩, hhook, _⟩
    obtain rfl : told' = told := hsame
    have htold := h.adjusted (Policy.Tame.onInvalidate hhook) hagree
    apply Coupled.bind_same (told'.change way Block.clear)
    intro cleared hcleared
    obtain ⟨block', -, rfl⟩ := CacheSet.change_eq_ok_iff.1 hcleared
    exact .ok ⟨rfl, htold.index_eq, htold.role_eq, hagree, rfl⟩
  · exact .ok ⟨rfl, h⟩

theorem choose (ha : Agreeing index role agree)
    (h : Sharing index role agree policy set policy' set') :
    Coupled (fun _ => True)
      (fun x x' => x'.1 = x.1 ∧ Sharing index role agree x.2.1 x.2.2 x'.2.1 x'.2.2)
      (set.choose policy) (set'.choose policy') := by
  obtain rfl := h.set_eq
  unfold CacheSet.choose
  cases set'.vacancy with
  | some way => exact .ok ⟨rfl, h⟩
  | none =>
    refine (ha.chooseVictim h.index_eq h.role_eq h.agree).attach.bind ?_
    rintro ⟨way, policy₁, aged⟩ ⟨_, policy₁', _⟩ ⟨⟨rfl, hagree, rfl⟩, hchoice, -⟩
    dsimp only
    split
    · exact .ok ⟨rfl, h.adjusted (Policy.Tame.chooseVictim hchoice) hagree⟩
    · exact .error _

theorem accept (ha : Agreeing index role agree)
    (h : Sharing index role agree policy set policy' set') :
    Coupled (fun _ => True) (fun x x' => Sharing index role agree x.1 x.2 x'.1 x'.2)
      (set.accept policy way tag kind access) (set'.accept policy' way tag kind access) := by
  obtain rfl := h.set_eq
  unfold CacheSet.accept
  apply Coupled.bind_same (set'.blockAt way)
  intro block _
  split
  · exact .error _
  · dsimp only
    have hentered : Sharing index role agree policy
        ((set'.put way (block.fill tag kind access.isWrite)).enter tag way) policy'
        ((set'.put way (block.fill tag kind access.isWrite)).enter tag way) :=
      ⟨h.index_eq, h.role_eq, h.agree, rfl⟩
    refine (ha.onFill way hentered.index_eq hentered.role_eq h.agree).attach.bind ?_
    rintro ⟨policy₁, filled⟩ ⟨policy₁', _⟩ ⟨⟨hagree, rfl⟩, hfill, -⟩
    have hfilled := hentered.adjusted (Policy.Tame.onFill hfill) hagree
    refine (ha.onInsert way access hfilled.index_eq hfilled.role_eq hagree).attach.bind ?_
    intro ⟨policy₂, inserted⟩ ⟨policy₂', inserted'⟩ ⟨⟨hagree', hsame⟩, hinsert, _⟩
    obtain rfl : inserted' = inserted := hsame
    have hinserted := hfilled.adjusted (Policy.Tame.onInsert hinsert) hagree'
    apply Coupled.bind_same inserted'.checkUniqueTags
    intro _ _
    exact .ok hinserted

theorem bringIn (ha : Agreeing index role agree)
    (h : Sharing index role agree policy set policy' set') :
    Coupled (fun _ => True)
      (fun x x' => x'.1 = x.1 ∧ x'.2.1 = x.2.1 ∧
        Sharing index role agree x.2.2.1 x.2.2.2 x'.2.2.1 x'.2.2.2)
      (set.bringIn policy tag kind access) (set'.bringIn policy' tag kind access) := by
  unfold CacheSet.bringIn
  refine (ha.choose h).bind ?_
  rintro ⟨way, policy₁, set₁⟩ ⟨_, policy₁', set₁'⟩ ⟨rfl, h₁⟩
  refine (ha.vacate h₁).bind ?_
  rintro ⟨victim, policy₂, set₂⟩ ⟨_, policy₂', set₂'⟩ ⟨rfl, h₂⟩
  refine (ha.accept h₂).bind ?_
  rintro ⟨policy₃, set₃⟩ ⟨policy₃', set₃'⟩ h₃
  exact .ok ⟨rfl, rfl, h₃⟩

/-- Under policies that agree the operations on the set do the same. -/
theorem mimics (ha : Agreeing index role agree) (f : Frame) :
    Mimics f (fun _ => True) (Sharing index role agree) where
  find_eq tag _ h := by rw [h.set_eq]
  hit access hset h _ := by
    refine (ha.hit h).mono ?_
    intro x x' hafter
    exact .of_index Sharing.index_eq hset h hafter
  bringIn access hset h _ _ := by
    refine (ha.bringIn h).mono ?_
    intro x x' ⟨hway, hvictim, hafter⟩
    exact ⟨hway, congrArg _ hvictim, .of_index Sharing.index_eq hset h hafter⟩
  vacate hset h _ := by
    refine (ha.vacate h).mono ?_
    intro x x' ⟨hvictim, hafter⟩
    exact ⟨congrArg _ hvictim, .of_index Sharing.index_eq hset h hafter⟩

end Agreeing

end Policy

end AssocCache
