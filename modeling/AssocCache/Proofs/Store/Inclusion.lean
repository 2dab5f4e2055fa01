import AssocCache.Proofs.RecencyLists
import AssocCache.Proofs.Store.LeastRecentlyUsed
import Mathlib.Data.List.Forall2

/-!
# More ways never hurt

Two stores of least recently used lines that differ in the number of ways, given the
same accesses and invalidations.  The lists that they keep stay within each other, so
whatever is resident in the narrow store is resident in the wide one, and a hit in the
narrow store is a hit in the wide one.

This is a property of the policy.  It fails for policies that evict lines in the order
in which they came.
-/

/-!
## Narrow lists in wide ones

Two machines that differ in the number of ways alone, given the same accesses and
invalidations.  That each line of the narrow machine is in the wide one is not kept by
a step: the wide machine could make such a line leave first.  What is kept is that the
lists of the narrow machine are initial segments of those of the wide one
(`RecencyLists.Within`).  A touch keeps it (`touch_segment`) because the line that has to
go is the last one of its list, so the wide list still has a segment that is long enough.
-/

namespace AssocCache

section Lists

variable {narrow wide : Nat} {small large : List Nat}

/-- A segment that is no longer than a longer segment is a segment of it. -/
theorem makeRoom_segment_makeRoom (hle : narrow ≤ wide) (h : small <+: large) :
    (makeRoom narrow small).2 <+: (makeRoom wide large).2 := by
  have hlength : small.length ≤ large.length := h.length_le
  have hsmall : (makeRoom narrow small).2 <+: large := (makeRoom_segment narrow small).trans h
  refine List.prefix_of_prefix_length_le hsmall (makeRoom_segment wide large) ?_
  unfold makeRoom
  split <;> split <;> simp only [List.length_dropLast] <;> omega

theorem touch_segment (hle : narrow ≤ wide) (h : small <+: large) (line : Nat) :
    touch narrow line small <+: touch wide line large := by
  by_cases hsmall : line ∈ small
  · have hlarge : line ∈ large := h.subset hsmall
    rw [touch_of_mem hsmall, touch_of_mem hlarge, List.prefix_cons_inj]
    exact h.filter _
  · rw [touch_of_not_mem hsmall]
    by_cases hlarge : line ∈ large
    · -- The line moves to the front of the wide list from behind the segment.
      rw [touch_of_mem hlarge, List.prefix_cons_inj]
      have hkept : small <+: large.filter (· != line) := by
        rw [← filter_ne_of_not_mem hsmall]
        exact h.filter _
      exact (makeRoom_segment narrow small).trans hkept
    · rw [touch_of_not_mem hlarge, List.prefix_cons_inj]
      exact makeRoom_segment_makeRoom hle h

end Lists

/-- Whether an answer is that the line was there. -/
def Sight.hit : Sight → Bool
  | .lookup hit | .access hit _ => hit
  | .install _ | .departure _ => false

namespace RecencyLists

/-- Whether a call was answered, and the answer was that the line was there. -/
def found : Except Refusal Sight → Bool
  | .ok sight => sight.hit
  | .error _ => false

/-- The first machine has no more ways than the second one, and its lists are initial
segments of the lists of the second one. -/
structure Within (m m' : RecencyLists) : Prop where
  blockSize_eq : m'.geometry.blockSize = m.geometry.blockSize
  numSets_eq : m'.geometry.numSets = m.geometry.numSets
  addressBits_eq : m'.geometry.addressBits = m.geometry.addressBits
  associativity_le : m.geometry.associativity ≤ m'.geometry.associativity
  lines : ∀ index, m.lines index <+: m'.lines index

namespace Within

variable {m m' : RecencyLists}

theorem setIndex_eq (h : Within m m') (a : Nat) : m'.setIndex a = m.setIndex a := by
  rw [setIndex, setIndex, h.blockSize_eq, h.numSets_eq]

theorem lineAddress_eq (h : Within m m') (a : Nat) : m'.lineAddress a = m.lineAddress a := by
  rw [lineAddress, lineAddress, h.blockSize_eq]

/-- A step on one set of both machines. -/
theorem update (h : Within m m') {n n' : RecencyLists} {index : Nat} {small large : List Nat}
    (hgeometry : n.geometry = m.geometry) (hgeometry' : n'.geometry = m'.geometry)
    (hlines : n.lines = Function.update m.lines index small)
    (hlines' : n'.lines = Function.update m'.lines index large) (hsegment : small <+: large) :
    Within n n' where
  blockSize_eq := by rw [hgeometry, hgeometry', h.blockSize_eq]
  numSets_eq := by rw [hgeometry, hgeometry', h.numSets_eq]
  addressBits_eq := by rw [hgeometry, hgeometry', h.addressBits_eq]
  associativity_le := by
    rw [hgeometry, hgeometry']
    exact h.associativity_le
  lines other := by
    rw [hlines, hlines']
    by_cases hindex : other = index
    · rw [hindex, Function.update_self, Function.update_self]
      exact hsegment
    · rw [Function.update_of_ne hindex, Function.update_of_ne hindex]
      exact h.lines other

/-- An access or an invalidation keeps the lists within each other, and what it finds
in the narrow machine it finds in the wide one. -/
theorem respond (h : Within m m') {call : Call} (hcomplete : call.Complete) :
    Within (m.respond call).2 (m'.respond call).2 ∧
      (found (m.respond call).1 = true → found (m'.respond call).1 = true) := by
  rcases Nat.lt_or_ge call.address (2 ^ m.geometry.addressBits) with ha | ha
  · have ha' : call.address < 2 ^ m'.geometry.addressBits := by
      rw [h.addressBits_eq]
      exact ha
    cases call with
    | probe a kind => exact hcomplete.elim
    | fill a kind => exact hcomplete.elim
    | access a kind =>
      obtain ⟨⟨_, hanswer⟩, hgeometry, hlines⟩ := respond_access (a := a) ha kind
      obtain ⟨⟨_, hanswer'⟩, hgeometry', hlines'⟩ := respond_access (a := a) ha' kind
      rw [h.setIndex_eq, h.lineAddress_eq] at hanswer' hlines'
      refine ⟨h.update hgeometry hgeometry' hlines hlines' ?_, ?_⟩
      · exact touch_segment h.associativity_le (h.lines _) _
      · intro hfound
        rw [hanswer] at hfound
        rw [hanswer']
        exact decide_eq_true ((h.lines _).subset (of_decide_eq_true hfound))
    | invalidate a =>
      obtain ⟨hgeometry, hlines⟩ := respond_invalidate (a := a) ha
      obtain ⟨hgeometry', hlines'⟩ := respond_invalidate (a := a) ha'
      rw [h.setIndex_eq, h.lineAddress_eq] at hlines'
      refine ⟨h.update hgeometry hgeometry' hlines hlines' ((h.lines _).filter _), ?_⟩
      intro hfound
      rw [RecencyLists.respond, if_pos ha] at hfound
      cases hfound
  · rw [respond_of_outside call ha, respond_of_outside call (h.addressBits_eq ▸ ha)]
    exact ⟨h, id⟩

/-- A run keeps the lists within each other, by induction on the calls. -/
theorem run (h : Within m m') {calls : List Call} (hcomplete : ∀ call ∈ calls, call.Complete) :
    Within (m.run calls).2 (m'.run calls).2 ∧
      List.Forall₂ (fun answer answer' => found answer = true → found answer' = true)
        (m.run calls).1 (m'.run calls).1 := by
  induction calls generalizing m m' with
  | nil => exact ⟨h, .nil⟩
  | cons call calls ih =>
    rw [List.forall_mem_cons] at hcomplete
    obtain ⟨hafter, hfound⟩ := h.respond hcomplete.1
    obtain ⟨hlast, hlater⟩ := ih hafter hcomplete.2
    exact ⟨hlast, .cons hfound hlater⟩

end Within

end RecencyLists

/-! ## Narrow and wide stores -/

/-- What an exchange found is told by its sight. -/
theorem Exchange.found_eq_hit (exchange : Exchange) :
    RecencyLists.found (exchange.answer.map Reply.sight) = exchange.hit := by
  obtain ⟨call, refusal | reply⟩ := exchange
  · rfl
  · cases reply <;> rfl

theorem countP_le_of_forall₂ {α : Type} {found : α → Bool} {answers answers' : List α}
    (h : List.Forall₂ (fun x y => found x = true → found y = true) answers answers') :
    answers.countP found ≤ answers'.countP found := by
  induction h with
  | nil => exact Nat.le_refl _
  | cons hfound _ ih =>
    rw [List.countP_cons, List.countP_cons]
    split
    · rw [if_pos (hfound ‹_›)]
      omega
    · omega

namespace Store

variable {c c' : Config} {s s' : Store AnyPolicy}

/-- Two least recently used stores with lines of one size, equally many sets and
addresses of one width, of which the second one has at least as many ways.  After any
accesses and invalidations, each line that is resident in the first store is resident
in the second one.  On the way each access that hit the first store hit the second
one, which so counts at least as many hits.  Only a counter that leaves its range ends
one of the runs, which takes at least `2 ^ 63` calls. -/
theorem wide_store_includes_narrow (hbuilt : (ofConfig c).result = .ok s)
    (hbuilt' : (ofConfig c').result = .ok s') (hpolicy : c.policy = .lru)
    (hpolicy' : c'.policy = .lru) (hblockSize : s'.geometry.blockSize = s.geometry.blockSize)
    (hnumSets : s'.geometry.numSets = s.geometry.numSets)
    (haddressBits : s'.geometry.addressBits = s.geometry.addressBits)
    (hways : s.geometry.associativity ≤ s'.geometry.associativity)
    (calls : List Call) (hcalls : ∀ call ∈ calls, call.Complete) :
    (∃ history t history' t', run calls s = .ok (history, t) ∧
        run calls s' = .ok (history', t') ∧
        (∀ a, (t.residence a).isSome = true → (t'.residence a).isSome = true) ∧
        List.Forall₂ (fun exchange exchange' => exchange.hit = true → exchange'.hit = true)
          history history' ∧
        t.stats.hits ≤ t'.stats.hits) ∨
      2 ^ 63 ≤ calls.length ∧
        (run calls s = .error (.overflow .add) ∨ run calls s' = .error (.overflow .add)) := by
  rcases run_lru_of_ofConfig hbuilt hpolicy calls with
    ⟨history, t, hrun, hanswers, hstart, f, t₀, htracks, hf, hresidence⟩ | ⟨hlong, hrun⟩
  case inr => exact Or.inr ⟨hlong, Or.inl hrun⟩
  rcases run_lru_of_ofConfig hbuilt' hpolicy' calls with
    ⟨history', t', hrun', hanswers', hstart', f', t₀', htracks', hf', hresidence'⟩ | ⟨hlong, hrun'⟩
  case inr => exact Or.inr ⟨hlong, Or.inr hrun'⟩
  have hempty : RecencyLists.Within (.empty s.geometry) (.empty s'.geometry) :=
    ⟨hblockSize, hnumSets, haddressBits, hways, fun _ => List.prefix_rfl⟩
  obtain ⟨hwithin, hfound⟩ := hempty.run hcalls
  have hhits : List.Forall₂ (fun exchange exchange' => exchange.hit = true → exchange'.hit = true)
      history history' := by
    rw [← hanswers, ← hanswers', List.forall₂_map_left_iff, List.forall₂_map_right_iff] at hfound
    simpa only [Exchange.found_eq_hit] using hfound
  refine Or.inl ⟨history, t, history', t', hrun, hrun', ?_, hhits, ?_⟩
  · intro a hresident
    rw [hresidence, htracks.isSome_residence_iff, hf] at hresident
    rw [hresidence', htracks'.isSome_residence_iff, hf', haddressBits, hwithin.setIndex_eq,
      hwithin.lineAddress_eq]
    exact ⟨hresident.1, (hwithin.lines _).subset hresident.2⟩
  · rw [hits_of_run hrun, hits_of_run hrun', hstart, hstart']
    have hle := countP_le_of_forall₂ hhits
    omega

/-- One set of two ways and one of four.  The last access finds its line in the wide
store only. -/
theorem wide_store_includes_narrow_of_mixed_calls :
    ∃ s s' history t history' t',
      (ofConfig { Config.ofShape .lru 128 64 2 with addressBits := 32 }).result = .ok s ∧
      (ofConfig { Config.ofShape .lru 256 64 4 with addressBits := 32 }).result = .ok s' ∧
      run [.access 0 .write, .access 64 .read, .access 4 .read, .invalidate 64, .access 128 .read,
        .access 192 .read, .access 0 .read] s = .ok (history, t) ∧
      run [.access 0 .write, .access 64 .read, .access 4 .read, .invalidate 64, .access 128 .read,
        .access 192 .read, .access 0 .read] s' = .ok (history', t') ∧
      history.map Exchange.hit = [false, false, true, false, false, false, false] ∧
      history'.map Exchange.hit = [false, false, true, false, false, false, true] ∧
      (∀ a, (t.residence a).isSome = true → (t'.residence a).isSome = true) ∧
      t.stats.hits ≤ t'.stats.hits := by
  obtain ⟨s, hbuilt, hgeometry⟩ : ∃ s, (ofConfig { Config.ofShape .lru 128 64 2 with
      addressBits := 32 }).result = .ok s ∧ s.geometry = ⟨128, 64, 2, 1, 6, 0, 32, 1⟩ :=
    ⟨_, rfl, rfl⟩
  obtain ⟨s', hbuilt', hgeometry'⟩ : ∃ s, (ofConfig { Config.ofShape .lru 256 64 4 with
      addressBits := 32 }).result = .ok s ∧ s.geometry = ⟨256, 64, 4, 1, 6, 0, 32, 1⟩ :=
    ⟨_, rfl, rfl⟩
  have hways : s.geometry.associativity ≤ s'.geometry.associativity := by
    rw [hgeometry, hgeometry']
    decide
  rcases wide_store_includes_narrow hbuilt hbuilt' rfl rfl (by rw [hgeometry, hgeometry'])
    (by rw [hgeometry, hgeometry']) (by rw [hgeometry, hgeometry']) hways
    [.access 0 .write, .access 64 .read, .access 4 .read, .invalidate 64, .access 128 .read,
      .access 192 .read, .access 0 .read] (by simp [Call.Complete]) with
    ⟨history, t, history', t', hrun, hrun', hresident, -, hhits⟩ | ⟨hlong, -⟩
  · refine ⟨s, s', history, t, history', t', hbuilt, hbuilt', hrun, hrun', ?_, ?_, hresident, hhits⟩
    · cases hbuilt
      cases hrun
      rfl
    · cases hbuilt'
      cases hrun'
      rfl
  · exact absurd hlong (by decide)

end Store

end AssocCache
