import AssocCache.Proofs.Hierarchy.Accounts
import Mathlib.Data.List.Chain

/-!
# Dirty data on its way to main memory

A line of the first level that was written to is owed to main memory until a block
of the last level that contains it is written there (`owedLines`).  When lines do not
shrink from one level to the next, the hierarchy loses no owed line, and invents none.
-/

namespace AssocCache.Hierarchy

/-- The line lies in the block.  Both are given by their first bytes and sizes. -/
def Within (lineSize line size block : Nat) : Prop :=
  block ≤ line ∧ line + lineSize ≤ block + size

instance (lineSize line size block : Nat) : Decidable (Within lineSize line size block) :=
  inferInstanceAs (Decidable (_ ∧ _))

/-- The line size of the last level. -/
def lastLineSize (h : Hierarchy) : Nat := (h.stores.map (·.geometry.blockSize)).getLastD 1

/-- The lines that were written to. -/
def writtenLines (journal : List Service) : List Nat :=
  journal.filterMap fun service =>
    if service.demand.kind = .write then some service.demand.address else none

/-- The lines that are owed to main memory once a line was served.  The line is owed if
it was written to, and a line is owed no longer when a block that contains it was
written to main memory. -/
def owe (lineSize lastSize : Nat) (owed : List Nat) (service : Service) : List Nat :=
  let owed :=
    if service.demand.kind = .write then service.demand.address :: owed else owed
  owed.filter fun line => ¬ ∃ block ∈ service.flushed,
    block % lastSize = 0 ∧ Within lineSize line lastSize block

/-- The lines that are owed to main memory. -/
def owedLines (lineSize lastSize : Nat) (journal : List Service) : List Nat :=
  journal.foldl (owe lineSize lastSize) []

/-! ## Lines and blocks -/

/-- On aligned addresses containment is a matter of block numbers. -/
theorem within_iff {lineSize line size block : Nat} (hsize : 0 < size) (hdvd : lineSize ∣ size)
    (hline : line % lineSize = 0) (hblock : block % size = 0) :
    Within lineSize line size block ↔ line / size = block / size := by
  obtain ⟨count, rfl⟩ := hdvd
  obtain ⟨first, rfl⟩ := Nat.dvd_of_mod_eq_zero hline
  obtain ⟨number, rfl⟩ := Nat.dvd_of_mod_eq_zero hblock
  have hpos : 0 < lineSize := Nat.pos_of_mul_pos_right hsize
  have hcount : 0 < count := Nat.pos_of_mul_pos_left hsize
  rw [Nat.mul_div_mul_left _ _ hpos, Nat.mul_div_cancel_left _ hsize]
  have hstart : lineSize * count * number ≤ lineSize * first ↔ count * number ≤ first := by
    rw [Nat.mul_assoc]
    exact Nat.mul_le_mul_left_iff hpos
  have hend : lineSize * first + lineSize ≤ lineSize * count * number + lineSize * count ↔
      first + 1 ≤ count * number + count := by
    rw [← Nat.mul_succ, Nat.mul_assoc, ← Nat.mul_add]
    exact Nat.mul_le_mul_left_iff hpos
  show _ ∧ _ ↔ _
  rw [hstart, hend, Nat.div_eq_iff hcount, Nat.mul_comm number]
  omega

variable {frames : List Frame} {h h' h₀ : Hierarchy} {lineSize lastSize size line : Nat}
  {owed : List Nat} {demands : List Demand} {journal : List Service} {service : Service}

theorem WellFormed.exists_pow (hwell : h.WellFormed frames) :
    ∀ size ∈ frames.map (·.geometry.blockSize), ∃ bits, size = 2 ^ bits := by
  intro size hsize
  obtain ⟨f, hf, rfl⟩ := List.mem_map.1 hsize
  obtain ⟨level, hlevel⟩ := List.getElem?_of_mem hf
  have hlt : level < h.stores.length := by
    rw [hwell.length_eq]
    exact (List.getElem?_eq_some_iff.1 hlevel).1
  have hstore := hwell.store hlevel (List.getElem?_eq_getElem hlt)
  exact ⟨_, hstore.valid.blockSize_eq⟩

/-- Sizes that do not shrink divide each other, since they are powers of two. -/
theorem WellFormed.isChain_dvd (hwell : h.WellFormed frames)
    (hchain : (frames.map (·.geometry.blockSize)).IsChain (· ≤ ·)) :
    (frames.map (·.geometry.blockSize)).IsChain (· ∣ ·) := by
  refine hchain.imp_of_mem_imp fun upper lower hupper hlower hle => ?_
  obtain ⟨m, rfl⟩ := hwell.exists_pow upper hupper
  obtain ⟨n, rfl⟩ := hwell.exists_pow lower hlower
  exact Nat.pow_dvd_pow 2 ((Nat.pow_le_pow_iff_right (by decide)).1 hle)

/-! ## Owed lines -/

theorem mem_owe_iff :
    line ∈ owe lineSize lastSize owed service ↔
      (line ∈ owed ∨ service.demand.kind = .write ∧ line = service.demand.address) ∧
        ∀ block ∈ service.flushed, block % lastSize = 0 → ¬ Within lineSize line lastSize block := by
  unfold owe
  rw [List.mem_filter]
  refine and_congr ?_ ?_
  · split
    · rename_i hwrite
      rw [List.mem_cons]
      tauto
    · rename_i hread
      tauto
  · simp

theorem owedLines_append (journal : List Service) (service : Service) :
    owedLines lineSize lastSize (journal ++ [service]) =
      owe lineSize lastSize (owedLines lineSize lastSize journal) service := by
  unfold owedLines
  rw [List.foldl_append, List.foldl_cons, List.foldl_nil]

theorem writtenLines_append (journal : List Service) (service : Service) :
    writtenLines (journal ++ [service]) = writtenLines journal ++
      if service.demand.kind = .write then [service.demand.address] else [] := by
  unfold writtenLines
  rw [List.filterMap_append]
  congr 1
  split
  · rename_i hwrite
    simp [hwrite]
  · rename_i hread
    simp [hread]

/-- Owed lines are aligned, as all lines are that are asked for. -/
theorem mod_of_mem_owedLines (haligned : ∀ service ∈ journal, service.demand.address % lineSize = 0)
    (hline : line ∈ owedLines lineSize lastSize journal) : line % lineSize = 0 := by
  induction journal using List.reverseRecOn with
  | nil => cases hline
  | append_singleton journal service ih =>
    rw [owedLines_append, mem_owe_iff] at hline
    rcases hline.1 with hold | ⟨-, rfl⟩
    · exact ih (fun other hother => haligned other (List.mem_append_left _ hother)) hold
    · exact haligned service (by simp)

/-! ## The books along a run -/

/-- What a run needs of the sizes of its levels. -/
structure Fitting (frames : List Frame) (lineSize lastSize : Nat) : Prop where
  ne_nil : frames ≠ []
  route : Route frames lastSize lineSize (List.range frames.length)
  pos : 0 < lastSize
  dvd : lineSize ∣ lastSize

theorem WellFormed.length_levels (hwell : h.WellFormed frames) :
    h.levels.length = frames.length := by
  rw [← hwell.length_eq, stores, List.length_map]

/-- One more line is served. -/
theorem Accounted.serveLine
    (hbooks : Accounted frames lastSize {line | line ∈ writtenLines journal}
      {line | line ∈ owedLines lineSize lastSize journal} h [])
    (hfitting : Fitting frames lineSize lastSize)
    (haligned : ∀ entry ∈ journal ++ [service], entry.demand.address % lineSize = 0)
    (hkind : service.demand.kind = .read ∨ service.demand.kind = .write)
    (hstep : (Hierarchy.accessLine service.demand.address service.demand.kind).step h =
      (.ok service.flushed, h')) :
    Accounted frames lastSize {line | line ∈ writtenLines (journal ++ [service])}
      {line | line ∈ owedLines lineSize lastSize (journal ++ [service])} h' [] := by
  have hlength := hbooks.wellFormed.length_levels
  have hlevels : h.levels ≠ [] := by
    intro hnil
    rw [hnil] at hlength
    exact hfitting.ne_nil (List.length_eq_zero_iff.1 hlength.symm)
  have hwider : Accounted frames lastSize {line | line ∈ writtenLines (journal ++ [service])}
      {line | line ∈ owedLines lineSize lastSize journal} h [] := by
    refine hbooks.widen fun line hline => ?_
    show line ∈ writtenLines (journal ++ [service])
    rw [writtenLines_append]
    exact List.mem_append_left _ hline
  have hwritten : service.demand.kind.isWrite = true →
      service.demand.address ∈ writtenLines (journal ++ [service]) := by
    intro hwrite
    rcases hkind with hread | hwritten
    · rw [hread] at hwrite
      cases hwrite
    · rw [writtenLines_append, if_pos hwritten]
      exact List.mem_append_right _ List.mem_cons_self
  obtain ⟨hbooks', hblocks⟩ :=
    hwider.accessLine (hlength ▸ hfitting.route) hlevels hwritten hstep
  refine hbooks'.narrow (fun line hline => ?_) (fun _ hvictim => hvictim) (fun _ => Or.inl)
  have hmod := mod_of_mem_owedLines haligned hline
  have howed : line ∈ owedLines lineSize lastSize (journal ++ [service]) := hline
  rw [owedLines_append, mem_owe_iff] at howed
  refine ⟨?_, fun block hblock hsame => ?_⟩
  · rcases howed.1 with hold | ⟨hwrite, hnew⟩
    · exact Or.inl hold
    · exact Or.inr ⟨by rw [hwrite]; rfl, hnew⟩
  · refine howed.2 block hblock (hblocks block hblock) ?_
    exact (within_iff hfitting.pos hfitting.dvd hmod (hblocks block hblock)).2 hsame

/-- The books of a run, by induction on the lines that are served. -/
theorem Accounted.serve (hbooks : Accounted frames lastSize ∅ ∅ h₀ [])
    (hfitting : Fitting frames lineSize lastSize)
    (hdemands : ∀ demand ∈ demands, (demand.kind = .read ∨ demand.kind = .write) ∧
      demand.address % lineSize = 0)
    (hserve : Hierarchy.serve demands h₀ = .ok (journal, h)) :
    Accounted frames lastSize {line | line ∈ writtenLines journal}
      {line | line ∈ owedLines lineSize lastSize journal} h [] := by
  induction demands using List.reverseRecOn generalizing journal h with
  | nil =>
    cases hserve
    refine (hbooks.widen fun line hline => hline.elim).narrow ?_ ?_ ?_
    · intro line hline
      cases hline
    · exact fun _ hvictim => hvictim
    · exact fun _ => Or.inl
  | append_singleton before demand ih =>
    have haligned : ∀ entry ∈ journal, entry.demand.address % lineSize = 0 := by
      intro entry hentry
      refine (hdemands entry.demand ?_).2
      rw [← demands_of_serve hserve]
      exact List.mem_map_of_mem hentry
    obtain ⟨earlier, h₁, last, hbefore, hlast, rfl⟩ := (serve_append _ _ _ _ _).1 hserve
    obtain ⟨flushed, h₂, rest, haccess, hnil, rfl⟩ := serve_cons_eq_ok_iff.1 hlast
    cases hnil
    have hearlier := ih (fun other hother => hdemands other (List.mem_append_left _ hother)) hbefore
    exact hearlier.serveLine hfitting haligned (hdemands demand (by simp)).1 haccess

/-! ## Hierarchies from configurations -/

/-- Every owed line lies in a dirty block. -/
theorem Accounted.exists_dirtyBlock {written owed : Set Nat}
    (hbooks : Accounted frames lastSize written owed h [])
    (hdvd : ∀ f ∈ frames, lineSize ∣ f.geometry.blockSize) (hline : line ∈ owed)
    (hmod : line % lineSize = 0) :
    ∃ l ∈ h.levels, ∃ block, l.store.DirtyBlock block ∧
      Within lineSize line l.store.geometry.blockSize block := by
  rcases hbooks.safe line hline with ⟨level, hdirty⟩ | ⟨victim, hvictim, -⟩
  · obtain ⟨s, hs, hd⟩ := dirtyAt_eq_true_iff.1 hdirty
    obtain ⟨f, hf, hwell⟩ := hbooks.wellFormed.exists_frame hs
    obtain ⟨l, hl, rfl⟩ := List.mem_map.1 (List.mem_of_getElem? hs)
    refine ⟨l, hl, _, hwell.exists_dirtyBlock hd, ?_⟩
    rw [hwell.geometry_eq]
    have hpos := hwell.valid.blockSize_pos
    rw [within_iff hpos (hdvd f (List.mem_of_getElem? hf)) hmod (Nat.mul_mod_right _ _),
      Nat.mul_div_cancel_left _ hpos]
  · cases hvictim

/-- Every dirty block contains a line that was written to. -/
theorem Accounted.exists_written {written owed : Set Nat} {waiting : List Victim}
    (hbooks : Accounted frames lastSize written owed h waiting)
    (hdvd : ∀ f ∈ frames, lineSize ∣ f.geometry.blockSize)
    (hmod : ∀ line ∈ written, line % lineSize = 0) {l : Level} (hl : l ∈ h.levels) {block : Nat}
    (hdirty : l.store.DirtyBlock block) :
    ∃ line ∈ written, Within lineSize line l.store.geometry.blockSize block := by
  obtain ⟨level, hs⟩ := List.getElem?_of_mem (List.mem_map_of_mem (f := (·.store)) hl)
  obtain ⟨f, hf, hwell⟩ := hbooks.wellFormed.exists_frame hs
  obtain ⟨haligned, hd⟩ := hwell.dirtyAt_of_dirtyBlock hdirty
  rw [← dirtyAt_eq_of_getElem? hs] at hd
  obtain ⟨line, hline, hsame⟩ := hbooks.source hf block hd
  refine ⟨line, hline, ?_⟩
  rw [hwell.geometry_eq]
  exact (within_iff hwell.valid.blockSize_pos (hdvd f (List.mem_of_getElem? hf)) (hmod line hline)
    haligned).2 hsame

theorem mod_of_mem_writtenLines
    (haligned : ∀ service ∈ journal, service.demand.address % lineSize = 0)
    (hline : line ∈ writtenLines journal) : line % lineSize = 0 := by
  unfold writtenLines at hline
  obtain ⟨service, hservice, hwritten⟩ := List.mem_filterMap.1 hline
  split at hwritten
  · rw [← Option.some.inj hwritten]
    exact haligned service hservice
  · cases hwritten

/-- The sizes of a hierarchy whose lines do not shrink fit. -/
theorem fitting_of_ofConfig {c : HierarchyConfig} (hbuilt : (ofConfig c).result = .ok h)
    (hsizes : c.caches.IsChain fun upper lower => upper.blockSize ≤ lower.blockSize) :
    Fitting (framesOf c.caches h.stores) h.lineSize h.lastLineSize ∧
      ∀ f ∈ framesOf c.caches h.stores, h.lineSize ∣ f.geometry.blockSize := by
  have hwell := wellFormed_of_ofConfig hbuilt
  have hsame := hwell.map_blockSize
  have hchain : ((framesOf c.caches h.stores).map (·.geometry.blockSize)).IsChain (· ∣ ·) := by
    refine hwell.isChain_dvd ?_
    rw [← hsame, map_blockSize_of_ofConfig hbuilt, List.isChain_map]
    exact hsizes
  have hpow := hwell.exists_pow
  have hne : framesOf c.caches h.stores ≠ [] := by
    intro hnil
    have hlength := hwell.length_eq
    rw [hnil, (stores_of_ofConfig hbuilt).1] at hlength
    exact (ofConfig_eq_ok_iff.1 hbuilt).1 (List.length_eq_zero_iff.1 hlength)
  rw [lineSize_eq_headD, lastLineSize, hsame]
  generalize framesOf c.caches h.stores = frames at hchain hpow hne
  cases frames with
  | nil => exact absurd rfl hne
  | cons f rest =>
    rw [List.map_cons] at hchain hpow ⊢
    have hdvd : ∀ size ∈ rest.map (·.geometry.blockSize), f.geometry.blockSize ∣ size :=
      fun size hsize => List.rel_of_pairwise_cons (List.isChain_iff_pairwise.1 hchain) hsize
    have hlast : (rest.map (·.geometry.blockSize)).getLastD f.geometry.blockSize ∈
        f.geometry.blockSize :: rest.map (·.geometry.blockSize) := List.getLastD_mem_cons
    rw [List.headD_cons, List.getLastD_cons]
    refine ⟨⟨hne, ?_, ?_, ?_⟩, ?_⟩
    · have hstart : List.IsChain (· ∣ ·)
          (f.geometry.blockSize :: ((f :: rest).drop 0).map (·.geometry.blockSize)) := by
        rw [List.drop_zero, List.map_cons, List.isChain_cons_cons]
        exact ⟨Nat.dvd_refl _, hchain⟩
      have hroute := route_range' (Nat.zero_add _) hstart
      rw [List.drop_zero, List.map_cons, List.getLastD_cons] at hroute
      rw [List.range_eq_range']
      exact hroute
    · obtain ⟨bits, hbits⟩ := hpow _ hlast
      rw [hbits]
      exact Nat.two_pow_pos bits
    · rcases List.mem_cons.1 hlast with hsame | hlater
      · rw [hsame]
      · exact hdvd _ hlater
    · intro g hg
      rcases List.mem_cons.1 hg with rfl | hlater
      · exact Nat.dvd_refl _
      · exact hdvd _ (List.mem_map_of_mem hlater)

/-- A hierarchy whose lines do not shrink from one level to the next loses no dirty
data and invents none.  After each access to a line, every owed line lies in a dirty
block of some level, and every dirty block contains a line that was written to. -/
theorem dirty_data_of_traces {c : HierarchyConfig} {h₀ h : Hierarchy} {traces : List Trace}
    (hbuilt : (ofConfig c).result = .ok h₀)
    (hsizes : c.caches.IsChain fun upper lower => upper.blockSize ≤ lower.blockSize)
    (hrun : (simulateAll traces).step h₀ = (.ok (), h)) :
    ∃ demands journal, demandsOf h₀.lineSize traces = .ok demands ∧
      serve demands h₀ = .ok (journal, h) ∧
      ∀ before after, demands = before ++ after →
        ∃ earlier h₁ later, serve before h₀ = .ok (earlier, h₁) ∧
          serve after h₁ = .ok (later, h) ∧ journal = earlier ++ later ∧
          (∀ line ∈ owedLines h₀.lineSize h₀.lastLineSize earlier,
            ∃ l ∈ h₁.levels, ∃ block, l.store.DirtyBlock block ∧
              Within h₀.lineSize line l.store.geometry.blockSize block) ∧
          ∀ l ∈ h₁.levels, ∀ block, l.store.DirtyBlock block →
            ∃ line ∈ writtenLines earlier,
              Within h₀.lineSize line l.store.geometry.blockSize block := by
  have hwell := wellFormed_of_ofConfig hbuilt
  obtain ⟨hfitting, hdvd⟩ := fitting_of_ofConfig hbuilt hsizes
  obtain ⟨demands, journal, hdemands, hserve⟩ := (hwell.simulateAll_eq_ok_iff traces).1 hrun
  refine ⟨demands, journal, hdemands, hserve, fun before after hsplit => ?_⟩
  rw [hsplit] at hserve
  obtain ⟨earlier, h₁, later, hbefore, hafter, hjournal⟩ := (serve_append _ _ _ _ _).1 hserve
  refine ⟨earlier, h₁, later, hbefore, hafter, hjournal, ?_⟩
  have hasked : ∀ demand ∈ before, (demand.kind = .read ∨ demand.kind = .write) ∧
      demand.address % h₀.lineSize = 0 := by
    intro demand hdemand
    refine of_mem_demandsOf hdemands ?_
    rw [hsplit]
    exact List.mem_append_left _ hdemand
  have haligned : ∀ service ∈ earlier, service.demand.address % h₀.lineSize = 0 := by
    intro service hservice
    refine (hasked service.demand ?_).2
    rw [← demands_of_serve hbefore]
    exact List.mem_map_of_mem hservice
  have hclean := dirtyAt_of_ofConfig hbuilt
  have hstart : Accounted (framesOf c.caches h₀.stores) h₀.lastLineSize ∅ ∅ h₀ [] := by
    refine ⟨hwell, ?_, ?_, ?_⟩
    · intro line hline
      cases hline
    · intro level f hf a hdirty
      rw [hclean] at hdirty
      cases hdirty
    · intro victim hvictim
      cases hvictim
  have hbooks := hstart.serve hfitting hasked hbefore
  refine ⟨fun line hline => ?_, fun l hl block hdirty => ?_⟩
  · exact hbooks.exists_dirtyBlock hdvd hline (mod_of_mem_owedLines haligned hline)
  · exact hbooks.exists_written hdvd (fun line hline => mod_of_mem_writtenLines haligned hline) hl
      hdirty

/-- One line of 64 bytes above two lines of 128 bytes.  The second write pushes the line
of the first one into the level below, and both lines are owed. -/
theorem dirty_data_of_two_writes :
    ∃ h₀ h, (ofConfig ⟨0, [.ofShape .lru 64 64 1, .ofShape .lru 256 128 1]⟩).result = .ok h₀ ∧
      (simulateAll [.text "W 0\nW 40\n".toList]).step h₀ =
        (.ok (), h) ∧
      ∀ line ∈ [64, 0], ∃ l ∈ h.levels, ∃ block, l.store.DirtyBlock block ∧
        Within 64 line l.store.geometry.blockSize block := by
  have hcheck : (match (ofConfig ⟨0, [.ofShape .lru 64 64 1, .ofShape .lru 256 128 1]⟩).result with
      | .ok h₀ => h₀.lineSize == 64 && h₀.lastLineSize == 128 &&
        (match (simulateAll [.text "W 0\nW 40\n".toList]).step h₀ with
          | (.ok _, _) => true
          | (.error _, _) => false) &&
        (match serve [⟨0, .write⟩, ⟨64, .write⟩] h₀ with
          | .ok (journal, _) => owedLines 64 128 journal == [64, 0]
          | .error _ => false)
      | .error _ => false) = true := by
    decide +kernel
  have hdemands : demandsOf 64 [.text "W 0\nW 40\n".toList] =
      .ok [⟨0, .write⟩, ⟨64, .write⟩] := rfl
  split at hcheck
  · rename_i h₀ hbuilt
    simp only [Bool.and_eq_true, beq_iff_eq] at hcheck
    obtain ⟨⟨⟨hline, hlast⟩, hsimulate⟩, hserve⟩ := hcheck
    split at hsimulate
    · rename_i h hrun
      split at hserve
      · rename_i journal h' hjournal
        obtain ⟨demands, journal', hdemands', hserve', hafter⟩ :=
          dirty_data_of_traces hbuilt (by simp [Config.ofShape]) hrun
        rw [hline, hdemands] at hdemands'
        cases hdemands'
        obtain ⟨earlier, h₁, later, hbefore, hnil, -, hdirty, -⟩ :=
          hafter _ [] (List.append_nil _).symm
        cases hnil
        rw [hjournal] at hbefore
        cases hbefore
        rw [hline, hlast, beq_iff_eq.1 hserve] at hdirty
        exact ⟨h₀, _, hbuilt, hrun, hdirty⟩
      · cases hserve
    · cases hsimulate
  · cases hcheck

end AssocCache.Hierarchy
