import AssocCache.Proofs.Hierarchy.Run
import Mathlib.Data.Set.Basic
import Mathlib.Tactic.Tauto

/-!
# Dirty blocks in the midst of an access

In the midst of an access some dirty blocks are in no store: they left one level and
wait to be written back into the next.  `Accounted` is the invariant that knows of
them.  Every line that is owed to main memory is in a dirty block of some level or in
a block that waits, and every block of either sort contains a line that was written
to.

The invariant needs lines that do not shrink from one level to the next, so that a
block finds room in one block of the level below (`Route`).  Each part of an access
keeps it.

* `Accounted.settle`: one level is accessed, and a dirty block may start to wait.
* `Accounted.descend`: a line is looked up in one level after the other.
* `Accounted.writeBack`: a block that waits reaches the next level or main memory.
* `Accounted.accessLine`: after an access no block waits.
-/

namespace AssocCache.Hierarchy

/-! ## Blocks on their way down -/

/-- Blocks of some size can go down the levels.  The blocks of a level consist of
whole blocks of the level before, and those of the last level have the size `last`. -/
def Route (frames : List Frame) (last : Nat) : Nat → List Nat → Prop
  | size, [] => size = last
  | size, level :: below => ∃ f, frames[level]? = some f ∧ size ∣ f.geometry.blockSize ∧
    Route frames last f.geometry.blockSize below

/-- The line lies in the block that waits. -/
def Carries (frames : List Frame) (last : Nat) (victim : Victim) (line : Nat) : Prop :=
  ∃ size, Route frames last size victim.below ∧ victim.address % size = 0 ∧
    line / size = victim.address / size

variable {frames : List Frame} {f : Frame} {last size level a : Nat} {below : List Nat}
  {h h' : Hierarchy} {kind : AccessKind}

/-- Larger blocks keep together what smaller ones do. -/
theorem div_eq_of_dvd {m n x y : Nat} (hdvd : m ∣ n) (hdiv : x / m = y / m) : x / n = y / n := by
  obtain ⟨k, rfl⟩ := hdvd
  rw [← Nat.div_div_eq_div_mul, hdiv, Nat.div_div_eq_div_mul]

/-- The levels from some level on are a route for the blocks of the level before. -/
theorem route_range' {count first : Nat} (hlength : first + count = frames.length)
    (hchain : List.IsChain (· ∣ ·) (size :: (frames.drop first).map (·.geometry.blockSize))) :
    Route frames (((frames.drop first).map (·.geometry.blockSize)).getLastD size) size
      (List.range' first count) := by
  induction count generalizing first size with
  | zero =>
    rw [List.drop_eq_nil_of_le (by omega)]
    rfl
  | succ count ih =>
    have hlt : first < frames.length := by omega
    rw [List.drop_eq_getElem_cons hlt] at hchain ⊢
    rw [List.map_cons, List.isChain_cons_cons] at hchain
    rw [List.map_cons, List.getLastD_cons, List.range'_succ]
    refine ⟨frames[first], List.getElem?_eq_getElem hlt, hchain.1, ?_⟩
    exact ih (by omega) hchain.2

/-! ## The books -/

/-- The owed lines that stay owed when some blocks are written to main memory. -/
def spared (last : Nat) (owed : Set Nat) (flushed : List Nat) : Set Nat :=
  {line | line ∈ owed ∧ ∀ block ∈ flushed, line / last ≠ block / last}

/-- The lines that are owed once a line was accessed. -/
def charged (owed : Set Nat) (kind : AccessKind) (a : Nat) : Set Nat :=
  {line | line ∈ owed ∨ kind.isWrite = true ∧ line = a}

/-- The invariant of an access. -/
structure Accounted (frames : List Frame) (last : Nat) (written owed : Set Nat) (h : Hierarchy)
    (waiting : List Victim) : Prop where
  wellFormed : h.WellFormed frames
  safe : ∀ line ∈ owed, (∃ level, h.dirtyAt level line = true) ∨
    ∃ victim ∈ waiting, Carries frames last victim line
  source : ∀ {level : Nat} {f : Frame}, frames[level]? = some f → ∀ a,
    h.dirtyAt level a = true →
      ∃ line ∈ written, line / f.geometry.blockSize = a / f.geometry.blockSize
  waits : ∀ victim ∈ waiting, ∃ line ∈ written, Carries frames last victim line

theorem spared_nil (last : Nat) (owed : Set Nat) : spared last owed [] = owed := by
  ext line
  simp [spared]

theorem spared_append (last : Nat) (owed : Set Nat) (first second : List Nat) :
    spared last owed (first ++ second) = spared last (spared last owed first) second := by
  ext line
  simp only [spared, List.mem_append, Set.mem_ofPred_eq]
  constructor
  · intro ⟨howed, hflushed⟩
    exact ⟨⟨howed, fun block hblock => hflushed block (Or.inl hblock)⟩,
      fun block hblock => hflushed block (Or.inr hblock)⟩
  · intro ⟨⟨howed, hfirst⟩, hsecond⟩
    refine ⟨howed, fun block hblock => ?_⟩
    rcases hblock with hblock | hblock
    · exact hfirst block hblock
    · exact hsecond block hblock

namespace Accounted

variable {written owed owed' : Set Nat} {waiting waiting' : List Victim}

theorem of_stores_eq (hbooks : Accounted frames last written owed h waiting)
    (hstores : h'.stores = h.stores) : Accounted frames last written owed h' waiting := by
  have hdirty := dirtyAt_of_stores_eq hstores
  refine ⟨hbooks.wellFormed.of_stores_eq hstores, ?_, ?_, hbooks.waits⟩
  · intro line hline
    simp only [hdirty]
    exact hbooks.safe line hline
  · intro level f hf a ha
    rw [hdirty] at ha
    exact hbooks.source hf a ha

/-- Fewer lines are owed, and blocks that carry none of them wait no longer. -/
theorem narrow (hbooks : Accounted frames last written owed h waiting)
    (howed : ∀ line ∈ owed', line ∈ owed) (hwaiting : ∀ victim ∈ waiting', victim ∈ waiting)
    (hgone : ∀ victim ∈ waiting, victim ∈ waiting' ∨ ∀ line ∈ owed',
      Carries frames last victim line → ∃ level, h.dirtyAt level line = true) :
    Accounted frames last written owed' h waiting' := by
  refine ⟨hbooks.wellFormed, ?_, hbooks.source, fun victim hvictim =>
    hbooks.waits victim (hwaiting victim hvictim)⟩
  intro line hline
  rcases hbooks.safe line (howed line hline) with hdirty | ⟨victim, hvictim, hcarries⟩
  · exact Or.inl hdirty
  · rcases hgone victim hvictim with hstays | hleaves
    · exact Or.inr ⟨victim, hstays, hcarries⟩
    · exact Or.inl (hleaves line hline hcarries)

/-- More lines were written to. -/
theorem widen (hbooks : Accounted frames last written owed h waiting) {written' : Set Nat}
    (hwritten : ∀ line ∈ written, line ∈ written') :
    Accounted frames last written' owed h waiting := by
  refine ⟨hbooks.wellFormed, hbooks.safe, ?_, ?_⟩
  · intro level f hf a hdirty
    obtain ⟨line, hline, hsame⟩ := hbooks.source hf a hdirty
    exact ⟨line, hwritten line hline, hsame⟩
  · intro victim hvictim
    obtain ⟨line, hline, hcarries⟩ := hbooks.waits victim hvictim
    exact ⟨line, hwritten line hline, hcarries⟩

/-- A line that is dirty somewhere may be owed. -/
theorem charge (hbooks : Accounted frames last written owed h waiting)
    (hdirty : kind.isWrite = true → ∃ level, h.dirtyAt level a = true) :
    Accounted frames last written (charged owed kind a) h waiting := by
  refine ⟨hbooks.wellFormed, ?_, hbooks.source, hbooks.waits⟩
  intro line hline
  rcases hline with howed | ⟨hwrite, rfl⟩
  · exact hbooks.safe line howed
  · exact Or.inl (hdirty hwrite)

/-- One level is accessed. -/
theorem settle (hbooks : Accounted frames last written owed h waiting)
    (hf : frames[level]? = some f) (hwell : h'.WellFormed frames) {marked : Bool}
    {gone : Option Eviction} (hsettled : Settled f level h h' a marked gone)
    (hroute : Route frames last f.geometry.blockSize below)
    (hwritten : marked = true →
      ∃ line ∈ written, line / f.geometry.blockSize = a / f.geometry.blockSize) :
    Accounted frames last written owed h' ((victim? below gone).toList ++ waiting) := by
  refine ⟨hwell, ?_, ?_, ?_⟩
  · intro line hline
    rcases hbooks.safe line hline with ⟨other, hdirty⟩ | ⟨victim, hvictim, hcarries⟩
    · rcases hsettled.kept other line hdirty with hkept | ⟨evicted, hevicted, rfl, hmark, hblock⟩
      · exact Or.inl ⟨other, hkept⟩
      · obtain ⟨haligned, -⟩ := hsettled.departed evicted hevicted hmark
        refine Or.inr ⟨⟨evicted.address, below⟩, ?_, _, hroute, haligned, hblock⟩
        refine List.mem_append_left _ (Option.mem_toList.2 ?_)
        exact victim?_eq_some_iff.2 ⟨evicted, hevicted, hmark, rfl⟩
    · exact Or.inr ⟨victim, List.mem_append_right _ hvictim, hcarries⟩
  · intro other g hg b hdirty
    rcases hsettled.source other b hdirty with hold | ⟨rfl, hmark, hblock⟩
    · exact hbooks.source hg b hold
    · rw [hf] at hg
      cases hg
      obtain ⟨line, hline, hsame⟩ := hwritten hmark
      exact ⟨line, hline, hsame.trans hblock.symm⟩
  · intro victim hvictim
    rcases List.mem_append.1 hvictim with hnew | hold
    · obtain ⟨evicted, hevicted, hmark, rfl⟩ :=
        victim?_eq_some_iff.1 (Option.mem_toList.1 hnew)
      obtain ⟨haligned, hdirty⟩ := hsettled.departed evicted hevicted hmark
      obtain ⟨line, hline, hsame⟩ := hbooks.source hf _ hdirty
      exact ⟨line, hline, _, hroute, haligned, hsame⟩
    · exact hbooks.waits victim hold

/-- A line is looked up in one level after the other.  What is written to is marked in
the first of them. -/
theorem descend (hbooks : Accounted frames last written owed h waiting) {levels : List Nat}
    {descent : Descent} (hroute : Route frames last size levels)
    (hfirst : levels = [] → kind.isWrite = false) (hwritten : kind.isWrite = true → a ∈ written)
    (hstep : (Hierarchy.descend a levels kind).step h = (.ok descent, h')) :
    Accounted frames last written (charged owed kind a) h' (descent.victims ++ waiting) := by
  induction levels generalizing h kind size owed waiting descent with
  | nil =>
    obtain ⟨rfl, rfl⟩ := descend_nil_eq_ok_iff.1 hstep
    refine hbooks.charge fun hwrite => ?_
    rw [hfirst rfl] at hwrite
    cases hwrite
  | cons level below ih =>
    obtain ⟨outcome, h₁, h₂, haccess, hcharge, hrest⟩ := descend_cons_eq_ok_iff.1 hstep
    obtain ⟨f, hf, hwell₁, hsettled⟩ := hbooks.wellFormed.settled haccess
    obtain ⟨g, hg, -, hbelow⟩ := hroute
    rw [hf] at hg
    cases hg
    have hbooks₁ := (hbooks.settle hf hwell₁ hsettled hbelow fun hwrite =>
      ⟨a, hwritten hwrite, rfl⟩).charge fun hwrite => ⟨level, hsettled.marked hwrite⟩
    have hbooks₂ := hbooks₁.of_stores_eq (stores_of_charge hcharge)
    rcases hrest with ⟨hhit, hcount, rfl⟩ | ⟨-, h₃, h₄, rest, hmiss, hcount, hdescend, rfl⟩
    · have hgone : outcome.evicted = none := evicted_of_hit haccess hhit
      rw [hgone] at hbooks₂
      exact hbooks₂.of_stores_eq (stores_of_count hcount)
    · have hbooks₃ := hbooks₂.of_stores_eq (stores_of_count hmiss)
      have hbooks₄ := hbooks₃.of_stores_eq (stores_of_countEviction hcount)
      have hread : AccessKind.read.isWrite = false := rfl
      have hrest := ih hbooks₄ hbelow (fun _ => hread) (fun hwrite => by cases hwrite) hdescend
      refine hrest.narrow (fun line hline => Or.inl hline) ?_ ?_
      · intro victim hvictim
        simp only [List.mem_append] at hvictim ⊢
        tauto
      · intro victim hvictim
        left
        simp only [List.mem_append] at hvictim ⊢
        tauto

/-- A block that waits is in the next level now, and with it all its lines. -/
theorem arrive {pending : List Victim}
    (hbooks : Accounted frames last written owed h (pending ++ ⟨a, level :: below⟩ :: waiting))
    (hf : frames[level]? = some f) (hmarked : h.dirtyAt level a = true) :
    Accounted frames last written owed h (pending ++ waiting) := by
  refine hbooks.narrow (fun _ hline => hline) ?_ ?_
  · intro victim hvictim
    simp only [List.mem_append, List.mem_cons] at hvictim ⊢
    tauto
  · intro victim hvictim
    rcases List.mem_append.1 hvictim with hnew | hold
    · exact Or.inl (List.mem_append_left _ hnew)
    · rcases List.mem_cons.1 hold with rfl | hold
      · right
        intro line _ ⟨size, ⟨g, hg, hdvd, _⟩, _, hsame⟩
        rw [hf] at hg
        cases hg
        refine ⟨level, ?_⟩
        rw [hbooks.wellFormed.dirtyAt_eq_of_div_eq hf (div_eq_of_dvd hdvd hsame)]
        exact hmarked
      · exact Or.inl (List.mem_append_right _ hold)

/-- A block that waits is in main memory now, and its lines are not owed any more. -/
theorem flush (hbooks : Accounted frames last written owed h (⟨a, []⟩ :: waiting)) :
    Accounted frames last written (spared last owed [a]) h waiting := by
  refine hbooks.narrow (fun line hline => hline.1) ?_ ?_
  · exact fun victim hvictim => List.mem_cons_of_mem _ hvictim
  · intro victim hvictim
    rcases List.mem_cons.1 hvictim with rfl | hold
    · right
      intro line hline ⟨size, hroute, _, hsame⟩
      have hlast : size = last := hroute
      subst hlast
      exact absurd hsame (hline.2 a (by simp))
    · exact Or.inl hold

/-- A block that waits is written back, by induction on the levels below it. -/
theorem writeBack (hbooks : Accounted frames last written owed h (⟨a, below⟩ :: waiting))
    {flushed : Option Nat}
    (hstep : (Hierarchy.writeBack below a).step h = (.ok flushed, h')) :
    Accounted frames last written (spared last owed flushed.toList) h' waiting ∧
      ∀ block ∈ flushed, block % last = 0 := by
  obtain ⟨line, hline, size, hroute, haligned, hsame⟩ := hbooks.waits _ List.mem_cons_self
  induction below generalizing a h size line waiting with
  | nil =>
    obtain ⟨hcount, rfl⟩ := writeBack_nil_eq_ok_iff.1 hstep
    refine ⟨(hbooks.of_stores_eq (stores_of_countMemoryWriteback hcount)).flush, ?_⟩
    intro block hblock
    cases hblock
    have hlast : size = last := hroute
    rw [← hlast]
    exact haligned
  | cons level below ih =>
    obtain ⟨outcome, h₁, haccess, hrest⟩ := writeBack_cons_eq_ok_iff.1 hstep
    obtain ⟨f, hf, hwell₁, hsettled⟩ := hbooks.wellFormed.settled haccess
    obtain ⟨g, hg, hdvd, hbelow⟩ := hroute
    rw [hf] at hg
    cases hg
    have hsettle := hbooks.settle hf hwell₁ hsettled hbelow fun _ =>
      ⟨line, hline, div_eq_of_dvd hdvd hsame⟩
    have hbooks₁ := hsettle.arrive hf (hsettled.marked rfl)
    rcases hrest with ⟨hhit, rfl, rfl⟩ | ⟨-, h₂, hcount, ⟨hnone, rfl, rfl⟩ | ⟨victim, hvictim, hwrite⟩⟩
    · have hgone : outcome.evicted = none := evicted_of_hit haccess hhit
      rw [hgone] at hbooks₁
      rw [Option.toList_none, spared_nil]
      exact ⟨hbooks₁, fun block hblock => by cases hblock⟩
    · rw [hnone] at hbooks₁
      rw [Option.toList_none, spared_nil]
      have hbooks₂ := hbooks₁.of_stores_eq (stores_of_countEviction hcount)
      exact ⟨hbooks₂, fun block hblock => by cases hblock⟩
    · obtain ⟨evicted, -, -, rfl⟩ := victim?_eq_some_iff.1 hvictim
      rw [hvictim] at hbooks₁
      have hbooks₂ := hbooks₁.of_stores_eq (stores_of_countEviction hcount)
      obtain ⟨line', hline', size', hroute', haligned', hsame'⟩ :=
        hbooks₂.waits _ List.mem_cons_self
      exact ih hbooks₂ hwrite line' hline' size' hroute' haligned' hsame'

theorem writeBackAll (hbooks : Accounted frames last written owed h waiting)
    {flushed : List Nat} (hstep : (Hierarchy.writeBackAll waiting).step h = (.ok flushed, h')) :
    Accounted frames last written (spared last owed flushed) h' [] ∧
      ∀ block ∈ flushed, block % last = 0 := by
  induction waiting generalizing h owed flushed with
  | nil =>
    obtain ⟨rfl, rfl⟩ := writeBackAll_nil_eq_ok_iff.1 hstep
    rw [spared_nil]
    exact ⟨hbooks, fun block hblock => by cases hblock⟩
  | cons victim waiting ih =>
    obtain ⟨first, h₁, rest, hfirst, hrest, rfl⟩ := writeBackAll_cons_eq_ok_iff.1 hstep
    obtain ⟨hbooks₁, haligned₁⟩ := hbooks.writeBack hfirst
    obtain ⟨hbooks₂, haligned₂⟩ := ih hbooks₁ hrest
    refine ⟨?_, fun block hblock => ?_⟩
    · rw [spared_append]
      exact hbooks₂
    · rcases List.mem_append.1 hblock with hhead | htail
      · exact haligned₁ block (Option.mem_toList.1 hhead)
      · exact haligned₂ block htail

/-- An access to a line leaves no block waiting. -/
theorem accessLine (hbooks : Accounted frames last written owed h []) {flushed : List Nat}
    (hroute : Route frames last size (List.range h.levels.length)) (hlevels : h.levels ≠ [])
    (hwritten : kind.isWrite = true → a ∈ written)
    (hstep : (Hierarchy.accessLine a kind).step h = (.ok flushed, h')) :
    Accounted frames last written (spared last (charged owed kind a) flushed) h' [] ∧
      ∀ block ∈ flushed, block % last = 0 := by
  obtain ⟨descent, h₁, h₂, hdescend, hserved, hwrite⟩ := accessLine_eq_ok_iff.1 hstep
  have hfirst : List.range h.levels.length = [] → kind.isWrite = false := by
    intro hnone
    rw [List.range_eq_nil, List.length_eq_zero_iff] at hnone
    exact absurd hnone hlevels
  have hbooks₁ := hbooks.descend hroute hfirst hwritten hdescend
  rw [List.append_nil] at hbooks₁
  rcases hserved with ⟨-, rfl⟩ | ⟨-, hcount⟩
  · exact hbooks₁.writeBackAll hwrite
  · exact (hbooks₁.of_stores_eq (stores_of_countMemoryAccess hcount)).writeBackAll hwrite

end Accounted

end AssocCache.Hierarchy
