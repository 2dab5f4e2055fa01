import AssocCache.Proofs.CacheSet.Entries
import AssocCache.Proofs.Coupled
import AssocCache.Proofs.Policy.Stamps
import AssocCache.Proofs.RecencyLists.Trusting
import AssocCache.Proofs.Store.Paired
import AssocCache.Proofs.Store.Service

/-!
# Stores that keep lists of lines

`Policy.Listing` says of a policy that it keeps the lines of every set in an order of which
the list machine knows: a hit moves the line to the front, a line that comes in goes to the
end that a rule says, the line that a full set gives up is the last one, and a line that
leaves is taken out.  In what the policy keeps the order, in stamps or in a stack, is left to
it (`Keeps`).

`Store.Listed` relates a store to the lists of the machine.  Each operation leads to the lists
that the machine leads to, or ends with the overflow of a counter (`Listed.respond`).  So the
answers of every run are those of the machine, and its lists are the lines of the sets
(`Listed.run`).
-/

namespace AssocCache

open Success

/-- A 64-bit sum has left its range. -/
def Overflows (fault : Fault) : Prop := fault = .overflow .add

theorem Word.reaches_add (a b : Nat) :
    Reaches Overflows (fun sum => sum = a + b ∧ a + b < 2 ^ 64) (Word.add 64 a b) := by
  unfold Word.add
  split
  · rename_i hlt
    exact .ok ⟨rfl, hlt⟩
  · exact .excuse rfl

namespace Stats

variable (stats : Stats)

theorem reaches_countHit :
    Reaches Overflows (fun after => after.occupancy = stats.occupancy) stats.countHit :=
  (Word.reaches_add _ _).bind fun _ _ => .ok rfl

theorem reaches_countMiss :
    Reaches Overflows (fun after => after.occupancy = stats.occupancy) stats.countMiss :=
  (Word.reaches_add _ _).bind fun _ _ => .ok rfl

theorem reaches_countFill (victim : Option Block) :
    Reaches Overflows (fun after => after.occupancy + victim.toList.length = stats.occupancy + 1)
      (stats.countFill victim) := by
  cases victim with
  | none =>
    refine (Word.reaches_add _ _).bind ?_
    rintro _ ⟨rfl, -⟩
    exact .ok rfl
  | some block =>
    rw [countFill, countReplacement_eq]
    refine (Word.reaches_add _ _).bind fun evictions _ => ?_
    split
    · exact (Word.reaches_add _ _).bind fun writebacks _ => .ok rfl
    · exact .ok rfl

variable {stats}

theorem countDeparture_eq (hpos : 0 < stats.occupancy) :
    stats.countDeparture = .ok { stats with occupancy := stats.occupancy - 1 } :=
  bind_eq_ok_iff.2 ⟨_, Word.sub_eq_ok_iff.2 ⟨hpos, rfl⟩, rfl⟩

end Stats

/-! ## Policies -/

namespace Policy

variable {π : Type}

/-- After a step on the set with an index its lines are in this order, and the other sets
keep theirs. -/
structure Leads (Keeps : π → Progress → CacheSet → List Block → Prop) (index : Nat) (policy : π)
    (p : Progress) (policy' : π) (p' : Progress) (set' : CacheSet) (order' : List Block) :
    Prop where
  here : Keeps policy' p' set' order'
  elsewhere : ∀ {other : CacheSet} {order : List Block}, other.index ≠ index →
    Keeps policy p other order → Keeps policy' p' other order

/-- A step after a step. -/
theorem Leads.trans {Keeps : π → Progress → CacheSet → List Block → Prop} {index : Nat}
    {policy policy₁ policy₂ : π} {p p₁ p₂ : Progress} {set₁ set₂ : CacheSet}
    {order₁ order₂ : List Block} (h : Leads Keeps index policy p policy₁ p₁ set₁ order₁)
    (h' : Leads Keeps index policy₁ p₁ policy₂ p₂ set₂ order₂) :
    Leads Keeps index policy p policy₂ p₂ set₂ order₂ where
  here := h'.here
  elsewhere hother hkeeps := h'.elsewhere hother (h.elsewhere hother hkeeps)

/-- The policy keeps the lines of every set in an order, as the list machine does under the
rule. -/
structure Listing [Policy π] (f : Frame) (rule : TrustRule)
    (Keeps : π → Progress → CacheSet → List Block → Prop) : Prop where
  lists {index : Nat} {policy : π} {p : Progress} {set : CacheSet} {order : List Block} :
    set.WellFormed f index → Keeps policy p set order → set.Lists order
  hit {index way : Nat} {policy : π} {p : Progress} {set : CacheSet} {order : List Block}
      {block : Block} (access : AccessKind) :
    set.WellFormed f index → Keeps policy p set order →
    set.blocks[way]? = some block → block.valid = true →
    Reaches Overflows
      (fun x => ∃ touched, touched.tag = block.tag ∧
        touched.dirty = (block.dirty || access.isWrite) ∧
        Leads Keeps index policy p x.1 (p.hit index) x.2 (touched :: order.erase block))
      (set.hit policy way access)
  accept {index way tag : Nat} {policy : π} {p : Progress} {set : CacheSet} {order : List Block}
      {kind : MemoryKind} {block : Block} (access : AccessKind) :
    set.WellFormed f index → Keeps policy p set order →
    set.blocks[way]? = some block → block.valid = false →
    (∀ other, ¬ set.Carries other tag) → f.geometry.Has ⟨index, tag⟩ →
    kind = .classify (f.geometry.addressOf ⟨index, tag⟩) f.regionBorder →
    Reaches Overflows
      (fun x => ∃ newest, newest.tag = tag ∧ newest.dirty = access.isWrite ∧
        Leads Keeps index policy p x.1 (p.fill index) x.2
          (enlist (rule (p.fill index).fills ((p.fill index).touches index) kind
            (order.map (·.kind))) newest order))
      (set.accept policy way tag kind access)
  vacate {index way : Nat} {policy : π} {p : Progress} {set : CacheSet} {order : List Block}
      {block : Block} :
    set.WellFormed f index → Keeps policy p set order →
    set.blocks[way]? = some block → block.valid = true →
    Reaches Overflows
      (fun x => x.1 = some block ∧ Leads Keeps index policy p x.2.1 p x.2.2 (order.erase block))
      (set.vacate policy way)
  chooseVictim {index : Nat} {policy : π} {p : Progress} {set : CacheSet} {order : List Block} :
    set.WellFormed f index → Keeps policy p set order → 0 < set.blocks.length →
    (∀ block ∈ set.blocks, block.valid = true) →
    ∃ way block, Policy.chooseVictim policy set = .ok (way, policy, set) ∧
      set.blocks[way]? = some block ∧ order.getLast? = some block

/-- A line that comes into a full set makes the last one leave first. -/
theorem Listing.bringIn [Policy π] [Policy.Tame π] {f : Frame} {rule : TrustRule}
    {Keeps : π → Progress → CacheSet → List Block → Prop} (hm : Listing f rule Keeps)
    {index tag : Nat} {policy : π} {p : Progress} {set : CacheSet} {order : List Block}
    {kind : MemoryKind} (access : AccessKind) (hset : set.WellFormed f index)
    (h : Keeps policy p set order) (hpos : 0 < set.blocks.length) (hfind : set.find tag = none)
    (hhas : f.geometry.Has ⟨index, tag⟩)
    (hkind : kind = .classify (f.geometry.addressOf ⟨index, tag⟩) f.regionBorder) :
    Reaches Overflows
      (fun x => x.2.1 = (makeRoom set.blocks.length order).1 ∧ ∃ newest, newest.tag = tag ∧
        newest.dirty = access.isWrite ∧
        Leads Keeps index policy p x.2.2.1 (p.fill index) x.2.2.2
          (enlist (rule (p.fill index).fills ((p.fill index).touches index) kind
              ((makeRoom set.blocks.length order).2.map (·.kind)))
            newest (makeRoom set.blocks.length order).2))
      (set.bringIn policy tag kind access) := by
  have habsent := hset.find_eq_none_iff.1 hfind
  have hlists := hm.lists hset h
  rw [CacheSet.bringIn]
  cases hvacancy : set.vacancy with
  | some way =>
    obtain ⟨block, hb, hv⟩ := CacheSet.exists_of_vacancy hvacancy
    rw [hlists.makeRoom_of_vacancy hvacancy, CacheSet.choose_of_vacancy hvacancy]
    show Reaches _ _ (set.vacate policy way >>= _)
    rw [CacheSet.vacate_of_invalid hb hv]
    refine (hm.accept access hset h hb hv habsent hhas hkind).bind ?_
    rintro ⟨policy₁, set₁⟩ hfilled
    exact .ok ⟨rfl, hfilled⟩
  | none =>
    have hfull := CacheSet.vacancy_eq_none_iff.1 hvacancy
    obtain ⟨way, block, hchoice, hb, hlast⟩ := hm.chooseVictim hset h hpos hfull
    have hv := hfull block (List.mem_of_getElem? hb)
    rw [hlists.makeRoom_of_full hset hvacancy hlast,
      CacheSet.choose_of_full hvacancy hchoice (List.getElem?_eq_some_iff.1 hb).1]
    show Reaches _ _ (set.vacate policy way >>= _)
    refine (hm.vacate hset h hb hv).attach.bind ?_
    rintro ⟨victim, policy₁, set₁⟩ ⟨⟨hvictim, hleads⟩, hvacate⟩
    obtain rfl : victim = some block := hvictim
    obtain ⟨hset₁, hvacated⟩ := hset.vacate hvacate
    obtain ⟨block₁, hb₁, hv₁⟩ := hvacated.vacant
    have habsent₁ : ∀ other, ¬ set₁.Carries other tag := by
      rw [← hset₁.residence_eq_none_iff, hvacated.residence_eq]
      split
      · rfl
      · exact hset.residence_eq_none_iff.2 habsent
    refine (hm.accept access hset₁ hleads.here hb₁ hv₁ habsent₁ hhas hkind).bind ?_
    rintro ⟨policy₂, set₂⟩ ⟨newest, htag, hdirty, hleads₂⟩
    exact .ok ⟨rfl, newest, htag, hdirty, hleads.trans hleads₂⟩

end Policy

open Policy (Leads Listing)

namespace Store

variable {π : Type} {Keeps : π → Progress → CacheSet → List Block → Prop} {rule : TrustRule}

/-- The lists of the machine are the lines of the sets, in the order in which the policy keeps
them. -/
structure Listed (f : Frame) (rule : TrustRule)
    (Keeps : π → Progress → CacheSet → List Block → Prop) (s : Store π) (m : TrustingLists) :
    Prop where
  wellFormed : s.WellFormed f
  geometry_eq : m.geometry = f.geometry
  regionBorder_eq : m.regionBorder = f.regionBorder
  rule_eq : m.rule = rule
  occupancy_eq : s.stats.occupancy = s.lineCount
  lists : ∀ {index : Nat} {set : CacheSet}, s.sets[index]? = some set →
    ∃ order, Keeps s.policy m.progress set order ∧
      m.lists index = order.map (Block.entry f.geometry index)

namespace Listed

variable {f : Frame} {s : Store π} {m : TrustingLists} {a : Nat} {line : Line} {set : CacheSet}

/-- An address maps to the list of its set, and its line has the address of its first
byte. -/
theorem of_maps (h : Listed f rule Keeps s m) (hmaps : s.Maps a line set) :
    m.setIndex a = line.set ∧ m.lineAddress a = f.geometry.addressOf line := by
  obtain ⟨ha, rfl, -, -⟩ := h.wellFormed.of_maps hmaps
  have hvalid := h.wellFormed.valid
  rw [RecencyLists.setIndex, RecencyLists.lineAddress, h.geometry_eq, hvalid.lineOf_set,
    hvalid.addressOf_lineOf ha]
  exact ⟨rfl, rfl⟩

/-- A block that carries the line of an address, as an entry. -/
theorem entry_eq (h : Listed f rule Keeps s m) (hmaps : s.Maps a line set) {block : Block}
    (htag : block.tag = line.tag) :
    block.entry f.geometry line.set = ⟨m.lineAddress a, block.dirty⟩ := by
  rw [(h.of_maps hmaps).2, Block.entry, htag]

/-- A step on one set leaves the lists of the others as they are. -/
theorem replace (h : Listed f rule Keeps s m) (hmaps : s.Maps a line set) {policy : π}
    {p : Progress} {set' : CacheSet} {order : List Block} (hset' : set'.WellFormed f line.set)
    (hleads : Leads Keeps line.set s.policy m.progress policy p set' order) {stats : Stats}
    (hoccupancy : stats.occupancy + set.occupancy = s.stats.occupancy + set'.occupancy) :
    Listed f rule Keeps (s.replace line.set set' policy stats)
      { m with
        toRecencyLists := m.put a (order.map (Block.entry f.geometry line.set))
        progress := p } where
  wellFormed := h.wellFormed.replace hset' policy stats
  geometry_eq := h.geometry_eq
  regionBorder_eq := h.regionBorder_eq
  rule_eq := h.rule_eq
  occupancy_eq := by
    have hcount := lineCount_replace hmaps.2 set' policy stats
    have hold := h.occupancy_eq
    show stats.occupancy = _
    omega
  lists {index found} hfound := by
    simp only [Store.replace, Array.getElem?_setIfInBounds] at hfound
    simp only [RecencyLists.put, (h.of_maps hmaps).1]
    by_cases hindex : line.set = index
    · subst hindex
      rw [if_pos rfl] at hfound
      split at hfound
      · cases hfound
        exact ⟨order, hleads.here, Function.update_self ..⟩
      · cases hfound
    · rw [if_neg hindex] at hfound
      obtain ⟨order', hkeeps, hlist⟩ := h.lists hfound
      refine ⟨order', hleads.elsewhere ?_ hkeeps, ?_⟩
      · rw [(h.wellFormed.sets hfound).index_eq]
        exact Ne.symm hindex
      · rw [Function.update_of_ne (Ne.symm hindex), hlist]

theorem recount (h : Listed f rule Keeps s m) {stats : Stats}
    (hoccupancy : stats.occupancy = s.stats.occupancy) :
    Listed f rule Keeps { s with stats } m :=
  { h with
    wellFormed := h.wellFormed.recount stats
    occupancy_eq := hoccupancy.trans h.occupancy_eq }

variable [Policy π] (hm : Listing f rule Keeps)

include hm

/-- The list of an address, the entry of its line and the others, if the line is
resident. -/
theorem of_resident (h : Listed f rule Keeps s m) (hmaps : s.Maps a line set) {way : Nat}
    (hfind : set.find line.tag = some way) :
    ∃ block order, set.blocks[way]? = some block ∧ block.valid = true ∧ block.tag = line.tag ∧
      Keeps s.policy m.progress set order ∧
      m.entry? a = some (block.entry f.geometry line.set) ∧
      m.others a = (order.erase block).map (Block.entry f.geometry line.set) := by
  obtain ⟨hindex, haddress⟩ := h.of_maps hmaps
  obtain ⟨-, -, -, hset⟩ := h.wellFormed.of_maps hmaps
  obtain ⟨order, hkeeps, hlist⟩ := h.lists hmaps.2
  have hlists := hm.lists hset hkeeps
  obtain ⟨block, hb, hholds⟩ := hset.find_eq_some_iff.1 hfind
  obtain ⟨hv, htag⟩ := Block.holds_iff.1 hholds
  have hmem : block ∈ order := hlists.mem_iff.2 ⟨way, hb, hv⟩
  have hline : line = ⟨line.set, block.tag⟩ := Line.eq_iff.2 ⟨rfl, htag.symm⟩
  refine ⟨block, order, hb, hv, htag, hkeeps, ?_, ?_⟩
  · rw [RecencyLists.entry?, RecencyLists.entries, hindex, hlist, haddress, hline]
    exact hlists.find?_entries h.wellFormed.valid hset hmem
  · rw [RecencyLists.others, RecencyLists.entries, hindex, hlist, haddress, hline]
    exact hlists.filter_entries h.wellFormed.valid hset hmem

/-- A line that is absent has no entry. -/
theorem of_absent (h : Listed f rule Keeps s m) (hmaps : s.Maps a line set)
    (hfind : set.find line.tag = none) :
    m.entry? a = none ∧ m.others a = m.entries a := by
  obtain ⟨hindex, haddress⟩ := h.of_maps hmaps
  obtain ⟨-, -, hhas, hset⟩ := h.wellFormed.of_maps hmaps
  obtain ⟨order, hkeeps, hlist⟩ := h.lists hmaps.2
  have hne := (hm.lists hset hkeeps).forall_entries_ne h.wellFormed.valid hset hhas hfind
  rw [RecencyLists.entry?, RecencyLists.others, RecencyLists.entries, hindex, hlist, haddress]
  constructor
  · rw [List.find?_eq_none]
    intro entry hentry
    simpa using hne entry hentry
  · rw [List.filter_eq_self]
    intro entry hentry
    simpa using hne entry hentry

omit [Policy π] hm in
/-- What is reported of a block that is vacated is what is reported of its entry. -/
theorem departure_eq (h : Listed f rule Keeps s m) (index : Nat) :
    s.departure index = Entry.eviction ∘ Block.entry f.geometry index := by
  funext block
  rw [Store.departure, h.wellFormed.geometry_eq]
  rfl

theorem probeWithin [Policy.Tame π] (h : Listed f rule Keeps s m) (hmaps : s.Maps a line set)
    (access : AccessKind) :
    Reaches Overflows (fun x => x.1.hit = (m.probe a access.isWrite).1 ∧
        Listed f rule Keeps x.2 (m.probe a access.isWrite).2)
      (s.probeWithin line set access) := by
  obtain ⟨-, -, hhas, hset⟩ := h.wellFormed.of_maps hmaps
  unfold Store.probeWithin TrustingLists.probe RecencyLists.probe
  cases hfind : set.find line.tag with
  | some way =>
    obtain ⟨block, order, hb, hv, htag, hkeeps, hentry, hothers⟩ := h.of_resident hm hmaps hfind
    rw [hentry, hothers]
    refine (hm.hit access hset hkeeps hb hv).attach.bind ?_
    intro ⟨policy, set'⟩ ⟨⟨touched, htouched, hdirty, hleads⟩, hhit⟩
    obtain ⟨hset', hlines, -⟩ := hset.hit hfind hhit
    refine s.stats.reaches_countHit.bind ?_
    intro stats hstats
    have hlisted := h.replace hmaps hset' hleads (show stats.occupancy + _ = _ by omega)
    rw [List.map_cons, h.entry_eq hmaps (htouched.trans htag), hdirty] at hlisted
    rw [(h.of_maps hmaps).1]
    exact .ok ⟨rfl, hlisted⟩
  | none =>
    rw [(h.of_absent hm hmaps hfind).1]
    refine s.stats.reaches_countMiss.bind ?_
    intro stats hstats
    exact .ok ⟨rfl, h.recount hstats⟩

theorem fillWithin [Policy.Tame π] (h : Listed f rule Keeps s m) (hmaps : s.Maps a line set)
    (hfind : set.find line.tag = none) (access : AccessKind) :
    Reaches Overflows (fun x => x.1.evicted = (m.bringIn a access.isWrite).1 ∧
        Listed f rule Keeps x.2 (m.bringIn a access.isWrite).2)
      (s.fillWithin line set access) := by
  obtain rfl := h.rule_eq
  obtain ⟨-, -, hhas, hset⟩ := h.wellFormed.of_maps hmaps
  obtain ⟨order, hkeeps, hlist⟩ := h.lists hmaps.2
  have hpos : 0 < set.blocks.length := by
    rw [hset.length_blocks]
    exact h.wellFormed.valid.associativity_pos
  have hentries : m.entries a = order.map (Block.entry f.geometry line.set) := by
    rw [RecencyLists.entries, (h.of_maps hmaps).1, hlist]
  have hkind : m.kindOf (m.lineAddress a) =
      .classify (f.geometry.addressOf line) f.regionBorder := by
    rw [TrustingLists.kindOf, h.regionBorder_eq, (h.of_maps hmaps).2]
  have hkinds : ((makeRoom set.blocks.length order).2.map (Block.entry f.geometry line.set)).map
      (fun entry => m.kindOf entry.address) =
        (makeRoom set.blocks.length order).2.map (·.kind) := by
    rw [List.map_map]
    refine List.map_congr_left fun block hmem => ?_
    rw [Function.comp_apply, TrustingLists.kindOf, h.regionBorder_eq]
    exact (hm.lists hset hkeeps).kind_eq hset ((makeRoom_segment _ order).subset hmem)
  unfold Store.fillWithin TrustingLists.bringIn
  rw [h.wellFormed.geometry_eq, h.wellFormed.regionBorder_eq, hentries, makeRoom_map,
    h.geometry_eq, ← hset.length_blocks]
  dsimp only
  rw [hkinds]
  refine (hm.bringIn access hset hkeeps hpos hfind hhas rfl).attach.bind ?_
  rintro ⟨way, victim, policy, set'⟩ ⟨⟨hvictim, newest, htag, hdirty, hleads⟩, hbring⟩
  obtain ⟨hset', hfilled⟩ := hset.bringIn hfind hhas hbring
  refine (s.stats.reaches_countFill victim).bind ?_
  intro stats hstats
  have hlines := hfilled.occupancy_eq
  have hlisted := h.replace hmaps hset' hleads (show stats.occupancy + _ = _ by omega)
  rw [enlist_map, h.entry_eq hmaps htag, hdirty] at hlisted
  rw [hkind, (h.of_maps hmaps).1]
  refine .ok ⟨?_, hlisted⟩
  show victim.map (s.departure line.set) = Option.map _ (Option.map _ _)
  rw [h.departure_eq, ← Option.map_map, ← hvictim]

theorem invalidateWithin [Policy.Tame π] (h : Listed f rule Keeps s m)
    (hmaps : s.Maps a line set) :
    Reaches Overflows
      (fun x => x.1 = (m.invalidate a).1 ∧ Listed f rule Keeps x.2 (m.invalidate a).2)
      (s.invalidateWithin line set) := by
  obtain ⟨-, -, hhas, hset⟩ := h.wellFormed.of_maps hmaps
  unfold Store.invalidateWithin TrustingLists.invalidate RecencyLists.invalidate
  cases hfind : set.find line.tag with
  | none =>
    obtain ⟨hentry, hothers⟩ := h.of_absent hm hmaps hfind
    rw [hentry, hothers]
    refine .ok ⟨rfl, ?_⟩
    have hsame : m.put a (m.entries a) = m.toRecencyLists := by
      rw [RecencyLists.put, RecencyLists.entries, Function.update_eq_self]
    rw [hsame]
    exact h
  | some way =>
    obtain ⟨block, order, hb, hv, htag, hkeeps, hentry, hothers⟩ := h.of_resident hm hmaps hfind
    rw [hentry, hothers]
    refine (hm.vacate hset hkeeps hb hv).attach.bind ?_
    rintro ⟨victim, policy, set'⟩ ⟨⟨hvictim, hleads⟩, hvacate⟩
    obtain rfl : victim = some block := hvictim
    obtain ⟨hset', hvacated⟩ := hset.vacate hvacate
    have hlines : set'.occupancy + 1 = set.occupancy := hvacated.occupancy_eq
    have hle := occupancy_le_lineCount hmaps.2
    have hpos : 0 < s.stats.occupancy := by
      have hold := h.occupancy_eq
      omega
    show Reaches _ _ (s.stats.countDeparture >>= _)
    rw [Stats.countDeparture_eq hpos]
    refine .ok ⟨?_, h.replace hmaps hset' hleads ?_⟩
    · exact congrArg some (congrFun (h.departure_eq line.set) block)
    · show s.stats.occupancy - 1 + _ = _
      omega

/-- Whether an address is in the lists is whether its set holds the line. -/
theorem isSome_entry? (h : Listed f rule Keeps s m) (hmaps : s.Maps a line set) :
    (m.entry? a).isSome = (set.find line.tag).isSome := by
  cases hfind : set.find line.tag with
  | some way =>
    obtain ⟨block, order, -, -, -, -, hentry, -⟩ := h.of_resident hm hmaps hfind
    rw [hentry]
    rfl
  | none =>
    rw [(h.of_absent hm hmaps hfind).1]
    rfl

/-- What a call about a line of a set leads to. -/
theorem respondWithin [Policy.Tame π] (h : Listed f rule Keeps s m) (call : Call)
    (hmaps : s.Maps call.address line set) :
    Reaches Overflows (fun x => x.1.map Reply.sight = (m.respondWithin call).1 ∧
        Listed f rule Keeps x.2 (m.respondWithin call).2)
      (s.respondWithin line set call) := by
  cases call <;> dsimp only [Call.address] at hmaps
  case probe a access =>
    refine (h.probeWithin hm hmaps access).bind ?_
    rintro ⟨lookup, t⟩ ⟨hhit, hlisted⟩
    refine .ok ⟨?_, hlisted⟩
    show Except.ok (Sight.lookup lookup.hit) = _
    rw [hhit]
    rfl
  case fill a access =>
    rw [Store.respondWithin, TrustingLists.respondWithin, h.isSome_entry? hm hmaps]
    cases hfind : set.find line.tag with
    | some way => exact .ok ⟨rfl, h⟩
    | none =>
      refine (h.fillWithin hm hmaps hfind access).bind ?_
      rintro ⟨install, t⟩ ⟨hevicted, hlisted⟩
      refine .ok ⟨?_, hlisted⟩
      show Except.ok (Sight.install install.evicted) = _
      rw [hevicted]
      rfl
  case access a access =>
    cases hfind : set.find line.tag with
    | some way =>
      obtain ⟨block, order, -, -, -, -, hentry, -⟩ := h.of_resident hm hmaps hfind
      have hprobe := h.probeWithin hm hmaps access
      rw [TrustingLists.probe, RecencyLists.probe, hentry] at hprobe
      rw [respondWithin_access_of_hit hfind, TrustingLists.respondWithin, TrustingLists.probe,
        RecencyLists.probe, hentry]
      refine hprobe.bind ?_
      rintro ⟨lookup, t⟩ ⟨hhit, hlisted⟩
      refine .ok ⟨?_, hlisted⟩
      show Except.ok (Sight.access lookup.hit none) = _
      rw [hhit]
      rfl
    | none =>
      rw [respondWithin_access_of_miss hfind, TrustingLists.respondWithin, TrustingLists.probe,
        RecencyLists.probe, (h.of_absent hm hmaps hfind).1]
      refine s.stats.reaches_countMiss.bind ?_
      intro stats hstats
      refine ((h.recount hstats).fillWithin hm hmaps hfind access).bind ?_
      rintro ⟨install, t⟩ ⟨hevicted, hlisted⟩
      refine .ok ⟨?_, hlisted⟩
      show Except.ok (Sight.access false install.evicted) = _
      rw [hevicted]
      rfl
  case invalidate a =>
    refine (h.invalidateWithin hm hmaps).bind ?_
    rintro ⟨_, t⟩ ⟨rfl, hlisted⟩
    exact .ok ⟨rfl, hlisted⟩

/-- A call is answered as the lists answer it, and the store keeps the lists that follow. -/
theorem respond [Policy.Tame π] (h : Listed f rule Keeps s m) (call : Call) :
    Reaches Overflows (fun x => x.1.map Reply.sight = (m.respond call).1 ∧
        Listed f rule Keeps x.2 (m.respond call).2)
      (s.respond call) := by
  rw [TrustingLists.respond, h.geometry_eq]
  rcases h.wellFormed.maps_cases call.address with ⟨ha, set, hmaps⟩ | ⟨ha, houtside⟩
  · rw [if_pos ha, respond_of_maps hmaps]
    exact h.respondWithin hm call hmaps
  · rw [if_neg (Nat.not_lt.2 ha), respond_of_outside houtside]
    exact .ok ⟨rfl, h⟩

/-- A run is answered as the lists answer it, by induction on the calls. -/
theorem run [Policy.Tame π] (h : Listed f rule Keeps s m) (calls : List Call) :
    Reaches Overflows
      (fun x => x.1.map (fun exchange => exchange.answer.map Reply.sight) = (m.run calls).1 ∧
        Listed f rule Keeps x.2 (m.run calls).2)
      (Store.run calls s) := by
  induction calls generalizing s m with
  | nil => exact .ok ⟨rfl, h⟩
  | cons call calls ih =>
    refine (h.respond hm call).bind ?_
    intro ⟨answer, t⟩ ⟨hanswer, hlisted⟩
    refine (ih hlisted).bind ?_
    intro ⟨history, u⟩ ⟨hanswers, hlisted'⟩
    refine .ok ⟨?_, hlisted'⟩
    rw [List.map_cons, hanswers, TrustingLists.run]
    exact congrArg (· :: _) hanswer

end Listed

/-- A new store around a policy that keeps no lines in untouched sets has empty lists. -/
theorem listed_of_create [Policy π] {c : Config} {value : π} {s : Store π}
    (hbuilt : (create c value).result = .ok s)
    (hkeeps : ∀ set : CacheSet, AnyPolicy.Untouched set → set.index < s.geometry.numSets →
      Keeps value .start set []) :
    Listed (frameOf c s.geometry value) rule Keeps s
      (.empty s.geometry (c.regionBorder.map UInt64.toNat) rule) where
  wellFormed := (wellFormed_of_create hbuilt).2
  geometry_eq := rfl
  regionBorder_eq := rfl
  rule_eq := rfl
  occupancy_eq := occupancy_of_create hbuilt
  lists {index set} hset := by
    obtain ⟨huntouched, rfl, -⟩ := untouched_of_create hbuilt hset
    refine ⟨[], ?_, rfl⟩
    rw [policy_of_create hbuilt]
    exact hkeeps set huntouched ((wellFormed_of_create hbuilt).2.index_lt hset)

end Store

end AssocCache
