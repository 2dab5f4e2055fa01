import AssocCache.Proofs.Store.Opened
import AssocCache.Proofs.Store.Statistics

/-!
# Turns

What a call changes of a store it changes of one set, in one of three ways: a line of
the set is hit, a line comes in, or a line leaves.  `CacheSet.Takes` is this step of a
set under its policy, and `Turn` says which of the three it is and what line it is about.

* A call that is answered leaves all sets as they are and tells of nothing, or one set
  takes a turn and the answer tells of it (`WellFormed.respond_cases`).
* `CacheSet.bringIn_cases` opens the arrival of a line, `CacheSet.replacement_cases` that of
  a line which makes another one go, and `CacheSet.bare_of_arrival` says what is left of the
  set by either.
* `AnyPolicy.takes_cases` opens the turn of a set under a policy that is wrapped.
-/

namespace AssocCache

open Success

/-! ## What an answer tells -/

/-- What an answer tells of the lines of a set. -/
inductive Outcome where
  /-- A line was found in a way of a set. -/
  | hit (set way : Nat)
  | arrival (install : Install)
  | departure (evicted : Eviction)
  deriving DecidableEq, Repr

/-- What a reply tells.  A line that was not found is not told of. -/
def Reply.outcome? : Reply → Option Outcome
  | .lookup answer => answer.way.map (.hit answer.set)
  | .install placed => some (.arrival placed)
  | .access outcome =>
    match outcome.install with
    | some placed => some (.arrival placed)
    | none => outcome.lookup.way.map (.hit outcome.lookup.set)
  | .departure evicted => evicted.map .departure

/-- What the answer to a call tells.  A refusal tells nothing. -/
def Exchange.outcome? (x : Exchange) : Option Outcome :=
  x.answer.toOption.bind Reply.outcome?

/-- Whether a call asks for a line to be written to. -/
def Call.isWrite : Call → Bool
  | .probe _ kind | .fill _ kind | .access _ kind => kind.isWrite
  | .invalidate _ => false

/-- The access with which a call brings its line in, if it may do so. -/
def Call.fetch? : Call → Option AccessKind
  | .fill _ kind | .access _ kind => some kind
  | .probe .. | .invalidate _ => none

/-! ## The turn of a set -/

/-- What becomes of a set. -/
inductive Turn where
  /-- The line of a way was hit. -/
  | hit (way : Nat) (block : Block) (access : AccessKind)
  /-- A line came into a way, in the place of another one if the set was full. -/
  | arrival (way tag : Nat) (kind : MemoryKind) (access : AccessKind) (victim : Option Block)
  /-- The line of a way left. -/
  | departure (way : Nat) (block : Block)

namespace Turn

/-- The tag of the line that the turn is about. -/
def tag : Turn → Nat
  | .hit _ block _ | .departure _ block => block.tag
  | .arrival _ tag .. => tag

/-- The memory behind the line that the turn is about. -/
def kind : Turn → MemoryKind
  | .hit _ block _ | .departure _ block => block.kind
  | .arrival _ _ kind .. => kind

/-- Whether the line is written to. -/
def isWrite : Turn → Bool
  | .hit _ _ access | .arrival _ _ _ access _ => access.isWrite
  | .departure .. => false

/-- Whether a line comes in. -/
def isArrival : Turn → Bool
  | .arrival .. => true
  | .hit .. | .departure .. => false

/-- How the turn of a set is told of. -/
def outcome {π : Type} (s : Store π) (index : Nat) : Turn → Outcome
  | .hit way _ _ => .hit index way
  | .arrival way _ _ _ victim => .arrival ⟨index, way, victim.map (s.departure index)⟩
  | .departure _ block => .departure (s.departure index block)

end Turn

namespace CacheSet

variable {π : Type} [Policy π]

/-- A set takes a turn under its policy. -/
inductive Takes (set : CacheSet) (policy : π) : Turn → π → CacheSet → Prop where
  | hit {way : Nat} {block : Block} {access : AccessKind} {policy' : π} {set' : CacheSet}
      (hb : set.blocks[way]? = some block) (hv : block.valid = true)
      (hhit : set.hit policy way access = .ok (policy', set')) :
      Takes set policy (.hit way block access) policy' set'
  | arrival {way tag : Nat} {kind : MemoryKind} {access : AccessKind} {victim : Option Block}
      {policy' : π} {set' : CacheSet}
      (hbring : set.bringIn policy tag kind access = .ok (way, victim, policy', set')) :
      Takes set policy (.arrival way tag kind access victim) policy' set'
  | departure {way : Nat} {block : Block} {policy' : π} {set' : CacheSet}
      (hvacate : set.vacate policy way = .ok (some block, policy', set')) :
      Takes set policy (.departure way block) policy' set'

variable {set set' : CacheSet} {policy policy' : π} {way tag : Nat} {kind : MemoryKind}
  {access : AccessKind} {victim : Option Block} {turn : Turn}

/-- A line that leaves was there, and the policy is told before its block is cleared. -/
theorem exists_of_vacate {block : Block}
    (h : set.vacate policy way = .ok (some block, policy', set')) :
    set.blocks[way]? = some block ∧ block.valid = true ∧ ∃ told left,
      Policy.onInvalidate policy set way = .ok (policy', told) ∧
      told.blocks[way]? = some left ∧ set' = (told.put way left.clear).forget block.tag := by
  obtain ⟨found, hb, ⟨hv, hfound, hcleared⟩ | ⟨-, hnone, -⟩⟩ := vacate_eq_ok_iff.1 h
  · cases hfound
    exact ⟨hb, hv, hcleared⟩
  · cases hnone

/-- A line leaves a set whose policy does not care. -/
theorem vacate_cases_of_silent {block : Block}
    (hsilent : ∀ set way, Policy.onInvalidate policy set way = .ok (policy, set))
    (h : set.vacate policy way = .ok (some block, policy', set')) :
    set.blocks[way]? = some block ∧ block.valid = true ∧ policy' = policy ∧
      set'.index = set.index ∧ set'.role = set.role ∧
      set'.blocks = set.blocks.set way block.clear := by
  obtain ⟨hb, hv, told, left, hhook, hleft, rfl⟩ := exists_of_vacate h
  rw [hsilent] at hhook
  cases hhook
  rw [hb] at hleft
  cases hleft
  exact ⟨hb, hv, rfl, rfl, rfl, rfl⟩

/-- A line goes to a vacant way, or to the way of the line that has to go. -/
theorem bringIn_cases [Policy.Tame π]
    (h : set.bringIn policy tag kind access = .ok (way, victim, policy', set')) :
    (set.vacancy = some way ∧ victim = none ∧
        set.accept policy way tag kind access = .ok (policy', set')) ∨
      ∃ chosen aged block left vacated, set.vacancy = none ∧
        Policy.chooseVictim policy set = .ok (way, chosen, aged) ∧ victim = some block ∧
        aged.vacate chosen way = .ok (some block, left, vacated) ∧
        vacated.accept left way tag kind access = .ok (policy', set') := by
  obtain ⟨⟨_, chosen, aged⟩, hchoose, h⟩ := bind_eq_ok_iff.1 h
  obtain ⟨⟨_, left, vacated⟩, hvacate, h⟩ := bind_eq_ok_iff.1 h
  obtain ⟨⟨_, _⟩, haccept, h⟩ := bind_eq_ok_iff.1 h
  cases h
  have hchosen : (Store.chooseWay set policy).result = .ok (way, chosen, aged) := by
    rw [result_chooseWay, mapError_eq_ok_iff]
    exact hchoose
  obtain ⟨found, hfound, hcases⟩ := vacate_eq_ok_iff.1 hvacate
  rcases chooseWay_eq_ok_iff.1 hchosen with ⟨hvacancy, rfl, rfl⟩ | ⟨hvacancy, hchoice, -⟩
  · obtain ⟨vacant, hvacant, hfree⟩ := exists_of_vacancy hvacancy
    rw [hvacant] at hfound
    cases hfound
    rcases hcases with ⟨hv, -⟩ | ⟨-, rfl, rfl, rfl⟩
    · rw [hfree] at hv
      cases hv
    · exact .inl ⟨hvacancy, rfl, haccept⟩
  · obtain ⟨before, hbefore, hbare⟩ :=
      (Policy.Tame.chooseVictim hchoice).exists_block_rev hfound
    have hv : found.valid = true := by
      rw [(Block.bare_eq_bare_iff.1 hbare).2.1]
      exact vacancy_eq_none_iff.1 hvacancy before (List.mem_of_getElem? hbefore)
    rcases hcases with ⟨-, rfl, -⟩ | ⟨hfree, -⟩
    · exact .inr ⟨chosen, aged, found, left, vacated, hvacancy, hchoice, rfl, hvacate, haccept⟩
    · rw [hv] at hfree
      cases hfree

/-- A line that comes into a well-formed set enters a well-formed set with its way vacant. -/
theorem accept_of_arrival [Policy.Tame π] {f : Frame} {index : Nat} (hset : set.WellFormed f index)
    (h : set.Takes policy (.arrival way tag kind access victim) policy' set') :
    ∃ (left : π) (vacated : CacheSet), vacated.WellFormed f index ∧
      vacated.accept left way tag kind access = .ok (policy', set') := by
  cases h with
  | arrival hbring =>
    rcases bringIn_cases hbring with ⟨-, -, haccept⟩ |
      ⟨chosen, aged, block, left, vacated, -, hchoice, -, hvacate, haccept⟩
    · exact ⟨policy, set, hset, haccept⟩
    · have haged := hset.adjusted (Policy.Tame.chooseVictim hchoice)
      exact ⟨left, vacated, (haged.vacate hvacate).1, haccept⟩

/-- A line that replaces another one takes the way that the policy gives up. -/
theorem replacement_cases [Policy.Tame π] {gone : Block}
    (h : set.Takes policy (.arrival way tag kind access (some gone)) policy' set') :
    ∃ chosen aged left vacated, set.vacancy = none ∧
      Policy.chooseVictim policy set = .ok (way, chosen, aged) ∧
      aged.vacate chosen way = .ok (some gone, left, vacated) ∧
      vacated.accept left way tag kind access = .ok (policy', set') := by
  cases h with
  | arrival hbring =>
    rcases bringIn_cases hbring with ⟨-, hnone, -⟩ |
      ⟨chosen, aged, block, left, vacated, hvacancy, hchoice, hsome, hvacate, haccept⟩
    · cases hnone
    · cases hsome
      exact ⟨chosen, aged, left, vacated, hvacancy, hchoice, hvacate, haccept⟩

/-- The line that has to go was in the way that the new one gets, and no way was vacant. -/
theorem exists_of_victim [Policy.Tame π] {gone : Block}
    (h : set.Takes policy (.arrival way tag kind access (some gone)) policy' set') :
    set.vacancy = none ∧
      ∃ block, set.blocks[way]? = some block ∧ block.valid = true ∧ gone.bare = block.bare := by
  obtain ⟨chosen, aged, left, vacated, hvacancy, hchoice, hvacate, -⟩ := replacement_cases h
  obtain ⟨hgone, hv, -⟩ := exists_of_vacate hvacate
  obtain ⟨block, hb, hbare⟩ := (Policy.Tame.chooseVictim hchoice).exists_block_rev hgone
  exact ⟨hvacancy, block, hb, (Block.bare_eq_bare_iff.1 hbare).2.1 ▸ hv, hbare⟩

/-- A line that leaves changes one block, but for the words. -/
theorem bare_of_vacate [Policy.Tame π] {block : Block}
    (h : set.vacate policy way = .ok (some block, policy', set')) :
    set'.blocks.map Block.bare = (set.blocks.map Block.bare).set way block.clear.bare := by
  obtain ⟨hb, -, told, found, hhook, hfound, rfl⟩ := exists_of_vacate h
  have hadjusted := Policy.Tame.onInvalidate hhook
  obtain ⟨before, hbefore, hbare⟩ := hadjusted.exists_block_rev hfound
  rw [hb] at hbefore
  cases hbefore
  have hclear : found.clear.bare = block.clear.bare := by
    obtain ⟨htag, -, -, hset, hway, hkind⟩ := Block.bare_eq_bare_iff.1 hbare
    exact Block.bare_eq_bare_iff.2 ⟨htag, rfl, rfl, hset, hway, hkind⟩
  show (told.blocks.set way found.clear).map Block.bare = _
  rw [List.map_set, hadjusted.blocks_eq, hclear]

/-- A line that enters changes one block, but for the words. -/
theorem bare_of_accept [Policy.Tame π]
    (h : set.accept policy way tag kind access = .ok (policy', set')) :
    ∃ block, set.blocks[way]? = some block ∧ set'.blocks.map Block.bare =
      (set.blocks.map Block.bare).set way (block.fill tag kind access.isWrite).bare := by
  obtain ⟨block, hb, -, told, filled, hfill, hinsert, -⟩ := accept_eq_ok_iff.1 h
  have hadjusted := (Policy.Tame.onFill hfill).trans (Policy.Tame.onInsert hinsert)
  exact ⟨block, hb, hadjusted.blocks_eq.trans List.map_set⟩

/-- An arrival changes one block, but for the words. -/
theorem bare_of_arrival [Policy.Tame π]
    (h : set.Takes policy (.arrival way tag kind access victim) policy' set') :
    ∃ block, set.blocks[way]? = some block ∧ set'.blocks.map Block.bare =
      (set.blocks.map Block.bare).set way (block.fill tag kind access.isWrite).bare := by
  cases h with
  | arrival hbring =>
    rcases bringIn_cases hbring with ⟨-, -, haccept⟩ |
      ⟨chosen, aged, gone, left, vacated, -, hchoice, -, hvacate, haccept⟩
    · exact bare_of_accept haccept
    · have hadjusted := Policy.Tame.chooseVictim hchoice
      have hvacated := bare_of_vacate hvacate
      obtain ⟨hgone, -⟩ := exists_of_vacate hvacate
      obtain ⟨cleared, hcleared, hfilled⟩ := bare_of_accept haccept
      obtain ⟨block, hb, hbare⟩ := hadjusted.exists_block_rev hgone
      have hlt : way < (aged.blocks.map Block.bare).length := by
        rw [List.length_map]
        exact (List.getElem?_eq_some_iff.1 hgone).1
      have hsame : cleared.bare = gone.clear.bare := by
        have hmap := congrArg (·[way]?) hvacated
        rw [List.getElem?_map, hcleared, List.getElem?_set_self hlt] at hmap
        exact Option.some.inj hmap
      -- A fill overwrites all but the place of the block.
      have hfill : (cleared.fill tag kind access.isWrite).bare =
          (block.fill tag kind access.isWrite).bare := by
        obtain ⟨-, -, -, hset, hway, -⟩ := Block.bare_eq_bare_iff.1 hsame
        obtain ⟨-, -, -, hset', hway', -⟩ := Block.bare_eq_bare_iff.1 hbare
        exact Block.bare_eq_bare_iff.2
          ⟨rfl, rfl, rfl, hset.trans hset', hway.trans hway', rfl⟩
      refine ⟨block, hb, ?_⟩
      rw [hfilled, hvacated, List.set_set, hadjusted.blocks_eq, hfill]

theorem bare_getElem?_of_arrival [Policy.Tame π]
    (h : set.Takes policy (.arrival way tag kind access victim) policy' set') {other : Nat}
    (hne : other ≠ way) :
    set'.blocks[other]?.map Block.bare = set.blocks[other]?.map Block.bare := by
  obtain ⟨block, -, hbare⟩ := bare_of_arrival h
  rw [← List.getElem?_map, hbare, List.getElem?_set_ne (Ne.symm hne), List.getElem?_map]

end CacheSet

/-- A turn under a wrapped policy is a turn under the value inside. -/
theorem AnyPolicy.takes_cases (policy : AnyPolicy) {policy' : AnyPolicy} {value : policy.opened.π}
    {set set' : CacheSet} {turn : Turn}
    (h : set.Takes (policy.opened.close value) turn policy' set') :
    ∃ value', policy' = policy.opened.close value' ∧ set.Takes value turn value' set' := by
  cases h with
  | hit hb hv hhit =>
    obtain ⟨⟨value', set'⟩, hx, hclosed⟩ := coupled_hit.exists_ok_rev hhit
    cases hclosed
    exact ⟨value', rfl, .hit hb hv hx⟩
  | arrival hbring =>
    obtain ⟨⟨way, victim, value', set'⟩, hx, hclosed⟩ := coupled_bringIn.exists_ok_rev hbring
    cases hclosed
    exact ⟨value', rfl, .arrival hx⟩
  | departure hvacate =>
    obtain ⟨⟨gone, value', left⟩, hx, hclosed⟩ := coupled_vacate.exists_ok_rev hvacate
    cases hclosed
    exact ⟨value', rfl, .departure hx⟩

namespace Store

variable {π : Type} [Policy π] {f : Frame} {s t u : Store π} {call : Call} {calls : List Call}
  {answer : Except Refusal Reply} {history : List Exchange} {x : Exchange} {a : Nat}
  {access : AccessKind}

/-- The memory behind the line of an address. -/
def kindOf (s : Store π) (address : Nat) : MemoryKind :=
  .classify (s.geometry.addressOf (s.geometry.lineOf address)) s.regionBorder

/-- A set takes a turn in the answer to a call, and the answer tells of it. -/
structure Took (s : Store π) (x : Exchange) (t : Store π) (line : Line) (set : CacheSet)
    (turn : Turn) (set' : CacheSet) : Prop where
  maps : s.Maps x.call.address line set
  takes : set.Takes s.policy turn t.policy set'
  sets_eq : t.sets = s.sets.setIfInBounds line.set set'
  outcome_eq : x.outcome? = some (turn.outcome s line.set)
  tag_eq : turn.tag = line.tag
  kind_eq : turn.kind = s.kindOf x.call.address
  isWrite_eq : turn.isWrite = x.call.isWrite

/-- The set after its turn. -/
theorem Took.set_eq {line : Line} {set set' : CacheSet} {turn : Turn}
    (h : Took s x t line set turn set') : t.sets[line.set]? = some set' := by
  obtain ⟨hlt, -⟩ := Array.getElem?_eq_some_iff.1 h.maps.2
  rw [h.sets_eq, Array.getElem?_setIfInBounds_self_of_lt hlt]

/-- The other sets stay as they are. -/
theorem Took.getElem?_of_ne {line : Line} {set set' : CacheSet} {turn : Turn}
    (h : Took s x t line set turn set') {index : Nat} (hne : index ≠ line.set) :
    t.sets[index]? = s.sets[index]? := by
  rw [h.sets_eq, Array.getElem?_setIfInBounds_ne (Ne.symm hne)]

omit [Policy π] in
/-- The line of a block that a lookup finds has the memory of the address. -/
theorem WellFormed.kind_of_find (h : s.WellFormed f) {line : Line} {set : CacheSet}
    (hmaps : s.Maps a line set) {way : Nat} {block : Block} (hb : set.blocks[way]? = some block)
    (hholds : block.holds line.tag = true) : block.kind = s.kindOf a := by
  obtain ⟨-, hline, -, hset⟩ := h.of_maps hmaps
  obtain ⟨hv, htag⟩ := Block.holds_iff.1 hholds
  rw [(hset.blocks hb).kind_eq hv, htag, kindOf, h.geometry_eq, h.regionBorder_eq, ← hline]

omit [Policy π] in
theorem WellFormed.kindOf_eq (h : s.WellFormed f) {line : Line} {set : CacheSet}
    (hmaps : s.Maps a line set) :
    s.kindOf a = .classify (s.geometry.addressOf line) s.regionBorder := by
  obtain ⟨-, hline, -, -⟩ := h.of_maps hmaps
  rw [kindOf, hline, h.geometry_eq]

omit [Policy π] in
/-- What is reported of a line that leaves has the address of the line. -/
theorem WellFormed.lineOf_departure (h : s.WellFormed f) {index way : Nat} {block : Block}
    (hblock : block.WellFormed f index way) (hv : block.valid = true) :
    s.geometry.lineOf (s.departure index block).address = ⟨index, block.tag⟩ := by
  rw [Store.departure, h.geometry_eq]
  exact h.valid.lineOf_addressOf (hblock.has hv)

omit [Policy π] in
/-- What is reported of a line that leaves has the memory of the line. -/
theorem WellFormed.kindOf_departure (h : s.WellFormed f) {index way : Nat} {block : Block}
    (hblock : block.WellFormed f index way) (hv : block.valid = true) :
    s.kindOf (s.departure index block).address = block.kind := by
  rw [kindOf, h.lineOf_departure hblock hv, hblock.kind_eq hv, h.geometry_eq, h.regionBorder_eq]

theorem WellFormed.took_of_hit (h : s.WellFormed f) {lookup : Lookup}
    (hprobe : (Store.probe a access).outcome s = .ok (lookup, t)) (hhit : lookup.hit = true)
    (haddress : x.call.address = a) (hwrite : x.call.isWrite = access.isWrite)
    (houtcome : x.outcome? = lookup.way.map (.hit lookup.set)) :
    ∃ line set turn set', Took s x t line set turn set' := by
  obtain ⟨line, set, hmaps, ⟨way, policy, set', stats, hfind, hhook, -, rfl, rfl⟩ |
    ⟨stats, -, -, rfl, -⟩⟩ := probe_eq_ok_iff.1 hprobe
  · obtain ⟨-, -, -, hset⟩ := h.of_maps hmaps
    obtain ⟨block, hb, hholds⟩ := hset.find_eq_some_iff.1 hfind
    obtain ⟨hv, htag⟩ := Block.holds_iff.1 hholds
    subst haddress
    exact ⟨line, set, .hit way block access, set', hmaps, .hit hb hv hhook, rfl, houtcome, htag,
      h.kind_of_find hmaps hb hholds, hwrite.symm⟩
  · cases hhit

theorem WellFormed.took_of_fill (h : s.WellFormed f) {install : Install}
    (hfill : (Store.fill a access).outcome s = .ok (install, t))
    (haddress : x.call.address = a) (hwrite : x.call.isWrite = access.isWrite)
    (houtcome : x.outcome? = some (.arrival install)) :
    ∃ line set way victim set',
      Took s x t line set (.arrival way line.tag (s.kindOf a) access victim) set' := by
  obtain ⟨line, set, hmaps, -, way, policy₁, set₁, victim, policy₂, set₂, policy₃, set₃, stats,
    hchoose, hvacate, haccept, -, rfl, rfl⟩ := fill_eq_ok_iff.1 hfill
  rw [CacheSet.result_chooseWay, mapError_eq_ok_iff] at hchoose
  rw [← h.kindOf_eq hmaps] at haccept
  have hbring : set.bringIn s.policy line.tag (s.kindOf a) access =
      .ok (way, victim, policy₃, set₃) :=
    bind_eq_ok_iff.2 ⟨_, hchoose, bind_eq_ok_iff.2 ⟨_, hvacate, bind_eq_ok_iff.2 ⟨_, haccept, rfl⟩⟩⟩
  subst haddress
  exact ⟨line, set, way, victim, set₃, hmaps, .arrival hbring, rfl, houtcome, rfl, rfl,
    hwrite.symm⟩

/-- A line that is invalidated takes its block with it, or was absent. -/
theorem WellFormed.took_of_invalidate (h : s.WellFormed f) {evicted : Option Eviction}
    (hinvalidate : (Store.invalidate a).outcome s = .ok (evicted, t))
    (hcall : x.call = .invalidate a) (houtcome : x.outcome? = evicted.map .departure) :
    (evicted = none ∧ t = s) ∨ ∃ line set turn set', Took s x t line set turn set' := by
  obtain ⟨line, set, hmaps, ⟨-, rfl, rfl⟩ |
    ⟨way, victim, policy, set', hfind, hvacate, rfl, hstats⟩⟩ := invalidate_eq_ok_iff.1 hinvalidate
  · exact .inl ⟨rfl, rfl⟩
  · obtain ⟨-, -, -, hset⟩ := h.of_maps hmaps
    obtain ⟨block, hb, hholds⟩ := hset.find_eq_some_iff.1 hfind
    obtain ⟨found, hfound, ⟨-, rfl, -⟩ | ⟨hfree, -⟩⟩ := CacheSet.vacate_eq_ok_iff.1 hvacate
    · rw [hb] at hfound
      cases hfound
      have haddress : x.call.address = a := by rw [hcall, Call.address]
      have hwrite : x.call.isWrite = false := by rw [hcall, Call.isWrite]
      rcases hstats with ⟨stats, -, -, rfl⟩ | ⟨hnone, -⟩
      · subst haddress
        exact .inr ⟨line, set, .departure way block, set', hmaps, .departure hvacate, rfl, houtcome,
          (Block.holds_iff.1 hholds).2, h.kind_of_find hmaps hb hholds, hwrite.symm⟩
      · cases hnone
    · rw [hb] at hfound
      cases hfound
      rw [(Block.holds_iff.1 hholds).1] at hfree
      cases hfree

/-- A lookup that misses counts in the statistics and nowhere else. -/
theorem recounted_of_miss {lookup : Lookup} (hprobe : (Store.probe a access).outcome s = .ok (lookup, t))
    (hmiss : lookup.hit = false) : lookup.way = none ∧ ∃ stats, t = { s with stats } := by
  obtain ⟨line, set, -, ⟨_, _, _, _, -, -, -, rfl, -⟩ | ⟨stats, -, -, rfl, rfl⟩⟩ :=
    probe_eq_ok_iff.1 hprobe
  · cases hmiss
  · exact ⟨rfl, stats, rfl⟩

/-- A line comes in with the access of the call and the memory of its address. -/
theorem WellFormed.took_of_arrival (h : s.WellFormed f)
    (hrespond : s.respond call = .ok (answer, t)) {install : Install}
    (harrival : Exchange.outcome? ⟨call, answer⟩ = some (.arrival install)) :
    ∃ access line set way victim set', call.fetch? = some access ∧ Took s ⟨call, answer⟩ t line set
      (.arrival way line.tag (s.kindOf call.address) access victim) set' := by
  cases responds_of_respond hrespond with
  | probe _ | hit _ _ =>
    obtain ⟨_, -, hsame⟩ := Option.map_eq_some_iff.1 harrival
    cases hsame
  | invalidate _ =>
    obtain ⟨_, -, hsame⟩ := Option.map_eq_some_iff.1 harrival
    cases hsame
  | refused _ | missRefused _ _ _ => cases harrival
  | fill hfill =>
    obtain ⟨line, set, way, victim, set', htook⟩ :=
      h.took_of_fill (x := ⟨.fill _ _, .ok (.install _)⟩) hfill rfl rfl rfl
    exact ⟨_, line, set, way, victim, set', rfl, htook⟩
  | miss hprobe hmiss hfill =>
    obtain ⟨-, stats, rfl⟩ := recounted_of_miss hprobe hmiss
    obtain ⟨line, set, way, victim, set', htook⟩ := (h.recount stats).took_of_fill
      (x := ⟨.access _ _, .ok (.access ⟨_, some _⟩)⟩) hfill rfl rfl rfl
    exact ⟨_, line, set, way, victim, set', rfl, htook.maps, htook.takes, htook.sets_eq,
      htook.outcome_eq, htook.tag_eq, htook.kind_eq, htook.isWrite_eq⟩

/-- A call that is answered changes no set and tells of nothing, or one set takes a turn. -/
theorem WellFormed.respond_cases (h : s.WellFormed f)
    (hrespond : s.respond call = .ok (answer, t)) :
    (Exchange.outcome? ⟨call, answer⟩ = none ∧ t.sets = s.sets ∧ t.policy = s.policy) ∨
      ∃ line set turn set', Took s ⟨call, answer⟩ t line set turn set' := by
  have harrived : ∀ install, Exchange.outcome? ⟨call, answer⟩ = some (.arrival install) →
      ∃ line set turn set', Took s ⟨call, answer⟩ t line set turn set' := fun _ harrival =>
    have ⟨_, line, set, _, _, set', _, htook⟩ := h.took_of_arrival hrespond harrival
    ⟨line, set, _, set', htook⟩
  cases responds_of_respond hrespond with
  | probe hprobe =>
    rename_i a access lookup
    cases hhit : lookup.hit with
    | true => exact .inr (h.took_of_hit hprobe hhit rfl rfl rfl)
    | false =>
      obtain ⟨hway, stats, rfl⟩ := recounted_of_miss hprobe hhit
      refine .inl ⟨?_, rfl, rfl⟩
      simp [Exchange.outcome?, Except.toOption, Reply.outcome?, hway]
  | fill _ => exact .inr (harrived _ rfl)
  | hit hprobe hhit => exact .inr (h.took_of_hit hprobe hhit rfl rfl rfl)
  | miss _ _ _ => exact .inr (harrived _ rfl)
  | invalidate hinvalidate =>
    rcases h.took_of_invalidate (x := ⟨.invalidate _, .ok (.departure _)⟩) hinvalidate rfl rfl with
      ⟨rfl, rfl⟩ | htook
    · exact .inl ⟨rfl, rfl, rfl⟩
    · exact .inr htook
  | refused => exact .inl ⟨rfl, rfl, rfl⟩
  | missRefused hprobe hmiss _ =>
    obtain ⟨-, stats, rfl⟩ := recounted_of_miss hprobe hmiss
    exact .inl ⟨rfl, rfl, rfl⟩

/-- A line is hit only when it is looked up. -/
theorem call_of_hit (hrespond : s.respond call = .ok (answer, t)) {set way : Nat}
    (houtcome : Exchange.outcome? ⟨call, answer⟩ = some (.hit set way)) :
    ∃ address access, call = .probe address access ∨ call = .access address access := by
  cases responds_of_respond hrespond with
  | probe _ => exact ⟨_, _, .inl rfl⟩
  | hit _ _ | miss _ _ _ | missRefused _ _ _ => exact ⟨_, _, .inr rfl⟩
  | fill _ | refused _ => cases houtcome
  | invalidate _ =>
    obtain ⟨evicted, -, hsame⟩ := Option.map_eq_some_iff.1 houtcome
    cases hsame

/-- A line leaves on its own only when it is invalidated. -/
theorem call_of_departure (hrespond : s.respond call = .ok (answer, t)) {evicted : Eviction}
    (houtcome : Exchange.outcome? ⟨call, answer⟩ = some (.departure evicted)) :
    ∃ address, call = .invalidate address := by
  cases responds_of_respond hrespond with
  | invalidate _ => exact ⟨_, rfl⟩
  | probe _ | hit _ _ =>
    obtain ⟨way, -, hsame⟩ := Option.map_eq_some_iff.1 houtcome
    cases hsame
  | fill _ | miss _ _ _ | refused _ | missRefused _ _ _ => cases houtcome

end Store

end AssocCache
