import AssocCache.Proofs.Geometry
import AssocCache.Proofs.RecencyLists
import AssocCache.Proofs.Store.LeastRecentlyUsed
import Mathlib.Data.Finset.Card
import Mathlib.Data.List.Dedup

/-!
# Hits of a least recently used store

Whether an access hits is decided by the accesses before it: by how many different
blocks of its set were accessed since the last access to its own block.
-/

/-!
## Stack distances

What a recency list holds after accesses alone can be read off the accesses: the blocks
of its set without repetitions, the most recent ones first, as many of them as there are
ways (`RecencyLists.Recalls`).  So a block is resident if fewer other blocks of its set
than there are ways were accessed since its last access (`mem_recent_iff`).  This number
of blocks is called the stack distance of the access.
-/

namespace AssocCache

/-- The numbers of the blocks of memory that the addresses lie in, but only of those
blocks that belong to one set. -/
def Geometry.blocksIn (g : Geometry) (index : Nat) (addresses : List Nat) : List Nat :=
  ((addresses.filter (· < 2 ^ g.addressBits)).map (· / g.blockSize)).filter
    (· % g.numSets == index)

/-- The last blocks of a history without repetitions, the latest one first. -/
def recent (capacity : Nat) (history : List Nat) : List Nat :=
  history.reverse.eraseDups.take capacity

section Lists

variable {capacity x : Nat} {lines before after history : List Nat}

/-- Which of the repetitions are erased does not depend on the elements that are left
out. -/
theorem eraseDups_filter (p : Nat → Bool) (lines : List Nat) :
    (lines.filter p).eraseDups = lines.eraseDups.filter p := by
  induction hlength : lines.length using Nat.strong_induction_on generalizing lines with
  | _ length ih =>
    cases lines with
    | nil => rfl
    | cons x lines =>
      have hshort : (lines.filter (fun y => !y == x)).length < length := by
        have hle := List.length_filter_le (fun y => !y == x) lines
        rw [List.length_cons] at hlength
        omega
      have hrest := ih _ hshort (lines.filter fun y => !y == x) rfl
      rw [List.eraseDups_cons]
      by_cases hp : p x = true
      · rw [List.filter_cons_of_pos hp, List.filter_cons_of_pos hp, List.eraseDups_cons, ← hrest,
          List.filter_comm]
      · rw [List.filter_cons_of_neg hp, List.filter_cons_of_neg hp, ← hrest, List.filter_filter]
        congr 1
        refine List.filter_congr fun y _ => ?_
        by_cases hy : y = x
        · rw [hy, Bool.eq_false_of_not_eq_true hp]
          rfl
        · simp [hy]

theorem nodup_eraseDups (lines : List Nat) : lines.eraseDups.Nodup := by
  induction lines with
  | nil => exact List.nodup_nil
  | cons x lines ih =>
    rw [List.eraseDups_cons, eraseDups_filter, List.nodup_cons]
    exact ⟨fun hmem => by simpa using List.of_mem_filter hmem, ih.filter _⟩

theorem length_eraseDups (lines : List Nat) : lines.eraseDups.length = lines.toFinset.card := by
  have hsame : lines.eraseDups.toFinset = lines.toFinset := by
    ext x
    rw [List.mem_toFinset, List.mem_toFinset, List.mem_eraseDups]
  rw [← hsame, List.toFinset_card_of_nodup (nodup_eraseDups lines)]

/-- Of a list without repetitions, the lines up to one of them and those behind it stay in
their order when it is taken out. -/
theorem filter_take_succ (hnodup : lines.Nodup) {k : Nat} (hmem : x ∈ lines.take (k + 1)) :
    (lines.take (k + 1)).filter (· != x) = (lines.filter (· != x)).take k := by
  induction lines generalizing k with
  | nil => simp
  | cons y lines ih =>
    rw [List.nodup_cons] at hnodup
    rw [List.take_succ_cons] at hmem ⊢
    by_cases hy : y = x
    · subst hy
      have hnot : y ∉ lines.take k := fun h => hnodup.1 (List.mem_of_mem_take h)
      rw [List.filter_cons_of_neg (by simp), List.filter_cons_of_neg (by simp),
        filter_ne_of_not_mem hnot, filter_ne_of_not_mem hnodup.1]
    · have htail : x ∈ lines.take k := (List.mem_cons.1 hmem).resolve_left (Ne.symm hy)
      cases k with
      | zero => cases htail
      | succ k =>
        rw [List.filter_cons_of_pos (by simpa using hy),
          List.filter_cons_of_pos (by simpa using hy), List.take_succ_cons, ih hnodup.2 htail]

/-- Room for an absent line is made at the end. -/
theorem makeRoom_take_succ {k : Nat} (hmem : x ∉ lines.take (k + 1)) :
    (makeRoom (k + 1) (lines.take (k + 1))).2 = (lines.filter (· != x)).take k := by
  unfold makeRoom
  by_cases hshort : lines.length ≤ k
  · rw [List.take_of_length_le (by omega)] at hmem ⊢
    rw [if_pos (by omega), filter_ne_of_not_mem hmem, List.take_of_length_le hshort]
  · have hfull : (lines.take (k + 1)).length = k + 1 := by
      rw [List.length_take]
      omega
    have hfilter : lines.filter (· != x) =
        lines.take (k + 1) ++ (lines.drop (k + 1)).filter (· != x) := by
      conv_lhs => rw [← List.take_append_drop (k + 1) lines, List.filter_append,
        filter_ne_of_not_mem hmem]
    rw [if_neg (by omega), hfilter, List.take_append_of_le_length (by omega),
      List.dropLast_eq_take, hfull]
    rfl

/-- An access to a block makes it the latest one. -/
theorem touch_recent (hpos : 0 < capacity) (history : List Nat) (x : Nat) :
    touch capacity x (recent capacity history) = recent capacity (history ++ [x]) := by
  obtain ⟨k, rfl⟩ : ∃ k, capacity = k + 1 := ⟨capacity - 1, by omega⟩
  have hafter : recent (k + 1) (history ++ [x]) =
      x :: (history.reverse.eraseDups.filter (· != x)).take k := by
    rw [recent, List.reverse_append, List.reverse_singleton, List.singleton_append,
      List.eraseDups_cons, eraseDups_filter, List.take_succ_cons]
    rfl
  rw [hafter, recent]
  by_cases hmem : x ∈ history.reverse.eraseDups.take (k + 1)
  · rw [touch_of_mem hmem, filter_take_succ (nodup_eraseDups _) hmem]
  · rw [touch_of_not_mem hmem, makeRoom_take_succ hmem]

/-- A block is among the last ones if fewer different blocks came after it. -/
theorem mem_recent_iff (hafter : x ∉ after) :
    x ∈ recent capacity (before ++ x :: after) ↔ after.toFinset.card < capacity := by
  have hx : x ∉ after.reverse.eraseDups := by
    rw [List.mem_eraseDups, List.mem_reverse]
    exact hafter
  have hcard : after.reverse.eraseDups.length = after.toFinset.card := by
    rw [length_eraseDups, List.toFinset_reverse]
  have hcons : ∃ rest, ((x :: before.reverse).removeAll after.reverse).eraseDups = x :: rest := by
    have hkept : (x :: before.reverse).removeAll after.reverse =
        x :: before.reverse.removeAll after.reverse := by
      rw [List.removeAll, List.filter_cons_of_pos (by simpa using hafter)]
      rfl
    rw [hkept, List.eraseDups_cons]
    exact ⟨_, rfl⟩
  obtain ⟨rest, hrest⟩ := hcons
  rw [recent, List.reverse_append, List.reverse_cons, List.append_assoc, List.singleton_append,
    List.eraseDups_append, hrest, ← hcard, List.take_append, List.mem_append]
  constructor
  · intro hmem
    by_contra hge
    rw [Nat.sub_eq_zero_of_le (Nat.le_of_not_lt hge), List.take_zero] at hmem
    rcases hmem with hmem | hmem
    · exact hx (List.mem_of_mem_take hmem)
    · cases hmem
  · intro hlt
    obtain ⟨k, hk⟩ : ∃ k, capacity - after.reverse.eraseDups.length = k + 1 :=
      ⟨capacity - after.reverse.eraseDups.length - 1, by omega⟩
    rw [hk, List.take_succ_cons]
    exact Or.inr List.mem_cons_self

theorem touch_map {f : Nat → Nat} (hf : Function.Injective f) (capacity x : Nat)
    (lines : List Nat) : touch capacity (f x) (lines.map f) = (touch capacity x lines).map f := by
  by_cases hmem : x ∈ lines
  · have hne : (fun y => y != f x) ∘ f = fun y => y != x := by
      funext y
      simp [hf.eq_iff, bne]
    rw [touch_of_mem hmem, touch_of_mem ((List.mem_map_of_injective hf).2 hmem), List.filter_map,
      hne]
    rfl
  · rw [touch_of_not_mem hmem, touch_of_not_mem (mt (List.mem_map_of_injective hf).1 hmem),
      makeRoom_map]
    rfl

/-- Addresses among which some have a property, cut at the last one that has it. -/
theorem exists_last {p : Nat → Bool} {addresses : List Nat} {a : Nat} (hmem : a ∈ addresses)
    (ha : p a = true) :
    ∃ before latest after, addresses = before ++ latest :: after ∧ p latest = true ∧
      ∀ b ∈ after, p b = false := by
  have hsome : (addresses.reverse.find? p).isSome = true :=
    List.find?_isSome.2 ⟨a, List.mem_reverse.2 hmem, ha⟩
  obtain ⟨latest, hfind⟩ := Option.isSome_iff_exists.1 hsome
  obtain ⟨hlatest, after, before, hreverse, hnone⟩ := List.find?_eq_some_iff_append.1 hfind
  refine ⟨before.reverse, latest, after.reverse, ?_, hlatest, ?_⟩
  · rw [← List.reverse_reverse addresses, hreverse, List.reverse_append, List.reverse_cons,
      List.append_assoc, List.singleton_append]
  · intro b hb
    simpa using hnone b (List.mem_reverse.1 hb)

end Lists

namespace Geometry

variable {g : Geometry} {index a b : Nat} {addresses before after : List Nat}

theorem blocksIn_append (g : Geometry) (index : Nat) (before after : List Nat) :
    g.blocksIn index (before ++ after) = g.blocksIn index before ++ g.blocksIn index after := by
  rw [blocksIn, List.filter_append, List.map_append, List.filter_append]
  rfl

theorem mem_blocksIn {x : Nat} : x ∈ g.blocksIn index addresses ↔
    (∃ b ∈ addresses, b < 2 ^ g.addressBits ∧ b / g.blockSize = x) ∧ x % g.numSets = index := by
  simp [blocksIn, and_assoc]

theorem blocksIn_singleton (ha : a < 2 ^ g.addressBits) :
    g.blocksIn index [a] =
      if a / g.blockSize % g.numSets = index then [a / g.blockSize] else [] := by
  by_cases hindex : a / g.blockSize % g.numSets = index <;> simp [blocksIn, ha, hindex]

theorem blocksIn_of_outside (ha : 2 ^ g.addressBits ≤ a) : g.blocksIn index [a] = [] := by
  simp [blocksIn, Nat.not_lt.2 ha]

/-- Different blocks begin at different addresses. -/
theorem Valid.injective_address (hg : g.Valid) : Function.Injective (g.blockSize * ·) :=
  fun _ _ h => Nat.eq_of_mul_eq_mul_left hg.blockSize_pos h

/-- Whether a block is among the last ones of its set, told by the addresses. -/
theorem Valid.mem_recent_iff (hg : g.Valid) (ha : a < 2 ^ g.addressBits) :
    a / g.blockSize ∈ recent g.associativity
        (g.blocksIn (a / g.blockSize % g.numSets) addresses) ↔
      ∃ before latest after, addresses = before ++ latest :: after ∧
        latest / g.blockSize = a / g.blockSize ∧
        (∀ b ∈ after, b / g.blockSize ≠ a / g.blockSize) ∧
        (g.blocksIn (a / g.blockSize % g.numSets) after).toFinset.card < g.associativity := by
  -- Cut at an address of the block, the history of the set is cut at the block.
  have hcut : ∀ {before latest after}, addresses = before ++ latest :: after →
      latest / g.blockSize = a / g.blockSize →
      (∀ b ∈ after, b / g.blockSize ≠ a / g.blockSize) →
      (a / g.blockSize ∈ recent g.associativity
          (g.blocksIn (a / g.blockSize % g.numSets) addresses) ↔
        (g.blocksIn (a / g.blockSize % g.numSets) after).toFinset.card < g.associativity) := by
    intro before latest after haddresses hlatest hafter
    have hnot : a / g.blockSize ∉ g.blocksIn (a / g.blockSize % g.numSets) after := by
      intro hmem
      obtain ⟨⟨b, hb, -, hblock⟩, -⟩ := mem_blocksIn.1 hmem
      exact hafter b hb hblock
    have hsingle : g.blocksIn (a / g.blockSize % g.numSets) [latest] = [a / g.blockSize] := by
      rw [blocksIn_singleton (hg.lt_space_of_div_eq hlatest ha), hlatest, if_pos rfl]
    rw [haddresses, blocksIn_append, ← List.singleton_append, blocksIn_append, hsingle]
    exact AssocCache.mem_recent_iff hnot
  constructor
  · intro hmem
    have hseen : a / g.blockSize ∈ g.blocksIn (a / g.blockSize % g.numSets) addresses := by
      simpa [recent] using List.mem_of_mem_take hmem
    obtain ⟨⟨b, hb, -, hblock⟩, -⟩ := mem_blocksIn.1 hseen
    obtain ⟨before, latest, after, haddresses, hlatest, hafter⟩ :=
      exists_last (p := fun b => b / g.blockSize == a / g.blockSize) hb (by simpa using hblock)
    have hlatest' : latest / g.blockSize = a / g.blockSize := by simpa using hlatest
    have hafter' : ∀ b ∈ after, b / g.blockSize ≠ a / g.blockSize := by simpa using hafter
    exact ⟨before, latest, after, haddresses, hlatest', hafter',
      (hcut haddresses hlatest' hafter').1 hmem⟩
  · intro ⟨before, latest, after, haddresses, hlatest, hafter, hcard⟩
    exact (hcut haddresses hlatest hafter).2 hcard

end Geometry

namespace RecencyLists

/-- The lists hold the last blocks of the addresses. -/
def Recalls (m : RecencyLists) (addresses : List Nat) : Prop :=
  ∀ index, m.lines index =
    (recent m.geometry.associativity (m.geometry.blocksIn index addresses)).map
      (m.geometry.blockSize * ·)

namespace Recalls

variable {m : RecencyLists} {addresses : List Nat} {a : Nat}

theorem mem_lines_iff (h : m.Recalls addresses) (hg : m.geometry.Valid) :
    m.lineAddress a ∈ m.lines (m.setIndex a) ↔
      a / m.geometry.blockSize ∈ recent m.geometry.associativity
        (m.geometry.blocksIn (a / m.geometry.blockSize % m.geometry.numSets) addresses) := by
  rw [h]
  exact List.mem_map_of_injective hg.injective_address

theorem respond (h : m.Recalls addresses) (hg : m.geometry.Valid) (a : Nat) (kind : AccessKind) :
    (m.respond (.access a kind)).2.geometry = m.geometry ∧
      (m.respond (.access a kind)).2.Recalls (addresses ++ [a]) := by
  rcases Nat.lt_or_ge a (2 ^ m.geometry.addressBits) with ha | ha
  · obtain ⟨-, hgeometry, hlines⟩ := respond_access ha kind
    refine ⟨hgeometry, fun index => ?_⟩
    rw [hgeometry, hlines, Geometry.blocksIn_append, Geometry.blocksIn_singleton ha]
    rw [show a / m.geometry.blockSize % m.geometry.numSets = m.setIndex a from rfl]
    by_cases hindex : m.setIndex a = index
    · rw [← hindex, Function.update_self, h, lineAddress, touch_map hg.injective_address,
        touch_recent hg.associativity_pos, if_pos rfl]
    · rw [Function.update_of_ne (Ne.symm hindex), h, if_neg hindex, List.append_nil]
  · rw [respond_of_outside (.access a kind) ha]
    refine ⟨rfl, fun index => ?_⟩
    rw [Geometry.blocksIn_append, Geometry.blocksIn_of_outside ha, List.append_nil]
    exact h index

/-- Accesses are recalled, by induction on them. -/
theorem run (h : m.Recalls addresses) (hg : m.geometry.Valid)
    (accesses : List (Nat × AccessKind)) :
    (m.run (accesses.map fun (a, kind) => .access a kind)).2.geometry = m.geometry ∧
      (m.run (accesses.map fun (a, kind) => .access a kind)).2.Recalls
        (addresses ++ accesses.map Prod.fst) := by
  induction accesses generalizing m addresses with
  | nil =>
    rw [List.map_nil, List.map_nil, List.append_nil]
    exact ⟨rfl, h⟩
  | cons access accesses ih =>
    obtain ⟨hgeometry, hrecalls⟩ := h.respond hg access.1 access.2
    obtain ⟨hgeometry', hrecalls'⟩ := ih hrecalls (hgeometry ▸ hg)
    rw [List.append_assoc] at hrecalls'
    exact ⟨hgeometry'.trans hgeometry, hrecalls'⟩

end Recalls

end RecencyLists

/-! ## Hits -/

namespace RecencyLists

theorem run_cons (m : RecencyLists) (call : Call) (calls : List Call) :
    m.run (call :: calls) =
      ((m.respond call).1 :: ((m.respond call).2.run calls).1, ((m.respond call).2.run calls).2) :=
  rfl

theorem run_append (m : RecencyLists) (before after : List Call) :
    m.run (before ++ after) =
      ((m.run before).1 ++ ((m.run before).2.run after).1, ((m.run before).2.run after).2) := by
  induction before generalizing m with
  | nil => rfl
  | cons call before ih =>
    rw [List.cons_append, run_cons, run_cons, ih]
    rfl

/-- New lists recall that nothing was accessed. -/
theorem recalls_empty (g : Geometry) : (RecencyLists.empty g).Recalls [] := by
  intro index
  simp [lines, RecencyLists.empty, recent, Geometry.blocksIn]

end RecencyLists

namespace Store

variable {c : Config} {s : Store AnyPolicy}

/-- The answer to an access, told by its sight. -/
theorem exists_outcome_of_sight {answer : Except Refusal Reply} {hit : Bool}
    {evicted : Option Eviction} (h : answer.map Reply.sight = .ok (.access hit evicted)) :
    ∃ outcome : AccessOutcome, answer = .ok (.access outcome) ∧ outcome.hit = hit := by
  rcases answer with refusal | ⟨answer | answer | outcome | answer⟩
  case ok.access =>
    cases h
    exact ⟨outcome, rfl, rfl⟩
  all_goals cases h

/-- An access to an address of the address space, after any other accesses to a new
store of least recently used lines.  It hits if and only if an earlier access was to
its block and, since the latest such access, fewer different blocks of its set were
accessed than the set has ways.  Only a counter that leaves its range ends the run,
which takes at least `2 ^ 63` accesses. -/
theorem hit_iff_stack_distance_lt (hbuilt : (ofConfig c).result = .ok s)
    (hpolicy : c.policy = .lru) (accesses : List (Nat × AccessKind)) {a : Nat}
    (ha : a < 2 ^ s.geometry.addressBits) (kind : AccessKind) :
    (∃ history t outcome,
        run (accesses.map (fun (b, kind) => .access b kind) ++ [.access a kind]) s =
          .ok (history ++ [⟨.access a kind, .ok (.access outcome)⟩], t) ∧
        (outcome.hit = true ↔ ∃ before latest after,
          accesses.map Prod.fst = before ++ latest :: after ∧
          latest / s.geometry.blockSize = a / s.geometry.blockSize ∧
          (∀ b ∈ after, b / s.geometry.blockSize ≠ a / s.geometry.blockSize) ∧
          (s.geometry.blocksIn (a / s.geometry.blockSize % s.geometry.numSets)
            after).toFinset.card < s.geometry.associativity)) ∨
      2 ^ 63 ≤ accesses.length + 1 ∧
        run (accesses.map (fun (b, kind) => .access b kind) ++ [.access a kind]) s =
          .error (.overflow .add) := by
  have hvalid : s.geometry.Valid := (wellFormed_of_ofConfig hbuilt).2.valid
  rcases run_lru_of_ofConfig hbuilt hpolicy
    (accesses.map (fun (b, kind) => .access b kind) ++ [.access a kind]) with
    ⟨history, t, hrun, hanswers, -⟩ | ⟨hlong, hrun⟩
  · obtain ⟨earlier, u, later, -, hlast, rfl⟩ := (run_append _ _ _ _ _).1 hrun
    obtain ⟨answer, v, rest, -, hnil, rfl⟩ := run_cons_eq_ok_iff.1 hlast
    cases hnil
    -- The lists before the last access are those of the accesses before it.
    obtain ⟨hgeometry, hrecalls⟩ := (RecencyLists.recalls_empty s.geometry).run hvalid accesses
    rw [List.nil_append] at hrecalls
    rw [RecencyLists.run_append, List.map_append] at hanswers
    obtain ⟨-, hanswer⟩ := List.append_inj' hanswers rfl
    generalize ((RecencyLists.empty s.geometry).run
      (accesses.map fun (b, kind) => .access b kind)).2 = m at hgeometry hrecalls hanswer
    replace hgeometry : m.geometry = s.geometry := hgeometry
    obtain ⟨⟨evicted, hsight⟩, -⟩ :=
      RecencyLists.respond_access (m := m) (a := a) (by rw [hgeometry]; exact ha) kind
    have hlookup : answer.map Reply.sight = (m.respond (.access a kind)).1 :=
      (List.cons.inj hanswer).1
    obtain ⟨outcome, rfl, hhit⟩ := exists_outcome_of_sight (hlookup.trans hsight)
    refine Or.inl ⟨earlier, t, outcome, hrun, ?_⟩
    rw [hhit, decide_eq_true_iff, hrecalls.mem_lines_iff (hgeometry ▸ hvalid), hgeometry]
    exact hvalid.mem_recent_iff ha
  · rw [List.length_append, List.length_map] at hlong
    exact Or.inr ⟨hlong, hrun⟩

/-- One set of two ways.  One other block was accessed since the last access to block
0, which is accessed by two of its addresses. -/
theorem hit_iff_stack_distance_lt_of_three_blocks :
    ∃ s history t outcome,
      (ofConfig { Config.ofShape .lru 128 64 2 with addressBits := 32 }).result = .ok s ∧
      run [.access 64 .read, .access 0 .write, .access 130 .read, .access 128 .write,
        .access 4 .read] s = .ok (history ++ [⟨.access 4 .read, .ok (.access outcome)⟩], t) ∧
      outcome.hit = true := by
  obtain ⟨s, hbuilt, hgeometry⟩ : ∃ s, (ofConfig { Config.ofShape .lru 128 64 2 with
      addressBits := 32 }).result = .ok s ∧ s.geometry = ⟨128, 64, 2, 1, 6, 0, 32, 1⟩ :=
    ⟨_, rfl, rfl⟩
  have ha : 4 < 2 ^ s.geometry.addressBits := by
    rw [hgeometry]
    decide
  rcases hit_iff_stack_distance_lt hbuilt rfl
    [(64, .read), (0, .write), (130, .read), (128, .write)] ha .read with
    ⟨history, t, outcome, hrun, hhit⟩ | ⟨hlong, -⟩
  · refine ⟨s, history, t, outcome, hbuilt, hrun, hhit.2 ⟨[64], 0, [130, 128], rfl, ?_⟩⟩
    rw [hgeometry]
    decide
  · exact absurd hlong (by decide)

end Store

end AssocCache
