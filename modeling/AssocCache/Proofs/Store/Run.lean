import AssocCache.Proofs.Store.WellFormed

/-!
# Runs of a store

A run answers one call after the other.  A refusal is an answer like any other,
and the store goes on as before.  A fault ends the run.

* `Store.respond` answers one call, and `Responds` lists the ways it can do so.
* `Store.run` answers a list of calls, and collects them with their answers in a
  history (`run_append`).

`WellFormed.run` keeps the invariant along a run, so each store that a run reaches
from a fresh one represents its lines faithfully.
-/

namespace AssocCache

open Success

/-- A call and the answer it got. -/
structure Exchange where
  call : Call
  answer : Except Refusal Reply

namespace Store

variable {π : Type} [Policy π] {f : Frame} {s t u : Store π} {call : Call} {calls : List Call}
  {answer : Except Refusal Reply} {history : List Exchange}

/-- The answer to a call, and the store after it. -/
def respond (s : Store π) (call : Call) : Except Fault (Except Refusal Reply × Store π) :=
  match (serve call).step s with
  | (.ok reply, s) => .ok (.ok reply, s)
  | (.error (.refused refusal), s) => .ok (.error refusal, s)
  | (.error (.aborted fault), _) => .error fault

/-- The history of a list of calls, and the store after it. -/
def run : List Call → Store π → Except Fault (List Exchange × Store π)
  | [], s => .ok ([], s)
  | call :: calls, s => do
    let (answer, s) ← s.respond call
    let (history, s) ← run calls s
    pure (⟨call, answer⟩ :: history, s)

/-- The ways in which a store can answer a call. -/
inductive Responds : Store π → Call → Except Refusal Reply → Store π → Prop where
  | probe {s t : Store π} {a : Nat} {kind : AccessKind} {lookup : Lookup}
      (hprobe : (probe a kind).outcome s = .ok (lookup, t)) :
      Responds s (.probe a kind) (.ok (.lookup lookup)) t
  | fill {s t : Store π} {a : Nat} {kind : AccessKind} {install : Install}
      (hfill : (fill a kind).outcome s = .ok (install, t)) :
      Responds s (.fill a kind) (.ok (.install install)) t
  | hit {s t : Store π} {a : Nat} {kind : AccessKind} {lookup : Lookup}
      (hprobe : (probe a kind).outcome s = .ok (lookup, t)) (hhit : lookup.hit = true) :
      Responds s (.access a kind) (.ok (.access ⟨lookup, none⟩)) t
  | miss {s t u : Store π} {a : Nat} {kind : AccessKind} {lookup : Lookup} {install : Install}
      (hprobe : (probe a kind).outcome s = .ok (lookup, u)) (hmiss : lookup.hit = false)
      (hfill : (fill a kind).outcome u = .ok (install, t)) :
      Responds s (.access a kind) (.ok (.access ⟨lookup, some install⟩)) t
  | invalidate {s t : Store π} {a : Nat} {evicted : Option Eviction}
      (hinvalidate : (invalidate a).outcome s = .ok (evicted, t)) :
      Responds s (.invalidate a) (.ok (.departure evicted)) t
  | refused {s : Store π} {call : Call} (refusal : Refusal) :
      Responds s call (.error refusal) s
  | missRefused {s t : Store π} {a : Nat} {kind : AccessKind} {lookup : Lookup} {refusal : Refusal}
      (hprobe : (probe a kind).outcome s = .ok (lookup, t)) (hmiss : lookup.hit = false)
      (hfill : (fill a kind).outcome t = .error (.refused refusal)) :
      Responds s (.access a kind) (.error refusal) t

theorem respond_eq_ok_iff :
    s.respond call = .ok (answer, t) ↔
      (serve call).step s = (answer.mapError .refused, t) := by
  unfold respond
  rcases (serve call).step s with ⟨_ | reply, u⟩
  · rename_i failure
    cases failure <;> cases answer <;> simp
  · cases answer <;> simp

section Single

variable {α : Type} {x : Action Failure (Store π) α} {reply : α → Reply}

omit [Policy π] in
/-- What a single operation has done when its answer is known, if its refusals have changed
nothing. -/
theorem reply_cases
    (hrefused : ∀ refusal, x.outcome s = .error (.refused refusal) →
      x.step s = (.error (.refused refusal), s))
    (h : (do pure (reply (← x)) : Action Failure (Store π) Reply).step s =
      (answer.mapError .refused, t)) :
    (∃ a, answer = .ok (reply a) ∧ x.outcome s = .ok (a, t)) ∨
      ∃ refusal, answer = .error refusal ∧ t = s ∧ x.outcome s = .error (.refused refusal) := by
  rw [Action.step_bind] at h
  rcases hstep : x.step s with ⟨failure | a, u⟩
  · rw [hstep] at h
    cases answer with
    | ok reply => cases h
    | error refusal =>
      cases h
      have houtcome := Action.outcome_eq_error_iff.2 ⟨t, hstep⟩
      cases (hrefused refusal houtcome).symm.trans hstep
      exact Or.inr ⟨refusal, rfl, rfl, houtcome⟩
  · rw [hstep] at h
    cases answer with
    | error refusal => cases h
    | ok reply =>
      cases h
      exact Or.inl ⟨a, rfl, Action.outcome_eq_ok_iff.2 hstep⟩

/-- A call with a single operation is answered as the operation ends. -/
theorem respond_of_ok {a : α} (hserve : serve call = do pure (reply (← x)))
    (houtcome : x.outcome s = .ok (a, t)) : s.respond call = .ok (.ok (reply a), t) := by
  rw [respond_eq_ok_iff, hserve, Action.step_bind, Action.outcome_eq_ok_iff.1 houtcome]
  rfl

theorem respond_of_refused {refusal : Refusal} (hserve : serve call = do pure (reply (← x)))
    (hstep : x.step s = (.error (.refused refusal), s)) :
    s.respond call = .ok (.error refusal, s) := by
  rw [respond_eq_ok_iff, hserve, Action.step_bind, hstep]
  rfl

/-- A single operation that can only fault is answered as the same steps are. -/
theorem respond_of_aborted {y : Except Fault (α × Store π)}
    (hserve : serve call = do pure (reply (← x))) (houtcome : x.outcome s = y.mapError .aborted) :
    s.respond call = y >>= fun (a, t) => pure (.ok (reply a), t) := by
  cases y with
  | ok answer => exact respond_of_ok hserve houtcome
  | error fault =>
    obtain ⟨t, hstep⟩ := Action.outcome_eq_error_iff.1 houtcome
    rw [respond, hserve, Action.step_bind, hstep]
    rfl

end Single

/-- An access is answered as its probe and, on a miss, its fill end. -/
theorem respond_access (s : Store π) (a : Nat) (kind : AccessKind) :
    s.respond (.access a kind) =
      match (probe a kind).outcome s with
      | .error (.refused refusal) => .ok (.error refusal, s)
      | .error (.aborted fault) => .error fault
      | .ok (lookup, u) =>
        if lookup.hit then .ok (.ok (.access ⟨lookup, none⟩), u)
        else
          match (fill a kind).outcome u with
          | .error (.refused refusal) => .ok (.error refusal, u)
          | .error (.aborted fault) => .error fault
          | .ok (install, t) => .ok (.ok (.access ⟨lookup, some install⟩), t) := by
  simp only [respond, serve, access, Action.step_bind]
  rcases hprobe : (probe a kind).step s with ⟨failure | lookup, u⟩
  · have houtcome := Action.outcome_eq_error_iff.2 ⟨u, hprobe⟩
    rw [houtcome]
    cases failure with
    | aborted fault => rfl
    | refused refusal =>
      cases (step_probe_of_refused houtcome).symm.trans hprobe
      rfl
  · rw [Action.outcome_eq_ok_iff.2 hprobe]
    dsimp only
    cases hhit : lookup.hit with
    | true => rfl
    | false =>
      simp only [Bool.false_eq_true, if_false, Action.step_bind]
      rcases hfill : (fill a kind).step u with ⟨failure | install, t⟩
      · have houtcome := Action.outcome_eq_error_iff.2 ⟨t, hfill⟩
        rw [houtcome]
        cases failure with
        | aborted fault => rfl
        | refused refusal =>
          cases (step_fill_of_refused houtcome).symm.trans hfill
          rfl
      · rw [Action.outcome_eq_ok_iff.2 hfill]
        rfl

theorem responds_of_respond (h : s.respond call = .ok (answer, t)) : Responds s call answer t := by
  cases call with
  | probe a kind =>
    rw [respond_eq_ok_iff] at h
    rcases reply_cases (fun _ => step_probe_of_refused) h with ⟨lookup, rfl, hprobe⟩ | ⟨refusal, rfl, rfl, -⟩
    · exact .probe hprobe
    · exact .refused refusal
  | fill a kind =>
    rw [respond_eq_ok_iff] at h
    rcases reply_cases (fun _ => step_fill_of_refused) h with ⟨install, rfl, hfill⟩ | ⟨refusal, rfl, rfl, -⟩
    · exact .fill hfill
    · exact .refused refusal
  | invalidate a =>
    rw [respond_eq_ok_iff] at h
    rcases reply_cases (fun _ => step_invalidate_of_refused) h with
      ⟨evicted, rfl, hinvalidate⟩ | ⟨refusal, rfl, rfl, -⟩
    · exact .invalidate hinvalidate
    · exact .refused refusal
  | access a kind =>
    rw [respond_access] at h
    split at h
    · cases h
      exact .refused _
    · cases h
    · rename_i lookup u hprobe
      split at h
      · rename_i hhit
        cases h
        exact .hit hprobe hhit
      · rename_i hmiss
        split at h
        · rename_i refusal hfill
          cases h
          exact .missRefused hprobe (Bool.eq_false_of_not_eq_true hmiss) hfill
        · cases h
        · rename_i install v hfill
          cases h
          exact .miss hprobe (Bool.eq_false_of_not_eq_true hmiss) hfill

/-! ## Runs -/

@[simp] theorem run_nil (s : Store π) : run [] s = .ok ([], s) := rfl

theorem run_cons_eq_ok_iff :
    run (call :: calls) s = .ok (history, t) ↔
      ∃ answer u later, s.respond call = .ok (answer, u) ∧ run calls u = .ok (later, t) ∧
        history = ⟨call, answer⟩ :: later := by
  simp only [run, bind_eq_ok_iff, pure_eq_ok_iff, Prod.exists, Prod.mk.injEq]
  constructor
  · intro ⟨answer, u, hrespond, later, v, hrun, hhistory, hstore⟩
    subst hstore
    exact ⟨answer, u, later, hrespond, hrun, hhistory.symm⟩
  · intro ⟨answer, u, later, hrespond, hrun, hhistory⟩
    exact ⟨answer, u, hrespond, later, t, hrun, hhistory.symm, rfl⟩

/-- A run of two lists of calls is a run of one after a run of the other. -/
theorem run_append (before after : List Call) (s t : Store π) (history : List Exchange) :
    run (before ++ after) s = .ok (history, t) ↔
      ∃ earlier u later, run before s = .ok (earlier, u) ∧ run after u = .ok (later, t) ∧
        history = earlier ++ later := by
  induction before generalizing s history with
  | nil =>
    rw [List.nil_append]
    constructor
    · intro h
      exact ⟨[], s, history, rfl, h, rfl⟩
    · intro ⟨earlier, u, later, hbefore, hafter, hhistory⟩
      cases hbefore
      rw [hhistory, List.nil_append]
      exact hafter
  | cons call before ih =>
    rw [List.cons_append, run_cons_eq_ok_iff]
    constructor
    · intro ⟨answer, u, rest, hrespond, hrun, hhistory⟩
      obtain ⟨earlier, v, later, hbefore, hafter, hrest⟩ := (ih u rest).1 hrun
      refine ⟨⟨call, answer⟩ :: earlier, v, later, ?_, hafter, ?_⟩
      · exact run_cons_eq_ok_iff.2 ⟨answer, u, earlier, hrespond, hbefore, rfl⟩
      · rw [hhistory, hrest, List.cons_append]
    · intro ⟨earlier, v, later, hbefore, hafter, hhistory⟩
      obtain ⟨answer, u, rest, hrespond, hrun, hearlier⟩ := run_cons_eq_ok_iff.1 hbefore
      refine ⟨answer, u, rest ++ later, hrespond, ?_, ?_⟩
      · exact (ih u (rest ++ later)).2 ⟨rest, v, later, hrun, hafter, rfl⟩
      · rw [hhistory, hearlier, List.cons_append]

/-- A history has an answer for each of the calls, in their order. -/
theorem calls_of_run (hrun : run calls s = .ok (history, t)) :
    history.map Exchange.call = calls := by
  induction calls generalizing s history with
  | nil =>
    cases hrun
    rfl
  | cons call calls ih =>
    obtain ⟨answer, u, later, -, hrest, rfl⟩ := run_cons_eq_ok_iff.1 hrun
    rw [List.map_cons, ih hrest]

/-! ## The invariant along a run -/

variable [Policy.Tame π]

theorem WellFormed.respond (h : s.WellFormed f) (hrespond : s.respond call = .ok (answer, t)) :
    t.WellFormed f := by
  cases responds_of_respond hrespond with
  | probe hprobe => exact (h.probe hprobe).1
  | fill hfill => exact (h.fill hfill).1
  | hit hprobe _ => exact (h.probe hprobe).1
  | miss hprobe _ hfill => exact ((h.probe hprobe).1.fill hfill).1
  | invalidate hinvalidate => exact (h.invalidate hinvalidate).1
  | refused => exact h
  | missRefused hprobe _ _ => exact (h.probe hprobe).1

/-- The invariant of a run, by induction on the calls. -/
theorem WellFormed.run (h : s.WellFormed f) (hrun : Store.run calls s = .ok (history, t)) :
    t.WellFormed f := by
  induction calls generalizing s history with
  | nil =>
    cases hrun
    exact h
  | cons call calls ih =>
    obtain ⟨answer, u, later, hrespond, hrest, -⟩ := run_cons_eq_ok_iff.1 hrun
    exact ih (h.respond hrespond) hrest

/-- A store that a configuration describes starts well-formed. -/
theorem wellFormed_of_ofConfig {c : Config} {random : UInt64 → Random.Generator}
    {s : Store AnyPolicy} (hbuilt : (ofConfig c random).result = .ok s) :
    c.geometry = .ok s.geometry ∧
      s.WellFormed ⟨s.geometry, c.regionBorder.map UInt64.toNat,
        decide (c.policy = .fullyAssociativeLru)⟩ := by
  obtain ⟨geometry, policy, hgeometry, hpolicy, hcreate⟩ := ofConfig_eq_ok_iff.1 hbuilt
  obtain ⟨hshape, hwell⟩ := wellFormed_of_create hcreate
  rw [frameOf, fullyAssociative_ofConfig hpolicy] at hwell
  exact ⟨hshape, hwell⟩

/-- In every store that calls lead to, each set has its blocks in their places, no
line twice, clean blocks where no line is, lines that the address space maps to
the set, a stack of all ways, and a tag index, if any, that agrees with a scan. -/
theorem representation_of_run {c : Config} {s₀ s : Store AnyPolicy} {calls : List Call}
    {history : List Exchange} (hbuilt : (ofConfig c).result = .ok s₀)
    (hrun : run calls s₀ = .ok (history, s)) :
    c.geometry = .ok s.geometry ∧ s.sets.size = s.geometry.numSets ∧
      s.regionBorder = c.regionBorder.map UInt64.toNat ∧
      ∀ (index : Nat) (set : CacheSet), s.sets[index]? = some set →
        set.blocks.length = s.geometry.associativity ∧
        (∀ (way : Nat) (block : Block), set.blocks[way]? = some block →
          block.setIndex = index ∧ block.wayIndex = way ∧
          (block.valid = false → block.dirty = false) ∧
          (block.valid = true → ∃ address,
            s.geometry.addressOf? ⟨index, block.tag⟩ = .ok address ∧
            s.geometry.locate address = .ok ⟨index, block.tag⟩ ∧
            block.kind = .classify address s.regionBorder)) ∧
        (∀ (way way' : Nat) (block block' : Block), set.blocks[way]? = some block →
          set.blocks[way']? = some block' → block.valid = true → block'.valid = true →
          block.tag = block'.tag → way = way') ∧
        set.stack.Perm (List.range s.geometry.associativity) ∧
        set.tagIndex.isSome = decide (c.policy = .fullyAssociativeLru) ∧
        ∀ tagIndex ∈ set.tagIndex, ∀ tag : Nat,
          tagIndex[tag]? = set.scan tag ∧
          ∀ way : Nat, tagIndex[tag]? = some way ↔
            ∃ block, set.blocks[way]? = some block ∧ block.valid = true ∧ block.tag = tag := by
  obtain ⟨hshape, hfresh⟩ := wellFormed_of_ofConfig hbuilt
  have h := hfresh.run hrun
  have hgeometry : s.geometry = s₀.geometry := h.geometry_eq
  have hborder : s.regionBorder = c.regionBorder.map UInt64.toNat := h.regionBorder_eq
  rw [hgeometry, hborder]
  refine ⟨hshape, h.size_sets, rfl, fun index set hset => ?_⟩
  have hwell := h.sets hset
  refine ⟨hwell.length_blocks, ?_, ?_, hwell.stack_perm, hwell.indexed, ?_⟩
  · intro way block hb
    have hblock := hwell.blocks hb
    refine ⟨hblock.setIndex_eq, hblock.wayIndex_eq, hblock.clean, fun hv => ?_⟩
    have hhas := hblock.has hv
    refine ⟨_, h.valid.addressOf?_eq _, ?_, hblock.kind_eq hv⟩
    rw [h.valid.locate_addressOf hhas, h.valid.lineOf_addressOf hhas]
  · intro way way' block block' hb hb' hv hv' htag
    have hcarries : set.Carries way block.tag := ⟨block, hb, Block.holds_iff.2 ⟨hv, rfl⟩⟩
    have hcarries' : set.Carries way' block.tag := ⟨block', hb', Block.holds_iff.2 ⟨hv', htag.symm⟩⟩
    exact hwell.unique hcarries hcarries'
  · intro tagIndex htagIndex tag
    have hmirrors := hwell.mirrors tagIndex htagIndex tag
    refine ⟨?_, fun way => ?_⟩
    · ext way
      rw [hmirrors, hwell.scan_eq_some_iff]
    · rw [hmirrors, CacheSet.Carries]
      simp only [Block.holds_iff]

/-- Two sets of two ways.  The calls fill both, evict from one and invalidate in the
other. -/
theorem representation_of_mixed_calls :
    ∃ s₀ history s,
      (ofConfig { Config.ofShape .lru 256 64 2 with addressBits := 32 }).result = .ok s₀ ∧
      run [.fill 0 .write, .access 64 .read, .fill 128 .read, .access 256 .write,
        .invalidate 64] s₀ = .ok (history, s) ∧
      ∀ (index : Nat) (set : CacheSet), s.sets[index]? = some set →
        set.stack.Perm (List.range s.geometry.associativity) := by
  obtain ⟨s₀, history, s, hbuilt, hrun⟩ : ∃ s₀ history s,
      (ofConfig { Config.ofShape .lru 256 64 2 with addressBits := 32 }).result = .ok s₀ ∧
      run [.fill 0 .write, .access 64 .read, .fill 128 .read, .access 256 .write,
        .invalidate 64] s₀ = .ok (history, s) := ⟨_, _, _, rfl, rfl⟩
  refine ⟨s₀, history, s, hbuilt, hrun, fun index set hset => ?_⟩
  have hsets := (representation_of_run hbuilt hrun).2.2.2
  exact (hsets index set hset).2.2.2.1

end Store

end AssocCache
