import AssocCache.Proofs.Store.Accesses
import AssocCache.Proofs.Store.Service

/-!
# Refused calls

A store refuses a call for one of two reasons: the address is outside the address space,
or a line is to be filled in that is resident (`Store.WellFormed.refused_iff`).  The
second reason is told from the blocks themselves (`Store.IsResident`), whichever way a
set finds its lines.

A call that is refused leaves the store as it was (`Store.WellFormed.of_refused`).  This
is plain for an operation that is a single step.  An access is two of them, and could be
stopped between them.  But its second step is a fill of a line that was just missed, and
such a fill is never refused.
-/

namespace AssocCache

open Success

namespace Store

variable {π : Type} {f : Frame} {s t : Store π} {a : Nat} {kind : AccessKind} {call : Call}
  {line : Line} {set : CacheSet} {refusal : Refusal}

/-- Some valid block carries the line of the address, that is, its own address lies in the
same block of memory. -/
def IsResident (s : Store π) (address : Nat) : Prop :=
  ∃ index way block, s.block? index way = some block ∧ block.valid = true ∧
    s.geometry.addressOf ⟨index, block.tag⟩ / s.geometry.blockSize =
      address / s.geometry.blockSize

theorem block?_eq_some_iff {index way : Nat} {block : Block} :
    s.block? index way = some block ↔
      ∃ set, s.sets[index]? = some set ∧ set.blocks[way]? = some block := by
  rw [block?, Option.bind_eq_some_iff]

/-- A set finds the lines that its blocks carry, and no others. -/
theorem WellFormed.isResident_iff (h : s.WellFormed f) (hmaps : s.Maps a line set) :
    s.IsResident a ↔ (set.find line.tag).isSome = true := by
  obtain ⟨-, rfl, hhas, hset⟩ := h.of_maps hmaps
  unfold IsResident
  rw [h.geometry_eq]
  constructor
  · rintro ⟨index, way, block, hblock, hvalid, hsame⟩
    obtain ⟨set', hset', hb⟩ := block?_eq_some_iff.1 hblock
    have hcarried := ((h.sets hset').blocks hb).has hvalid
    rw [← h.valid.lineOf_eq_iff, h.valid.lineOf_addressOf hcarried] at hsame
    rw [← hsame] at hmaps ⊢
    obtain rfl : set' = set := Option.some.inj (hset'.symm.trans hmaps.2)
    rw [(h.sets hset').find_eq_some_iff.2 ⟨block, hb, Block.holds_iff.2 ⟨hvalid, rfl⟩⟩]
    rfl
  · intro hfound
    obtain ⟨way, hfind⟩ := Option.isSome_iff_exists.1 hfound
    obtain ⟨block, hb, hholds⟩ := hset.find_eq_some_iff.1 hfind
    obtain ⟨hvalid, htag⟩ := Block.holds_iff.1 hholds
    refine ⟨_, way, block, block?_eq_some_iff.2 ⟨set, hmaps.2, hb⟩, hvalid, ?_⟩
    rw [htag, ← h.valid.lineOf_eq_iff, h.valid.lineOf_addressOf hhas]

variable [Policy π]

/-- An access is not refused: a line that its probe misses is not refused room. -/
theorem respond_access_ne_refused (hmaps : s.Maps a line set) (refusal : Refusal) (t : Store π) :
    s.respond (.access a kind) ≠ .ok (.error refusal, t) := by
  rw [respond_access]
  intro h
  split at h
  · rename_i refused hprobe
    exact probe_ne_refused hmaps refused hprobe
  · cases h
  · rename_i lookup u hprobe
    split at h
    · cases h
    · rename_i hmiss
      obtain ⟨line', set', hmaps', hfind⟩ :=
        maps_of_miss hprobe (Bool.eq_false_of_not_eq_true hmiss)
      split at h
      · rename_i refused hfill
        exact fill_ne_refused hmaps' hfind refused hfill
      · cases h
      · cases h

namespace WellFormed

theorem respond_of_outside (h : s.WellFormed f)
    (houtside : 2 ^ f.geometry.addressBits ≤ call.address) :
    s.respond call =
      .ok (.error (.addressOutOfRange call.address f.geometry.addressBits), s) := by
  have hlocate := Geometry.locate_of_le houtside
  rw [← h.geometry_eq] at hlocate ⊢
  cases call with
  | probe a kind => exact respond_of_refused rfl (step_probe_of_refused (probe_of_outside hlocate))
  | fill a kind => exact respond_of_refused rfl (step_fill_of_refused (fill_of_outside hlocate))
  | invalidate a => exact respond_of_refused rfl (step_invalidate_of_refused (invalidate_of_outside hlocate))
  | access a kind =>
    have hprobe : (Store.probe a kind).outcome s = _ := probe_of_outside hlocate
    rw [respond_access, hprobe]

theorem respond_fill_of_resident (h : s.WellFormed f) (ha : a < 2 ^ f.geometry.addressBits)
    (hresident : s.IsResident a) :
    s.respond (.fill a kind) = .ok (.error (.alreadyResident a), s) := by
  rcases h.maps_cases a with ⟨-, set, hmaps⟩ | ⟨houtside, -⟩
  · exact respond_of_refused rfl
      (step_fill_of_resident hmaps ((h.isResident_iff hmaps).1 hresident))
  · omega

/-- Why a call is refused, and what is left of it. -/
theorem of_refused (h : s.WellFormed f) (hrespond : s.respond call = .ok (.error refusal, t)) :
    t = s ∧
      (2 ^ f.geometry.addressBits ≤ call.address ∧
          refusal = .addressOutOfRange call.address f.geometry.addressBits ∨
        call.address < 2 ^ f.geometry.addressBits ∧ s.IsResident call.address ∧
          (∃ kind, call = .fill call.address kind) ∧ refusal = .alreadyResident call.address) := by
  rcases h.maps_cases call.address with ⟨ha, set, hmaps⟩ | ⟨houtside, -⟩
  · cases call with
    | probe a kind =>
      rcases reply_cases (fun _ => step_probe_of_refused) (respond_eq_ok_iff.1 hrespond) with
        ⟨lookup, hanswer, -⟩ | ⟨refused, -, -, hprobe⟩
      · cases hanswer
      · exact absurd hprobe (probe_ne_refused hmaps refused)
    | invalidate a =>
      rcases reply_cases (fun _ => step_invalidate_of_refused) (respond_eq_ok_iff.1 hrespond) with
        ⟨evicted, hanswer, -⟩ | ⟨refused, -, -, hinvalidate⟩
      · cases hanswer
      · exact absurd hinvalidate (invalidate_ne_refused hmaps refused)
    | access a kind => exact absurd hrespond (respond_access_ne_refused hmaps refusal t)
    | fill a kind =>
      cases hfind : (set.find (f.geometry.lineOf a).tag).isSome with
      | true =>
        have hresident := (h.isResident_iff hmaps).2 hfind
        have hanswer : s.respond (.fill a kind) = _ := h.respond_fill_of_resident ha hresident
        rw [hanswer] at hrespond
        cases hrespond
        exact ⟨rfl, .inr ⟨ha, hresident, ⟨kind, rfl⟩, rfl⟩⟩
      | false =>
        rcases reply_cases (fun _ => step_fill_of_refused) (respond_eq_ok_iff.1 hrespond) with
          ⟨install, hanswer, -⟩ | ⟨refused, -, -, hfill⟩
        · cases hanswer
        · have habsent : set.find (f.geometry.lineOf a).tag = none := by
            simpa using hfind
          exact absurd hfill (fill_ne_refused hmaps habsent refused)
  · rw [h.respond_of_outside houtside] at hrespond
    cases hrespond
    exact ⟨rfl, .inl ⟨houtside, rfl⟩⟩

/-- The calls that are refused. -/
theorem refused_iff (h : s.WellFormed f) :
    (∃ refusal t, s.respond call = .ok (.error refusal, t)) ↔
      2 ^ f.geometry.addressBits ≤ call.address ∨
        (∃ kind, call = .fill call.address kind) ∧ s.IsResident call.address := by
  constructor
  · rintro ⟨refusal, t, hrespond⟩
    rcases (h.of_refused hrespond).2 with ⟨houtside, -⟩ | ⟨-, hresident, hfill, -⟩
    · exact .inl houtside
    · exact .inr ⟨hfill, hresident⟩
  · intro hreason
    rcases Nat.lt_or_ge call.address (2 ^ f.geometry.addressBits) with ha | houtside
    · rcases hreason with houtside | ⟨⟨kind, hfill⟩, hresident⟩
      · omega
      · rw [hfill]
        exact ⟨_, s, h.respond_fill_of_resident ha hresident⟩
    · exact ⟨_, s, h.respond_of_outside houtside⟩

/-- A probe that misses counts the miss, and does nothing else. -/
theorem of_probe (h : s.WellFormed f) {lookup : Lookup}
    (hprobe : (Store.probe a kind).outcome s = .ok (lookup, t)) :
    (lookup.hit = true ↔ s.IsResident a) ∧
      (lookup.hit = false →
        t = { s with stats := { s.stats with misses := s.stats.misses + 1 } }) := by
  obtain ⟨line, set, hmaps, ⟨way, _, _, _, hfind, -, -, rfl, -⟩ |
    ⟨stats, hfind, hcount, rfl, rfl⟩⟩ := probe_eq_ok_iff.1 hprobe
  · rw [h.isResident_iff hmaps, hfind]
    exact ⟨Iff.rfl, fun hmiss => by cases hmiss⟩
  · rw [h.isResident_iff hmaps, hfind, Stats.eq_of_countMiss hcount]
    exact ⟨Iff.rfl, fun _ => rfl⟩

/-- Nothing happens to a line that is absent when it is to leave. -/
theorem respond_invalidate_of_absent (h : s.WellFormed f) (ha : a < 2 ^ f.geometry.addressBits)
    (habsent : ¬ s.IsResident a) :
    s.respond (.invalidate a) = .ok (.ok (.departure none), s) := by
  rcases h.maps_cases a with ⟨-, set, hmaps⟩ | ⟨houtside, -⟩
  · rw [h.isResident_iff hmaps, Option.not_isSome_iff_eq_none] at habsent
    exact respond_of_ok rfl
      (invalidate_eq_ok_iff.2 ⟨_, set, hmaps, .inl ⟨habsent, rfl, rfl⟩⟩)
  · omega

end WellFormed

/-! ## Along a run -/

/-- A store that has answered some calls answers the next one, unless there were too many
for its counters. -/
theorem exists_respond_of_run {c : Config} {s₀ s : Store AnyPolicy} {calls : List Call}
    {history : List Exchange} (hbuilt : (ofConfig c).result = .ok s₀)
    (hrun : run calls s₀ = .ok (history, s)) (hlength : calls.length + 1 < 2 ^ 32) (call : Call) :
    ∃ answer t, s.respond call = .ok (answer, t) := by
  have hroom : (calls ++ [call]).length < 2 ^ 32 := by
    simpa using hlength
  obtain ⟨_, t, hlonger⟩ := (ready_of_ofConfig hbuilt hroom).run_ok (calls ++ [call])
  obtain ⟨_, u, _, hbefore, hafter, -⟩ := (run_append calls [call] s₀ t _).1 hlonger
  rw [hrun] at hbefore
  cases hbefore
  obtain ⟨answer, u, _, hrespond, -, -⟩ := run_cons_eq_ok_iff.1 hafter
  exact ⟨answer, u, hrespond⟩

/-- Calls that fail, in any store that calls lead to.  A call is refused if and only if its
address is outside the address space, or it is to fill in a line that is resident.  Then
the store stays what it was, with every block, stack and tag index, the state of its
policy and its counters, and the refusal tells the reason.  A probe that misses changes
nothing but the count of misses, and it misses the lines that are absent.  An
invalidation of an absent line changes nothing.  Unless the calls are too many for the
counters, every call is answered. -/
theorem refusals_of_run {c : Config} {s₀ s : Store AnyPolicy} {calls : List Call}
    {history : List Exchange} (hbuilt : (ofConfig c).result = .ok s₀)
    (hrun : run calls s₀ = .ok (history, s)) :
    (∀ call, (∃ refusal t, s.respond call = .ok (.error refusal, t)) ↔
      2 ^ c.addressBits.toNat ≤ call.address ∨
        (∃ kind, call = .fill call.address kind) ∧ s.IsResident call.address) ∧
    (∀ call refusal t, s.respond call = .ok (.error refusal, t) → t = s ∧
      (2 ^ c.addressBits.toNat ≤ call.address ∧
          refusal = .addressOutOfRange call.address c.addressBits.toNat ∨
        call.address < 2 ^ c.addressBits.toNat ∧ s.IsResident call.address ∧
          (∃ kind, call = .fill call.address kind) ∧ refusal = .alreadyResident call.address)) ∧
    (∀ a kind lookup t, s.respond (.probe a kind) = .ok (.ok (.lookup lookup), t) →
      (lookup.hit = true ↔ s.IsResident a) ∧
        (lookup.hit = false →
          t = { s with stats := { s.stats with misses := s.stats.misses + 1 } })) ∧
    (∀ a, a < 2 ^ c.addressBits.toNat → ¬ s.IsResident a →
      s.respond (.invalidate a) = .ok (.ok (.departure none), s)) ∧
    (calls.length + 1 < 2 ^ 32 → ∀ call, ∃ answer t, s.respond call = .ok (answer, t)) := by
  obtain ⟨hgeometry, hfresh⟩ := wellFormed_of_ofConfig hbuilt
  have h := hfresh.run hrun
  have hbits : s₀.geometry.addressBits = c.addressBits.toNat := by
    obtain ⟨n, -, hshape⟩ := Config.geometry_eq_ok_iff.1 hgeometry
    rw [hshape]
    rfl
  rw [← hbits]
  refine ⟨fun call => h.refused_iff, fun call refusal t => h.of_refused,
    fun a kind lookup t hprobe => ?_, fun a => h.respond_invalidate_of_absent,
    exists_respond_of_run hbuilt hrun⟩
  rcases reply_cases (fun _ => step_probe_of_refused) (respond_eq_ok_iff.1 hprobe) with
    ⟨_, hanswer, hresult⟩ | ⟨_, hanswer, -⟩
  · cases hanswer
    exact h.of_probe hresult
  · cases hanswer

/-- One set of two ways, which hold the first two lines of memory.  The first one is refused
room again, whichever of its addresses asks for it.  The third one is missed, and leaves
nothing behind when it is told to leave. -/
theorem refusals_of_full_set :
    ∃ s₀ history s, (ofConfig { Config.ofShape .lru 128 64 2 with addressBits := 32 }).result =
        .ok s₀ ∧
      run [.install 0 true, .access 64 .read] s₀ = .ok (history, s) ∧
      s.IsResident 32 ∧
      s.respond (.fill 32 .read) = .ok (.error (.alreadyResident 32), s) ∧
      s.respond (.access (2 ^ 40) .write) = .ok (.error (.addressOutOfRange (2 ^ 40) 32), s) ∧
      (∃ lookup, s.respond (.probe 128 .read) = .ok (.ok (.lookup lookup),
        { s with stats := { s.stats with misses := s.stats.misses + 1 } })) ∧
      s.respond (.invalidate 128) = .ok (.ok (.departure none), s) := by
  obtain ⟨s₀, history, s, t, lookup, u, hbuilt, hrun, hfill, hlooked, habsent⟩ :
      ∃ s₀ history s t lookup u,
        (ofConfig { Config.ofShape .lru 128 64 2 with addressBits := 32 }).result = .ok s₀ ∧
        run [.install 0 true, .access 64 .read] s₀ = .ok (history, s) ∧
        s.respond (.fill 32 .read) = .ok (.error (.alreadyResident 32), t) ∧
        s.respond (.probe 128 .read) = .ok (.ok (.lookup lookup), u) ∧ lookup.hit = false :=
    ⟨_, _, _, _, _, _, rfl, rfl, rfl, rfl, rfl⟩
  obtain ⟨hrefused, hwhy, hprobe, hinvalidate, -⟩ := refusals_of_run hbuilt hrun
  obtain ⟨rfl, ⟨houtside, -⟩ | ⟨-, hresident, -⟩⟩ := hwhy _ _ _ hfill
  · exact absurd houtside (by decide)
  obtain ⟨refusal, v, haccess⟩ := (hrefused (.access (2 ^ 40) .write)).2 (.inl (by decide))
  obtain ⟨rfl, ⟨-, rfl⟩ | ⟨hinside, -⟩⟩ := hwhy _ _ _ haccess
  · obtain ⟨hhit, hmiss⟩ := hprobe 128 .read lookup u hlooked
    rw [hmiss habsent] at hlooked
    rw [habsent] at hhit
    exact ⟨s₀, history, v, hbuilt, hrun, hresident, hfill, haccess, ⟨lookup, hlooked⟩,
      hinvalidate 128 (by decide) fun h => Bool.false_ne_true (hhit.2 h)⟩
  · exact absurd hinside (by decide)

end Store

end AssocCache
