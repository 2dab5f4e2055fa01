import AssocCache.Proofs.Store.Service

/-!
# What the answers tell

A history tells which lines a store holds.  `Exchange.events` lists what one
answer says about one line of memory: it was filled, it was hit, or it left.
`Resides` reads the events of a line from their end: the line is resident if they
end with a fill and the hits since, and it has pending writes if one of these was
a write.

`events_of_run` shows that the view of a store is what the events tell, by
induction on the run.  All answers of a run agree with this view, and so with the
events before them.
-/

namespace AssocCache

/-! ## Events -/

/-- Something that happened to a line. -/
inductive Event where
  | filled (way : Nat) (access : AccessKind)
  | hit (access : AccessKind)
  | left
  deriving DecidableEq, Repr

/-- The events of a line end with a fill of the way and with hits, and `dirty` says
whether one of these was a write. -/
def Resides (events : List Event) (way : Nat) (dirty : Bool) : Prop :=
  ∃ (before : List Event) (access : AccessKind) (hits : List AccessKind),
    events = before ++ .filled way access :: hits.map .hit ∧
      dirty = (access.isWrite || hits.any (·.isWrite))

section Resides

variable {events : List Event} {way : Nat} {dirty : Bool}

theorem not_resides_nil : ¬ Resides [] way dirty := by
  intro ⟨before, access, hits, heq, _⟩
  exact List.append_ne_nil_of_right_ne_nil before (List.cons_ne_nil _ _) heq.symm

/-- The latest event of a resident line is its fill or a hit. -/
theorem resides_cases (h : Resides events way dirty) :
    (∃ before access, events = before ++ [.filled way access] ∧ dirty = access.isWrite) ∨
      ∃ before access earlier, events = before ++ [.hit access] ∧ Resides before way earlier ∧
        dirty = (earlier || access.isWrite) := by
  obtain ⟨before, access, hits, rfl, rfl⟩ := h
  rcases List.eq_nil_or_concat hits with rfl | ⟨others, last, rfl⟩
  · exact Or.inl ⟨before, access, rfl, by simp⟩
  · refine Or.inr ⟨before ++ .filled way access :: others.map .hit, last, _, by simp,
      ⟨before, access, others, rfl, rfl⟩, ?_⟩
    simp [Bool.or_assoc]

theorem resides_filled (events : List Event) (way : Nat) (access : AccessKind) :
    Resides (events ++ [.filled way access]) way access.isWrite :=
  ⟨events, access, [], rfl, by simp⟩

theorem Resides.hit (h : Resides events way dirty) (access : AccessKind) :
    Resides (events ++ [.hit access]) way (dirty || access.isWrite) := by
  obtain ⟨before, first, hits, rfl, rfl⟩ := h
  exact ⟨before, first, hits ++ [access], by simp, by simp [Bool.or_assoc]⟩

end Resides

namespace Event

/-- The view of a line after an event. -/
def apply : Option Residence → Event → Option Residence
  | _, .filled way access => some ⟨way, access.isWrite⟩
  | r, .hit access => r.map (·.touch access)
  | _, .left => none

/-- The events of a line that was absent at first tell what `Resides` says. -/
theorem foldl_apply_eq_some_iff {events : List Event} {way : Nat} {dirty : Bool} :
    events.foldl apply none = some ⟨way, dirty⟩ ↔ Resides events way dirty := by
  induction events using List.reverseRecOn generalizing dirty with
  | nil =>
    constructor
    · intro h
      cases h
    · intro h
      exact absurd h not_resides_nil
  | append_singleton events event ih =>
    rw [List.foldl_append, List.foldl_cons, List.foldl_nil]
    constructor
    · intro h
      cases event with
      | filled way' access =>
        cases h
        exact resides_filled events way access
      | hit access =>
        obtain ⟨r, hr, htouch⟩ := Option.map_eq_some_iff.1 h
        cases htouch
        exact (ih.1 hr).hit access
      | left => cases h
    · intro h
      rcases resides_cases h with ⟨before, access, heq, rfl⟩ |
        ⟨before, access, earlier, heq, hresides, rfl⟩
      · obtain ⟨-, hevent⟩ := List.append_inj' heq rfl
        cases hevent
        rfl
      · obtain ⟨rfl, hevent⟩ := List.append_inj' heq rfl
        cases hevent
        rw [ih.2 hresides]
        rfl

end Event

/-- What a reply says about the line that had to go. -/
def Reply.evicted? : Reply → Option Eviction
  | .lookup _ => none
  | .install placed => placed.evicted
  | .access outcome => outcome.evicted
  | .departure evicted => evicted

/-- The install that a reply reports. -/
def Reply.install? : Reply → Option Install
  | .install placed => some placed
  | .access outcome => outcome.install
  | .lookup _ | .departure _ => none

namespace Exchange

/-- The events of the line of address `a` in the install of the line of address
`b`. -/
def installEvents (blockSize a b : Nat) (access : AccessKind) (install : Install) : List Event :=
  (if ∃ evicted ∈ install.evicted, evicted.address = blockSize * (a / blockSize) then [.left]
    else []) ++
  if a / blockSize = b / blockSize then [.filled install.way access] else []

/-- The event of the line of address `a` in a lookup of the line of address `b`. -/
def lookupEvents (blockSize a b : Nat) (access : AccessKind) (lookup : Lookup) : List Event :=
  if a / blockSize = b / blockSize ∧ lookup.hit = true then [.hit access] else []

/-- The event of the line of address `a` in an invalidation of the line of address
`b`. -/
def departureEvents (blockSize a b : Nat) (evicted : Option Eviction) : List Event :=
  if a / blockSize = b / blockSize ∧ evicted.isSome = true then [.left] else []

/-- What an answer says about the line of address `a`, in a store with blocks of
this size.  A refusal says nothing. -/
def events (blockSize a : Nat) (x : Exchange) : List Event :=
  match x.call, x.answer with
  | .probe b access, .ok (.lookup lookup) => lookupEvents blockSize a b access lookup
  | .fill b access, .ok (.install install) => installEvents blockSize a b access install
  | .access b access, .ok (.access outcome) =>
    lookupEvents blockSize a b access outcome.lookup ++
      (outcome.install.map (installEvents blockSize a b access)).getD []
  | .invalidate b, .ok (.departure evicted) => departureEvents blockSize a b evicted
  | _, _ => []

end Exchange

/-- What a history says about the line of address `a`. -/
def eventsOf (blockSize a : Nat) (history : List Exchange) : List Event :=
  history.flatMap (Exchange.events blockSize a)

namespace Store

variable {π : Type} [Policy π] [Policy.Tame π] {f : Frame} {s t : Store π} {a b : Nat}
  {access : AccessKind}

/-! ## The view follows the events -/

theorem WellFormed.events_of_probe (h : s.WellFormed f) {lookup : Lookup}
    (hprobe : (Store.probe b access).outcome s = .ok (lookup, t)) (a : Nat) :
    t.residence a =
      (Exchange.lookupEvents f.geometry.blockSize a b access lookup).foldl Event.apply
        (s.residence a) := by
  obtain ⟨-, hway, -, hview⟩ := h.probe hprobe
  have hhit : lookup.hit = (s.residence b).isSome := by
    rw [Lookup.hit, hway, Option.isSome_map]
  rw [hview, Exchange.lookupEvents, hhit]
  by_cases hblock : a / f.geometry.blockSize = b / f.geometry.blockSize
  · rw [if_pos hblock, h.residence_eq_of_div_eq hblock]
    cases hresidence : s.residence b with
    | none => simp
    | some r => simp [hblock, Event.apply]
  · simp [hblock]

theorem WellFormed.events_of_fill (h : s.WellFormed f) {install : Install}
    (hfill : (Store.fill b access).outcome s = .ok (install, t)) (a : Nat) :
    t.residence a =
      (Exchange.installEvents f.geometry.blockSize a b access install).foldl Event.apply
        (s.residence a) := by
  obtain ⟨-, hfilled⟩ := h.fill hfill
  -- A departure is reported at the address of the block.
  have hleft : (∃ evicted ∈ install.evicted,
      a / f.geometry.blockSize = evicted.address / f.geometry.blockSize) ↔
        ∃ evicted ∈ install.evicted,
          evicted.address = f.geometry.blockSize * (a / f.geometry.blockSize) := by
    refine exists_congr fun evicted => and_congr_right fun hevicted => ?_
    have haligned := (hfilled.evicted evicted hevicted).1
    have hdivision := Nat.div_add_mod evicted.address f.geometry.blockSize
    constructor
    · intro hsame
      rw [hsame]
      omega
    · intro haddress
      rw [haddress, Nat.mul_div_cancel_left _ h.valid.blockSize_pos]
  rw [hfilled.residence_eq, Exchange.installEvents, List.foldl_append]
  simp only [hleft]
  by_cases hblock : a / f.geometry.blockSize = b / f.geometry.blockSize
  · simp only [if_pos hblock]
    rfl
  · simp only [if_neg hblock, List.foldl_nil]
    split
    · rfl
    · rfl

theorem WellFormed.events_of_invalidate (h : s.WellFormed f) {evicted : Option Eviction}
    (hinvalidate : (Store.invalidate b).outcome s = .ok (evicted, t)) (a : Nat) :
    t.residence a =
      (Exchange.departureEvents f.geometry.blockSize a b evicted).foldl Event.apply
        (s.residence a) := by
  obtain ⟨-, -, hevicted, hview⟩ := h.invalidate hinvalidate
  have hsome : evicted.isSome = (s.residence b).isSome := by
    rw [hevicted, Option.isSome_map]
  rw [hview, Exchange.departureEvents, hsome]
  by_cases hblock : a / f.geometry.blockSize = b / f.geometry.blockSize
  · rw [if_pos hblock, h.residence_eq_of_div_eq hblock]
    cases hresidence : s.residence b with
    | none => simp
    | some r => simp [hblock, Event.apply]
  · simp [hblock]

/-- An answer changes the view as its events say. -/
theorem WellFormed.events_of_respond (h : s.WellFormed f) {call : Call}
    {answer : Except Refusal Reply} (hrespond : s.respond call = .ok (answer, t)) (a : Nat) :
    t.residence a =
      (Exchange.events f.geometry.blockSize a ⟨call, answer⟩).foldl Event.apply
        (s.residence a) := by
  cases responds_of_respond hrespond with
  | probe hprobe => exact h.events_of_probe hprobe a
  | fill hfill => exact h.events_of_fill hfill a
  | invalidate hinvalidate => exact h.events_of_invalidate hinvalidate a
  | refused refusal => cases call <;> rfl
  | hit hprobe hhit =>
    have hevents := h.events_of_probe hprobe a
    simpa [Exchange.events] using hevents
  | miss hprobe hmiss hfill =>
    have hprobed := h.events_of_probe hprobe a
    have hfilled := (h.probe hprobe).1.events_of_fill hfill a
    rw [hfilled, hprobed]
    simp [Exchange.events]
  | missRefused hprobe hmiss _ =>
    have hevents := h.events_of_probe hprobe a
    rw [hevents, Exchange.lookupEvents, hmiss]
    simp [Exchange.events]

/-- A run changes the view as its history says. -/
theorem WellFormed.events_of_run (h : s.WellFormed f) {calls : List Call}
    {history : List Exchange} (hrun : Store.run calls s = .ok (history, t)) (a : Nat) :
    t.residence a =
      (eventsOf f.geometry.blockSize a history).foldl Event.apply (s.residence a) := by
  induction calls generalizing s history with
  | nil =>
    cases hrun
    rfl
  | cons call calls ih =>
    obtain ⟨answer, u, later, hrespond, hrest, rfl⟩ := run_cons_eq_ok_iff.1 hrun
    rw [ih (h.respond hrespond) hrest, h.events_of_respond hrespond a]
    simp [eventsOf]

/-! ## Counting residents -/

section Residents

omit [Policy π] [Policy.Tame π]

/-- The addresses of the lines of a set that are resident. -/
def residents (s : Store π) (index : Nat) : Set Nat :=
  {a | a % s.geometry.blockSize = 0 ∧ (s.geometry.lineOf a).set = index ∧
    (s.residence a).isSome = true}

/-- As many lines of a set are resident as blocks of it are valid. -/
theorem WellFormed.ncard_residents_eq (h : s.WellFormed f) {index : Nat} {set : CacheSet}
    (hset : s.sets[index]? = some set) : (s.residents index).ncard = set.occupancy := by
  have hwell := h.sets hset
  have hhas : ∀ tag, (set.residence tag).isSome = true → f.geometry.Has ⟨index, tag⟩ := by
    intro tag hsome
    obtain ⟨r, hr⟩ := Option.isSome_iff_exists.1 hsome
    obtain ⟨block, hb, hholds, -⟩ := hwell.residence_eq_some_iff.1 hr
    obtain ⟨hv, rfl⟩ := Block.holds_iff.1 hholds
    exact (hwell.blocks hb).has hv
  have himage : s.residents index =
      (fun tag => f.geometry.addressOf ⟨index, tag⟩) '' {tag | (set.residence tag).isSome = true} := by
    ext a
    simp only [residents, Set.mem_ofPred_eq, Set.mem_image, h.geometry_eq]
    constructor
    · intro ⟨haligned, hindex, hsome⟩
      obtain ⟨r, hr⟩ := Option.isSome_iff_exists.1 hsome
      have ha := h.lt_of_residence hr
      have hline : f.geometry.lineOf a = ⟨index, (f.geometry.lineOf a).tag⟩ := by
        rw [← hindex]
      refine ⟨(f.geometry.lineOf a).tag, ?_, ?_⟩
      · rw [h.residence_of_lt ha, residenceOf_eq (hindex ▸ hset)] at hsome
        exact hsome
      · have hdivision := Nat.div_add_mod a f.geometry.blockSize
        rw [← hline, h.valid.addressOf_lineOf ha]
        omega
    · intro ⟨tag, hsome, haddress⟩
      have hline := h.valid.lineOf_addressOf (hhas tag hsome)
      subst haddress
      refine ⟨h.valid.addressOf_mod (hhas tag hsome), by rw [hline], ?_⟩
      rw [h.residence_of_lt (h.valid.addressOf_lt (hhas tag hsome)), hline]
      exact (congrArg Option.isSome (residenceOf_eq hset)).trans hsome
  rw [himage, Set.InjOn.ncard_image ?_, hwell.ncard_residents]
  intro tag htag tag' htag' hsame
  have hline := congrArg f.geometry.lineOf hsame
  simp only [h.valid.lineOf_addressOf (hhas tag htag), h.valid.lineOf_addressOf (hhas tag' htag')]
    at hline
  exact congrArg Line.tag hline

/-- Only the view decides who is resident. -/
theorem residents_congr (hgeometry : t.geometry = s.geometry)
    (hview : ∀ a, t.residence a = s.residence a) (index : Nat) :
    t.residents index = s.residents index := by
  simp only [residents, hgeometry, hview]

theorem Filled.isSome_iff_ncard {install : Install} {dirty : Bool} (h : s.WellFormed f)
    (hfilled : Filled f s t b dirty install) :
    install.evicted.isSome = true ↔
      (s.residents (f.geometry.lineOf b).set).ncard = f.geometry.associativity := by
  obtain ⟨-, set, hmaps⟩ := (h.maps_cases b).resolve_right fun houtside =>
    Nat.not_lt.2 houtside.1 hfilled.lt
  rw [hfilled.isSome_iff, h.ncard_residents_eq hmaps.2]
  constructor
  · intro hfull
    exact hfull set hmaps.2
  · intro hfull other hother
    rw [hmaps.2] at hother
    cases hother
    exact hfull

/-- The line that had to go is not resident any more. -/
theorem Filled.residence_evicted {install : Install} {dirty : Bool}
    (hfilled : Filled f s t b dirty install) {evicted : Eviction}
    (hevicted : evicted ∈ install.evicted) : t.residence evicted.address = none := by
  obtain ⟨-, hother, -, -⟩ := hfilled.evicted evicted hevicted
  rw [hfilled.residence_eq, if_neg hother, if_pos ⟨evicted, hevicted, rfl⟩]

end Residents

/-- A probe that misses changes nothing in the view. -/
theorem WellFormed.residence_of_miss (h : s.WellFormed f) {lookup : Lookup}
    (hprobe : (Store.probe b access).outcome s = .ok (lookup, t)) (hmiss : lookup.hit = false) (a : Nat) :
    t.residence a = s.residence a := by
  have hevents := h.events_of_probe hprobe a
  rw [hevents, Exchange.lookupEvents, hmiss]
  simp

/-- The line of a reported departure was resident, with the mark that is reported,
and has gone. -/
theorem WellFormed.residence_of_evicted (h : s.WellFormed f) {call : Call} {reply : Reply}
    (hrespond : s.respond call = .ok (.ok reply, t)) {evicted : Eviction}
    (hevicted : evicted ∈ reply.evicted?) :
    evicted.address % f.geometry.blockSize = 0 ∧
      (∃ way, s.residence evicted.address = some ⟨way, evicted.wasDirty⟩) ∧
      t.residence evicted.address = none := by
  cases responds_of_respond hrespond with
  | probe _ => cases hevicted
  | hit _ _ => cases hevicted
  | fill hfill =>
    obtain ⟨-, hfilled⟩ := h.fill hfill
    obtain ⟨haligned, -, -, hresident⟩ := hfilled.evicted evicted hevicted
    exact ⟨haligned, ⟨_, hresident⟩, hfilled.residence_evicted hevicted⟩
  | miss hprobe hmiss hfill =>
    obtain ⟨-, hfilled⟩ := (h.probe hprobe).1.fill hfill
    obtain ⟨haligned, -, -, hresident⟩ := hfilled.evicted evicted hevicted
    rw [h.residence_of_miss hprobe hmiss] at hresident
    exact ⟨haligned, ⟨_, hresident⟩, hfilled.residence_evicted hevicted⟩
  | invalidate hinvalidate =>
    obtain ⟨-, -, hreported, hview⟩ := h.invalidate hinvalidate
    rename_i a departed
    have hdeparted : departed = some evicted := hevicted
    rw [hdeparted] at hreported
    obtain ⟨r, hr, heq⟩ := Option.map_eq_some_iff.1 hreported.symm
    have hblock : evicted.address / f.geometry.blockSize = a / f.geometry.blockSize := by
      rw [← heq, Nat.mul_div_cancel_left _ h.valid.blockSize_pos]
    refine ⟨by rw [← heq, Nat.mul_mod_right], ⟨r.way, ?_⟩, ?_⟩
    · rw [h.residence_eq_of_div_eq hblock, hr, ← heq]
    · rw [hview, if_pos hblock]

/-- What a reported install says of the line that had to go. -/
theorem WellFormed.installed (h : s.WellFormed f) {call : Call} {reply : Reply}
    (hrespond : s.respond call = .ok (.ok reply, t)) {install : Install}
    (hinstall : install ∈ reply.install?) :
    (install.evicted.isSome = true ↔
      (s.residents (f.geometry.lineOf call.address).set).ncard = f.geometry.associativity) ∧
    ∀ evicted ∈ install.evicted,
      (f.geometry.lineOf evicted.address).set = (f.geometry.lineOf call.address).set ∧
      evicted.address / f.geometry.blockSize ≠ call.address / f.geometry.blockSize := by
  cases responds_of_respond hrespond with
  | probe _ => cases hinstall
  | hit _ _ => cases hinstall
  | invalidate _ => cases hinstall
  | fill hfill =>
    cases hinstall
    obtain ⟨-, hfilled⟩ := h.fill hfill
    refine ⟨hfilled.isSome_iff_ncard h, fun evicted hevicted => ?_⟩
    obtain ⟨-, hother, hset, -⟩ := hfilled.evicted evicted hevicted
    exact ⟨hset, hother⟩
  | miss hprobe hmiss hfill =>
    cases hinstall
    have hprobed := (h.probe hprobe).1
    obtain ⟨-, hfilled⟩ := hprobed.fill hfill
    have hsame := residents_congr (hprobed.geometry_eq.trans h.geometry_eq.symm)
      (h.residence_of_miss hprobe hmiss)
    refine ⟨?_, fun evicted hevicted => ?_⟩
    · rw [← hsame]
      exact hfilled.isSome_iff_ncard hprobed
    · obtain ⟨-, hother, hset, -⟩ := hfilled.evicted evicted hevicted
      exact ⟨hset, hother⟩

/-! ## The answers agree with the history -/

/-- The history tells which lines the store holds, and every answer that the store
can give next agrees with it. -/
structure HistoryTells (s : Store π) (history : List Exchange) : Prop where
  /-- A line is resident if the latest of its fills and departures is a fill. -/
  resident : ∀ {a way : Nat} {dirty : Bool}, s.residence a = some ⟨way, dirty⟩ ↔
    Resides (eventsOf s.geometry.blockSize a history) way dirty
  /-- A probe finds a resident line, in the way that its fill reported, and no other
  line. -/
  probe : ∀ {a : Nat} {access : AccessKind} {answer : Except Refusal Reply} {t : Store π},
    a < 2 ^ s.geometry.addressBits → s.respond (.probe a access) = .ok (answer, t) →
    ∃ lookup, answer = .ok (.lookup lookup) ∧ ∀ way, lookup.way = some way ↔
      ∃ dirty, Resides (eventsOf s.geometry.blockSize a history) way dirty
  /-- A line that is reported to have gone was resident, has pending writes if they
  are reported, and is no longer resident. -/
  evicted : ∀ {call : Call} {reply : Reply} {t : Store π}, s.respond call = .ok (.ok reply, t) →
    ∀ evicted ∈ reply.evicted?, evicted.address % s.geometry.blockSize = 0 ∧
      (∃ way, s.residence evicted.address = some ⟨way, evicted.wasDirty⟩ ∧
        Resides (eventsOf s.geometry.blockSize evicted.address history) way evicted.wasDirty) ∧
      t.residence evicted.address = none ∧
      ∀ way dirty, ¬ Resides (eventsOf s.geometry.blockSize evicted.address
        (history ++ [⟨call, .ok reply⟩])) way dirty
  /-- An invalidation of an address in the address space reports the line of that address
  exactly if it is resident, with its pending writes, and makes it leave. -/
  invalidate : ∀ {a : Nat} {answer : Except Refusal Reply} {t : Store π},
    a < 2 ^ s.geometry.addressBits → s.respond (.invalidate a) = .ok (answer, t) →
    ∃ gone : Option Eviction, answer = .ok (.departure gone) ∧
      (∀ evicted, gone = some evicted ↔
        evicted.address = s.geometry.blockSize * (a / s.geometry.blockSize) ∧
          ∃ way, Resides (eventsOf s.geometry.blockSize a history) way evicted.wasDirty) ∧
      ∀ b, t.residence b =
        if b / s.geometry.blockSize = a / s.geometry.blockSize then none else s.residence b
  /-- An invalidation reports its own line. -/
  invalidated : ∀ {a : Nat} {evicted : Eviction} {t : Store π},
    s.respond (.invalidate a) = .ok (.ok (.departure (some evicted)), t) →
    evicted.address = s.geometry.blockSize * (a / s.geometry.blockSize)
  /-- A fill makes a line go if and only if the set was full, and it is another line
  of the same set. -/
  installed : ∀ {call : Call} {reply : Reply} {t : Store π}, s.respond call = .ok (.ok reply, t) →
    ∀ install ∈ reply.install?,
      (install.evicted.isSome = true ↔
        (s.residents (s.geometry.lineOf call.address).set).ncard = s.geometry.associativity) ∧
      ∀ evicted ∈ install.evicted,
        (s.geometry.lineOf evicted.address).set = (s.geometry.lineOf call.address).set ∧
        evicted.address / s.geometry.blockSize ≠ call.address / s.geometry.blockSize

theorem WellFormed.historyTells {s₀ : Store π} {calls : List Call} {history : List Exchange}
    (h₀ : s₀.WellFormed f) (hempty : ∀ a, s₀.residence a = none)
    (hrun : Store.run calls s₀ = .ok (history, s)) : HistoryTells s history := by
  have h := h₀.run hrun
  have hresident : ∀ {a way : Nat} {dirty : Bool}, s.residence a = some ⟨way, dirty⟩ ↔
      Resides (eventsOf f.geometry.blockSize a history) way dirty := by
    intro a way dirty
    rw [h₀.events_of_run hrun, hempty, Event.foldl_apply_eq_some_iff]
  constructor
  all_goals rw [h.geometry_eq]
  · exact hresident
  · intro a access answer t ha hrespond
    rcases h.maps_cases a with ⟨-, set, hmaps⟩ | ⟨hle, -⟩
    · rw [respond_eq_ok_iff] at hrespond
      rcases reply_cases (fun _ => step_probe_of_refused) hrespond with
        ⟨lookup, rfl, hprobe⟩ | ⟨refusal, -, -, hrefused⟩
      · refine ⟨lookup, rfl, fun way => ?_⟩
        rw [(h.probe hprobe).2.1, Option.map_eq_some_iff]
        constructor
        · intro ⟨r, hr, hway⟩
          subst hway
          exact ⟨r.dirty, hresident.1 hr⟩
        · intro ⟨dirty, hresides⟩
          exact ⟨⟨way, dirty⟩, hresident.2 hresides, rfl⟩
      · exact absurd hrefused (probe_ne_refused hmaps refusal)
    · omega
  · intro call reply t hrespond evicted hevicted
    obtain ⟨haligned, ⟨way, hway⟩, hgone⟩ := h.residence_of_evicted hrespond hevicted
    refine ⟨haligned, ⟨way, hway, hresident.1 hway⟩, hgone, fun way' dirty hresides => ?_⟩
    have hnext : Store.run (calls ++ [call]) s₀ = .ok (history ++ [⟨call, .ok reply⟩], t) :=
      (run_append calls [call] s₀ t _).2 ⟨history, s, [⟨call, .ok reply⟩], hrun,
        run_cons_eq_ok_iff.2 ⟨.ok reply, t, [], hrespond, rfl, rfl⟩, rfl⟩
    rw [h₀.events_of_run hnext, hempty, Event.foldl_apply_eq_some_iff.2 hresides] at hgone
    cases hgone
  · intro a answer t ha hrespond
    rcases h.maps_cases a with ⟨-, set, hmaps⟩ | ⟨hle, -⟩
    · rw [respond_eq_ok_iff] at hrespond
      rcases reply_cases (fun _ => step_invalidate_of_refused) hrespond with
        ⟨gone, rfl, hinvalidate⟩ | ⟨refusal, -, -, hrefused⟩
      · obtain ⟨-, -, rfl, hview⟩ := h.invalidate hinvalidate
        refine ⟨_, rfl, fun evicted => ?_, hview⟩
        rw [Option.map_eq_some_iff]
        constructor
        · intro ⟨r, hr, hreported⟩
          subst hreported
          exact ⟨rfl, r.way, hresident.1 hr⟩
        · intro ⟨haddress, way, hresides⟩
          exact ⟨⟨way, evicted.wasDirty⟩, hresident.2 hresides, by rw [← haddress]⟩
      · exact absurd hrefused (invalidate_ne_refused hmaps refusal)
    · omega
  · intro a evicted t hrespond
    cases responds_of_respond hrespond with
    | invalidate hinvalidate =>
      obtain ⟨-, -, hreported, -⟩ := h.invalidate hinvalidate
      obtain ⟨r, -, heq⟩ := Option.map_eq_some_iff.1 hreported.symm
      rw [← heq]
  · intro call reply t hrespond install hinstall
    exact h.installed hrespond hinstall

/-- After any run of a store that a configuration describes, the history of the run
tells which lines are resident, and no answer contradicts it. -/
theorem answers_of_run {c : Config} {s₀ s : Store AnyPolicy} {calls : List Call}
    {history : List Exchange} (hbuilt : (ofConfig c).result = .ok s₀)
    (hrun : run calls s₀ = .ok (history, s)) :
    HistoryTells s history ∧
      (calls.length + 1 < 2 ^ 32 → ∀ call, ∃ answer t, s.respond call = .ok (answer, t)) := by
  have h₀ := (wellFormed_of_ofConfig hbuilt).2
  constructor
  · obtain ⟨_, policy, _, _, hcreate⟩ := ofConfig_eq_ok_iff.1 hbuilt
    exact h₀.historyTells (residence_fresh hcreate) hrun
  · intro hlength call
    have hroom : (calls ++ [call]).length < 2 ^ 32 := by
      rw [List.length_append]
      exact hlength
    obtain ⟨all, t, hall⟩ := (ready_of_ofConfig hbuilt hroom).run_ok (calls ++ [call])
    obtain ⟨earlier, u, later, hbefore, hafter, -⟩ := (run_append _ _ _ _ _).1 hall
    rw [hrun] at hbefore
    cases hbefore
    obtain ⟨answer, v, _, hrespond, -, -⟩ := run_cons_eq_ok_iff.1 hafter
    exact ⟨answer, v, hrespond⟩

/-- A line that is written to is invalidated.  Another one takes its way, and when it comes
back it is clean and makes a third one leave. -/
theorem answers_of_refill :
    ∃ s₀ history s, (ofConfig { Config.ofShape .lru 256 64 2 with
        addressBits := 32 }).result = .ok s₀ ∧
      run [.fill 0 .read, .access 0 .write, .fill 128 .read, .invalidate 0, .access 256 .read,
        .access 0 .read] s₀ = .ok (history, s) ∧
      HistoryTells s history ∧ ∃ answer t, s.respond (.probe 0 .read) = .ok (answer, t) := by
  obtain ⟨s₀, history, s, hbuilt, hrun⟩ : ∃ s₀ history s,
      (ofConfig { Config.ofShape .lru 256 64 2 with addressBits := 32 }).result = .ok s₀ ∧
      run [.fill 0 .read, .access 0 .write, .fill 128 .read, .invalidate 0, .access 256 .read,
        .access 0 .read] s₀ = .ok (history, s) := ⟨_, _, _, rfl, rfl⟩
  obtain ⟨htells, hanswers⟩ := answers_of_run hbuilt hrun
  exact ⟨s₀, history, s, hbuilt, hrun, htells, hanswers (by decide) _⟩

end Store

end AssocCache
