import AssocCache.Proofs.Config.Consistent
import AssocCache.Proofs.Store.Duel

/-!
# The victims of random replacement

Random replacement draws a number for each line that has to go to make room, and at no other
time (`RandomChoice.policy_of_takes`, `Store.WellFormed.draws_of_respond`).  So the ways of the
replacements of a run are the first choices of the stream of the seed, and the policy ends
where these choices leave the stream (`Store.WellFormed.draws_of_run`).

Nothing else about the run has a say.  Two stores with the same seed and the same number of
ways replace in the same ways, whatever else they are and whatever is asked of them
(`Store.random_victims_of_runs`).
-/

namespace AssocCache

open Success

/-! ## Choices of a generator -/

namespace Random.Generator

variable {generator : Generator} {bound place k n : Nat}

/-- The place in the stream after some choices below a bound. -/
def after (generator : Generator) (bound place : Nat) : Nat → Nat
  | 0 => place
  | n + 1 => generator.after bound (generator.below bound place).2 n

/-- The next choices below a bound. -/
def choices (generator : Generator) (bound place : Nat) : Nat → List Nat
  | 0 => []
  | n + 1 =>
    (generator.below bound place).1 :: generator.choices bound (generator.below bound place).2 n

/-- A choice does not depend on how many are made after it. -/
theorem getElem?_choices (h : k < n) :
    (generator.choices bound place n)[k]? =
      some (generator.below bound (generator.after bound place k)).1 := by
  induction n generalizing place k with
  | zero => omega
  | succ n ih =>
    cases k with
    | zero => rfl
    | succ k => exact ih (Nat.lt_of_succ_lt_succ h)

end Random.Generator

/-! ## Replacements of a history -/

/-- The arrival that an answer tells of, if another line had to go for it. -/
def Exchange.replacement? (x : Exchange) : Option Install :=
  (x.outcome?.bind (·.install?)).filter (·.evicted.isSome)

/-- The arrivals for which another line had to go. -/
def replacementsOf (history : List Exchange) : List Install :=
  (installsOf history).filter (·.evicted.isSome)

theorem replacementsOf_cons (x : Exchange) (history : List Exchange) :
    replacementsOf (x :: history) = x.replacement?.toList ++ replacementsOf history := by
  rw [replacementsOf, installsOf_cons, List.filter_append, ← Option.toList_filter]
  rfl

/-! ## Turns -/

namespace RandomChoice

variable {policy policy' : RandomChoice} {set set' : CacheSet} {turn : Turn}

theorem policy_of_accept {way tag : Nat} {kind : MemoryKind} {access : AccessKind}
    (h : set.accept policy way tag kind access = .ok (policy', set')) : policy' = policy := by
  obtain ⟨_, -, -, _, _, hfill, hinsert, -⟩ := CacheSet.accept_eq_ok_iff.1 h
  cases hfill
  cases hinsert
  rfl

theorem policy_of_vacate {way : Nat} {block : Block}
    (h : set.vacate policy way = .ok (some block, policy', set')) : policy' = policy :=
  (CacheSet.vacate_cases_of_silent (fun _ _ => rfl) h).2.2.1

/-- A line that has to go was drawn for, and nothing else that happens to a set is. -/
theorem policy_of_takes (h : set.Takes policy turn policy' set') :
    match turn with
    | .arrival way _ _ _ (some _) =>
      policy'.generator = policy.generator ∧
        policy.generator.below set.associativity policy.place = (way, policy'.place)
    | .arrival _ _ _ _ none | .hit .. | .departure .. => policy' = policy := by
  cases h with
  | hit hb hv hhit =>
    rw [CacheSet.hit_eq hb hv] at hhit
    cases hhit
    rfl
  | arrival hbring =>
    rcases CacheSet.bringIn_cases hbring with ⟨-, rfl, haccept⟩ |
      ⟨chosen, aged, block, left, vacated, -, hchoice, rfl, hvacate, haccept⟩
    · exact policy_of_accept haccept
    · cases hchoice
      obtain rfl := policy_of_accept haccept
      obtain rfl := policy_of_vacate hvacate
      exact ⟨rfl, rfl⟩
  | departure hvacate => exact policy_of_vacate hvacate

end RandomChoice

namespace Store

variable {c c' : Config} {random : UInt64 → Random.Generator} {f : Frame}
  {s₀ s t : Store AnyPolicy} {generator : Random.Generator} {place : Nat}
  {call : Call} {calls : List Call} {answer : Except Refusal Reply} {history : List Exchange}

/-- A call that is answered draws once if its line came in for another one, and otherwise
leaves the policy as it is. -/
theorem WellFormed.draws_of_respond (h : s.WellFormed f)
    (hpolicy : s.policy = .random ⟨generator, place⟩)
    (hrespond : s.respond call = .ok (answer, t)) :
    match Exchange.replacement? ⟨call, answer⟩ with
    | some install => ∃ later,
        generator.below f.geometry.associativity place = (install.way, later) ∧
          t.policy = .random ⟨generator, later⟩
    | none => t.policy = s.policy := by
  rcases h.respond_cases hrespond with ⟨hnone, -, hsame⟩ | ⟨line, set, turn, set', htook⟩
  · rw [Exchange.replacement?, hnone]
    exact hsame
  · obtain ⟨-, -, -, hset⟩ := h.of_maps htook.maps
    have htakes := htook.takes
    rw [hpolicy] at htakes ⊢
    obtain ⟨value, hvalue, hturn⟩ := (AnyPolicy.random ⟨generator, place⟩).takes_cases htakes
    have hdrawn := RandomChoice.policy_of_takes hturn
    rw [Exchange.replacement?, htook.outcome_eq, hvalue]
    cases turn with
    | hit _ _ _ | departure _ _ => exact congrArg AnyPolicy.random hdrawn
    | arrival way tag kind access victim =>
      cases victim with
      | none => exact congrArg AnyPolicy.random hdrawn
      | some gone =>
        obtain ⟨later, place'⟩ := value
        obtain ⟨rfl, hbelow⟩ := hdrawn
        rw [show set.associativity = f.geometry.associativity from hset.length_blocks] at hbelow
        exact ⟨place', hbelow, rfl⟩

/-- The replacements of a run take the first choices of the stream and leave the policy after
them, by induction on the calls. -/
theorem WellFormed.draws_of_run (h : s.WellFormed f)
    (hpolicy : s.policy = .random ⟨generator, place⟩)
    (hrun : Store.run calls s = .ok (history, t)) :
    (replacementsOf history).map (·.way) =
        generator.choices f.geometry.associativity place (replacementsOf history).length ∧
      t.policy = .random ⟨generator,
        generator.after f.geometry.associativity place (replacementsOf history).length⟩ := by
  induction calls generalizing s place history with
  | nil =>
    cases hrun
    exact ⟨rfl, hpolicy⟩
  | cons call calls ih =>
    obtain ⟨answer, u, later, hrespond, hrest, rfl⟩ := run_cons_eq_ok_iff.1 hrun
    have hdraws := h.draws_of_respond hpolicy hrespond
    have hu := h.respond hrespond
    rw [replacementsOf_cons]
    split at hdraws
    · rename_i install hreplacement
      obtain ⟨rest, hbelow, hnext⟩ := hdraws
      obtain ⟨hways, hends⟩ := ih hu hnext hrest
      rw [hreplacement]
      show install.way :: _ = (generator.below _ place).1 :: generator.choices _ _ _ ∧
        t.policy = .random ⟨generator, generator.after _ (generator.below _ place).2 _⟩
      rw [hbelow]
      exact ⟨congrArg _ hways, hends⟩
    · rename_i hreplacement
      rw [hreplacement]
      exact ih hu (hdraws.trans hpolicy) hrest

/-- A new store is at the start of the stream of its seed. -/
theorem random_of_ofConfig (hbuilt : (ofConfig c random).result = .ok s₀)
    (hpolicy : c.policy = .random) :
    s₀.policy = .random ⟨random c.params.seed, 0⟩ ∧
      s₀.geometry.associativity = c.associativity.toNat := by
  obtain ⟨hnamed, -⟩ := untouched_of_ofConfig hbuilt
  obtain ⟨_, -, hgeometry⟩ := Config.geometry_eq_ok_iff.1 (wellFormed_of_ofConfig hbuilt).1
  unfold AnyPolicy.ofConfig at hnamed
  rw [hpolicy] at hnamed
  exact ⟨(Except.ok.inj hnamed).symm, by rw [hgeometry]; rfl⟩

/-- Two stores of random replacement with the same seed and the same number of ways, whatever
generators the seeds stand for.  Both answer every run that 64 bits can count.  After any runs
of the two, whichever calls they are made of, replacements that have the same place in their
histories took the same way, and if there were as many in both then both policies are at the
same place of the stream.  A call that brings no line in for another one leaves the policy as it
is, also if it is refused. -/
theorem random_victims_of_runs {s₀' : Store AnyPolicy}
    (hbuilt : (ofConfig c random).result = .ok s₀)
    (hbuilt' : (ofConfig c' random).result = .ok s₀') (hpolicy : c.policy = .random)
    (hpolicy' : c'.policy = .random) (hseed : c'.params.seed = c.params.seed)
    (hways : c'.associativity = c.associativity) :
    (∀ calls : List Call, calls.length < 2 ^ 63 →
      (∃ history s, run calls s₀ = .ok (history, s)) ∧
        ∃ history s, run calls s₀' = .ok (history, s)) ∧
    ∀ calls calls' history history' s s', run calls s₀ = .ok (history, s) →
      run calls' s₀' = .ok (history', s') →
      (∀ (k : Nat) (install install' : Install), (replacementsOf history)[k]? = some install →
        (replacementsOf history')[k]? = some install' → install'.way = install.way) ∧
      ((replacementsOf history').length = (replacementsOf history).length →
        s'.policy = s.policy) ∧
      ∀ call answer t, s.respond call = .ok (answer, t) →
        Exchange.replacement? ⟨call, answer⟩ = none → t.policy = s.policy := by
  obtain ⟨hnamed, hgeometry⟩ := random_of_ofConfig hbuilt hpolicy
  obtain ⟨hnamed', hgeometry'⟩ := random_of_ofConfig hbuilt' hpolicy'
  rw [hseed] at hnamed'
  rw [hways, ← hgeometry] at hgeometry'
  have hfresh := (wellFormed_of_ofConfig hbuilt).2
  have hfresh' := (wellFormed_of_ofConfig hbuilt').2
  refine ⟨fun calls hlength => ⟨long_run_ok hbuilt (by rw [hnamed]; rfl) hlength,
    long_run_ok hbuilt' (by rw [hnamed']; rfl) hlength⟩, ?_⟩
  intro calls calls' history history' s s' hrun hrun'
  obtain ⟨hchosen, hends⟩ := hfresh.draws_of_run hnamed hrun
  obtain ⟨hchosen', hends'⟩ := hfresh'.draws_of_run hnamed' hrun'
  dsimp only at hchosen hends hchosen' hends'
  rw [hgeometry'] at hchosen' hends'
  refine ⟨fun k install install' hk hk' => ?_, fun hsame => ?_, fun call answer t hrespond hnone => ?_⟩
  · have hway := congrArg (·[k]?) hchosen
    have hway' := congrArg (·[k]?) hchosen'
    rw [Random.Generator.getElem?_choices (List.getElem?_eq_some_iff.1 hk).1, List.getElem?_map, hk]
      at hway
    rw [Random.Generator.getElem?_choices (List.getElem?_eq_some_iff.1 hk').1, List.getElem?_map, hk']
      at hway'
    exact Option.some.inj (hway'.trans hway.symm)
  · rw [hends', hends, hsame]
  · have hdraws := (hfresh.run hrun).draws_of_respond hends hrespond
    rw [hnone] at hdraws
    exact hdraws

/-- One set of two ways of a byte, and two sets of two ways of four bytes.  The third line that
has to go in the first store was in way 1, and so was that in the second store, where lines are
also hit, refused and made to leave in between. -/
theorem random_victims_of_three_replacements :
    ∃ s₀ s₀' history history' s s' install install',
      (ofConfig { Config.ofShape .random 2 1 2 with params := { seed := 7 } }).result = .ok s₀ ∧
      (ofConfig { Config.ofShape .random 16 4 2 with params := { seed := 7 } }).result = .ok s₀' ∧
      run [.fill 0 .read, .fill 1 .read, .fill 2 .read, .fill 3 .read, .fill 4 .read] s₀ =
        .ok (history, s) ∧
      run [.access 0 .write, .fill 4 .read, .fill 8 .read, .fill 13 .read, .fill 9 .write,
        .access 16 .read, .invalidate 12, .fill 20 .read, .probe 20 .write, .access 28 .read,
        .fill 24 .writeback] s₀' = .ok (history', s') ∧
      (replacementsOf history)[2]? = some install ∧ install.way = 1 ∧
      (replacementsOf history')[2]? = some install' ∧ install'.way = install.way ∧
      s'.policy = s.policy := by
  obtain ⟨s₀, hbuilt, heval⟩ : ∃ s₀,
      (ofConfig { Config.ofShape .random 2 1 2 with params := { seed := 7 } }).result = .ok s₀ ∧
      (fun r => (replacementsOf r.1).map Install.way) <$> run [.fill 0 .read, .fill 1 .read,
        .fill 2 .read, .fill 3 .read, .fill 4 .read] s₀ = .ok [0, 0, 1] :=
    ⟨_, rfl, by decide +kernel⟩
  obtain ⟨s₀', hbuilt', heval'⟩ : ∃ s₀',
      (ofConfig { Config.ofShape .random 16 4 2 with params := { seed := 7 } }).result = .ok s₀' ∧
      (fun r => (replacementsOf r.1).length) <$> run [.access 0 .write, .fill 4 .read,
        .fill 8 .read, .fill 13 .read, .fill 9 .write, .access 16 .read, .invalidate 12,
        .fill 20 .read, .probe 20 .write, .access 28 .read, .fill 24 .writeback] s₀' = .ok 3 :=
    ⟨_, rfl, by decide +kernel⟩
  obtain ⟨⟨history, s⟩, hrun, hways⟩ := map_eq_ok_iff.1 heval
  obtain ⟨⟨history', s'⟩, hrun', hlength'⟩ := map_eq_ok_iff.1 heval'
  dsimp only at hways hlength'
  have hlength : (replacementsOf history).length = 3 := by
    rw [← List.length_map Install.way, hways]
    rfl
  obtain ⟨install, hinstall⟩ : ∃ install, (replacementsOf history)[2]? = some install :=
    ⟨_, List.getElem?_eq_getElem (by omega)⟩
  obtain ⟨install', hinstall'⟩ : ∃ install, (replacementsOf history')[2]? = some install :=
    ⟨_, List.getElem?_eq_getElem (by omega)⟩
  have hway : install.way = 1 := by
    have hthird := congrArg (·[2]?) hways
    rw [List.getElem?_map, hinstall] at hthird
    exact Option.some.inj hthird
  obtain ⟨hsame, hpolicies, -⟩ :=
    (random_victims_of_runs hbuilt hbuilt' rfl rfl rfl rfl).2 _ _ _ _ _ _ hrun hrun'
  exact ⟨s₀, s₀', history, history', s, s', install, install', hbuilt, hbuilt', hrun, hrun',
    hinstall, hway, hinstall', hsame 2 install install' hinstall hinstall',
    hpolicies (hlength'.trans hlength.symm)⟩

end Store

end AssocCache
