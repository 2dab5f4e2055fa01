import AssocCache.Fault

/-!
# Computations that may fail, alone and side by side

`Reaches excused P x` says that a computation ends with a result of which something
holds, or else with an error that is excused.

`Coupled excused R x y` says that the second computation ends as the first one
does: with a related result, or with the same error.  Where the first one ends with
an error that is excused, nothing is asked of the second.

Both go through sequences of steps, one step at a time (`Reaches.bind`,
`Coupled.bind`).
-/

namespace AssocCache

variable {ε α β γ δ : Type}

/-- The computation ends with such a result, or with an excused error. -/
inductive Reaches (excused : ε → Prop) (P : α → Prop) : Except ε α → Prop where
  | ok {a : α} (h : P a) : Reaches excused P (.ok a)
  | excuse {e : ε} (h : excused e) : Reaches excused P (.error e)

namespace Reaches

variable {excused : ε → Prop} {P : α → Prop} {x : Except ε α}

theorem of_ok (h : Reaches excused P x) {a : α} (hx : x = .ok a) : P a := by
  cases h with
  | ok h =>
    cases hx
    exact h
  | excuse he => cases hx

theorem of_error (h : Reaches excused P x) {e : ε} (hx : x = .error e) : excused e := by
  cases h with
  | ok h => cases hx
  | excuse he =>
    cases hx
    exact he

/-- The result is known to be the result. -/
theorem attach (h : Reaches excused P x) : Reaches excused (fun a => P a ∧ x = .ok a) x := by
  cases h with
  | ok h => exact .ok ⟨h, rfl⟩
  | excuse he => exact .excuse he

theorem mono {Q : α → Prop} (h : Reaches excused P x) (hQ : ∀ a, P a → Q a) :
    Reaches excused Q x := by
  cases h with
  | ok h => exact .ok (hQ _ h)
  | excuse he => exact .excuse he

theorem bind {Q : γ → Prop} {f : α → Except ε γ} (h : Reaches excused P x)
    (hf : ∀ a, P a → Reaches excused Q (f a)) : Reaches excused Q (x >>= f) := by
  cases h with
  | ok h => exact hf _ h
  | excuse he => exact .excuse he

end Reaches

/-- The second computation ends as the first one does, unless the first one ends
with an excused error. -/
inductive Coupled (excused : ε → Prop) (R : α → β → Prop) : Except ε α → Except ε β → Prop where
  | ok {a : α} {b : β} (h : R a b) : Coupled excused R (.ok a) (.ok b)
  | error (e : ε) : Coupled excused R (.error e) (.error e)
  | excuse {e : ε} (h : excused e) (y : Except ε β) : Coupled excused R (.error e) y

namespace Coupled

variable {excused : ε → Prop} {R : α → β → Prop} {x : Except ε α} {y : Except ε β}

theorem of_eq_ok {a : α} {b : β} (hx : x = .ok a) (hy : y = .ok b) (h : R a b) :
    Coupled excused R x y := by
  subst hx hy
  exact .ok h

theorem exists_ok (h : Coupled excused R x y) {a : α} (hx : x = .ok a) :
    ∃ b, y = .ok b ∧ R a b := by
  cases h with
  | ok h =>
    cases hx
    exact ⟨_, rfl, h⟩
  | error e => cases hx
  | excuse he y => cases hx

/-- Without an excuse a result of the second computation is one of the first. -/
theorem exists_ok_rev (h : Coupled (fun _ => False) R x y) {b : β} (hy : y = .ok b) :
    ∃ a, x = .ok a ∧ R a b := by
  cases h with
  | ok h =>
    cases hy
    exact ⟨_, rfl, h⟩
  | error e => cases hy
  | excuse he y => exact he.elim

/-- Without an excuse the second computation fails as the first one does. -/
theorem eq_error (h : Coupled (fun _ => False) R x y) {e : ε} (hx : x = .error e) :
    y = .error e := by
  cases h with
  | ok h => cases hx
  | error e' =>
    cases hx
    rfl
  | excuse he y => exact he.elim

/-- The results are known to be the results. -/
theorem attach (h : Coupled excused R x y) :
    Coupled excused (fun a b => R a b ∧ x = .ok a ∧ y = .ok b) x y := by
  cases h with
  | ok h => exact .ok ⟨h, rfl, rfl⟩
  | error e => exact .error e
  | excuse he y => exact .excuse he y

theorem mono {S : α → β → Prop} (h : Coupled excused R x y) (hS : ∀ a b, R a b → S a b) :
    Coupled excused S x y := by
  cases h with
  | ok h => exact .ok (hS _ _ h)
  | error e => exact .error e
  | excuse he y => exact .excuse he y

theorem refl {R : α → α → Prop} (hR : ∀ a, R a a) (x : Except ε α) : Coupled excused R x x := by
  cases x with
  | ok a => exact .ok (hR a)
  | error e => exact .error e

/-- Coupled steps followed by coupled steps are coupled. -/
theorem bind {S : γ → δ → Prop} {f : α → Except ε γ} {g : β → Except ε δ}
    (h : Coupled excused R x y) (hfg : ∀ a b, R a b → Coupled excused S (f a) (g b)) :
    Coupled excused S (x >>= f) (y >>= g) := by
  cases h with
  | ok h => exact hfg _ _ h
  | error e => exact .error e
  | excuse he y => exact .excuse he _

/-- The same step followed by coupled steps. -/
theorem bind_same {S : γ → δ → Prop} (x : Except ε α) {f : α → Except ε γ} {g : α → Except ε δ}
    (hfg : ∀ a, x = .ok a → Coupled excused S (f a) (g a)) :
    Coupled excused S (x >>= f) (x >>= g) := by
  cases x with
  | ok a => exact hfg a rfl
  | error e => exact .error e

theorem trans {S : β → γ → Prop} {z : Except ε γ} (h : Coupled (fun _ => False) R x y)
    (h' : Coupled (fun _ => False) S y z) :
    Coupled (fun _ => False) (fun a c => ∃ b, R a b ∧ S b c) x z := by
  cases h with
  | ok hR =>
    obtain ⟨c, rfl, hS⟩ := h'.exists_ok rfl
    exact .ok ⟨_, hR, hS⟩
  | error e =>
    rw [h'.eq_error rfl]
    exact .error e
  | excuse he y => exact he.elim

/-- What two computations are coupled to ends as they do. -/
theorem transport {R : α → γ → Prop} {S : α → β → Prop} {S' : γ → δ → Prop} {Q : β → δ → Prop}
    {x : Except ε α} {x' : Except ε γ} {y : Except ε β} {y' : Except ε δ}
    (h : Coupled (fun _ => False) R x x')
    (hx : Coupled (fun _ => False) S x y) (hx' : Coupled (fun _ => False) S' x' y')
    (hQ : ∀ a a' b b', R a a' → S a b → S' a' b' → Q b b') :
    Coupled (fun _ => False) Q y y' := by
  cases hend : x with
  | ok a =>
    obtain ⟨a', hend', ha⟩ := h.exists_ok hend
    obtain ⟨b, hb, hab⟩ := hx.exists_ok hend
    obtain ⟨b', hb', hab'⟩ := hx'.exists_ok hend'
    exact .of_eq_ok hb hb' (hQ a a' b b' ha hab hab')
  | error e =>
    rw [hx.eq_error hend, hx'.eq_error (h.eq_error hend)]
    exact .error e

/-- What is known of the first computation is known of the second. -/
theorem reaches {excused : ε → Prop} {P : α → Prop} {Q : β → Prop}
    (h : Coupled (fun _ => False) R x y) (hx : Reaches excused P x)
    (hQ : ∀ a b, P a → R a b → Q b) : Reaches excused Q y := by
  cases h with
  | ok h => exact .ok (hQ _ _ (hx.of_ok rfl) h)
  | error e => exact .excuse (hx.of_error rfl)
  | excuse he y => exact he.elim

/-- A computation that ends with a result of which something holds, beside one that ends
with a fixed result. -/
theorem of_reaches {P : α → Prop} {b : β} (h : Reaches excused P x) (hR : ∀ a, P a → R a b) :
    Coupled excused R x (.ok b) := by
  cases h with
  | ok h => exact .ok (hR _ h)
  | excuse he => exact .excuse he _

/-- Two computations of which the same is left. -/
theorem of_map_eq {x x' : Except ε α} {g : α → β} (h : x'.map g = x.map g) :
    Coupled excused (fun a a' => g a' = g a) x x' := by
  cases x with
  | error e =>
    cases x' with
    | error e' =>
      cases h
      exact .error e
    | ok a' => cases h
  | ok a =>
    cases x' with
    | error e' => cases h
    | ok a' => exact .ok (Except.ok.inj h)

theorem map_right {R : α → β → Prop} (x : Except ε α) {g : α → β} (hR : ∀ a, R a (g a)) :
    Coupled excused R x (x.map g) := by
  cases x with
  | ok a => exact .ok (hR a)
  | error e => exact .error e

end Coupled

end AssocCache
