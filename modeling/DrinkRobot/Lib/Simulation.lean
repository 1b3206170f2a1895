import DrinkRobot.Lib.Run

/-!
# Programs that do the same

Two programs over different states, related by `R`. Their results agree (`Agree`) when both stop
with the same error, or both return and what they return is related.

* `Agree.of_ok`, `Agree.of_error`: what one result says about the other.
* `Agree.bind`: sequences agree when their parts do.
* `exec_agree`: programs that report events have runs that agree, with the same events, when their
  steps agree and they halt in related states together.
-/

namespace Simulation

variable {ε α α' β β' σ τ ι ω : Type}

/-- Both results are the same error, or values related by `R`. -/
def Agree (R : α → β → Prop) : Except ε α → Except ε β → Prop
  | .ok a, .ok b => R a b
  | .error e, .error e' => e = e'
  | .ok _, .error _ => False
  | .error _, .ok _ => False

theorem Agree.of_ok {R : α → β → Prop} {a : α} {y : Except ε β} (h : Agree R (.ok a) y) :
    ∃ b, y = .ok b ∧ R a b := by
  cases y with
  | error e => exact absurd h id
  | ok b => exact ⟨b, rfl, h⟩

theorem Agree.of_error {R : α → β → Prop} {e : ε} {y : Except ε β}
    (h : Agree R (.error e : Except ε α) y) : y = .error e := by
  cases y with
  | error e' => exact congrArg Except.error (Eq.symm h)
  | ok b => exact absurd h id

/-- A result agrees with itself. -/
theorem Agree.refl {R : α → α → Prop} (hR : ∀ a, R a a) (x : Except ε α) : Agree R x x := by
  cases x with
  | error e => exact rfl
  | ok a => exact hR a

theorem Agree.bind {R : α → β → Prop} {S : α' → β' → Prop} {x : Except ε α} {y : Except ε β}
    {f : α → Except ε α'} {g : β → Except ε β'} (hxy : Agree R x y)
    (hfg : ∀ a b, R a b → Agree S (f a) (g b)) : Agree S (x >>= f) (y >>= g) := by
  cases x with
  | error e =>
    rw [hxy.of_error]
    exact rfl
  | ok a =>
    obtain ⟨b, rfl, hab⟩ := hxy.of_ok
    exact hfg a b hab

/-- States related by `R`, and the same event or the same events. -/
def Same (R : σ → τ → Prop) (p : σ × ω) (q : τ × ω) : Prop := R p.1 q.1 ∧ p.2 = q.2

section Exec

variable {halted : σ → Bool} {step : σ → ι → Except ε (σ × ω)}
  {halted' : τ → Bool} {step' : τ → ι → Except ε (τ × ω)} {R : σ → τ → Prop}

/-- Runs of programs whose steps agree. -/
theorem exec_agree (hhalt : ∀ s t, R s t → halted s = halted' t)
    (hstep : ∀ s t i, R s t → halted s = false → Agree (Same R) (step s i) (step' t i))
    {s : σ} {t : τ} (h : R s t) (is : List ι) :
    Agree (Same R) (Run.exec halted step s is) (Run.exec halted' step' t is) := by
  induction is generalizing s t with
  | nil => exact ⟨h, rfl⟩
  | cons i is ih =>
    cases hs : halted s with
    | true =>
      have ht : halted' t = true := (hhalt s t h).symm.trans hs
      rw [Run.exec_halted hs, Run.exec_halted ht]
      exact ⟨h, rfl⟩
    | false =>
      have ht : halted' t = false := (hhalt s t h).symm.trans hs
      rw [Run.exec, Run.exec, if_neg (by simp [hs]), if_neg (by simp [ht])]
      refine (hstep s t i h hs).bind fun p q hpq => ?_
      refine (ih hpq.1).bind fun p' q' hpq' => ?_
      exact ⟨hpq'.1, by rw [hpq.2, hpq'.2]⟩

end Exec

end Simulation
