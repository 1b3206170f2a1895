import Mathlib.Data.List.Basic

/-!
# Sessions of programs that log what they do

A program changes a state and may stop with an error; the state it stopped in is kept. A session
runs one program after the other, whatever each of them ended with.

* `run_bind_ok`, `run_forM_ok`: what a sequence and a loop do, from what their parts do.
* `Monitored`: the state has a log, and an abstract state that a monitor can compute from the inputs
  alone, such that the events a step adds to the log are good exactly when the monitor allows it.
* `good_iff_meets`: then all events of a session are good exactly when the monitor allows all of its
  steps.
-/

namespace Session

/-! ## Programs -/

/-- A program over a state `σ` that may stop with an error of `ε`. -/
abbrev Prog (ε σ α : Type) : Type := ExceptT ε (StateM σ) α

section Prog

variable {ε σ α β ι : Type} {s s' : σ}

/-- What a program ends with, and the state it leaves. -/
def Prog.exec (c : Prog ε σ α) (s : σ) : Except ε α × σ := StateT.run c.run s

theorem run_bind_ok {c : Prog ε σ α} {f : α → Prog ε σ β} {a : α} (h : c.exec s = (.ok a, s')) :
    (c >>= f).exec s = (f a).exec s' := by
  unfold Prog.exec at h ⊢
  rw [ExceptT.run_bind, StateT.run_bind, h]
  rfl

/-- A computation that does not touch the state. -/
theorem run_ofExcept_ok {x : Except ε α} {f : α → Prog ε σ β} {a : α} (h : x = .ok a) (s : σ) :
    (MonadExcept.ofExcept x >>= f).exec s = (f a).exec s := by
  rw [h]
  rfl

theorem run_ofExcept_error {x : Except ε α} {f : α → Prog ε σ β} {e : ε} (h : x = .error e) (s : σ) :
    (MonadExcept.ofExcept x >>= f).exec s = (.error e, s) := by
  rw [h]
  rfl

/-- A loop whose body does not stop runs over the whole list. -/
theorem run_forM_ok {f : ι → Prog ε σ PUnit} {g : σ → ι → σ}
    (h : ∀ s i, (f i).exec s = (.ok ⟨⟩, g s i)) (is : List ι) (s : σ) :
    (forM is f).exec s = (.ok ⟨⟩, is.foldl g s) := by
  induction is generalizing s with
  | nil => rfl
  | cons i is ih =>
    rw [List.forM_cons, run_bind_ok (h s i), ih, List.foldl_cons]

end Prog

/-! ## Monitors -/

section Monitor

variable {σ ι ω κ : Type}

/-- The monitor allows every step. -/
def Meets (next : κ → ι → κ) (ok : κ → ι → Prop) : κ → List ι → Prop
  | _, [] => True
  | k, i :: is => ok k i ∧ Meets next ok (next k i) is

/-- `abs` and the monitor `next`, `ok` watch the steps: the log only grows, a step that the monitor
allows keeps `I`, and from a state of `I` it adds good events exactly when it is allowed. -/
structure Monitored (step : σ → ι → σ) (log : σ → List ω) (good : ω → Prop) (abs : σ → κ)
    (next : κ → ι → κ) (ok : κ → ι → Prop) (I : σ → Prop) : Prop where
  abs_step : ∀ s i, abs (step s i) = next (abs s) i
  inv_step : ∀ s i, I s → ok (abs s) i → I (step s i)
  log_step : ∀ s i, ∃ new, log (step s i) = log s ++ new ∧
    (I s → ((∀ e ∈ new, good e) ↔ ok (abs s) i))

variable {step : σ → ι → σ} {log : σ → List ω} {good : ω → Prop} {abs : σ → κ}
  {next : κ → ι → κ} {ok : κ → ι → Prop} {I : σ → Prop}

/-- The log of a session only grows. -/
theorem Monitored.mem_log (h : Monitored step log good abs next ok I) {s : σ} {e : ω}
    (he : e ∈ log s) (is : List ι) : e ∈ log (is.foldl step s) := by
  induction is generalizing s with
  | nil => exact he
  | cons i is ih =>
    obtain ⟨new, hnew, -⟩ := h.log_step s i
    apply ih
    rw [hnew]
    exact List.mem_append_left _ he

/-- All events of a session are good exactly when those before it are and the monitor allows all of
its steps. -/
theorem Monitored.good_iff_meets (h : Monitored step log good abs next ok I) {s : σ} (hI : I s)
    (is : List ι) :
    (∀ e ∈ log (is.foldl step s), good e) ↔
      (∀ e ∈ log s, good e) ∧ Meets next ok (abs s) is := by
  induction is generalizing s with
  | nil => exact (and_iff_left trivial).symm
  | cons i is ih =>
    obtain ⟨new, hnew, hok⟩ := h.log_step s i
    have hlog : (∀ e ∈ log (step s i), good e) ↔ (∀ e ∈ log s, good e) ∧ ok (abs s) i := by
      rw [hnew, ← hok hI, List.forall_mem_append]
    by_cases hi : ok (abs s) i
    · rw [List.foldl_cons, ih (h.inv_step s i hI hi), hlog, h.abs_step, and_assoc]
      rfl
    · -- a bad event of this step stays in the log
      constructor
      · intro hall
        exact absurd (hlog.mp fun e he => hall e (h.mem_log he is)).2 hi
      · intro hmeets
        exact absurd hmeets.2.1 hi

end Monitor

end Session
