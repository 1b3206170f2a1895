import DrinkRobot.Lib.Run

/-!
# Loops that poll

`doWhile again body` is `do body; while (again);`. Each round takes one input from the environment,
so the inputs say how many rounds are looked at: the loop may end before they are used up, or still
be going when they are.

* `doWhile_invariant`: an invariant of the rounds, and what the last round does.
* `doWhile_ends`: a loop whose rounds make a measure smaller ends.
* `doWhile_goes`: a loop whose rounds all ask for another one does not.
-/

namespace Polling

variable {ε σ ι : Type}

/-- The state after the inputs, and whether the loop has ended. -/
def doWhile (again : σ → Bool) (body : σ → ι → Except ε σ) : σ → List ι → Except ε (σ × Bool)
  | s, [] => .ok (s, false)
  | s, i :: is => do
    let s ← body s i
    if again s then doWhile again body s is else pure (s, true)

/-- What holds of a round: of the state when it asks for another one, of the state when it is the
last one, of its error. -/
def Round (again : σ → Bool) (Goes Ends : σ → Prop) (Fails : ε → Prop) : Except ε σ → Prop
  | .ok s => if again s then Goes s else Ends s
  | .error e => Fails e

/-- What holds of a loop: of the state while it is going, of the state it ends in, of its error. -/
def Loop (Goes Ends : σ → Prop) (Fails : ε → Prop) : Except ε (σ × Bool) → Prop
  | .ok (s, false) => Goes s
  | .ok (s, true) => Ends s
  | .error e => Fails e

section Rules

variable {again : σ → Bool} {body : σ → ι → Except ε σ} {I : σ → Prop} {P : ι → Prop}
  {Ends : σ → Prop} {Fails : ε → Prop} {s : σ} {is : List ι}

theorem Round.goes {Goes : σ → Prop} (ha : again s = true) (h : Goes s) :
    Round again Goes Ends Fails (.ok s) := by
  rwa [Round, if_pos ha]

theorem Round.ends {Goes : σ → Prop} (ha : again s = false) (h : Ends s) :
    Round again Goes Ends Fails (.ok s) := by
  rwa [Round, if_neg (by simp [ha])]

theorem Round.mono {Goes Goes' Ends' : σ → Prop} {Fails' : ε → Prop} {x : Except ε σ}
    (h : Round again Goes Ends Fails x) (hgoes : ∀ s, Goes s → Goes' s)
    (hends : ∀ s, Ends s → Ends' s) (hfails : ∀ e, Fails e → Fails' e) :
    Round again Goes' Ends' Fails' x := by
  cases x with
  | error e => exact hfails e h
  | ok s =>
    change if again s then Goes s else Ends s at h
    change if again s then Goes' s else Ends' s
    split at h
    · rw [if_pos ‹_›]; exact hgoes s h
    · rw [if_neg ‹_›]; exact hends s h

/-- The first round of a loop. -/
theorem doWhile_cons {i : ι} {Goes : σ → Prop}
    (h : Round again (fun s' => Loop Goes Ends Fails (doWhile again body s' is)) Ends Fails
      (body s i)) :
    Loop Goes Ends Fails (doWhile again body s (i :: is)) := by
  rw [doWhile]
  cases hb : body s i with
  | error e =>
    rw [hb] at h
    exact h
  | ok s' =>
    rw [hb] at h
    change if again s' then Loop Goes Ends Fails (doWhile again body s' is) else Ends s' at h
    change Loop Goes Ends Fails (if again s' then doWhile again body s' is else pure (s', true))
    split at h
    · rwa [if_pos ‹_›]
    · rw [if_neg ‹_›]; exact h

/-- An error of a loop is an error of a round. -/
theorem doWhile_error {e : ε} (h : doWhile again body s is = .error e) :
    ∃ s' i, body s' i = .error e := by
  induction is generalizing s with
  | nil => cases h
  | cons i is ih =>
    rw [doWhile] at h
    rcases Run.bind_error.mp h with hb | ⟨s', -, h⟩
    · exact ⟨s, i, hb⟩
    · split at h
      · exact ih h
      · cases h

/-- What every round keeps holds while the loop is going. -/
theorem doWhile_invariant (hround : ∀ s i, I s → P i → Round again I Ends Fails (body s i))
    (hs : I s) (his : ∀ i ∈ is, P i) : Loop I Ends Fails (doWhile again body s is) := by
  induction is generalizing s with
  | nil => exact hs
  | cons i is ih =>
    apply doWhile_cons
    refine (hround s i hs (his i (by simp))).mono (fun s' hs' => ?_) (fun _ h => h) (fun _ h => h)
    exact ih hs' fun j hj => his j (by simp [hj])

/-- A loop whose rounds make `m` smaller ends, when there is an input for each unit of `m`. -/
theorem doWhile_ends {m : σ → Nat}
    (hround : ∀ s i, I s → P i → Round again (fun s' => I s' ∧ m s' < m s) Ends Fails (body s i))
    (hpos : ∀ s, I s → 0 < m s) (hs : I s) (his : ∀ i ∈ is, P i) (hm : m s ≤ is.length) :
    Loop (fun _ => False) Ends Fails (doWhile again body s is) := by
  induction is generalizing s with
  | nil =>
    have hs0 := hpos s hs
    rw [List.length_nil] at hm
    omega
  | cons i is ih =>
    apply doWhile_cons
    refine (hround s i hs (his i (by simp))).mono (fun s' hs' => ?_) (fun _ h => h) (fun _ h => h)
    rw [List.length_cons] at hm
    exact ih hs'.1 (fun j hj => his j (by simp [hj])) (by omega)

/-- A loop whose rounds all ask for another one is still going after any number of rounds. The
invariant may count the rounds that are left. -/
theorem doWhile_goes {I : Nat → σ → Prop}
    (hround : ∀ n s i, I (n + 1) s → P i → ∃ s', body s i = .ok s' ∧ again s' = true ∧ I n s')
    (hs : I is.length s) (his : ∀ i ∈ is, P i) :
    ∃ s', doWhile again body s is = .ok (s', false) ∧ I 0 s' := by
  induction is generalizing s with
  | nil => exact ⟨s, rfl, hs⟩
  | cons i is ih =>
    obtain ⟨s', hb, hagain, hs'⟩ := hround is.length s i hs (his i (by simp))
    obtain ⟨s'', hrest, hs''⟩ := ih hs' fun j hj => his j (by simp [hj])
    refine ⟨s'', ?_, hs''⟩
    rw [doWhile, Run.bind_of_ok hb, if_pos hagain, hrest]

end Rules

end Polling
