import Mathlib.Data.List.Induction

/-!
# Runs of a program that can stop with an error

A program is a start state and a step that takes one input and may fail. `run` feeds it a list
of inputs; a failure ends the run.

* `run_append`, `run_snoc`: a run is a run of its first inputs followed by a run of the rest, so
  every state of a run is the end of a shorter run.
* `run_invariant`: an invariant that every step keeps holds at the end of every run.
* `run_history`: the same for a relation between the inputs so far and the state.
* `exec`: a program that reports an event at each step and ends by itself. `exec_split` and
  `exec_at` cut its runs, `exec_history` and `exec_invariant` are as above, and `exec_follows` says
  when its events follow a script.
-/

namespace Run

variable {ε σ ι α β : Type}

theorem bind_ok {x : Except ε α} {f : α → Except ε β} {b : β} :
    (x >>= f) = .ok b ↔ ∃ a, x = .ok a ∧ f a = .ok b := by
  cases x with
  | error e => simp [bind, Except.bind]
  | ok a => simp [bind, Except.bind]

theorem bind_of_ok {x : Except ε α} {f : α → Except ε β} {a : α} (h : x = .ok a) :
    (x >>= f) = f a := by
  rw [h]
  rfl

theorem bind_error {x : Except ε α} {f : α → Except ε β} {e : ε} :
    (x >>= f) = .error e ↔ x = .error e ∨ ∃ a, x = .ok a ∧ f a = .error e := by
  cases x with
  | error e' => simp [bind, Except.bind]
  | ok a => simp [bind, Except.bind]

theorem exists_ok {x : Except ε α} (h : x.isOk = true) : ∃ a, x = .ok a := by
  cases x with
  | error e => cases h
  | ok a => exact ⟨a, rfl⟩

/-- The state after the inputs `is`. -/
def run (step : σ → ι → Except ε σ) (s : σ) (is : List ι) : Except ε σ := is.foldlM step s

variable {step : σ → ι → Except ε σ}

theorem run_cons {s s' : σ} {i : ι} {is : List ι} :
    run step s (i :: is) = .ok s' ↔ ∃ m, step s i = .ok m ∧ run step m is = .ok s' := by
  unfold run
  rw [List.foldlM_cons, bind_ok]

theorem run_append {s s' : σ} {is js : List ι} :
    run step s (is ++ js) = .ok s' ↔
      ∃ m, run step s is = .ok m ∧ run step m js = .ok s' := by
  unfold run
  rw [List.foldlM_append, bind_ok]

theorem run_snoc {s s' : σ} {is : List ι} {i : ι} :
    run step s (is ++ [i]) = .ok s' ↔ ∃ m, run step s is = .ok m ∧ step m i = .ok s' := by
  rw [run_append]
  simp [run]

/-- An invariant that every step keeps holds at the end of every run. -/
theorem run_invariant {I : σ → Prop} (hstep : ∀ s i s', I s → step s i = .ok s' → I s')
    {s s' : σ} {is : List ι} (h0 : I s) (h : run step s is = .ok s') : I s' := by
  induction is generalizing s with
  | nil => cases h; exact h0
  | cons i is ih =>
    obtain ⟨m, hm, hrest⟩ := run_cons.mp h
    exact ih (hstep s i m h0 hm) hrest

/-- A relation between inputs and state that every step of a run keeps holds at its end. -/
theorem run_history {R : List ι → σ → Prop} {s : σ} (h0 : R [] s)
    (hstep : ∀ is m i s', run step s is = .ok m → R is m → step m i = .ok s' → R (is ++ [i]) s')
    {is : List ι} {s' : σ} (h : run step s is = .ok s') : R is s' := by
  induction is using List.reverseRecOn generalizing s' with
  | nil => cases h; exact h0
  | append_singleton is i ih =>
    obtain ⟨m, hm, hi⟩ := run_snoc.mp h
    exact hstep is m i s' hm (ih hm) hi

/-! ## Programs that report events and end by themselves -/

variable {ω μ : Type}

/-- The state and the events after the inputs `is`, one event for each input taken. A halted state
takes no input. -/
def exec (halted : σ → Bool) (step : σ → ι → Except ε (σ × ω)) :
    σ → List ι → Except ε (σ × List ω)
  | s, [] => .ok (s, [])
  | s, i :: is =>
    if halted s then .ok (s, [])
    else do
      let (m, e) ← step s i
      let (s', es) ← exec halted step m is
      pure (s', e :: es)

section Exec

variable {halted : σ → Bool} {step : σ → ι → Except ε (σ × ω)}

theorem exec_halted {s : σ} (h : halted s = true) (is : List ι) :
    exec halted step s is = .ok (s, []) := by
  cases is with
  | nil => rfl
  | cons i is => rw [exec, if_pos h]

theorem exec_cons {s s' : σ} {i : ι} {is : List ι} {es : List ω} (hs : halted s = false)
    (h : exec halted step s (i :: is) = .ok (s', es)) :
    ∃ m e es', step s i = .ok (m, e) ∧ exec halted step m is = .ok (s', es') ∧ es = e :: es' := by
  rw [exec, if_neg (by simp [hs])] at h
  obtain ⟨⟨m, e⟩, hm, h⟩ := bind_ok.mp h
  obtain ⟨⟨s'', es'⟩, hrest, h⟩ := bind_ok.mp h
  cases h
  exact ⟨m, e, es', hm, hrest, rfl⟩

/-- An event was reported by a step. -/
theorem exec_event {s s' : σ} {is : List ι} {e : ω} {es : List ω}
    (h : exec halted step s is = .ok (s', e :: es)) :
    ∃ i is' m, is = i :: is' ∧ halted s = false ∧ step s i = .ok (m, e) ∧
      exec halted step m is' = .ok (s', es) := by
  cases is with
  | nil => cases h
  | cons i is =>
    cases hs : halted s with
    | true => rw [exec_halted hs] at h; cases h
    | false =>
      obtain ⟨m, e', es', hm, hrest, he⟩ := exec_cons hs h
      cases he
      exact ⟨i, is, m, rfl, rfl, hm, hrest⟩

/-- An error of a run was raised by a step. -/
theorem exec_error {s : σ} {is : List ι} {e : ε} (h : exec halted step s is = .error e) :
    ∃ m, ∃ i ∈ is, step m i = .error e := by
  induction is generalizing s with
  | nil => cases h
  | cons i is ih =>
    cases hs : halted s with
    | true => rw [exec_halted hs] at h; cases h
    | false =>
      rw [exec, if_neg (by simp [hs])] at h
      rcases bind_error.mp h with hi | ⟨p, -, h⟩
      · exact ⟨s, i, by simp, hi⟩
      · rcases bind_error.mp h with hrest | ⟨q, -, h⟩
        · obtain ⟨m, j, hj, hm⟩ := ih hrest
          exact ⟨m, j, by simp [hj], hm⟩
        · cases h

/-- A run can be cut after any of its events. -/
theorem exec_split {s s' : σ} {is : List ι} {es₁ es₂ : List ω}
    (h : exec halted step s is = .ok (s', es₁ ++ es₂)) :
    ∃ m, exec halted step s (is.take es₁.length) = .ok (m, es₁) ∧
      exec halted step m (is.drop es₁.length) = .ok (s', es₂) := by
  induction es₁ generalizing s is with
  | nil => exact ⟨s, by cases is <;> rfl, h⟩
  | cons e es₁ ih =>
    obtain ⟨i, is', m, rfl, hs, hm, hrest⟩ := exec_event h
    obtain ⟨m', h1, h2⟩ := ih hrest
    refine ⟨m', ?_, h2⟩
    rw [List.length_cons, List.take_succ_cons, exec, if_neg (by simp [hs]), hm]
    show (exec halted step m (is'.take es₁.length) >>= _) = _
    rw [h1]
    rfl

/-- Event `k` of a run was reported by a step, from the state after the events before it. -/
theorem exec_at {s s' : σ} {is : List ι} {es : List ω} {k : Nat} {e : ω}
    (h : exec halted step s is = .ok (s', es)) (hk : es[k]? = some e) :
    ∃ m i m', exec halted step s (is.take k) = .ok (m, es.take k) ∧ is[k]? = some i ∧
      halted m = false ∧ step m i = .ok (m', e) ∧
      exec halted step m' (is.drop (k + 1)) = .ok (s', es.drop (k + 1)) := by
  obtain ⟨hlt, hget⟩ := List.getElem?_eq_some_iff.mp hk
  have hlen : (es.take k).length = k := List.length_take_of_le (Nat.le_of_lt hlt)
  have hes : es = es.take k ++ e :: es.drop (k + 1) := by
    rw [← hget, ← List.drop_eq_getElem_cons hlt, List.take_append_drop]
  rw [hes] at h
  obtain ⟨m, h1, h2⟩ := exec_split h
  rw [hlen] at h1 h2
  obtain ⟨i, is', m', his, hm, hstep, hrest⟩ := exec_event h2
  refine ⟨m, i, m', h1, ?_, hm, hstep, ?_⟩
  · rw [← List.head?_drop, his]
    rfl
  · rw [← List.drop_drop, his]
    exact hrest

/-- Two events in a row were reported by two steps in a row. -/
theorem exec_at_succ {s s' : σ} {is : List ι} {es : List ω} {k : Nat} {e e₁ : ω}
    (h : exec halted step s is = .ok (s', es)) (hk : es[k]? = some e) (hk₁ : es[k + 1]? = some e₁) :
    ∃ m i m₁ i₁ m₂, exec halted step s (is.take k) = .ok (m, es.take k) ∧ is[k]? = some i ∧
      step m i = .ok (m₁, e) ∧ step m₁ i₁ = .ok (m₂, e₁) := by
  obtain ⟨m, i, m₁, hm, hi, -, hstep, hrest⟩ := exec_at h hk
  have hhead : (es.drop (k + 1))[0]? = some e₁ := by rw [List.getElem?_drop, Nat.add_zero, hk₁]
  obtain ⟨m', i₁, m₂, hm', -, -, hstep₁, -⟩ := exec_at hrest hhead
  rw [List.take_zero, List.take_zero] at hm'
  cases hm'
  exact ⟨m, i, m₁, i₁, m₂, hm, hi, hstep, hstep₁⟩

theorem exec_single {step : σ → ι → Except ε (σ × ω)} {s s' : σ} {i : ι} {e : ω}
    (h : step s i = .ok (s', e)) : exec (fun _ => false) step s [i] = .ok (s', [e]) := by
  rw [exec, if_neg (by simp), bind_of_ok h]
  rfl

/-- A run that does not halt goes on with more inputs. -/
theorem exec_append {step : σ → ι → Except ε (σ × ω)} {s m s' : σ} {is js : List ι} {es es' : List ω}
    (h : exec (fun _ => false) step s is = .ok (m, es))
    (h' : exec (fun _ => false) step m js = .ok (s', es')) :
    exec (fun _ => false) step s (is ++ js) = .ok (s', es ++ es') := by
  induction is generalizing s es with
  | nil =>
    cases h
    exact h'
  | cons i is ih =>
    obtain ⟨k, e, es₁, hstep, hrest, rfl⟩ := exec_cons rfl h
    rw [List.cons_append, exec, if_neg (by simp), bind_of_ok hstep]
    simp only
    rw [bind_of_ok (ih hrest)]
    rfl

/-- A run stops because its state has halted or because the inputs are used up. -/
theorem exec_length {s s' : σ} {is : List ι} {es : List ω}
    (h : exec halted step s is = .ok (s', es)) : halted s' = true ∨ es.length = is.length := by
  induction is generalizing s es with
  | nil => cases h; exact .inr rfl
  | cons i is ih =>
    cases hs : halted s with
    | true => rw [exec_halted hs] at h; cases h; exact .inl hs
    | false =>
      obtain ⟨m, e, es', -, hrest, rfl⟩ := exec_cons hs h
      exact (ih hrest).imp id fun hlen => by rw [List.length_cons, List.length_cons, hlen]

/-- There is at most one event for each input. -/
theorem exec_length_le {s s' : σ} {is : List ι} {es : List ω}
    (h : exec halted step s is = .ok (s', es)) : es.length ≤ is.length := by
  induction is generalizing s es with
  | nil => cases h; exact Nat.le_refl _
  | cons i is ih =>
    cases hs : halted s with
    | true => rw [exec_halted hs] at h; cases h; exact Nat.zero_le _
    | false =>
      obtain ⟨m, e, es', -, hrest, rfl⟩ := exec_cons hs h
      exact Nat.succ_le_succ (ih hrest)

/-- A relation between the log of events with their inputs and the state that every step keeps
holds at the end of every run. -/
theorem exec_history {R : List (ω × ι) → σ → Prop}
    (hstep : ∀ log m i s' e, R log m → halted m = false → step m i = .ok (s', e) →
      R (log ++ [(e, i)]) s')
    (log : List (ω × ι)) {s s' : σ} {is : List ι} {es : List ω} (h0 : R log s)
    (h : exec halted step s is = .ok (s', es)) : R (log ++ es.zip is) s' := by
  induction is generalizing s es log with
  | nil => cases h; simpa using h0
  | cons i is ih =>
    cases hs : halted s with
    | true => rw [exec_halted hs] at h; cases h; simpa using h0
    | false =>
      obtain ⟨m, e, es', hm, hrest, rfl⟩ := exec_cons hs h
      have := ih _ (hstep _ _ _ _ _ h0 hs hm) hrest
      rwa [List.append_assoc] at this

/-- An invariant that every step keeps holds at the end of every run. -/
theorem exec_invariant {I : σ → Prop}
    (hstep : ∀ m i s' e, I m → halted m = false → step m i = .ok (s', e) → I s')
    {s s' : σ} {is : List ι} {es : List ω} (h0 : I s)
    (h : exec halted step s is = .ok (s', es)) : I s' :=
  exec_history (R := fun _ s => I s) (fun _ m i s' e => hstep m i s' e) [] h0 h

/-- **Following a script.** When `T s ms` says that from `s` on the marks `ms` are to come, and
every step takes the first of them, the events of a run are the first marks of the script. -/
theorem exec_follows {T : σ → List μ → Prop} {mark : ω → μ}
    (hstep : ∀ s ms i s' e, T s ms → halted s = false → step s i = .ok (s', e) →
      ∃ ms', ms = mark e :: ms' ∧ T s' ms')
    {s s' : σ} {ms : List μ} {is : List ι} {es : List ω} (h0 : T s ms)
    (h : exec halted step s is = .ok (s', es)) : ∃ ms', ms = es.map mark ++ ms' ∧ T s' ms' := by
  induction is generalizing s es ms with
  | nil => cases h; exact ⟨ms, rfl, h0⟩
  | cons i is ih =>
    cases hs : halted s with
    | true => rw [exec_halted hs] at h; cases h; exact ⟨ms, rfl, h0⟩
    | false =>
      obtain ⟨m, e, es', hm, hrest, rfl⟩ := exec_cons hs h
      obtain ⟨ms₁, rfl, hT⟩ := hstep _ _ _ _ _ h0 hs hm
      obtain ⟨ms', rfl, hT'⟩ := ih hT hrest
      exact ⟨ms', rfl, hT'⟩

end Exec

end Run
