import DrinkRobot.Arm.Bus

/-!
# Commands and the open bus

A session is any sequence of calls of the entry points. A call that stops with an error does not end
the session.

* `Guard`: what a monitor needs to know of the bus, whether the library is loaded and how often
  `dxl_initialize` was called. Both follow from the calls alone (`Guard.next`), whatever the library
  answers.
* `Guard.Allows`: the call finds the library loaded, or its own `dxl_initialize` succeeds.
* `commands_to_open_bus_iff`: all commands of a session go to a loaded library with an open port
  exactly when every call of it is allowed.
-/

namespace DrinkRobot

open Session

/-- A call of an entry point. -/
inductive Call where
  | setMotorTorques
  | motorsetup
  | moveDynamixelDirect (id : Nat) (position : ℚ)
  | moveDynamixelAngles (id : Nat) (theta : ℚ)
  | moveDynamixelSteps (vector : List (ℚ × ℚ))
  | tapglass
  | dropit (id : Nat)
  | wiggleit (id : Nat)
  | setdown
  | unloadLibrary

def Call.prog (sdk : Sdk) : Call → Arm Unit
  | .setMotorTorques => DrinkRobot.setMotorTorques sdk
  | .motorsetup => DrinkRobot.motorsetup sdk
  | .moveDynamixelDirect id position => DrinkRobot.moveDynamixelDirect sdk id position
  | .moveDynamixelAngles id theta => DrinkRobot.moveDynamixelAngles sdk id theta
  | .moveDynamixelSteps vector => DrinkRobot.moveDynamixelSteps sdk vector
  | .tapglass => DrinkRobot.tapglass sdk
  | .dropit id => DrinkRobot.dropit id
  | .wiggleit id => DrinkRobot.wiggleit sdk id
  | .setdown => DrinkRobot.setdown
  | .unloadLibrary => DrinkRobot.unloadLibrary

/-- The bus after a call, however it ended. -/
def Bus.after (sdk : Sdk) (s : Bus) (c : Call) : Bus := ((c.prog sdk).exec s).2

/-- The command went to a loaded library with an open port. -/
def Issued.ToOpenBus (e : Issued) : Prop := e.loaded = true ∧ e.isOpen = true

/-! ## The monitor -/

structure Guard where
  loaded : Bool
  inits : Nat

def Bus.guard (s : Bus) : Guard := ⟨s.loaded, s.inits⟩

/-- The guard after the library was loaded, and the port opened, unless it was loaded. -/
def Guard.ensure (g : Guard) : Guard := if g.loaded then g else ⟨true, g.inits + 1⟩

/-- The guard after a call. -/
def Guard.next (g : Guard) : Call → Guard
  | .setMotorTorques => ⟨true, g.inits + 1⟩
  | .motorsetup => if g.loaded then g else ⟨false, g.inits + 1⟩
  | .moveDynamixelDirect _ _ | .moveDynamixelAngles _ _ | .tapglass => g.ensure
  | .moveDynamixelSteps vector => if vector = [] then g else g.ensure
  | .dropit _ | .wiggleit _ => g
  | .setdown | .unloadLibrary => ⟨false, g.inits⟩

/-- The library is loaded, or `dxl_initialize` succeeds next. -/
def Guard.CanOpen (sdk : Sdk) (devIndex : Nat) (g : Guard) : Prop :=
  g.loaded = true ∨ sdk.dxlInitialize g.inits devIndex 1 = true

/-- The call finds the library loaded or opens the port itself. `set_motor_torques` opens it always,
`dropit` and `wiggleit` never; `setdown`, `unload_library` and the steps of no rows issue nothing. -/
def Guard.Allows (sdk : Sdk) (g : Guard) : Call → Prop
  | .setMotorTorques => sdk.dxlInitialize g.inits 5 1 = true
  | .motorsetup | .moveDynamixelDirect _ _ | .moveDynamixelAngles _ _ => g.CanOpen sdk 5
  | .moveDynamixelSteps vector => vector = [] ∨ g.CanOpen sdk 5
  | .tapglass => g.CanOpen sdk 3
  | .dropit _ | .wiggleit _ => g.loaded = true
  | .setdown | .unloadLibrary => True

/-! ## One call -/

/-- The port is open when the library is loaded. -/
def Bus.OpenIfLoaded (s : Bus) : Prop := s.loaded = true → s.isOpen = true

@[simp] theorem Bus.guard_issue (s : Bus) (cs : List Command) : (s.issue cs).guard = s.guard := rfl

theorem Bus.guard_guarded (sdk : Sdk) (devIndex : Nat) (s : Bus) :
    (s.guarded sdk devIndex).guard = s.guard.ensure := by
  obtain ⟨loaded, isOpen, inits, issued⟩ := s
  cases loaded <;> rfl

theorem Bus.issued_issue (s : Bus) (cs : List Command) :
    (s.issue cs).issued = s.issued ++ cs.map fun c => ⟨c, s.loaded, s.isOpen⟩ := rfl

/-- After the guard the port is open exactly when it could be opened. -/
theorem Bus.isOpen_guarded {sdk : Sdk} {devIndex : Nat} {s : Bus} (hI : s.OpenIfLoaded) :
    (s.guarded sdk devIndex).isOpen = true ↔ s.guard.CanOpen sdk devIndex := by
  obtain ⟨loaded, isOpen, inits, issued⟩ := s
  cases loaded with
  | false => exact (or_iff_right (by simp [Bus.guard])).symm
  | true => exact iff_of_true (hI rfl) (.inl rfl)

/-- Commands are all to the open bus when the bus is open, if there are any. -/
theorem toOpenBus_map {cs : List Command} (hcs : cs ≠ []) (loaded isOpen : Bool) :
    (∀ e ∈ cs.map fun c => (⟨c, loaded, isOpen⟩ : Issued), e.ToOpenBus) ↔
      loaded = true ∧ isOpen = true := by
  obtain ⟨c, cs, rfl⟩ := List.exists_cons_of_ne_nil hcs
  rw [List.forall_mem_map]
  constructor
  · intro h
    exact h c (by simp)
  · rintro h c' -
    exact h

/-- The bus goes from `s` to `s'`, its guard to `g'`; commands are added to the log, all of them to
the open bus exactly when `allowed`, and then an open port stays open while the library is loaded. -/
structure Watched (s s' : Bus) (g' : Guard) (allowed : Prop) : Prop where
  guard_eq : s'.guard = g'
  inv : s.OpenIfLoaded → allowed → s'.OpenIfLoaded
  log : ∃ new, s'.issued = s.issued ++ new ∧
    (s.OpenIfLoaded → ((∀ e ∈ new, e.ToOpenBus) ↔ allowed))

/-- Commands on the bus as it is. -/
theorem watched_issue {s : Bus} {cs : List Command} (hcs : cs ≠ []) :
    Watched s (s.issue cs) s.guard (s.guard.loaded = true) where
  guard_eq := rfl
  inv := fun hI _ => hI
  log := by
    refine ⟨_, s.issued_issue cs, fun hI => ?_⟩
    rw [toOpenBus_map hcs]
    exact and_iff_left_of_imp hI

/-- Commands after the guard. -/
theorem watched_guarded (sdk : Sdk) (devIndex : Nat) (s : Bus) {cs : List Command} (hcs : cs ≠ []) :
    Watched s ((s.guarded sdk devIndex).issue cs) s.guard.ensure (s.guard.CanOpen sdk devIndex) where
  guard_eq := by rw [Bus.guard_issue, Bus.guard_guarded]
  inv := fun hI hopen _ => (Bus.isOpen_guarded hI).mpr hopen
  log := by
    refine ⟨_, by rw [Bus.issued_issue, Bus.issued_guarded], fun hI => ?_⟩
    rw [toOpenBus_map hcs, Bus.loaded_guarded, Bus.isOpen_guarded hI]
    exact and_iff_right rfl

/-- Commands after a new `dxl_initialize`. -/
theorem watched_opened (sdk : Sdk) (devIndex : Nat) (s : Bus) {cs : List Command} (hcs : cs ≠ []) :
    Watched s ((s.opened sdk devIndex).issue cs) ⟨true, s.inits + 1⟩
      (sdk.dxlInitialize s.inits devIndex 1 = true) where
  guard_eq := rfl
  inv := fun _ hopen _ => hopen
  log := by
    refine ⟨_, Bus.issued_issue _ cs, fun _ => ?_⟩
    rw [toOpenBus_map hcs, Bus.loaded_opened]
    exact and_iff_right rfl

/-- Nothing is issued. -/
theorem watched_silent {s s' : Bus} (h : s'.issued = s.issued)
    (hI : s.OpenIfLoaded → s'.OpenIfLoaded) : Watched s s' s'.guard True where
  guard_eq := rfl
  inv := fun hs _ => hI hs
  log := ⟨[], by rw [h, List.append_nil], fun _ => by simp⟩

/-- The port is closed and the library unloaded after the commands. -/
theorem Watched.closed {s s' : Bus} {g' : Guard} {allowed : Prop} (h : Watched s s' g' allowed) :
    Watched s { s' with loaded := false, isOpen := false } ⟨false, g'.inits⟩ allowed where
  guard_eq := by
    have := h.guard_eq
    subst this
    rfl
  inv := fun _ _ hl => by cases hl
  log := h.log

theorem watched_close (s : Bus) :
    Watched s ((dxlTerminate >>= fun _ => unloadlibrary).exec s).2 ⟨false, s.inits⟩ True := by
  cases h : s.loaded with
  | false =>
    rw [close_exec_unloaded h]
    have := watched_silent (s := s) rfl id
    rwa [Bus.guard, h] at this
  | true =>
    rw [close_exec h]
    exact (watched_silent rfl id).closed

theorem setupCommands_ne_nil (speed4 : ℚ) : setupCommands speed4 ≠ [] := by simp [setupCommands]

theorem flatMap_stepCommands_ne_nil {vector : List (ℚ × ℚ)} (h : vector ≠ []) :
    vector.flatMap stepCommands ≠ [] := by
  obtain ⟨row, vector, rfl⟩ := List.exists_cons_of_ne_nil h
  simp [stepCommands]

/-- One call, for each entry point. -/
theorem after_watched (sdk : Sdk) (s : Bus) (c : Call) :
    Watched s (s.after sdk c) (s.guard.next c) (s.guard.Allows sdk c) := by
  cases c <;> simp only [Bus.after, Call.prog]
  case setMotorTorques =>
    rw [setMotorTorques_exec]
    exact watched_opened sdk 5 s (by simp)
  case motorsetup =>
    rw [motorsetup_exec]
    cases h : s.loaded with
    | false =>
      have := (watched_guarded sdk 5 s (setupCommands_ne_nil 350)).closed
      simpa [Guard.next, Guard.Allows, Guard.ensure, Bus.guarded, Bus.guard, h] using this
    | true =>
      have := watched_guarded sdk 5 s (setupCommands_ne_nil 130)
      simpa [Guard.next, Guard.Allows, Guard.ensure, Bus.guarded, Bus.guard, h] using this
  case moveDynamixelDirect id position =>
    rw [moveDynamixelDirect_exec]
    exact watched_guarded sdk 5 s (by simp)
  case moveDynamixelAngles id theta =>
    rw [moveDynamixelAngles_exec]
    exact watched_guarded sdk 5 s (by simp)
  case moveDynamixelSteps vector =>
    rw [moveDynamixelSteps_exec]
    -- without a row nothing is checked and nothing is sent
    by_cases hv : vector = []
    · have := watched_silent (s := s) rfl id
      simpa [Guard.next, Guard.Allows, hv] using this
    · have := watched_guarded sdk 5 s (flatMap_stepCommands_ne_nil hv)
      simpa [Guard.next, Guard.Allows, hv] using this
  case tapglass =>
    rw [tapglass_exec]
    exact watched_guarded sdk 3 s (by simp)
  case dropit id =>
    cases h : s.loaded with
    | false =>
      rw [dropit_exec_unloaded h]
      exact watched_issue (by simp)
    | true =>
      rw [dropit_exec h]
      exact watched_issue (by simp [dropCommands])
  case wiggleit id =>
    cases h : s.loaded with
    | false =>
      rw [wiggleit_exec_unloaded h]
      exact watched_issue (by simp)
    | true =>
      rw [wiggleit_exec h]
      exact watched_issue (by simp)
  case setdown => exact watched_close s
  case unloadLibrary => exact watched_close s

/-! ## Sessions -/

/-- The bus after the calls, from the unloaded library. -/
def session (sdk : Sdk) (calls : List Call) : Bus := calls.foldl (Bus.after sdk) Bus.start

theorem monitored (sdk : Sdk) :
    Monitored (Bus.after sdk) Bus.issued Issued.ToOpenBus Bus.guard Guard.next
      (fun g => g.Allows sdk) Bus.OpenIfLoaded where
  abs_step := fun s c => (after_watched sdk s c).guard_eq
  inv_step := fun s c => (after_watched sdk s c).inv
  log_step := fun s c => (after_watched sdk s c).log

/-- **When every command goes to an open bus.** For all answers of the library and every sequence of
calls: every write and read is issued while the library is loaded and the last `dxl_initialize`
since the last `dxl_terminate` succeeded, exactly when every call finds the library loaded or its
own `dxl_initialize` succeeds. -/
theorem commands_to_open_bus_iff (sdk : Sdk) (calls : List Call) :
    (∀ e ∈ (session sdk calls).issued, e.ToOpenBus) ↔
      Meets Guard.next (fun g => g.Allows sdk) ⟨false, 0⟩ calls := by
  have h := (monitored sdk).good_iff_meets (s := Bus.start) (by simp [Bus.OpenIfLoaded, Bus.start])
    calls
  refine h.trans (and_iff_right ?_)
  simp [Bus.start]

/-- The port does not open, and the goal position is written all the same. -/
theorem write_to_closed_port :
    ¬ ∀ e ∈ (session ⟨fun _ _ _ => false, fun _ => 0⟩ [.moveDynamixelDirect 1 512]).issued,
      e.ToOpenBus := by
  have h : (session ⟨fun _ _ _ => false, fun _ => 0⟩ [.moveDynamixelDirect 1 512]).issued =
      [⟨.dxlWriteWord 1 30 512, true, false⟩] := by decide +kernel
  rw [h]
  simp [Issued.ToOpenBus]

end DrinkRobot
