import DrinkRobot.Lib.Session
import DrinkRobot.Matlab

/-!
# The servo library and the commands of the arm

* `Bus`: whether the library is loaded, whether the port is open, and every command issued so far
  with both flags as they were then. A command on the unloaded library is issued, and is an error.
* `Sdk`: what the library answers, `dxl_initialize` with success or 0 and `dxl_read_word` with a
  word.
* The entry points, with the words of the scripts. A script that loads the library does not look
  at the result of `dxl_initialize`.
* The `*_exec` lemmas: what each entry point ends with, and the bus it leaves.

`dxl_initialize` closes the port before it opens it. The waits are left out.
-/

namespace DrinkRobot

/-! ## The library -/

/-- A word written to, or read from, a register of a servo. -/
inductive Command where
  | dxlWriteWord (id address : Nat) (value : ℚ)
  | dxlReadWord (id address : Nat)
deriving DecidableEq

/-- A command and the bus it was issued on. -/
structure Issued where
  command : Command
  loaded : Bool
  isOpen : Bool
deriving DecidableEq

structure Bus where
  loaded : Bool
  isOpen : Bool
  /-- The number of `dxl_initialize` so far. -/
  inits : Nat
  issued : List Issued
deriving DecidableEq

/-- The answers of the library: to the `n`th `dxl_initialize`, and to a read after `n` commands. -/
structure Sdk where
  dxlInitialize (n devIndex baudnum : Nat) : Bool
  dxlReadWord (n : Nat) : UInt16

/-- MATLAB is started: the library is not loaded. -/
def Bus.start : Bus := ⟨false, false, 0, []⟩

/-- The bus after the commands `cs`. -/
def Bus.issue (s : Bus) (cs : List Command) : Bus :=
  { s with issued := s.issued ++ cs.map fun c => ⟨c, s.loaded, s.isOpen⟩ }

abbrev Arm (α : Type) : Type := Session.Prog MatlabError Bus α

def libisloaded : Arm Bool := do
  let s ← get
  return s.loaded

def loadlibrary : Arm Unit := modify fun s => { s with loaded := true }

/-- A call into the library is an error when it is not loaded. -/
def calllib : Arm Unit := do
  if ← libisloaded then
    pure ()
  else
    throw .armFailed

def dxlInitialize (sdk : Sdk) (devIndex baudnum : Nat) : Arm Bool := do
  calllib
  let s ← get
  let res := sdk.dxlInitialize s.inits devIndex baudnum
  set { s with isOpen := res, inits := s.inits + 1 }
  return res

def dxlTerminate : Arm Unit := do
  calllib
  modify fun s => { s with isOpen := false }

def unloadlibrary : Arm Unit := do
  calllib
  modify fun s => { s with loaded := false }

def dxlWriteWord (id address : Nat) (value : ℚ) : Arm Unit := do
  modify fun s => s.issue [.dxlWriteWord id address value]
  calllib

def dxlReadWord (sdk : Sdk) (id address : Nat) : Arm UInt16 := do
  let s ← get
  set (s.issue [.dxlReadWord id address])
  calllib
  return sdk.dxlReadWord s.issued.length

/-- `int32`: integers saturate. -/
def int32 (z : Int) : Int := max (-2 ^ 31) (min z (2 ^ 31 - 1))

/-! ## The entry points -/

def moveDynamixelDirect (sdk : Sdk) (id : Nat) (position : ℚ) : Arm Unit := do
  if !(← libisloaded) then
    loadlibrary
    let _res ← dxlInitialize sdk 5 1
  dxlWriteWord id 30 position

/-- The goal position for the angle `theta`, in degrees from the centre of servos 2 and 3. -/
def goalOf (id : Nat) (theta : ℚ) : ℚ :=
  let id3Base := 150
  let id2Base := 150
  let theta :=
    if id = 2 then
      id2Base + theta
    else if id = 3 then
      id3Base + theta
    else
      theta
  let theta := if theta < 0 then 0 else theta
  let m := 1023 / 300
  m * theta

def moveDynamixelAngles (sdk : Sdk) (id : Nat) (theta : ℚ) : Arm Unit :=
  moveDynamixelDirect sdk id (goalOf id theta)

def moveDynamixelSteps (sdk : Sdk) (vector : List (ℚ × ℚ)) : Arm Unit :=
  forM vector fun row => do
    moveDynamixelAngles sdk 2 row.2
    moveDynamixelAngles sdk 3 row.1

def motorsetup (sdk : Sdk) : Arm Unit := do
  if !(← libisloaded) then
    loadlibrary
    let _res ← dxlInitialize sdk 5 1
    dxlWriteWord 1 34 512
    dxlWriteWord 2 34 512
    dxlWriteWord 3 34 512
    dxlWriteWord 4 34 512
    dxlWriteWord 1 32 150
    dxlWriteWord 2 32 150
    dxlWriteWord 3 32 150
    dxlWriteWord 4 32 350
    dxlTerminate
    unloadlibrary
  else
    dxlWriteWord 1 34 512
    dxlWriteWord 2 34 512
    dxlWriteWord 3 34 512
    dxlWriteWord 4 34 512
    dxlWriteWord 1 32 150
    dxlWriteWord 2 32 150
    dxlWriteWord 3 32 150
    dxlWriteWord 4 32 130

/-- Loading a loaded library only warns. -/
def setMotorTorques (sdk : Sdk) : Arm Unit := do
  loadlibrary
  let _res ← dxlInitialize sdk 5 1
  dxlWriteWord 1 34 200
  dxlWriteWord 2 34 200
  dxlWriteWord 3 34 200
  dxlWriteWord 4 34 1023
  dxlWriteWord 2 32 128

def tapglass (sdk : Sdk) : Arm Unit := do
  if !(← libisloaded) then
    loadlibrary
    let _res ← dxlInitialize sdk 3 1
  dxlWriteWord 1 30 750
  dxlWriteWord 1 30 850

def dropit (id : Nat) : Arm Unit :=
  forM (List.range' 1 2) fun _ => do
    dxlWriteWord id 30 0
    dxlWriteWord id 30 3000
    dxlWriteWord id 30 0
    dxlWriteWord id 30 3000

def wiggleit (sdk : Sdk) (id : Nat) : Arm Unit := do
  let word ← dxlReadWord sdk id 36
  let PresentPos := int32 word.toNat
  moveDynamixelDirect sdk id (int32 (PresentPos + 600))
  moveDynamixelDirect sdk id (int32 (PresentPos - 600))
  moveDynamixelDirect sdk id PresentPos

def setdown : Arm Unit := do
  dxlTerminate
  unloadlibrary

def unloadLibrary : Arm Unit := do
  dxlTerminate
  unloadlibrary

/-! ## What they do -/

open Session

@[simp] theorem Bus.loaded_issue (s : Bus) (cs : List Command) : (s.issue cs).loaded = s.loaded :=
  rfl

@[simp] theorem Bus.issue_issue (s : Bus) (cs ds : List Command) :
    (s.issue cs).issue ds = s.issue (cs ++ ds) := by
  simp [Bus.issue]

/-- The bus after `dxl_initialize` on the loaded library. -/
def Bus.opened (sdk : Sdk) (devIndex : Nat) (s : Bus) : Bus :=
  { s with loaded := true, isOpen := sdk.dxlInitialize s.inits devIndex 1, inits := s.inits + 1 }

@[simp] theorem Bus.loaded_opened (sdk : Sdk) (devIndex : Nat) (s : Bus) :
    (s.opened sdk devIndex).loaded = true := by simp [Bus.opened]

/-- The bus after the library was loaded and the port opened unless the library was loaded. -/
def Bus.guarded (sdk : Sdk) (devIndex : Nat) (s : Bus) : Bus :=
  if s.loaded then s else s.opened sdk devIndex

theorem Bus.guarded_of_loaded {sdk : Sdk} {devIndex : Nat} {s : Bus} (h : s.loaded = true) :
    s.guarded sdk devIndex = s := if_pos h

@[simp] theorem Bus.loaded_guarded (sdk : Sdk) (devIndex : Nat) (s : Bus) :
    (s.guarded sdk devIndex).loaded = true := by
  unfold Bus.guarded
  split
  · assumption
  · rfl

theorem Bus.issued_guarded (sdk : Sdk) (devIndex : Nat) (s : Bus) :
    (s.guarded sdk devIndex).issued = s.issued := by
  unfold Bus.guarded
  split <;> rfl

@[simp] theorem dxlWriteWord_exec {s : Bus} (h : s.loaded = true) (id address : Nat) (value : ℚ) :
    (dxlWriteWord id address value).exec s =
      (.ok (), s.issue [.dxlWriteWord id address value]) := by
  obtain ⟨loaded, isOpen, inits, issued⟩ := s
  cases h
  rfl

theorem dxlReadWord_exec {s : Bus} (sdk : Sdk) (h : s.loaded = true) (id address : Nat) :
    (dxlReadWord sdk id address).exec s =
      (.ok (sdk.dxlReadWord s.issued.length), s.issue [.dxlReadWord id address]) := by
  obtain ⟨loaded, isOpen, inits, issued⟩ := s
  cases h
  rfl

@[simp] theorem write_bind_exec {α : Type} {s : Bus} (h : s.loaded = true) (id address : Nat) (value : ℚ)
    (k : Unit → Arm α) : (dxlWriteWord id address value >>= k).exec s =
      (k ()).exec (s.issue [.dxlWriteWord id address value]) :=
  run_bind_ok (dxlWriteWord_exec h id address value)

@[simp] theorem libisloaded_exec {α : Type} (s : Bus) (k : Bool → Arm α) :
    (libisloaded >>= k).exec s = (k s.loaded).exec s := rfl

@[simp] theorem open_exec {α : Type} (sdk : Sdk) (devIndex : Nat) (s : Bus) (k : Bool → Arm α) :
    (loadlibrary >>= fun _ => dxlInitialize sdk devIndex 1 >>= k).exec s =
      (k (sdk.dxlInitialize s.inits devIndex 1)).exec (s.opened sdk devIndex) := rfl

/-- A script that begins with the guard goes on with the library loaded. -/
theorem guard_exec {α : Type} (sdk : Sdk) (devIndex : Nat) (s : Bus) (k : Arm α) :
    (do
      if !(← libisloaded) then
        loadlibrary
        let _res ← dxlInitialize sdk devIndex 1
      k).exec s = k.exec (s.guarded sdk devIndex) := by
  obtain ⟨loaded, isOpen, inits, issued⟩ := s
  cases loaded
  · rfl
  · rfl

@[simp] theorem close_exec {s : Bus} (h : s.loaded = true) :
    (dxlTerminate >>= fun _ => unloadlibrary).exec s =
      (.ok (), { s with loaded := false, isOpen := false }) := by
  obtain ⟨loaded, isOpen, inits, issued⟩ := s
  cases h
  rfl

theorem moveDynamixelDirect_exec (sdk : Sdk) (id : Nat) (position : ℚ) (s : Bus) :
    (moveDynamixelDirect sdk id position).exec s =
      (.ok (), (s.guarded sdk 5).issue [.dxlWriteWord id 30 position]) := by
  unfold moveDynamixelDirect
  rw [guard_exec, dxlWriteWord_exec (s.loaded_guarded sdk 5)]

theorem tapglass_exec (sdk : Sdk) (s : Bus) :
    (tapglass sdk).exec s = (.ok (), (s.guarded sdk 3).issue
      [.dxlWriteWord 1 30 750, .dxlWriteWord 1 30 850]) := by
  unfold tapglass
  rw [guard_exec]
  simp

theorem moveDynamixelAngles_exec (sdk : Sdk) (id : Nat) (theta : ℚ) (s : Bus) :
    (moveDynamixelAngles sdk id theta).exec s =
      (.ok (), (s.guarded sdk 5).issue [.dxlWriteWord id 30 (goalOf id theta)]) :=
  moveDynamixelDirect_exec sdk id (goalOf id theta) s

/-- The commands of a row of joint angles: the arm motor, then the base motor. -/
def stepCommands (row : ℚ × ℚ) : List Command :=
  [.dxlWriteWord 2 30 (goalOf 2 row.2), .dxlWriteWord 3 30 (goalOf 3 row.1)]

theorem foldl_steps (sdk : Sdk) (vector : List (ℚ × ℚ)) (cs : List Command) {s : Bus}
    (h : s.loaded = true) :
    vector.foldl (fun s row => (s.guarded sdk 5).issue (stepCommands row)) (s.issue cs) =
      s.issue (cs ++ vector.flatMap stepCommands) := by
  induction vector generalizing cs with
  | nil => rw [List.foldl_nil, List.flatMap_nil, List.append_nil]
  | cons row vector ih =>
    have hg : (s.issue cs).guarded sdk 5 = s.issue cs := Bus.guarded_of_loaded h
    rw [List.foldl_cons, hg, Bus.issue_issue, ih, List.flatMap_cons, List.append_assoc]

theorem moveDynamixelSteps_exec (sdk : Sdk) (vector : List (ℚ × ℚ)) (s : Bus) :
    (moveDynamixelSteps sdk vector).exec s =
      (.ok (), if vector = [] then s else
        (s.guarded sdk 5).issue (vector.flatMap stepCommands)) := by
  have hrow : ∀ (s : Bus) (row : ℚ × ℚ),
      (do moveDynamixelAngles sdk 2 row.2; moveDynamixelAngles sdk 3 row.1 : Arm Unit).exec s =
        (.ok (), (s.guarded sdk 5).issue (stepCommands row)) := by
    intro s row
    have hl : ((s.guarded sdk 5).issue [.dxlWriteWord 2 30 (goalOf 2 row.2)]).loaded = true :=
      s.loaded_guarded sdk 5
    rw [run_bind_ok (moveDynamixelAngles_exec sdk 2 row.2 s), moveDynamixelAngles_exec,
      Bus.guarded_of_loaded hl, Bus.issue_issue]
    rfl
  refine (run_forM_ok hrow vector s).trans ?_
  cases vector with
  | nil => rfl
  | cons row vector =>
    rw [List.foldl_cons, foldl_steps sdk vector _ (s.loaded_guarded sdk 5), if_neg (by simp),
      List.flatMap_cons]

theorem setMotorTorques_exec (sdk : Sdk) (s : Bus) :
    (setMotorTorques sdk).exec s = (.ok (), (s.opened sdk 5).issue
      [.dxlWriteWord 1 34 200, .dxlWriteWord 2 34 200, .dxlWriteWord 3 34 200,
        .dxlWriteWord 4 34 1023, .dxlWriteWord 2 32 128]) := by
  simp [setMotorTorques]

/-- The commands of `motorsetup`: torque limits, then speeds. -/
def setupCommands (speed4 : ℚ) : List Command :=
  [.dxlWriteWord 1 34 512, .dxlWriteWord 2 34 512, .dxlWriteWord 3 34 512,
    .dxlWriteWord 4 34 512, .dxlWriteWord 1 32 150, .dxlWriteWord 2 32 150,
    .dxlWriteWord 3 32 150, .dxlWriteWord 4 32 speed4]

theorem motorsetup_exec (sdk : Sdk) (s : Bus) :
    (motorsetup sdk).exec s =
      (.ok (), if s.loaded then s.issue (setupCommands 130) else
        { (s.opened sdk 5).issue (setupCommands 350) with loaded := false, isOpen := false }) := by
  unfold motorsetup setupCommands
  cases h : s.loaded with
  | false => simp [h]
  | true => simp [h]

/-- One round of `dropit`. -/
def dropCommands (id : Nat) : List Command :=
  [.dxlWriteWord id 30 0, .dxlWriteWord id 30 3000, .dxlWriteWord id 30 0,
    .dxlWriteWord id 30 3000]

theorem dropit_exec {s : Bus} (h : s.loaded = true) (id : Nat) :
    (dropit id).exec s = (.ok (), s.issue (dropCommands id ++ dropCommands id)) := by
  simp [dropit, dropCommands, List.range', h]

theorem wiggleit_exec {s : Bus} (h : s.loaded = true) (sdk : Sdk) (id : Nat) :
    (wiggleit sdk id).exec s =
      let p := int32 (sdk.dxlReadWord s.issued.length).toNat
      (.ok (), s.issue [.dxlReadWord id 36, .dxlWriteWord id 30 (int32 (p + 600)),
        .dxlWriteWord id 30 (int32 (p - 600)), .dxlWriteWord id 30 p]) := by
  unfold wiggleit
  rw [run_bind_ok (dxlReadWord_exec sdk h id 36),
    run_bind_ok (moveDynamixelDirect_exec sdk id _ _),
    run_bind_ok (moveDynamixelDirect_exec sdk id _ _), moveDynamixelDirect_exec]
  simp [Bus.guarded_of_loaded, h]

/-! ## On the unloaded library -/

theorem close_exec_unloaded {s : Bus} (h : s.loaded = false) :
    (dxlTerminate >>= fun _ => unloadlibrary).exec s = (.error .armFailed, s) := by
  obtain ⟨loaded, isOpen, inits, issued⟩ := s
  cases h
  rfl

theorem dropit_exec_unloaded {s : Bus} (h : s.loaded = false) (id : Nat) :
    (dropit id).exec s = (.error .armFailed, s.issue [.dxlWriteWord id 30 0]) := by
  obtain ⟨loaded, isOpen, inits, issued⟩ := s
  cases h
  rfl

theorem wiggleit_exec_unloaded {s : Bus} (h : s.loaded = false) (sdk : Sdk) (id : Nat) :
    (wiggleit sdk id).exec s = (.error .armFailed, s.issue [.dxlReadWord id 36]) := by
  obtain ⟨loaded, isOpen, inits, issued⟩ := s
  cases h
  rfl

end DrinkRobot
