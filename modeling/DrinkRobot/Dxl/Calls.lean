import DrinkRobot.Dxl.Transmit

/-!
# Sequences of calls of the library

* `Call`: a call of any of the functions that change the globals, with what the port does meanwhile.
* `rx_cases`, `tx_cases`: what a round of the receiver and a write leave, in all of their branches.
* `Disciplined`: the bus is in use exactly between a write and the end of its answer. Every call keeps
  it (`call_disciplined`), so it holds after every sequence of calls (`calls_disciplined`).
* `command_hangs_iff`: when a command finds the bus in use, and waits for ever.
* `calls_never_spin`: calls other than bare writes never find it in use.
-/

namespace DrinkRobot.Dxl

open Run (bind_ok bind_of_ok)

/-- What the receiver leaves alone. -/
structure Kept (g g' : Globals) : Prop where
  instruction : g'.gbInstructionPacket = g.gbInstructionPacket
  sent : g'.sent = g.sent
  timeout : g'.timeoutFor = g.timeoutFor

theorem Kept.refl (g : Globals) : Kept g g := ⟨rfl, rfl, rfl⟩

theorem Kept.trans {g g' g'' : Globals} (h : Kept g g') (h' : Kept g' g'') : Kept g g'' :=
  ⟨h'.instruction.trans h.instruction, h'.sent.trans h.sent, h'.timeout.trans h.timeout⟩

/-- A call of `dxl_rx_packet` on a bus in use: the answer is awaited, or it is over. -/
def Awaits (g : Globals) : Prop :=
  g.giBusUsing = true ∧ g.gbCommStatus = .rxWaiting ∧ g.gbRxGetLength < g.gbRxPacketLength

def Over (g : Globals) : Prop :=
  g.giBusUsing = false ∧ (g.gbCommStatus = .rxSuccess ∨ g.gbCommStatus = .rxCorrupt ∨
    g.gbCommStatus = .rxTimeout)

theorem hal_rx_kept {found : Option Nat} {g g' : Globals} (h : dxlHalRx found g = .ok g') :
    Kept g g' ∧ g'.giBusUsing = g.giBusUsing := by
  cases found with
  | none => cases h; exact ⟨⟨rfl, rfl, rfl⟩, rfl⟩
  | some k =>
    obtain ⟨packet, -, h⟩ := bind_ok.mp h
    cases h
    exact ⟨⟨rfl, rfl, rfl⟩, rfl⟩

theorem alignPacket_kept {g g' : Globals} (h : alignPacket g = .ok g') :
    Kept g g' ∧ g'.giBusUsing = g.giBusUsing := by
  obtain ⟨i, -, h⟩ := bind_ok.mp h
  split at h
  · obtain ⟨packet, -, h⟩ := bind_ok.mp h
    cases h
    exact ⟨⟨rfl, rfl, rfl⟩, rfl⟩
  · cases h
    exact ⟨Kept.refl g, rfl⟩

theorem checkPacket_cases {g g' : Globals} (h : checkPacket g = .ok g') : Kept g g' ∧ Over g' := by
  obtain ⟨length, -, h⟩ := bind_ok.mp h
  obtain ⟨checksum, -, h⟩ := bind_ok.mp h
  obtain ⟨given, -, h⟩ := bind_ok.mp h
  split at h
  · cases h
    exact ⟨⟨rfl, rfl, rfl⟩, rfl, .inr (.inl rfl)⟩
  · cases h
    exact ⟨⟨rfl, rfl, rfl⟩, rfl, .inl rfl⟩

theorem readRest_cases {p : Poll} {g g' : Globals} (hbusy : g.giBusUsing = true)
    (h : readRest p g = .ok g') : Kept g g' ∧ (Awaits g' ∨ Over g') := by
  unfold readRest at h
  split at h
  · obtain ⟨g₁, hrx, h⟩ := bind_ok.mp h
    obtain ⟨hkept, hbus⟩ := hal_rx_kept hrx
    split at h
    · cases h
      exact ⟨⟨hkept.instruction, hkept.sent, hkept.timeout⟩, .inl ⟨hbus.trans hbusy, rfl, ‹_›⟩⟩
    · obtain ⟨hkept', hover⟩ := checkPacket_cases h
      exact ⟨hkept.trans hkept', .inr hover⟩
  · obtain ⟨hkept, hover⟩ := checkPacket_cases h
    exact ⟨hkept, .inr hover⟩

theorem receiveRest_cases {p : Poll} {g g' : Globals} (hbusy : g.giBusUsing = true)
    (h : receiveRest p g = .ok g') : Kept g g' ∧ (Awaits g' ∨ Over g') := by
  obtain ⟨asked, -, h⟩ := bind_ok.mp h
  obtain ⟨answered, -, h⟩ := bind_ok.mp h
  split at h
  · cases h
    exact ⟨⟨rfl, rfl, rfl⟩, .inr ⟨rfl, .inr (.inl rfl)⟩⟩
  · obtain ⟨length, -, h⟩ := bind_ok.mp h
    obtain ⟨hkept, hcases⟩ := readRest_cases (by exact hbusy) h
    exact ⟨⟨hkept.instruction, hkept.sent, hkept.timeout⟩, hcases⟩

/-- A round of the receiver. -/
theorem rx_cases {p : Poll} {g g' : Globals} (h : dxlRxPacket g p = .ok g') :
    Kept g g' ∧ (g.giBusUsing = false ∧ g' = g ∨
      g.giBusUsing = true ∧ (Awaits g' ∨ Over g')) := by
  unfold dxlRxPacket at h
  split at h
  · rename_i hfree
    cases h
    exact ⟨Kept.refl g, .inl ⟨by simpa using hfree, rfl⟩⟩
  rename_i hbusy
  have hbusy : g.giBusUsing = true := by simpa using hbusy
  have hrestart : Kept g g.restart ∧ g.restart.giBusUsing = g.giBusUsing := by
    unfold Globals.restart
    split <;> exact ⟨⟨rfl, rfl, rfl⟩, rfl⟩
  obtain ⟨asked, -, h⟩ := bind_ok.mp h
  split at h
  · cases h
    exact ⟨⟨rfl, rfl, rfl⟩, .inr ⟨hbusy, .inr ⟨rfl, .inl rfl⟩⟩⟩
  obtain ⟨g₁, hrx, h⟩ := bind_ok.mp h
  obtain ⟨hkept₁, hbus₁⟩ := hal_rx_kept hrx
  have hkept₁ := hrestart.1.trans hkept₁
  split at h
  · cases h
    refine ⟨⟨hkept₁.instruction, hkept₁.sent, hkept₁.timeout⟩, .inr ⟨hbusy, .inr ⟨rfl, ?_⟩⟩⟩
    simp only [Globals.finish]
    split
    · exact .inr (.inr rfl)
    · exact .inr (.inl rfl)
  -- the time is not up: the packet is aligned, and is still short or goes on to the checks
  obtain ⟨g₂, halign, h⟩ := bind_ok.mp h
  obtain ⟨hkept₂, hbus₂⟩ := alignPacket_kept halign
  have hbusy₂ : g₂.giBusUsing = true := hbus₂.trans (hbus₁.trans (hrestart.2.trans hbusy))
  have hkept := hkept₁.trans hkept₂
  split at h
  · cases h
    exact ⟨⟨hkept.instruction, hkept.sent, hkept.timeout⟩, .inr ⟨hbusy, .inl ⟨hbusy₂, rfl, ‹_›⟩⟩⟩
  · obtain ⟨hkept₃, hcases⟩ := receiveRest_cases hbusy₂ h
    exact ⟨hkept.trans hkept₃, .inr ⟨hbusy, hcases⟩⟩

/-- A write. -/
theorem tx_cases {a : TxAnswer} {g g' : Globals} (h : dxlTxPacket a g = .ok g') :
    g.giBusUsing = true ∧ g' = g ∨ g.giBusUsing = false ∧
      (g'.giBusUsing = true ∧ g'.gbCommStatus = .txSuccess ∨
        g'.giBusUsing = false ∧ (g'.gbCommStatus = .txError ∨ g'.gbCommStatus = .txFail)) := by
  unfold dxlTxPacket at h
  split at h
  · rename_i hbusy
    cases h
    exact .inl ⟨hbusy, rfl⟩
  -- on a free bus, each check that fails frees it again, and so does a write that is short
  rename_i hfree
  refine .inr ⟨by simpa using hfree, ?_⟩
  obtain ⟨length, -, h⟩ := bind_ok.mp h
  split at h
  · cases h
    exact .inr ⟨rfl, .inl rfl⟩
  obtain ⟨instruction, -, h⟩ := bind_ok.mp h
  split at h
  · cases h
    exact .inr ⟨rfl, .inl rfl⟩
  obtain ⟨packet, -, h⟩ := bind_ok.mp h
  obtain ⟨length', -, h⟩ := bind_ok.mp h
  obtain ⟨⟨taken, g₁⟩, -, h⟩ := bind_ok.mp h
  simp only at h
  split at h
  · cases h
    exact .inr ⟨rfl, .inr rfl⟩
  · obtain ⟨instruction', -, h⟩ := bind_ok.mp h
    obtain ⟨parameter, -, h⟩ := bind_ok.mp h
    cases h
    exact .inl ⟨rfl, rfl⟩

/-! ## The calls -/

/-- The calls that change the globals. -/
inductive Call where
  | dxlInitialize (opened : Option Nat)
  | dxlSetTxpacketId (id : Int)
  | dxlSetTxpacketInstruction (instruction : Int)
  | dxlSetTxpacketParameter (index value : Int)
  | dxlSetTxpacketLength (length : Int)
  | dxlTxPacket (a : TxAnswer)
  | dxlRxPacket (p : Poll)
  | dxlTxrxPacket (a : Answer)
  | dxlPing (a : Answer) (id : Int)
  | dxlReadByte (a : Answer) (id address : Int)
  | dxlWriteByte (a : Answer) (id address value : Int)
  | dxlReadWord (a : Answer) (id address : Int)
  | dxlWriteWord (a : Answer) (id address value : Int)

def Call.run (g : Globals) : Call → Except Stop Globals
  | Call.dxlInitialize opened => .ok <| Dxl.dxlInitialize opened g
  | .dxlSetTxpacketId id => Dxl.dxlSetTxpacketId id g
  | .dxlSetTxpacketInstruction instruction => Dxl.dxlSetTxpacketInstruction instruction g
  | .dxlSetTxpacketParameter index value => Dxl.dxlSetTxpacketParameter index value g
  | .dxlSetTxpacketLength length => Dxl.dxlSetTxpacketLength length g
  | .dxlTxPacket a => Dxl.dxlTxPacket a g
  | .dxlRxPacket p => Dxl.dxlRxPacket g p
  | .dxlTxrxPacket a => Dxl.dxlTxrxPacket a g
  | .dxlPing a id => Dxl.dxlPing a id g
  | .dxlReadByte a id address => Prod.snd <$> Dxl.dxlReadByte a id address g
  | .dxlWriteByte a id address value => Dxl.dxlWriteByte a id address value g
  | .dxlReadWord a id address => Prod.snd <$> Dxl.dxlReadWord a id address g
  | .dxlWriteWord a id address value => Dxl.dxlWriteWord a id address value g

/-- The bus is in use exactly between a write and the end of its answer. `COMM_RXFAIL` is never set. -/
structure Disciplined (g : Globals) : Prop where
  busy_iff : g.giBusUsing = true ↔ g.gbCommStatus = .txSuccess ∨ g.gbCommStatus = .rxWaiting
  short : g.gbCommStatus = .rxWaiting → g.gbRxGetLength < g.gbRxPacketLength
  rxFail : g.gbCommStatus ≠ .rxFail

theorem Awaits.disciplined {g : Globals} (h : Awaits g) : Disciplined g := by
  obtain ⟨hbusy, hs, hlt⟩ := h
  exact ⟨by simp [hbusy, hs], fun _ => hlt, by simp [hs]⟩

theorem Over.disciplined {g : Globals} (h : Over g) : Disciplined g := by
  obtain ⟨hfree, hs⟩ := h
  rcases hs with hs | hs | hs <;> exact ⟨by simp [hfree, hs], by simp [hs], by simp [hs]⟩

theorem start_disciplined : Disciplined .start :=
  ⟨by simp [Globals.start], by simp [Globals.start], by simp [Globals.start]⟩

theorem rx_disciplined {p : Poll} {g g' : Globals} (hg : Disciplined g)
    (h : dxlRxPacket g p = .ok g') : Disciplined g' := by
  obtain ⟨-, ⟨-, rfl⟩ | ⟨-, hawaits | hover⟩⟩ := rx_cases h
  · exact hg
  · exact hawaits.disciplined
  · exact hover.disciplined

theorem tx_disciplined {a : TxAnswer} {g g' : Globals} (hg : Disciplined g)
    (h : dxlTxPacket a g = .ok g') : Disciplined g' := by
  obtain ⟨-, rfl⟩ | ⟨-, ⟨hbusy, hs⟩ | ⟨hfree, hs⟩⟩ := tx_cases h
  · exact hg
  · exact ⟨by simp [hbusy, hs], by simp [hs], by simp [hs]⟩
  · rcases hs with hs | hs <;> exact ⟨by simp [hfree, hs], by simp [hs], by simp [hs]⟩

/-- The loop of `dxl_txrx_packet`, once it has ended. -/
theorem loop_disciplined {polls : List Poll} {g g' : Globals} {done : Bool} (hg : Disciplined g)
    (h : Polling.doWhile Globals.waiting dxlRxPacket g polls = .ok (g', done)) :
    Disciplined g' ∧ (done = true → g.giBusUsing = true → g'.giBusUsing = false) := by
  induction polls generalizing g with
  | nil => cases h; exact ⟨hg, by simp⟩
  | cons p polls ih =>
    obtain ⟨g₁, hrx, h⟩ := bind_ok.mp h
    have hg₁ := rx_disciplined hg hrx
    split at h
    · rename_i hwaiting
      obtain ⟨hg', hdone⟩ := ih hg₁ h
      have hs : g₁.gbCommStatus = .rxWaiting := by simpa [Globals.waiting] using hwaiting
      exact ⟨hg', fun hd _ => hdone hd (hg₁.busy_iff.mpr (.inr hs))⟩
    · rename_i hwaiting
      cases h
      refine ⟨hg₁, fun _ hbusy => ?_⟩
      obtain ⟨-, ⟨hfree, -⟩ | ⟨-, hawaits | hover⟩⟩ := rx_cases hrx
      · rw [hbusy] at hfree; cases hfree
      · exact absurd hawaits.2.1 (by simpa [Globals.waiting] using hwaiting)
      · exact hover.1

theorem txrx_disciplined {a : Answer} {g g' : Globals} (hg : Disciplined g)
    (h : dxlTxrxPacket a g = .ok g') :
    Disciplined g' ∧ (g.giBusUsing = false → g'.giBusUsing = false) := by
  obtain ⟨g₁, htx, h⟩ := bind_ok.mp h
  have hg₁ := tx_disciplined hg htx
  split at h
  · rename_i hs
    cases h
    refine ⟨hg₁, fun hfree => ?_⟩
    obtain ⟨hbusy, -⟩ | ⟨-, ⟨-, hs'⟩ | ⟨hfree', -⟩⟩ := tx_cases htx
    · rw [hfree] at hbusy; cases hbusy
    · exact absurd hs' hs
    · exact hfree'
  · rename_i hs
    obtain ⟨⟨g₂, done⟩, hloop, h⟩ := bind_ok.mp h
    obtain ⟨hg₂, hfree⟩ := loop_disciplined hg₁ hloop
    cases done with
    | false => cases h
    | true =>
      cases h
      exact ⟨hg₂, fun _ => hfree rfl (hg₁.busy_iff.mpr (.inl (not_not.mp hs)))⟩

theorem setTx_cases {i : Nat} {value : Int} {g g' : Globals} (h : g.setTx i value = .ok g') :
    ∃ packet, g' = { g with gbInstructionPacket := packet } := by
  obtain ⟨packet, -, h⟩ := bind_ok.mp h
  cases h
  exact ⟨packet, rfl⟩

theorem setTx_disciplined {i : Nat} {value : Int} {g g' : Globals} (hg : Disciplined g)
    (h : g.setTx i value = .ok g') : Disciplined g' := by
  obtain ⟨packet, rfl⟩ := setTx_cases h
  exact ⟨hg.busy_iff, hg.short, hg.rxFail⟩

theorem fields_cases {fields : List (Nat × Int)} {g g' : Globals}
    (h : fields.foldlM (fun g f => g.setTx f.1 f.2) g = .ok g') :
    ∃ packet, g' = { g with gbInstructionPacket := packet } := by
  induction fields generalizing g with
  | nil => cases h; exact ⟨_, rfl⟩
  | cons f fields ih =>
    rw [List.foldlM_cons] at h
    obtain ⟨g₁, hset, h⟩ := bind_ok.mp h
    obtain ⟨packet, rfl⟩ := setTx_cases hset
    obtain ⟨packet', rfl⟩ := ih h
    exact ⟨packet', rfl⟩

/-- A command ends with the bus free. -/
theorem command_disciplined {a : Answer} {fields : List (Nat × Int)} {g g' : Globals}
    (hg : Disciplined g) (h : command a fields g = .ok g') :
    g.giBusUsing = false ∧ Disciplined g' ∧ g'.giBusUsing = false := by
  unfold command at h
  split at h
  · cases h
  rename_i hfree
  have hfree : g.giBusUsing = false := by simpa using hfree
  obtain ⟨g₁, hfields, h⟩ := bind_ok.mp h
  obtain ⟨packet, rfl⟩ := fields_cases hfields
  obtain ⟨hg', hfree'⟩ :=
    txrx_disciplined (g := { g with gbInstructionPacket := packet }) ⟨hg.busy_iff, hg.short, hg.rxFail⟩ h
  exact ⟨hfree, hg', hfree' hfree⟩

/-- What is read from the status packet changes nothing. -/
theorem read_byte_globals (a : Answer) (id address : Int) (g : Globals) :
    Prod.snd <$> dxlReadByte a id address g = command a (readFields id address 1) g := by
  unfold dxlReadByte
  cases hc : command a (readFields id address 1) g with
  | error e => rfl
  | ok g' =>
    obtain ⟨value, hv, -⟩ := readAt_lt g'.gbStatusPacket (i := parameterIndex) (by decide)
    rw [bind_of_ok rfl, hv]
    rfl

theorem read_word_globals (a : Answer) (id address : Int) (g : Globals) :
    Prod.snd <$> dxlReadWord a id address g = command a (readFields id address 2) g := by
  unfold dxlReadWord
  cases hc : command a (readFields id address 2) g with
  | error e => rfl
  | ok g' =>
    obtain ⟨low, hlow, -⟩ := readAt_lt g'.gbStatusPacket (i := parameterIndex) (by decide)
    obtain ⟨high, hhigh, -⟩ := readAt_lt g'.gbStatusPacket (i := parameterIndex + 1) (by decide)
    rw [bind_of_ok rfl, hlow, bind_of_ok rfl, hhigh]
    rfl

theorem call_disciplined {g g' : Globals} (c : Call) (hg : Disciplined g) (h : c.run g = .ok g') :
    Disciplined g' := by
  cases c with
  | dxlInitialize opened =>
    cases h
    cases opened with
    | none => exact hg
    | some purged => exact Over.disciplined ⟨rfl, .inl rfl⟩
  | dxlSetTxpacketId id => exact setTx_disciplined hg h
  | dxlSetTxpacketInstruction instruction => exact setTx_disciplined hg h
  | dxlSetTxpacketLength length => exact setTx_disciplined hg h
  | dxlSetTxpacketParameter index value =>
    simp only [Call.run, dxlSetTxpacketParameter] at h
    split at h
    · cases h
    · exact setTx_disciplined hg h
  | dxlTxPacket a => exact tx_disciplined hg h
  | dxlRxPacket p => exact rx_disciplined hg h
  | dxlTxrxPacket a => exact (txrx_disciplined hg h).1
  | dxlPing a id => exact (command_disciplined hg h).2.1
  | dxlWriteByte a id address value => exact (command_disciplined hg h).2.1
  | dxlWriteWord a id address value => exact (command_disciplined hg h).2.1
  | dxlReadByte a id address =>
    rw [Call.run, read_byte_globals] at h
    exact (command_disciplined hg h).2.1
  | dxlReadWord a id address =>
    rw [Call.run, read_word_globals] at h
    exact (command_disciplined hg h).2.1

/-- After any calls the bus is in use exactly between a write and the end of its answer. -/
theorem calls_disciplined {calls : List Call} {g : Globals}
    (h : Run.run Call.run .start calls = .ok g) : Disciplined g :=
  Run.run_invariant (fun _ c _ hg h => call_disciplined c hg h) start_disciplined h

/-! ## Commands that hang -/

section Bounded

open Buffer (Only)

theorem readAt_only {n : Nat} (packet : List.Vector Byte n) (i : Nat) :
    Only .outOfBounds (readAt packet i) := Buffer.peek_only packet i

theorem andFF_only {n : Nat} (c : Bool) (packet : List.Vector Byte n) (i : Nat) :
    Only .outOfBounds (andFF c packet i) := by
  unfold andFF
  split
  · exact (readAt_only packet i).bind fun b => .ok _
  · exact .ok _

theorem findHeader_only {n : Nat} (packet : List.Vector Byte n) (getLength k i : Nat) :
    Only .outOfBounds (findHeader packet getLength k i) := by
  induction k generalizing i with
  | zero => exact .ok i
  | succ k ih =>
    refine (readAt_only packet i).bind fun here => (andFF_only _ packet _).bind fun pair => ?_
    split
    · exact .ok i
    refine (andFF_only _ packet _).bind fun last => ?_
    split
    · exact .ok i
    · exact ih (i + 1)

theorem hal_rx_only (found : Option Nat) (g : Globals) : Only .outOfBounds (dxlHalRx found g) := by
  cases found with
  | none => exact .ok _
  | some k => exact (Buffer.fill_only _ _ _).bind fun packet => .ok _

theorem alignPacket_only (g : Globals) : Only .outOfBounds (alignPacket g) := by
  refine (findHeader_only _ _ _ _).bind fun i => ?_
  split
  · exact (Buffer.moveDown_only _ _ _ _).bind fun packet => .ok _
  · exact .ok g

theorem checkPacket_only (g : Globals) : Only .outOfBounds (checkPacket g) := by
  refine (readAt_only _ _).bind fun length => (Buffer.sumFrom_only _ _ _ _).bind fun checksum =>
    (readAt_only _ _).bind fun given => ?_
  split <;> exact .ok _

theorem readRest_only (p : Poll) (g : Globals) : Only .outOfBounds (readRest p g) := by
  unfold readRest
  split
  · refine (hal_rx_only _ g).bind fun g => ?_
    split
    · exact .ok _
    · exact checkPacket_only g
  · exact checkPacket_only g

theorem receiveRest_only (p : Poll) (g : Globals) : Only .outOfBounds (receiveRest p g) := by
  refine (readAt_only _ _).bind fun asked => (readAt_only _ _).bind fun answered => ?_
  split
  · exact .ok _
  · exact (readAt_only _ _).bind fun length => readRest_only p _

theorem rx_only (g : Globals) (p : Poll) : Only .outOfBounds (dxlRxPacket g p) := by
  unfold dxlRxPacket
  split
  · exact .ok g
  refine (readAt_only _ _).bind fun asked => ?_
  split
  · exact .ok _
  refine (hal_rx_only _ _).bind fun g => ?_
  split
  · exact .ok _
  refine (alignPacket_only g).bind fun g => ?_
  split
  · exact .ok _
  · exact receiveRest_only p g

theorem sealPacket_only (length : Byte) (packet : List.Vector Byte (maxnumTxparam + 10)) :
    Only .outOfBounds (sealPacket length packet) :=
  (Buffer.poke_only _ _ _).bind fun packet => (Buffer.poke_only packet _ _).bind fun packet =>
    (Buffer.sumFrom_only packet _ _ _).bind fun _ => Buffer.poke_only packet _ _

theorem hal_tx_only (a : TxAnswer) (packet : List.Vector Byte (maxnumTxparam + 10)) (n : Nat)
    (g : Globals) : Only .outOfBounds (dxlHalTx a packet n g) :=
  fun _ h => (hal_tx_error_iff.mp h).1

theorem tx_only (a : TxAnswer) (g : Globals) : Only .outOfBounds (dxlTxPacket a g) := by
  unfold dxlTxPacket
  split
  · exact .ok g
  refine (readAt_only _ _).bind fun length => ?_
  split
  · exact .ok _
  refine (readAt_only _ _).bind fun instruction => ?_
  split
  · exact .ok _
  refine (sealPacket_only _ _).bind fun packet => (readAt_only _ _).bind fun length' =>
    (hal_tx_only _ _ _ _).bind fun taken => ?_
  obtain ⟨n, g'⟩ := taken
  simp only
  split
  · exact .ok _
  · exact (readAt_only _ _).bind fun instruction' => (readAt_only _ _).bind fun parameter => .ok _

theorem setTx_only (g : Globals) (i : Nat) (value : Int) : Only .outOfBounds (g.setTx i value) :=
  (Buffer.poke_only _ _ _).bind fun _ => .ok _

theorem fields_only (fields : List (Nat × Int)) (g : Globals) :
    Only .outOfBounds (fields.foldlM (fun g f => g.setTx f.1 f.2) g) := by
  induction fields generalizing g with
  | nil => exact .ok g
  | cons f fields ih =>
    rw [List.foldlM_cons]
    exact (setTx_only g f.1 f.2).bind fun g => ih g

end Bounded

/-- A packet exchange does not wait for the bus. -/
theorem txrx_ne_spinning (a : Answer) (g : Globals) : dxlTxrxPacket a g ≠ .error .spinning := by
  intro h
  rcases Run.bind_error.mp h with htx | ⟨g₁, -, h⟩
  · cases tx_only a.tx g _ htx
  split at h
  · cases h
  rcases Run.bind_error.mp h with hloop | ⟨⟨g₂, done⟩, -, h⟩
  · obtain ⟨g', p, hrx⟩ := Polling.doWhile_error hloop
    cases rx_only g' p _ hrx
  · cases done <;> cases h

theorem command_spinning_iff {a : Answer} {fields : List (Nat × Int)} {g : Globals} :
    command a fields g = .error .spinning ↔ g.giBusUsing = true := by
  unfold command
  constructor
  · intro h
    split at h
    · assumption
    · rcases Run.bind_error.mp h with hfields | ⟨g', -, h⟩
      · cases fields_only fields g _ hfields
      · exact absurd h (txrx_ne_spinning a g')
  · intro hbusy
    rw [if_pos hbusy]
    rfl

/-- After any calls, a command hangs exactly when the last result is that of a write, or of an answer
that is awaited. -/
theorem command_hangs_iff {calls : List Call} {g : Globals} {a : Answer}
    {fields : List (Nat × Int)} (h : Run.run Call.run .start calls = .ok g) :
    command a fields g = .error .spinning ↔
      g.gbCommStatus = .txSuccess ∨ g.gbCommStatus = .rxWaiting := by
  rw [command_spinning_iff, (calls_disciplined h).busy_iff]

theorem command_hangs_iff_written :
    ∃ g, Run.run Call.run .start [.dxlSetTxpacketInstruction 1, .dxlSetTxpacketLength 2,
        .dxlTxPacket ⟨0, some 6, []⟩] = .ok g ∧
      command ⟨⟨0, some 6, []⟩, []⟩ (pingFields 0) g = .error .spinning :=
  ⟨_, rfl, (@command_hangs_iff [.dxlSetTxpacketInstruction 1, .dxlSetTxpacketLength 2,
    .dxlTxPacket ⟨0, some 6, []⟩] _ _ _ rfl).mpr (.inl rfl)⟩

/-- A write whose answer is left to the caller. -/
def Call.isWrite : Call → Bool
  | .dxlTxPacket _ => true
  | _ => false

/-- A call other than a write leaves a free bus free, and does not hang on it. -/
theorem call_free {g : Globals} {c : Call} (hg : Disciplined g) (hfree : g.giBusUsing = false)
    (hc : c.isWrite = false) :
    c.run g ≠ .error .spinning ∧ ∀ g', c.run g = .ok g' → g'.giBusUsing = false := by
  have hset : ∀ i value, g.setTx i value ≠ .error .spinning ∧
      ∀ g', g.setTx i value = .ok g' → g'.giBusUsing = false := by
    intro i value
    refine ⟨fun h => ?_, fun g' h => ?_⟩
    · cases setTx_only g i value _ h
    · obtain ⟨packet, rfl⟩ := setTx_cases h
      exact hfree
  have hcommand : ∀ a fields, command a fields g ≠ .error .spinning ∧
      ∀ g', command a fields g = .ok g' → g'.giBusUsing = false := by
    intro a fields
    refine ⟨fun h => ?_, fun g' h => (command_disciplined hg h).2.2⟩
    rw [command_spinning_iff, hfree] at h
    cases h
  cases c with
  | dxlInitialize opened =>
    refine ⟨fun h => (by cases h), fun g' h => ?_⟩
    cases h
    cases opened with
    | none => exact hfree
    | some purged => rfl
  | dxlSetTxpacketId id => exact hset _ _
  | dxlSetTxpacketInstruction instruction => exact hset _ _
  | dxlSetTxpacketLength length => exact hset _ _
  | dxlSetTxpacketParameter index value =>
    rw [Call.run, dxlSetTxpacketParameter]
    split
    · exact ⟨fun h => (by cases h), fun g' h => (by cases h)⟩
    · exact hset _ _
  | dxlTxPacket a => cases hc
  | dxlRxPacket p =>
    refine ⟨fun h => ?_, fun g' h => ?_⟩
    · cases rx_only g p _ h
    · obtain ⟨-, ⟨-, rfl⟩ | ⟨hbusy, -⟩⟩ := rx_cases h
      · exact hfree
      · rw [hfree] at hbusy; cases hbusy
  | dxlTxrxPacket a => exact ⟨txrx_ne_spinning a g, fun g' h => (txrx_disciplined hg h).2 hfree⟩
  | dxlPing a id => exact hcommand _ _
  | dxlWriteByte a id address value => exact hcommand _ _
  | dxlWriteWord a id address value => exact hcommand _ _
  | dxlReadByte a id address => rw [Call.run, read_byte_globals]; exact hcommand _ _
  | dxlReadWord a id address => rw [Call.run, read_word_globals]; exact hcommand _ _

/-- Calls of which none is a bare write never hang on the bus. -/
theorem calls_never_spin {calls : List Call} (hcalls : ∀ c ∈ calls, c.isWrite = false) :
    Run.run Call.run .start calls ≠ .error .spinning := by
  suffices hall : ∀ g, Disciplined g → g.giBusUsing = false →
      Run.run Call.run g calls ≠ .error .spinning from hall .start start_disciplined rfl
  induction calls with
  | nil => intro g _ _ h; cases h
  | cons c calls ih =>
    intro g hg hfree h
    obtain ⟨hne, hnext⟩ := call_free hg hfree (hcalls c (by simp))
    rw [Run.run, List.foldlM_cons] at h
    rcases Run.bind_error.mp h with hc | ⟨g', hc, h⟩
    · exact hne hc
    · exact ih (fun c hc => hcalls c (by simp [hc])) g' (call_disciplined c hg hc) (hnext g' hc) h

theorem calls_never_spin_two :
    Run.run Call.run .start [.dxlPing ⟨⟨0, some 6, []⟩, []⟩ 0,
      .dxlReadWord ⟨⟨0, none, []⟩, []⟩ 0 36] ≠ .error .spinning :=
  calls_never_spin (by simp [Call.isWrite])

end DrinkRobot.Dxl
