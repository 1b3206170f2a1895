import DrinkRobot.Dxl.Requests

/-!
# What the commands return

* `Request.value`: the value that a command returns for an answer; `getters_eq` says what the getters
  see of one.
* `Request.report`: a command, with the value that it returns.
* `Delivered`: a port that takes the packet and delivers an answer; `exists_sent` is a session with it.
* `late_answers`: with answers left over from before, every command gets an earlier one.
* `stale_answer`: when the reads fail, a command gets the last answer again.
-/

namespace DrinkRobot.Dxl

open Buffer (Holds)
open Run (bind_ok bind_of_ok)

/-- The number of parameters that a command reads of its answer. -/
def Request.wants : Request → Nat
  | .readByte _ _ => 1
  | .readWord _ _ => 2
  | _ => 0

/-- The value that a command returns for an answer. -/
def Request.value (f : Frame) : Request → Option Int
  | .readByte _ _ => some (f.params.getD 0 0).toNat
  | .readWord _ _ => some (dxlMakeword (f.params.getD 0 0).toNat (f.params.getD 1 0).toNat)
  | _ => none

/-- What is read of a parameter in the status packet. -/
theorem readAt_param {f : Frame} {n i : Nat} {packet : List.Vector Byte n}
    (h : Holds packet f.encode) (hi : i < f.params.length) :
    readAt packet (parameterIndex + i) = .ok (f.params.getD i 0) := by
  refine readAt_encode h ?_
  rw [f.encode_eq, show parameterIndex + i = i + 1 + 1 + 1 + 1 + 1 by simp [parameterIndex]; omega]
  simp only [List.getElem?_cons_succ]
  rw [List.getElem?_append_left hi, List.getD_eq_getElem?_getD, List.getElem?_eq_getElem hi]
  rfl

/-- The getters see the error bits, the length and the parameters of the answer in the status
packet. -/
theorem getters_eq {f : Frame} {g : Globals} (h : Holds g.gbStatusPacket f.encode) :
    (∀ errbit, dxlGetRxpacketError errbit g = .ok (f.code &&& BitVec.ofInt 8 errbit ≠ 0)) ∧
      dxlGetRxpacketLength g = .ok (f.params.length + 2) ∧
      ∀ i : Nat, i < f.params.length →
        dxlGetRxpacketParameter i g = .ok (f.params.getD i 0).toNat := by
  have hcode : readAt g.gbStatusPacket errbitIndex = .ok f.code :=
    readAt_encode h (by rw [f.encode_eq]; rfl)
  have hlength : readAt g.gbStatusPacket lengthIndex = .ok (BitVec.ofNat 8 (f.params.length + 2)) :=
    readAt_encode h (by rw [f.encode_eq]; rfl)
  refine ⟨fun errbit => ?_, ?_, fun i hi => ?_⟩
  · rw [dxlGetRxpacketError, bind_of_ok hcode]
    rfl
  · rw [dxlGetRxpacketLength, bind_of_ok hlength, f.toNat_length]
    rfl
  · have hparam := readAt_param h hi
    rw [dxlGetRxpacketParameter, if_neg (by omega),
      show ((parameterIndex : Int) + i).toNat = parameterIndex + i by omega,
      bind_of_ok hparam]
    rfl

theorem call_value {r : Request} {a : Answer} {g g' : Globals} {f : Frame}
    (hc : command a r.fields g = .ok g') (h : Holds g'.gbStatusPacket f.encode)
    (hwants : r.wants ≤ f.params.length) : r.call a g = .ok (r.value f, g') := by
  cases r with
  | ping id =>
    have hc : dxlPing a id g = .ok g' := hc
    rw [Request.call, bind_of_ok hc]
    rfl
  | writeByte id address value =>
    have hc : dxlWriteByte a id address value g = .ok g' := hc
    rw [Request.call, bind_of_ok hc]
    rfl
  | writeWord id address value =>
    have hc : dxlWriteWord a id address value g = .ok g' := hc
    rw [Request.call, bind_of_ok hc]
    rfl
  | readByte id address =>
    have hc : command a (readFields id address 1) g = .ok g' := hc
    have h0 : readAt g'.gbStatusPacket parameterIndex = _ := readAt_param h (i := 0) hwants
    rw [Request.call, dxlReadByte, bind_of_ok hc, h0]
    rfl
  | readWord id address =>
    have hc : command a (readFields id address 2) g = .ok g' := hc
    have h0 : readAt g'.gbStatusPacket parameterIndex = _ :=
      readAt_param h (i := 0) (Nat.lt_of_lt_of_le Nat.zero_lt_two hwants)
    have h1 := readAt_param h (i := 1) hwants
    rw [Request.call, dxlReadWord, bind_of_ok hc, bind_of_ok h0, h1]
    rfl

/-- What a command does to the globals, and the value that it returns. -/
def Request.report (g : Globals) (i : Request × Answer) : Except Stop (Globals × Option Int) := do
  let (value, g) ← i.1.call i.2 g
  return (g, value)

theorem report_of_call {r : Request} {a : Answer} {g g' : Globals} {value : Option Int}
    (h : r.call a g = .ok (value, g')) : Request.report g (r, a) = .ok (g', value) := by
  rw [Request.report, bind_of_ok h]
  rfl

theorem run_of_report {session : List (Request × Answer)} {g g' : Globals}
    {values : List (Option Int)}
    (h : Run.exec (fun _ => false) Request.report g session = .ok (g', values)) :
    Run.run Request.step g session = .ok g' := by
  induction session generalizing g values with
  | nil =>
    cases h
    rfl
  | cons i session ih =>
    obtain ⟨m, value, values', hstep, hrest, -⟩ := Run.exec_cons rfl h
    obtain ⟨⟨v, m'⟩, hcall, hm⟩ := bind_ok.mp hstep
    cases hm
    refine Run.run_cons.mpr ⟨m, ?_, ih hrest⟩
    rw [Request.step, hcall]
    rfl

/-! ## A port that answers -/

/-- The bus is free and nothing is left to be read. -/
def Idle (g : Globals) : Prop := g.giBusUsing = false ∧ g.incoming = []

theorem start_idle : Idle .start := ⟨rfl, rfl⟩

theorem Idle.incomingAfter {g : Globals} (h : Idle g) (a : Answer) :
    g.incomingAfter a = a.tx.reply := by
  have hinc : (g.clearStale a.tx).incoming = [] := by
    unfold Globals.clearStale dxlHalClear
    split
    · rw [h.2]; exact List.drop_nil
    · exact h.2
  rw [Globals.incomingAfter, hinc, List.nil_append]

/-- What a port needs for an answer: it takes the packet whole, there is noise before the frame, and
there are reads enough for both. -/
structure Delivered (r : Request) (a : Answer) (noise : List Byte) (f : Frame) : Prop where
  whole : ∃ k, a.tx.written = some k ∧ r.frame.encode.length ≤ k
  reply : a.tx.reply = noise ++ f.encode
  quiet : Noise noise
  delivers : ∀ p ∈ a.polls, p.Delivers
  enough : noise.length + f.encode.length ≤ a.polls.length

/-- On an idle bus, a command gets the answer that is delivered. -/
theorem Delivered.answered {r : Request} {a : Answer} {noise : List Byte} {f : Frame}
    (h : Delivered r a noise f) {g : Globals} (hg : Idle g) (hid : r.frame.id ≠ broadcastId)
    (hf : f.id = r.frame.id) (hparams : f.params.length ≤ 64) :
    ∃ g', command a r.fields g = .ok g' ∧ Idle g' ∧ Holds g'.gbStatusPacket f.encode := by
  obtain ⟨k, hk, hwhole⟩ := h.whole
  have hinc : g.incomingAfter a = noise ++ f.encode ++ [] := by
    rw [hg.incomingAfter, h.reply, List.append_nil]
  have hverdict := @verdict_frame r.frame.id noise [] f h.quiet hf (by omega)
  obtain ⟨g', hcommand, hfree, -, hholds, hrest⟩ := command_answered (r := r) (a := a) hg.1 hid hk
    hwhole h.delivers (by rw [hinc]; exact hverdict) (by
      rw [hinc, List.append_nil, List.length_append, List.length_nil, Nat.zero_add]
      exact h.enough)
  exact ⟨g', hcommand, ⟨hfree, hrest⟩, hholds⟩

/-- The value of the answer is returned. -/
theorem Delivered.report {r : Request} {a : Answer} {noise : List Byte} {f : Frame}
    (h : Delivered r a noise f) {g : Globals} (hg : Idle g) (hid : r.frame.id ≠ broadcastId)
    (hf : f.id = r.frame.id) (hwants : r.wants ≤ f.params.length) (hparams : f.params.length ≤ 64) :
    ∃ g', Request.report g (r, a) = .ok (g', r.value f) ∧ Idle g' := by
  obtain ⟨g', hcommand, hg', hholds⟩ := h.answered hg hid hf hparams
  exact ⟨g', report_of_call (call_value hcommand hholds hwants), hg'⟩

theorem Request.wants_le (r : Request) : r.wants ≤ 2 := by
  cases r <;> simp [Request.wants]

/-- An answer with two parameters. -/
def plainFrame (r : Request) (low high : Byte) : Frame := ⟨r.frame.id, 0, [low, high], by simp⟩

/-- It is delivered without noise. -/
def plainAnswer (r : Request) (low high : Byte) : Answer :=
  ⟨⟨0, some 9, (plainFrame r low high).encode⟩, List.replicate 8 ⟨some 6, false, some 6⟩⟩

theorem delivered_plain (r : Request) (low high : Byte) :
    Delivered r (plainAnswer r low high) [] (plainFrame r low high) where
  whole := ⟨9, rfl, by
    have hparams := r.length_params
    rw [r.frame.length_encode]
    omega⟩
  reply := rfl
  quiet := by decide
  delivers := delivers_replicate 8
  enough := by simp [plainAnswer, plainFrame]

theorem report_plain {r : Request} {g : Globals} (hg : Idle g) (hid : r.frame.id ≠ broadcastId)
    (low high : Byte) : ∃ g', Request.report g (r, plainAnswer r low high) =
      .ok (g', r.value (plainFrame r low high)) ∧ Idle g' :=
  (delivered_plain r low high).report hg hid rfl r.wants_le (by change 2 ≤ 64; decide)

/-- A session of commands with such answers. -/
def plainSession (rs : List Request) : List (Request × Answer) :=
  rs.map fun r => (r, plainAnswer r 0 0)

theorem map_plainSession (rs : List Request) : (plainSession rs).map Prod.fst = rs := by
  simp [plainSession, Function.comp_def]

theorem exists_sent {rs : List Request} (h : ∀ r ∈ rs, r.frame.id ≠ broadcastId) :
    ∃ g, Sent (plainSession rs) g := by
  have hrun : ∀ g, Idle g → ∃ g' values,
      Run.exec (fun _ => false) Request.report g (plainSession rs) = .ok (g', values) := by
    induction rs with
    | nil => exact fun g _ => ⟨g, [], rfl⟩
    | cons r rs ih =>
      intro g hg
      obtain ⟨m, hreport, hm⟩ := report_plain hg (h r (by simp)) 0 0
      obtain ⟨g', values, hrest⟩ := ih (fun r' hr' => h r' (by simp [hr'])) m hm
      exact ⟨g', _, Run.exec_append (Run.exec_single hreport) hrest⟩
  obtain ⟨g, values, hg⟩ := hrun .start start_idle
  refine ⟨g, run_of_report hg, fun i hi => ?_⟩
  obtain ⟨r, -, rfl⟩ := List.mem_map.mp hi
  exact (delivered_plain r 0 0).whole

/-! ## Answers left over -/

/-- The word of an answer. -/
def Frame.word (f : Frame) : Int := dxlMakeword (f.params.getD 0 0).toNat (f.params.getD 1 0).toNat

/-- When the reads of a command fail, it succeeds with the answer to an earlier one, whatever that
was. -/
theorem stale_answer {r : Request} {a : Answer} {g : Globals} {f : Frame} {k : Nat} {p : Poll}
    {polls : List Poll} (hfree : g.giBusUsing = false) (hid : r.frame.id ≠ broadcastId)
    (hw : a.tx.written = some k) (hk : r.frame.encode.length ≤ k) (hpolls : a.polls = p :: polls)
    (hp : p.first = none) (hholds : Holds g.gbStatusPacket f.encode) (hf : f.id = r.frame.id)
    (hwants : r.wants ≤ f.params.length) :
    ∃ g', r.call a g = .ok (r.value f, g') ∧ g'.gbCommStatus = .rxSuccess ∧
      g'.sent = g.sent ++ [r.frame.encode] := by
  obtain ⟨instruction, hinstruction, hcommand⟩ := command_writes r (a := a) hfree
  obtain ⟨asked, hasked⟩ : ∃ asked, asked = { g.wrote a.tx instruction [r.frame.encode] with
    timeoutFor := r.frame.answerLength
    gbCommStatus := .txSuccess
    giBusUsing := true } := ⟨_, rfl⟩
  have hholds' : Holds asked.gbStatusPacket f.encode := by
    rw [hasked]
    simpa [Globals.wrote] using hholds
  -- 255 bytes count as received, and the old packet passes all checks
  have hround := failed_read_succeeds hid (g := asked)
    (by rw [hasked]; exact ⟨rfl, Frame.readAt_id hinstruction, rfl⟩) hp hholds' hf
  have hcall : command a r.fields g = .ok ({ asked with
      gbRxGetLength := 255
      gbRxPacketLength := f.params.length + 6 }.finish .rxSuccess) := by
    rw [hcommand, hw]
    simp only
    rw [if_pos hk, ← hasked, hpolls, Polling.doWhile, bind_of_ok hround]
    rfl
  refine ⟨_, call_value hcall hholds' hwants, rfl, ?_⟩
  rw [hasked]
  rfl

theorem stale_answer_word : ∃ g, (Request.readWord 0 36).call ⟨⟨0, some 8, []⟩, [⟨none, false, none⟩]⟩
    { Globals.start with
      gbStatusPacket := ⟨[255, 255, 0, 4, 0, 7, 0, 244] ++ List.replicate 62 0, rfl⟩ } =
      .ok (some 7, g) ∧ g.gbCommStatus = .rxSuccess ∧
      g.sent = [(Request.readWord 0 36).frame.encode] :=
  stale_answer (r := .readWord 0 36) (f := ⟨0, 0, [7, 0], by decide⟩) (k := 8) rfl (by decide) rfl
    le_rfl rfl rfl (by exact ⟨List.replicate 62 0, rfl⟩) rfl le_rfl

end DrinkRobot.Dxl
