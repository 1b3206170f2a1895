import DrinkRobot.Dxl.Answers

/-!
# The library and the servos on one bus

The firmware of the servos is a parameter: of what it does with a packet only that is known which the
protocol says, and that as named hypotheses.

* `Firmware`, `Firmware.Serves`: the firmware, and what is known of its answers. `Firmware.receive` is
  what it does with the bytes on the wire.
* `Chain`: servos with different ids. `Firmware.obey` is what a command does to them when the packets
  are handed over directly, without bytes.
* `Turn`: a command and what the port does meanwhile, with the proofs that the port delivers.
* `turns_agree`: over any turns, the library and the servos behind the wire do the same.
* `word_read_back`: a word that is written without an error is read back.
-/

namespace DrinkRobot.Dxl

open Buffer (Holds)
open Run (bind_of_ok)

/-- The firmware of the servos: the id, and what a packet does to a servo, with its answer. -/
structure Firmware (σ : Type) where
  id : σ → Byte
  handle : σ → Frame → σ × Option Frame

variable {σ : Type} {fw : Firmware σ} {P : Request → Prop} {ids : List Byte}

/-- What is known of the firmware for the commands `P`. -/
structure Firmware.Serves (fw : Firmware σ) (P : Request → Prop) : Prop where
  keeps_id : ∀ s r, P r → fw.id (fw.handle s r.frame).1 = fw.id s
  /-- A servo does not answer for another one. -/
  silent : ∀ s r, P r → r.frame.id ≠ fw.id s → (fw.handle s r.frame).2 = none
  /-- The servo that is meant answers, with the parameters that are asked for. -/
  answers : ∀ s r, P r → r.frame.id = fw.id s → ∃ f, (fw.handle s r.frame).2 = some f ∧
    f.id = fw.id s ∧ r.wants ≤ f.params.length ∧ f.params.length ≤ 64

/-- What a servo does with the bytes of a write. -/
def Firmware.receive (fw : Firmware σ) (s : σ) (bytes : List Byte) : σ × List Byte :=
  match decode bytes with
  | some f => ((fw.handle s f).1, (fw.handle s f).2.elim [] Frame.encode)
  | none => (s, [])

/-- Every servo receives the bytes of a write. -/
def Firmware.receiveAll (fw : Firmware σ) (c : List σ) (bytes : List Byte) : List σ × List Byte :=
  (c.map fun s => (fw.receive s bytes).1, c.flatMap fun s => (fw.receive s bytes).2)

/-- The servos after a command, and the value that it returns. -/
def Firmware.obey (fw : Firmware σ) (c : List σ) (r : Request) : List σ × Option Int :=
  (c.map fun s => (fw.handle s r.frame).1,
    (c.findSome? fun s => (fw.handle s r.frame).2).bind fun f => r.value f)

/-- The servos after commands, and the values that they return. -/
def Firmware.session (fw : Firmware σ) (c : List σ) : List Request → List σ × List (Option Int)
  | [] => (c, [])
  | r :: rs =>
    let (after, values) := fw.session (fw.obey c r).1 rs
    (after, (fw.obey c r).2 :: values)

/-- The servos on one bus. -/
structure Chain (fw : Firmware σ) (ids : List Byte) (c : List σ) : Prop where
  ids_eq : c.map fw.id = ids
  nodup : ids.Nodup
  unicast : broadcastId ∉ ids

/-- One servo has the id. -/
theorem Chain.split {c : List σ} (hc : Chain fw ids c) {id : Byte} (hid : id ∈ ids) :
    ∃ before s after, c = before ++ s :: after ∧ fw.id s = id ∧
      ∀ s' ∈ before ++ after, fw.id s' ≠ id := by
  have hnodup := hc.nodup
  rw [← hc.ids_eq] at hid hnodup
  obtain ⟨s, hs, rfl⟩ := List.mem_map.mp hid
  obtain ⟨before, after, rfl⟩ := List.append_of_mem hs
  refine ⟨before, s, after, rfl, rfl, fun s' hs' heq => ?_⟩
  rw [List.map_append, List.map_cons, List.nodup_middle, List.nodup_cons, ← List.map_append] at hnodup
  exact hnodup.1 (heq ▸ List.mem_map_of_mem hs')

theorem Chain.obey {c : List σ} (hc : Chain fw ids c) (hfw : fw.Serves P) {r : Request} (hr : P r) :
    Chain fw ids (fw.obey c r).1 where
  ids_eq := by
    rw [← hc.ids_eq, Firmware.obey, List.map_map]
    exact List.map_congr_left fun s _ => hfw.keeps_id s r hr
  nodup := hc.nodup
  unicast := hc.unicast

/-- The servos receive the packet of a command, and the one it is for answers. -/
theorem Chain.answers {c : List σ} (hc : Chain fw ids c) (hfw : fw.Serves P) {r : Request} (hr : P r)
    (hid : r.frame.id ∈ ids) : ∃ s ∈ c, ∃ f, fw.id s = r.frame.id ∧ (fw.handle s r.frame).2 = some f ∧
      fw.receiveAll c r.frame.encode = ((fw.obey c r).1, f.encode) ∧ (fw.obey c r).2 = r.value f ∧
      f.id = r.frame.id ∧ r.wants ≤ f.params.length ∧ f.params.length ≤ 64 := by
  obtain ⟨before, s, after, rfl, hs, hothers⟩ := hc.split hid
  obtain ⟨f, hf, hfid, hwants, hparams⟩ := hfw.answers s r hr hs.symm
  -- ids are distinct, so the other servos keep silent
  have hsilent : ∀ s' ∈ before ++ after, (fw.handle s' r.frame).2 = none := fun s' hs' =>
    hfw.silent s' r hr (hothers s' hs').symm
  have hreceive : ∀ s', fw.receive s' r.frame.encode =
      ((fw.handle s' r.frame).1, (fw.handle s' r.frame).2.elim [] Frame.encode) := by
    intro s'
    rw [Firmware.receive, decode_encode]
  have hnone : ∀ l : List σ, (∀ s' ∈ l, s' ∈ before ++ after) →
      l.flatMap (fun s' => (fw.receive s' r.frame.encode).2) = [] := by
    intro l hl
    rw [List.flatMap_eq_nil_iff]
    intro s' hs'
    rw [hreceive, hsilent s' (hl s' hs')]
    rfl
  refine ⟨s, by simp, f, hs, hf, Prod.ext ?_ ?_, ?_, hfid.trans hs, hwants, hparams⟩
  · exact List.map_congr_left fun s' _ => congrArg Prod.fst (hreceive s')
  · simp only [Firmware.receiveAll]
    rw [List.flatMap_append, List.flatMap_cons, hnone before fun s' hs' => List.mem_append_left _ hs',
      hnone after fun s' hs' => List.mem_append_right _ hs', hreceive, hf, List.nil_append,
      List.append_nil]
    rfl
  · have hfind : (before ++ s :: after).findSome? (fun s' => (fw.handle s' r.frame).2) = some f := by
      rw [List.findSome?_append, List.findSome?_eq_none_iff.mpr fun s' hs' =>
        hsilent s' (List.mem_append_left _ hs'), Option.none_or, List.findSome?_cons, hf]
    rw [Firmware.obey]
    simp only [hfind, Option.bind_some]

/-! ## Turns -/

/-- A command to one of the servos, and what the port does: it takes the packet whole, there is noise
before the answer, and there are reads enough for both. -/
structure Turn (P : Request → Prop) (ids : List Byte) where
  request : Request
  known : P request
  target : request.frame.id ∈ ids
  purged : Nat
  written : Nat
  whole : request.frame.encode.length ≤ written
  noise : List Byte
  quiet : Noise noise
  polls : List Poll
  delivers : ∀ p ∈ polls, p.Delivers
  enough : noise.length + 70 ≤ polls.length

/-- A turn without noise. -/
def Turn.plain (r : Request) (known : P r) (target : r.frame.id ∈ ids) : Turn P ids where
  request := r
  known := known
  target := target
  purged := 0
  written := 9
  whole := by
    have hparams := r.length_params
    rw [r.frame.length_encode]
    omega
  noise := []
  quiet := by decide
  polls := List.replicate 70 ⟨some 6, false, some 6⟩
  delivers := delivers_replicate 70
  enough := by decide

/-- The command, with the servos at the other end. -/
def Turn.step (fw : Firmware σ) (p : List σ × Globals) (t : Turn P ids) :
    Except Stop ((List σ × Globals) × Option Int) := do
  let (c, reply) := fw.receiveAll p.1 (t.request.frame.encode.take t.written)
  let (value, g) ← t.request.call
    ⟨⟨t.purged, some t.written, t.noise ++ reply⟩, t.polls⟩ p.2
  return ((c, g), value)

/-- A turn on an idle bus is what the command does without bytes. The answer is then in the status
packet. -/
theorem turn_agrees (hfw : fw.Serves P) {c : List σ} (hc : Chain fw ids c) {g : Globals} (hg : Idle g)
    (t : Turn P ids) : ∃ g', t.step fw (c, g) =
        .ok (((fw.obey c t.request).1, g'), (fw.obey c t.request).2) ∧ Idle g' ∧
      ∃ s ∈ c, ∃ f, fw.id s = t.request.frame.id ∧ (fw.handle s t.request.frame).2 = some f ∧
        (fw.obey c t.request).2 = t.request.value f ∧ Holds g'.gbStatusPacket f.encode := by
  obtain ⟨s, hs, f, hsid, hf, hreceive, hvalue, hfid, hwants, hparams⟩ :=
    hc.answers hfw t.known t.target
  have hdelivered : Delivered t.request ⟨⟨t.purged, some t.written, t.noise ++ f.encode⟩, t.polls⟩
      t.noise f := by
    refine ⟨⟨t.written, rfl, t.whole⟩, rfl, t.quiet, t.delivers, ?_⟩
    have henough := t.enough
    rw [f.length_encode]
    change t.noise.length + (f.params.length + 6) ≤ t.polls.length
    omega
  obtain ⟨g', hcommand, hg', hholds⟩ :=
    hdelivered.answered hg (fun h => hc.unicast (h ▸ t.target)) hfid hparams
  refine ⟨g', ?_, hg', s, hs, f, hsid, hf, hvalue, hholds⟩
  rw [Turn.step, List.take_of_length_le t.whole]
  simp only [hreceive]
  rw [call_value hcommand hholds hwants, hvalue]
  rfl

theorem turns_run (hfw : fw.Serves P) {c : List σ} (hc : Chain fw ids c) {g : Globals} (hg : Idle g)
    (turns : List (Turn P ids)) :
    ∃ g', Run.exec (fun _ => false) (Turn.step fw) (c, g) turns =
        .ok (((fw.session c (turns.map Turn.request)).1, g'),
          (fw.session c (turns.map Turn.request)).2) ∧
      Idle g' ∧ Chain fw ids (fw.session c (turns.map Turn.request)).1 := by
  induction turns generalizing c g with
  | nil => exact ⟨g, rfl, hg, hc⟩
  | cons t turns ih =>
    obtain ⟨g₁, hstep, hg₁, -⟩ := turn_agrees hfw hc hg t
    obtain ⟨g', hrest, hg', hc'⟩ := ih (hc.obey hfw t.known) hg₁
    refine ⟨g', ?_, hg', hc'⟩
    rw [Run.exec, if_neg (by simp), bind_of_ok hstep]
    simp only
    rw [bind_of_ok hrest]
    rfl

/-- Over any turns, each command returns the value of the servo's answer, and the servos are left as
by the packets of the commands. -/
theorem turns_agree (hfw : fw.Serves P) {c : List σ} (hc : Chain fw ids c)
    (turns : List (Turn P ids)) :
    ∃ g, Run.exec (fun _ => false) (Turn.step fw) (c, .start) turns =
      .ok (((fw.session c (turns.map Turn.request)).1, g),
        (fw.session c (turns.map Turn.request)).2) := by
  obtain ⟨g, hrun, -⟩ := turns_run hfw hc start_idle turns
  exact ⟨g, hrun⟩

/-! ## A servo with a goal -/

/-- A servo of which only the goal is known. -/
structure GoalServo where
  id : Byte
  low : Byte
  high : Byte

theorem fits_nil : ([] : List Byte).length + 2 < 256 := by simp

/-- The commands that it understands. -/
def OnlyGoal : Request → Prop
  | .ping _ => True
  | .readWord _ address => address = 30
  | .writeWord _ address _ => address = 30
  | _ => False

/-- A goal above 1023 is refused with `ERRBIT_RANGE`. -/
def GoalServo.handle (s : GoalServo) (f : Frame) : GoalServo × Option Frame :=
  if f.id ≠ s.id then
    (s, none)
  else
    match f.params with
    | [_, low, high] =>
      if low.toNat + 256 * high.toNat ≤ 1023 then
        ({ s with low := low, high := high }, some ⟨s.id, 0, [], fits_nil⟩)
      else
        (s, some ⟨s.id, 8, [], fits_nil⟩)
    | [_, _] => (s, some ⟨s.id, 0, [s.low, s.high], by simp⟩)
    | _ => (s, some ⟨s.id, 0, [], fits_nil⟩)

def goalServo : Firmware GoalServo := ⟨GoalServo.id, GoalServo.handle⟩

theorem goalServo_serves : goalServo.Serves OnlyGoal where
  keeps_id s r _ := by
    change (s.handle r.frame).1.id = s.id
    unfold GoalServo.handle
    split
    · rfl
    split
    · split <;> rfl
    · rfl
    · rfl
  silent s r _ h := by
    have h : r.frame.id ≠ s.id := h
    change (s.handle r.frame).2 = none
    rw [GoalServo.handle, if_pos h]
  answers s r hr h := by
    have h : r.frame.id = s.id := h
    change ∃ f, (s.handle r.frame).2 = some f ∧ _
    rw [GoalServo.handle, if_neg (not_not.mpr h)]
    cases r with
    | ping id => exact ⟨_, rfl, rfl, Nat.zero_le 0, Nat.zero_le 64⟩
    | readByte id address => cases hr
    | readWord id address => exact ⟨_, rfl, rfl, le_rfl, by change 2 ≤ 64; decide⟩
    | writeByte id address value => cases hr
    | writeWord id address value =>
      simp only [Request.frame]
      split
      · exact ⟨_, rfl, rfl, Nat.zero_le 0, Nat.zero_le 64⟩
      · exact ⟨_, rfl, rfl, Nat.zero_le 0, Nat.zero_le 64⟩

/-- One of these servos, with the goal 0. -/
theorem goalServo_chain : Chain goalServo [1] [⟨1, 0, 0⟩] := ⟨rfl, by decide, by decide⟩

def goalTurn (r : Request) (known : OnlyGoal r) (target : r.frame.id ∈ [(1 : Byte)]) :
    Turn OnlyGoal [1] := .plain r known target

theorem turns_agree_goal : ∃ g, Run.exec (fun _ => false) (Turn.step goalServo)
      ([⟨1, 0, 0⟩], .start) [goalTurn (.writeWord 1 30 700) rfl (by decide),
        goalTurn (.readWord 1 30) rfl (by decide)] =
    .ok (([⟨1, 188, 2⟩], g), [none, some 700]) :=
  turns_agree goalServo_serves goalServo_chain [goalTurn (.writeWord 1 30 700) rfl (by decide),
    goalTurn (.readWord 1 30) rfl (by decide)]

/-! ## Words -/

/-- The registers that a command writes, with the servo. -/
def Request.writes : Request → List (Byte × Byte)
  | .writeByte id address _ => [(BitVec.ofInt 8 id, BitVec.ofInt 8 address)]
  | .writeWord id address _ =>
    [(BitVec.ofInt 8 id, BitVec.ofInt 8 address), (BitVec.ofInt 8 id, BitVec.ofInt 8 address + 1)]
  | _ => []

/-- No command of the list writes to the word. -/
def Untouched (id address : Byte) (rs : List Request) : Prop :=
  ∀ r ∈ rs, (id, address) ∉ r.writes ∧ (id, address + 1) ∉ r.writes

/-- What is known of the word at an address for the commands `P`, with its two bytes. -/
structure Firmware.Stores (fw : Firmware σ) (P : Request → Prop) (address : Byte)
    (word : σ → Byte × Byte) : Prop where
  /-- A write that is answered without an error is stored. -/
  write : ∀ s n a value, P (.writeWord n a value) → BitVec.ofInt 8 n = fw.id s →
    BitVec.ofInt 8 a = address →
    ∀ f, (fw.handle s (Request.writeWord n a value).frame).2 = some f → f.code = 0 →
      word (fw.handle s (Request.writeWord n a value).frame).1 =
        (BitVec.ofInt 8 (dxlGetLowbyte value), BitVec.ofInt 8 (dxlGetHighbyte value))
  /-- A read is answered with what is stored. -/
  read : ∀ s n a, P (.readWord n a) → BitVec.ofInt 8 n = fw.id s → BitVec.ofInt 8 a = address →
    ∀ f, (fw.handle s (Request.readWord n a).frame).2 = some f →
      f.params.take 2 = [(word s).1, (word s).2]
  /-- Commands that write something else leave it. -/
  keeps : ∀ s r, P r → (fw.id s, address) ∉ r.writes → (fw.id s, address + 1) ∉ r.writes →
    word (fw.handle s r.frame).1 = word s

variable {address : Byte} {word : σ → Byte × Byte}

/-- The servo with an id holds the two bytes. -/
def HoldsWord (fw : Firmware σ) (word : σ → Byte × Byte) (id : Byte) (bytes : Byte × Byte)
    (c : List σ) : Prop := ∀ s ∈ c, fw.id s = id → word s = bytes

theorem HoldsWord.obey (hfw : fw.Serves P) (hword : fw.Stores P address word) {id : Byte}
    {bytes : Byte × Byte} {c : List σ} (h : HoldsWord fw word id bytes c) {r : Request} (hr : P r)
    (hfree : (id, address) ∉ r.writes ∧ (id, address + 1) ∉ r.writes) :
    HoldsWord fw word id bytes (fw.obey c r).1 := by
  intro s' hs' hid
  obtain ⟨s, hs, rfl⟩ := List.mem_map.mp hs'
  rw [hfw.keeps_id s r hr] at hid
  rw [hword.keeps s r hr (hid ▸ hfree.1) (hid ▸ hfree.2)]
  exact h s hs hid

theorem HoldsWord.session (hfw : fw.Serves P) (hword : fw.Stores P address word) {id : Byte}
    {bytes : Byte × Byte} {c : List σ} (h : HoldsWord fw word id bytes c) {rs : List Request}
    (hrs : ∀ r ∈ rs, P r) (hfree : Untouched id address rs) :
    HoldsWord fw word id bytes (fw.session c rs).1 := by
  induction rs generalizing c with
  | nil => exact h
  | cons r rs ih =>
    exact ih (h.obey hfw hword (hrs r (by simp)) (hfree r (by simp)))
      (fun r' hr' => hrs r' (by simp [hr'])) fun r' hr' => hfree r' (by simp [hr'])

/-- After a write without an error, the servo holds the word. -/
theorem Chain.holdsWord_write {n a value : Int} {c : List σ} (hc : Chain fw ids c) (hfw : fw.Serves P)
    (hword : fw.Stores P (BitVec.ofInt 8 a) word) (hP : P (.writeWord n a value)) {s : σ} (hs : s ∈ c)
    (hid : fw.id s = BitVec.ofInt 8 n) {f : Frame}
    (hf : (fw.handle s (Request.writeWord n a value).frame).2 = some f) (hcode : f.code = 0) :
    HoldsWord fw word (BitVec.ofInt 8 n) (BitVec.ofInt 8 (dxlGetLowbyte value),
      BitVec.ofInt 8 (dxlGetHighbyte value)) (fw.obey c (.writeWord n a value)).1 := by
  intro s' hs' hid'
  obtain ⟨s₀, hs₀, rfl⟩ := List.mem_map.mp hs'
  rw [hfw.keeps_id s₀ _ hP] at hid'
  -- the ids are different, so it is the servo that has answered
  have hnodup : (c.map fw.id).Nodup := hc.ids_eq ▸ hc.nodup
  obtain rfl : s₀ = s := List.inj_on_of_nodup_map hnodup hs₀ hs (hid'.trans hid.symm)
  exact hword.write s₀ n a value hP hid.symm rfl f hf hcode

theorem value_readWord (n a : Int) {f : Frame} {value : Int}
    (h : f.params.take 2 =
      [BitVec.ofInt 8 (dxlGetLowbyte value), BitVec.ofInt 8 (dxlGetHighbyte value)]) :
    (Request.readWord n a).value f = some (value % 65536) := by
  have h0 : f.params.getD 0 0 = BitVec.ofInt 8 (dxlGetLowbyte value) := by
    rw [List.getD_eq_getElem?_getD, ← List.getElem?_take_of_lt (show 0 < 2 by omega), h]
    rfl
  have h1 : f.params.getD 1 0 = BitVec.ofInt 8 (dxlGetHighbyte value) := by
    rw [List.getD_eq_getElem?_getD, ← List.getElem?_take_of_lt (show 1 < 2 by omega), h]
    rfl
  rw [Request.value, h0, h1, makeword_bytes]

/-- A word that is written is read back mod 65536, through the library, the port and the servos, if
after the write the library sees no error and no command in between writes to the word. -/
theorem word_read_back {n a value : Int} (hfw : fw.Serves P)
    (hword : fw.Stores P (BitVec.ofInt 8 a) word) {c : List σ} (hc : Chain fw ids c)
    {before between : List (Turn P ids)} {w rd : Turn P ids} (hw : w.request = .writeWord n a value)
    (hrd : rd.request = .readWord n a)
    (h : Untouched (BitVec.ofInt 8 n) (BitVec.ofInt 8 a) (between.map Turn.request)) :
    ∃ p values, Run.exec (fun _ => false) (Turn.step fw) (c, .start) (before ++ [w]) = .ok (p, values) ∧
      ((∀ errbit, dxlGetRxpacketError errbit p.2 = .ok false) →
        ∃ p' values', Run.exec (fun _ => false) (Turn.step fw) p (between ++ [rd]) = .ok (p', values') ∧
          values'.getLast? = some (some (value % 65536))) := by
  obtain ⟨g₀, hbefore, hg₀, hc₀⟩ := turns_run hfw hc start_idle before
  obtain ⟨c₀, hc₀'⟩ : ∃ c₀, (fw.session c (before.map Turn.request)).1 = c₀ := ⟨_, rfl⟩
  rw [hc₀'] at hbefore hc₀
  obtain ⟨g₁, hwrite, hg₁, s, hs, f, hsid, hf, -, hholds⟩ := turn_agrees hfw hc₀ hg₀ w
  refine ⟨_, _, Run.exec_append hbefore (Run.exec_single hwrite), fun hnone => ?_⟩
  -- no bit is set, so the servo has taken the word
  have hcode : f.code = 0 := by
    have hbits := hnone 255
    rw [(getters_eq hholds).1 255] at hbits
    have hand : f.code &&& BitVec.ofInt 8 255 = 0 := by simpa using hbits
    have hall : ∀ x : Byte, x &&& BitVec.ofInt 8 255 = 0 → x = 0 := by decide
    exact hall _ hand
  have hstored : HoldsWord fw word (BitVec.ofInt 8 n) (BitVec.ofInt 8 (dxlGetLowbyte value),
      BitVec.ofInt 8 (dxlGetHighbyte value)) (fw.obey c₀ w.request).1 := by
    rw [hw]
    exact hc₀.holdsWord_write hfw hword (hw ▸ w.known) hs (hsid.trans (by rw [hw]; rfl)) (hw ▸ hf) hcode
  obtain ⟨g₂, hbetween, hg₂, hc₂⟩ := turns_run hfw (hc₀.obey hfw w.known) hg₁ between
  have hknown : ∀ r ∈ between.map Turn.request, P r := by
    intro r hr
    obtain ⟨t, -, rfl⟩ := List.mem_map.mp hr
    exact t.known
  have hkept := hstored.session hfw hword hknown h
  obtain ⟨g₃, hread, -, s₂, hs₂, f₂, hsid₂, hf₂, hvalue, -⟩ := turn_agrees hfw hc₂ hg₂ rd
  rw [hrd] at hsid₂ hf₂ hvalue
  have hparams := hword.read s₂ n a (hrd ▸ rd.known) hsid₂.symm rfl f₂ hf₂
  rw [hkept s₂ hs₂ hsid₂] at hparams
  refine ⟨_, _, Run.exec_append hbetween (Run.exec_single hread), ?_⟩
  rw [List.getLast?_concat, hrd, hvalue, value_readWord n a hparams]

theorem goalServo_stores : goalServo.Stores OnlyGoal 30 fun s => (s.low, s.high) where
  write s n a value _ hid _ f hf hcode := by
    have hid : (Request.writeWord n a value).frame.id = s.id := hid
    change (s.handle (Request.writeWord n a value).frame).2 = some f at hf
    change ((s.handle (Request.writeWord n a value).frame).1.low,
      (s.handle (Request.writeWord n a value).frame).1.high) = _
    rw [GoalServo.handle, if_neg (not_not.mpr hid)] at hf ⊢
    simp only [Request.frame] at hf ⊢
    split at hf
    · rw [if_pos ‹_›]
    · obtain rfl := Option.some_inj.mp hf
      cases hcode
  read s n a _ hid _ f hf := by
    have hid : (Request.readWord n a).frame.id = s.id := hid
    change (s.handle (Request.readWord n a).frame).2 = some f at hf
    rw [GoalServo.handle, if_neg (not_not.mpr hid)] at hf
    obtain rfl := Option.some_inj.mp hf
    rfl
  keeps s r hr h _ := by
    change ((s.handle r.frame).1.low, (s.handle r.frame).1.high) = _
    by_cases hid : r.frame.id = s.id
    · rw [GoalServo.handle, if_neg (not_not.mpr hid)]
      cases r with
      | ping id => rfl
      | readByte id address => cases hr
      | readWord id address => rfl
      | writeByte id address value => cases hr
      | writeWord id address value =>
        obtain rfl : address = 30 := hr
        refine absurd ?_ h
        rw [show goalServo.id s = BitVec.ofInt 8 id from hid.symm]
        exact List.mem_cons_self
    · rw [GoalServo.handle, if_pos hid]

theorem word_read_back_goal : ∃ p values, Run.exec (fun _ => false) (Turn.step goalServo)
      ([⟨1, 0, 0⟩], .start) [goalTurn (.writeWord 1 30 700) rfl (by decide)] = .ok (p, values) ∧
    ∃ p' values', Run.exec (fun _ => false) (Turn.step goalServo) p
        [goalTurn (.ping 1) trivial (by decide), goalTurn (.readWord 1 30) rfl (by decide)] =
        .ok (p', values') ∧
      values'.getLast? = some (some 700) := by
  obtain ⟨p, values, hrun, hread⟩ := @word_read_back _ goalServo OnlyGoal [1] _ 1 30 700
    goalServo_serves goalServo_stores [⟨1, 0, 0⟩] goalServo_chain []
    [goalTurn (.ping 1) trivial (by decide)] (goalTurn (.writeWord 1 30 700) rfl (by decide))
    (goalTurn (.readWord 1 30) rfl (by decide)) rfl rfl
    (by simp [Untouched, Request.writes, goalTurn, Turn.plain])
  refine ⟨p, values, hrun, hread fun errbit => ?_⟩
  obtain ⟨g, hstep, -, s, hs, f, -, hf, -, hholds⟩ := turn_agrees goalServo_serves goalServo_chain
    start_idle (goalTurn (.writeWord 1 30 700) rfl (by decide))
  obtain rfl := List.mem_singleton.mp hs
  obtain rfl := Option.some_inj.mp hf
  rw [List.nil_append, Run.exec_single hstep] at hrun
  cases hrun
  rw [(getters_eq hholds).1 errbit]
  simp

end DrinkRobot.Dxl
