import DrinkRobot.Dxl.Calls
import DrinkRobot.Dxl.Exchange

/-!
# Commands as requests to a servo

* `Request`: the five commands without what the port does; `Request.frame` is the frame that the
  command is for.
* `command_writes`: a command writes the packet of its frame, once, or as much as the port takes.
* `command_answered`: a command whose answer the port delivers succeeds with that answer.
* `Sent`: a session whose packets the port takes whole; `Sent.log` says what is on the wire then.
* `session_log`: over a session, the port has seen one packet for each command, in their order.
-/

namespace DrinkRobot.Dxl

open Buffer (Holds)
open Run (bind_ok bind_of_ok)

inductive Request where
  | ping (id : Int)
  | readByte (id address : Int)
  | readWord (id address : Int)
  | writeByte (id address value : Int)
  | writeWord (id address value : Int)

def Request.fields : Request → List (Nat × Int)
  | .ping id => pingFields id
  | .readByte id address => readFields id address 1
  | .readWord id address => readFields id address 2
  | .writeByte id address value => writeByteFields id address value
  | .writeWord id address value => writeWordFields id address value

def Request.frame : Request → Frame
  | .ping id => ⟨BitVec.ofInt 8 id, instPing, [], by simp⟩
  | .readByte id address => ⟨BitVec.ofInt 8 id, instRead, [BitVec.ofInt 8 address, 1], by simp⟩
  | .readWord id address => ⟨BitVec.ofInt 8 id, instRead, [BitVec.ofInt 8 address, 2], by simp⟩
  | .writeByte id address value =>
    ⟨BitVec.ofInt 8 id, instWrite, [BitVec.ofInt 8 address, BitVec.ofInt 8 value], by simp⟩
  | .writeWord id address value =>
    ⟨BitVec.ofInt 8 id, instWrite,
      [BitVec.ofInt 8 address, BitVec.ofInt 8 (dxlGetLowbyte value),
        BitVec.ofInt 8 (dxlGetHighbyte value)], by simp⟩

/-- The command, and the value it returns. -/
def Request.call (r : Request) (a : Answer) (g : Globals) : Except Stop (Option Int × Globals) :=
  match r with
  | .ping id => do
    let g ← dxlPing a id g
    return (none, g)
  | .readByte id address => do
    let (value, g) ← dxlReadByte a id address g
    return (some value, g)
  | .readWord id address => do
    let (value, g) ← dxlReadWord a id address g
    return (some value, g)
  | .writeByte id address value => do
    let g ← dxlWriteByte a id address value g
    return (none, g)
  | .writeWord id address value => do
    let g ← dxlWriteWord a id address value g
    return (none, g)

/-! ## Words -/

theorem getLowbyte_eq (word : Int) : dxlGetLowbyte word = word % 256 := by
  have hand : (word % 4294967296).toNat &&& 255 = (word % 4294967296).toNat % 256 :=
    Nat.and_two_pow_sub_one_eq_mod _ 8
  simp only [dxlGetLowbyte, BitVec.toNat_setWidth, BitVec.toNat_and, BitVec.toNat_ofInt]
  change ((((word % 4294967296).toNat &&& 255) % 65536 : Nat) : Int) = _
  rw [hand]
  omega

theorem getHighbyte_eq (word : Int) : dxlGetHighbyte word = word / 256 % 256 := by
  have hand : ((word % 4294967296).toNat &&& 65280) >>> 8 =
      (word % 4294967296).toNat / 256 % 256 := by
    rw [Nat.shiftRight_and_distrib, Nat.shiftRight_eq_div_pow]
    exact Nat.and_two_pow_sub_one_eq_mod _ 8
  have hle : (word % 4294967296).toNat &&& 65280 ≤ 65280 := Nat.and_le_right
  simp only [dxlGetHighbyte, BitVec.toNat_setWidth, BitVec.toNat_and, BitVec.toNat_ofInt,
    BitVec.toNat_ushiftRight]
  change (((((word % 4294967296).toNat &&& 65280) % 65536) >>> 8 : Nat) : Int) = _
  rw [Nat.mod_eq_of_lt (by omega), hand]
  omega

theorem makeword_eq (low high : Byte) :
    dxlMakeword low.toNat high.toNat = low.toNat + 256 * high.toNat := by
  have hl := low.isLt
  have hh := high.isLt
  simp only [dxlMakeword, BitVec.toNat_add, BitVec.toNat_shiftLeft, BitVec.toNat_ofInt]
  rw [Nat.shiftLeft_eq]
  omega

/-- The two bytes that a word is written as, put together again. -/
theorem makeword_bytes (word : Int) :
    dxlMakeword (BitVec.ofInt 8 (dxlGetLowbyte word)).toNat
      (BitVec.ofInt 8 (dxlGetHighbyte word)).toNat = word % 65536 := by
  rw [makeword_eq, getLowbyte_eq, getHighbyte_eq, BitVec.toNat_ofInt, BitVec.toNat_ofInt]
  omega

/-! ## The write of a command -/

theorem setTx_ok {i : Nat} (value : Int) (g : Globals) (hi : i < 160) :
    ∃ packet, g.setTx i value = .ok { g with gbInstructionPacket := packet } ∧
      packet.toList = g.gbInstructionPacket.toList.set i (BitVec.ofInt 8 value) := by
  obtain ⟨packet, hpoke, hlist⟩ := Buffer.poke_ok Stop.outOfBounds g.gbInstructionPacket
    (BitVec.ofInt 8 value) (show i < maxnumTxparam + 10 from hi)
  exact ⟨packet, by rw [Globals.setTx, bind_of_ok hpoke]; rfl, hlist⟩

theorem fields_ok (fields : List (Nat × Int)) (g : Globals) (hf : ∀ f ∈ fields, f.1 < 160) :
    ∃ packet, fields.foldlM (fun g f => g.setTx f.1 f.2) g =
        .ok { g with gbInstructionPacket := packet } ∧
      packet.toList = fields.foldl (fun bytes f => bytes.set f.1 (BitVec.ofInt 8 f.2))
        g.gbInstructionPacket.toList := by
  induction fields generalizing g with
  | nil => exact ⟨g.gbInstructionPacket, rfl, rfl⟩
  | cons f fields ih =>
    obtain ⟨packet, hset, hlist⟩ := setTx_ok f.2 g (hf f (by simp))
    obtain ⟨packet', hrest, hlist'⟩ := ih { g with gbInstructionPacket := packet }
      fun f hf' => hf f (by simp [hf'])
    refine ⟨packet', ?_, ?_⟩
    · rw [List.foldlM_cons, bind_of_ok hset]
      exact hrest
    · rw [hlist', List.foldl_cons, ← hlist]

theorem exists_eight {l : List Byte} (h : 8 ≤ l.length) :
    ∃ x y a b c d e f rest, l = x :: y :: a :: b :: c :: d :: e :: f :: rest := by
  match l, h with
  | x :: y :: a :: b :: c :: d :: e :: f :: rest, _ => exact ⟨x, y, a, b, c, d, e, f, rest, rfl⟩

/-- The fields of a command are those of its frame. -/
theorem request_outgoing (r : Request) (g : Globals) :
    ∃ packet, r.fields.foldlM (fun g f => g.setTx f.1 f.2) g =
        .ok { g with gbInstructionPacket := packet } ∧ Outgoing r.frame packet := by
  obtain ⟨packet, hfields, hlist⟩ := fields_ok r.fields g (by
    cases r <;> simp [Request.fields, pingFields, readFields, writeByteFields, writeWordFields, idIndex,
      lengthIndex, instructionIndex, parameterIndex])
  refine ⟨packet, hfields, ?_⟩
  obtain ⟨x, y, a, b, c, d, e, f, rest, hp⟩ := exists_eight (l := g.gbInstructionPacket.toList)
    (by rw [g.gbInstructionPacket.toList_length]; decide)
  rw [hp] at hlist
  cases r with
  | ping id => exact ⟨x, y, d :: e :: f :: rest, hlist⟩
  | readByte id address => exact ⟨x, y, f :: rest, hlist⟩
  | readWord id address => exact ⟨x, y, f :: rest, hlist⟩
  | writeByte id address value => exact ⟨x, y, f :: rest, hlist⟩
  | writeWord id address value => exact ⟨x, y, rest, hlist⟩

@[simp] theorem Request.length_params (r : Request) : r.frame.params.length ≤ 3 := by
  cases r <;> simp [Request.frame]

theorem Request.code_mem (r : Request) : r.frame.code ∈ instructions := by
  cases r <;> simp [Request.frame, instructions]

theorem Request.read_params (r : Request) (h : r.frame.code = instRead) :
    2 ≤ r.frame.params.length := by
  cases r with
  | ping id => exact absurd h (by change ¬ instPing = instRead; decide)
  | readByte id address => exact le_rfl
  | readWord id address => exact le_rfl
  | writeByte id address value => exact le_rfl
  | writeWord id address value => exact Nat.le_succ 2

theorem Frame.readAt_id {f : Frame} {n : Nat} {packet : List.Vector Byte n}
    (h : Holds packet f.encode) : readAt packet idIndex = .ok f.id := by
  have hcons := f.encode_eq
  rw [readAt_holds h (i := idIndex) (by rw [f.length_encode]; change 2 < _; omega)]
  simp only [hcons]
  rfl

/-- A command on a free bus writes the packet of its frame, and waits for the answer if the port took
it whole. -/
theorem command_writes (r : Request) {a : Answer} {g : Globals} (hfree : g.giBusUsing = false) :
    ∃ packet, Holds packet r.frame.encode ∧ command a r.fields g =
      match a.tx.written with
      | none => .ok ((g.wrote a.tx packet []).finish .txFail)
      | some k =>
        if r.frame.encode.length ≤ k then do
          let (g, done) ← Polling.doWhile Globals.waiting dxlRxPacket
            { g.wrote a.tx packet [r.frame.encode] with
              timeoutFor := r.frame.answerLength
              gbCommStatus := .txSuccess
              giBusUsing := true } a.polls
          if done then
            return g
          throw .polling
        else
          .ok ((g.wrote a.tx packet [r.frame.encode.take k]).finish .txFail) := by
  obtain ⟨packet, hfields, hout⟩ := request_outgoing r g
  have hparams := r.length_params
  obtain ⟨packet', hholds, htx⟩ := tx_frame (a := a.tx)
    (g := { g with gbInstructionPacket := packet }) hfree hout r.code_mem r.read_params (by omega)
  have hwrote : ∀ bytes, Globals.wrote { g with gbInstructionPacket := packet } a.tx packet' bytes =
      g.wrote a.tx packet' bytes := by
    intro bytes
    simp only [Globals.wrote, Globals.clearStale]
    split <;> rfl
  refine ⟨packet', hholds, ?_⟩
  rw [command, if_neg (by simp [hfree]), bind_of_ok hfields, dxlTxrxPacket, htx]
  cases a.tx.written with
  | none =>
    simp only [hwrote]
    rfl
  | some k =>
    simp only [hwrote]
    by_cases hk : r.frame.encode.length ≤ k
    · rw [if_pos hk, if_pos hk]
      rfl
    · rw [if_neg hk, if_neg hk]
      rfl

theorem loop_kept {polls : List Poll} {g g' : Globals} {done : Bool}
    (h : Polling.doWhile Globals.waiting dxlRxPacket g polls = .ok (g', done)) : Kept g g' := by
  induction polls generalizing g with
  | nil => cases h; exact Kept.refl _
  | cons p polls ih =>
    obtain ⟨g₁, hrx, h⟩ := bind_ok.mp h
    have hkept := (rx_cases hrx).1
    split at h
    · exact hkept.trans (ih h)
    · cases h
      exact hkept

/-- The part of the packet of a command that the port took. -/
def taken (r : Request) (a : Answer) : List (List Byte) :=
  match a.tx.written with
  | none => []
  | some k => [r.frame.encode.take k]

theorem taken_whole {r : Request} {a : Answer} {k : Nat} (hw : a.tx.written = some k)
    (hk : r.frame.encode.length ≤ k) : taken r a = [r.frame.encode] := by
  have htake := List.take_of_length_le hk
  rw [taken, hw]
  exact congrArg (fun bytes => [bytes]) htake

theorem command_sent {r : Request} {a : Answer} {g g' : Globals} (hfree : g.giBusUsing = false)
    (h : command a r.fields g = .ok g') : g'.sent = g.sent ++ taken r a := by
  obtain ⟨packet, -, hcommand⟩ := command_writes r (a := a) hfree
  rw [hcommand] at h
  cases hw : a.tx.written with
  | none =>
    rw [hw] at h
    cases h
    rw [taken, hw]
    rfl
  | some k =>
    rw [hw] at h
    simp only at h
    split at h
    · rename_i hk
      obtain ⟨⟨g₁, done⟩, hloop, h⟩ := bind_ok.mp h
      cases done with
      | false => cases h
      | true =>
        cases h
        rw [(loop_kept hloop).sent, taken_whole hw hk]
        rfl
    · cases h
      rw [taken, hw]
      rfl

/-- The bytes that come in after the write of a command. -/
def Globals.incomingAfter (g : Globals) (a : Answer) : List Byte :=
  (g.clearStale a.tx).incoming ++ a.tx.reply

/-- A command whose packet the port takes whole, and whose answer it delivers, ends with the answer
that comes first. -/
theorem command_answered {r : Request} {a : Answer} {g : Globals} {k : Nat} {packet rest : List Byte}
    (hfree : g.giBusUsing = false) (hid : r.frame.id ≠ broadcastId) (hw : a.tx.written = some k)
    (hk : r.frame.encode.length ≤ k) (hp : ∀ p ∈ a.polls, p.Delivers)
    (hv : verdict r.frame.id (g.incomingAfter a) = .accepted packet rest)
    (hlen : (g.incomingAfter a).length ≤ rest.length + a.polls.length) :
    ∃ g', command a r.fields g = .ok g' ∧ Reports (.accepted packet rest) g' := by
  obtain ⟨instruction, hholds, hcommand⟩ := command_writes r (a := a) hfree
  obtain ⟨g', hloop, hreports⟩ := rx_loop_accepts (g := { g.wrote a.tx instruction [r.frame.encode] with
    timeoutFor := r.frame.answerLength
    gbCommStatus := .txSuccess
    giBusUsing := true }) hid ⟨rfl, Frame.readAt_id hholds, rfl⟩ hp hv hlen
  refine ⟨g', ?_, hreports⟩
  rw [hcommand, hw]
  simp only
  rw [if_pos hk, bind_of_ok hloop]
  rfl

/-! ## Sessions -/

/-- What a command does to the globals. -/
def Request.step (g : Globals) (i : Request × Answer) : Except Stop Globals :=
  Prod.snd <$> i.1.call i.2 g

theorem request_step (g : Globals) (r : Request) (a : Answer) :
    Request.step g (r, a) = command a r.fields g := by
  have hnone : ∀ x : Except Stop Globals,
      Prod.snd <$> (do let g ← x; return ((none : Option Int), g)) = x := by
    intro x
    cases x <;> rfl
  have hsome : ∀ x : Except Stop (Int × Globals),
      Prod.snd <$> (do let (value, g) ← x; return (some value, g)) = Prod.snd <$> x := by
    intro x
    cases x <;> rfl
  cases r with
  | ping id => exact hnone _
  | readByte id address => exact (hsome _).trans (read_byte_globals a id address g)
  | readWord id address => exact (hsome _).trans (read_word_globals a id address g)
  | writeByte id address value => exact hnone _
  | writeWord id address value => exact hnone _

/-- Over a session the port takes, of each command in its turn, the packet or the beginning of it. -/
theorem session_sent {session : List (Request × Answer)} {g : Globals}
    (h : Run.run Request.step .start session = .ok g) :
    g.sent = session.flatMap fun i => taken i.1 i.2 := by
  have hlog : Disciplined g ∧ g.giBusUsing = false ∧
      g.sent = session.flatMap (fun i => taken i.1 i.2) := by
    refine Run.run_history (R := fun session g => Disciplined g ∧ g.giBusUsing = false ∧
      g.sent = session.flatMap fun i => taken i.1 i.2) ⟨start_disciplined, rfl, rfl⟩ ?_ h
    rintro session g ⟨r, a⟩ g' - ⟨hg, hfree, hsent⟩ hstep
    rw [request_step] at hstep
    obtain ⟨-, hg', hfree'⟩ := command_disciplined hg hstep
    refine ⟨hg', hfree', ?_⟩
    rw [command_sent hfree hstep, hsent, List.flatMap_append]
    simp
  exact hlog.2.2

/-- The session returns, and the port has taken every packet whole. -/
structure Sent (session : List (Request × Answer)) (g : Globals) : Prop where
  run : Run.run Request.step .start session = .ok g
  whole : ∀ i ∈ session, ∃ k, i.2.tx.written = some k ∧ i.1.frame.encode.length ≤ k

theorem Sent.log {session : List (Request × Answer)} {g : Globals} (h : Sent session g) :
    g.sent = (session.map Prod.fst).map fun r => r.frame.encode := by
  have hone : ∀ i ∈ session, taken i.1 i.2 = [i.1.frame.encode] := by
    intro i hi
    obtain ⟨k, hk, hlen⟩ := h.whole i hi
    exact taken_whole hk hlen
  rw [session_sent h.run, List.flatMap_congr hone, ← List.map_eq_flatMap, List.map_map]
  rfl

/-- Over a session the port takes, of each command in its turn, the packet or the beginning of it,
and nothing else; when it takes all of every packet, these are the commands' frames. -/
theorem session_log {session : List (Request × Answer)} {g : Globals}
    (h : Run.run Request.step .start session = .ok g) :
    g.sent = session.flatMap (fun i => taken i.1 i.2) ∧
      ((∀ i ∈ session, ∃ k, i.2.tx.written = some k ∧ i.1.frame.encode.length ≤ k) →
        g.sent.map decode = session.map fun i => some i.1.frame) := by
  refine ⟨session_sent h, fun hwhole => ?_⟩
  rw [Sent.log ⟨h, hwhole⟩, List.map_map, List.map_map]
  exact List.map_congr_left fun i _ => decode_encode i.1.frame

theorem session_log_ping :
    ∃ g, Run.run Request.step .start [(.ping 0, ⟨⟨0, some 6, [255, 255, 0, 2, 0, 253]⟩,
        List.replicate 6 ⟨some 6, false, some 6⟩⟩)] = .ok g ∧
      g.sent.map decode = [some (Request.ping 0).frame] := by
  obtain ⟨a, ha⟩ : ∃ a : Answer, a = ⟨⟨0, some 6, [255, 255, 0, 2, 0, 253]⟩,
    List.replicate 6 ⟨some 6, false, some 6⟩⟩ := ⟨_, rfl⟩
  obtain ⟨g, hcommand, -⟩ := command_answered (r := .ping 0) (a := a) (g := .start) (k := 6)
    rfl (by decide) (by rw [ha]) le_rfl (by rw [ha]; exact delivers_replicate 6)
    (show verdict _ (Globals.incomingAfter _ a) = .accepted [255, 255, 0, 2, 0, 253] [] by
      rw [ha]; decide) (by rw [ha]; decide)
  have hrun : Run.run Request.step .start [(.ping 0, a)] = .ok g := by
    rw [Run.run, List.foldlM_cons, request_step, hcommand]
    rfl
  refine ⟨g, by rw [← ha]; exact hrun, (session_log hrun).2 ?_⟩
  intro i hi
  rw [List.mem_singleton.mp hi]
  exact ⟨6, by rw [ha], le_rfl⟩

end DrinkRobot.Dxl
