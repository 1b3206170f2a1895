import DrinkRobot.Dxl.Frame

/-!
# What is written to the port

* `Outgoing f g`: the instruction packet holds the frame `f`, up to the header and the checksum.
* `tx_frame`: then `dxl_tx_packet` writes the packet of `f`, whole or not.
* `tx_error_iff`: when it reads past the instruction packet.
-/

namespace DrinkRobot.Dxl

open Run (bind_of_ok)

theorem readAt_lt {n : Nat} (packet : List.Vector Byte n) {i : Nat} (hi : i < n) :
    ∃ b, readAt packet i = .ok b ∧ packet.toList[i]? = some b := by
  have hlt : i < packet.toList.length := by rwa [packet.toList_length]
  exact ⟨_, (Buffer.holds_toList packet).peek hlt, List.getElem?_eq_getElem hlt⟩

theorem readAt_getElem? {n : Nat} {packet : List.Vector Byte n} {i : Nat} {b : Byte}
    (h : packet.toList[i]? = some b) : readAt packet i = .ok b :=
  Buffer.peek_of_getElem? h

/-- `dxl_tx_packet` on a free bus, from its two checks. -/
theorem tx_eq (a : TxAnswer) {g : Globals} (hfree : g.giBusUsing = false) :
    ∃ length instruction, g.gbInstructionPacket.toList[lengthIndex]? = some length ∧
      g.gbInstructionPacket.toList[instructionIndex]? = some instruction ∧
      dxlTxPacket a g =
        if 152 < length.toNat ∨ instruction ∉ instructions then .ok (g.finish .txError)
        else writePacket a length g := by
  obtain ⟨length, hl, hl'⟩ := readAt_lt g.gbInstructionPacket (i := lengthIndex) (by decide)
  obtain ⟨instruction, hi, hi'⟩ := readAt_lt g.gbInstructionPacket (i := instructionIndex) (by decide)
  refine ⟨length, instruction, hl', hi', ?_⟩
  rw [dxlTxPacket, if_neg (by simp [hfree]), bind_of_ok hl, bind_of_ok hi]
  by_cases hlong : 152 < length.toNat
  · rw [if_pos (show maxnumTxparam + 2 < _ from hlong), if_pos (.inl hlong)]
    rfl
  · rw [if_neg (show ¬ maxnumTxparam + 2 < _ from hlong)]
    by_cases hin : instruction ∉ instructions
    · rw [if_pos hin, if_pos (.inr hin)]
      rfl
    · rw [if_neg hin, if_neg (by tauto)]

theorem sealPacket_spec (length : Byte) (packet : List.Vector Byte (maxnumTxparam + 10))
    (h : length.toNat ≤ 152) :
    ∃ packet', sealPacket length packet = .ok packet' ∧
      packet'.toList = (0xff :: 0xff :: packet.toList.drop 2).set (length.toNat + 3)
        (~~~((packet.toList.drop 2).take (length.toNat + 1)).sum) := by
  have hlen : packet.toList.length = 160 := packet.toList_length
  obtain ⟨packet₁, h₁, hlist₁⟩ := Buffer.poke_ok Stop.outOfBounds packet (i := 0) 0xff (by decide)
  obtain ⟨packet₂, h₂, hlist₂⟩ := Buffer.poke_ok Stop.outOfBounds packet₁ (i := 1) 0xff (by decide)
  have hlist : packet₂.toList = 0xff :: 0xff :: packet.toList.drop 2 := by
    rw [hlist₂, hlist₁]
    match packet.toList, hlen with
    | _ :: _ :: _, _ => rfl
  have hlen₂ : packet₂.toList.length = 160 := packet₂.toList_length
  have hsum := (Buffer.holds_toList packet₂).sumFrom (e := Stop.outOfBounds) (i := 2)
    (k := length.toNat + 1) (by omega) 0
  have hdrop : packet₂.toList.drop 2 = packet.toList.drop 2 := by rw [hlist]; rfl
  rw [zero_add, hdrop] at hsum
  obtain ⟨packet₃, h₃, hlist₃⟩ := Buffer.poke_ok Stop.outOfBounds packet₂ (i := length.toNat + 3)
    (~~~((packet.toList.drop 2).take (length.toNat + 1)).sum) (by change _ < 160; omega)
  refine ⟨packet₃, ?_, by rw [hlist₃, hlist]⟩
  rw [sealPacket, bind_of_ok h₁, bind_of_ok h₂, bind_of_ok hsum, h₃]

/-- The checksum of a packet of length 0 is written over the length. -/
theorem sealPacket_length {id length : Byte} {packet packet' : List.Vector Byte (maxnumTxparam + 10)}
    (hid : packet.toList[idIndex]? = some id) (hl : packet.toList[lengthIndex]? = some length)
    (h : length.toNat ≤ 152) (hseal : sealPacket length packet = .ok packet') :
    packet'.toList[lengthIndex]? = some (if length = 0 then ~~~id else length) := by
  obtain ⟨packet'', hseal', hlist⟩ := sealPacket_spec length packet h
  obtain rfl : packet' = packet'' := by
    rw [hseal'] at hseal
    exact (Except.ok.inj hseal).symm
  obtain ⟨x, y, rest, hp⟩ : ∃ x y rest, packet.toList = x :: y :: id :: length :: rest := by
    match hq : packet.toList, packet.toList_length with
    | x :: y :: u :: v :: rest, _ =>
      rw [hq] at hid hl
      obtain rfl := Option.some_inj.mp hid
      obtain rfl := Option.some_inj.mp hl
      exact ⟨x, y, rest, rfl⟩
  rw [hlist, hp]
  by_cases hzero : length = 0
  · subst hzero
    simp [lengthIndex]
  · have hpos : length.toNat ≠ 0 := fun h0 => hzero (BitVec.eq_of_toNat_eq h0)
    rw [List.getElem?_set_ne (by change length.toNat + 3 ≠ 3; omega), if_neg hzero]
    rfl

/-- The instruction packet holds a frame, up to the header and the checksum. -/
def Outgoing (f : Frame) (packet : List.Vector Byte (maxnumTxparam + 10)) : Prop :=
  ∃ x y rest, packet.toList = x :: y :: (f.body ++ rest)

@[simp] theorem Frame.length_body (f : Frame) : f.body.length = f.params.length + 3 := by
  simp [Frame.body]

/-- The packet of a frame, sealed. -/
theorem Outgoing.sealPacket {f : Frame} {packet : List.Vector Byte (maxnumTxparam + 10)}
    (h : Outgoing f packet) (hroom : f.params.length ≤ 150) :
    ∃ packet', sealPacket (BitVec.ofNat 8 (f.params.length + 2)) packet = .ok packet' ∧
      Buffer.Holds packet' f.encode := by
  obtain ⟨x, y, rest, hp⟩ := h
  have hlen : packet.toList.length = 160 := packet.toList_length
  obtain ⟨z, rest, rfl⟩ : ∃ z rest', rest = z :: rest' := by
    apply List.exists_cons_of_length_pos
    rw [hp] at hlen
    simp only [List.length_cons, List.length_append, Frame.length_body] at hlen
    omega
  obtain ⟨packet', hseal, hlist⟩ := sealPacket_spec
    (BitVec.ofNat 8 (f.params.length + 2)) packet (by rw [f.toNat_length]; omega)
  have hdrop : packet.toList.drop 2 = f.body ++ z :: rest := by rw [hp]; rfl
  refine ⟨packet', hseal, rest, ?_⟩
  rw [hlist, f.toNat_length, hdrop, List.take_left' (by rw [f.length_body]), not_eq_sub,
    show f.params.length + 2 + 3 = f.body.length + 2 by rw [f.length_body], List.set_cons_succ,
    List.set_cons_succ, List.set_append_right _ _ le_rfl, Nat.sub_self, List.set_cons_zero,
    Frame.encode, Checksum.close, List.cons_append, List.cons_append, List.append_assoc]
  rfl

/-! ## The write -/

/-- The port and the instruction packet after a write of `bytes`. -/
def Globals.wrote (g : Globals) (a : TxAnswer) (packet : List.Vector Byte (maxnumTxparam + 10))
    (bytes : List (List Byte)) : Globals :=
  { g.clearStale a with
    gbInstructionPacket := packet
    sent := g.sent ++ bytes
    incoming := (g.clearStale a).incoming ++ a.reply }

/-- The number of bytes of the answer to a frame, as far as the timeout knows. -/
def Frame.answerLength (f : Frame) : Nat :=
  if f.code = instRead then (f.params.getD 1 0).toNat + 6 else 6

@[simp] theorem Globals.clearStale_sent (g : Globals) (a : TxAnswer) :
    (g.clearStale a).sent = g.sent := by
  unfold Globals.clearStale
  split <;> rfl

@[simp] theorem Globals.clearStale_gbStatusPacket (g : Globals) (a : TxAnswer) :
    (g.clearStale a).gbStatusPacket = g.gbStatusPacket := by
  unfold Globals.clearStale
  split <;> rfl

theorem Outgoing.getElem? {f : Frame} {packet : List.Vector Byte (maxnumTxparam + 10)}
    (h : Outgoing f packet) {i : Nat} (hi : i < f.body.length) :
    packet.toList[i + 2]? = f.body[i]? := by
  obtain ⟨x, y, rest, hp⟩ := h
  rw [hp, List.getElem?_cons_succ, List.getElem?_cons_succ, List.getElem?_append_left hi]

/-- The port takes the packet of a frame, or less, or fails. -/
theorem hal_tx_spec (a : TxAnswer) {f : Frame} {packet : List.Vector Byte (maxnumTxparam + 10)}
    (h : Buffer.Holds packet f.encode) (hroom : f.params.length ≤ 150) (g : Globals) :
    dxlHalTx a packet f.encode.length g = .ok (
      match a.written with
      | none => (255, { g with incoming := g.incoming ++ a.reply })
      | some k => ((f.encode.take k).length,
        { g with sent := g.sent ++ [f.encode.take k], incoming := g.incoming ++ a.reply })) := by
  have hlen := f.length_encode
  unfold dxlHalTx
  rw [if_neg (by rw [hlen]; change ¬ 160 < _; omega)]
  cases a.written with
  | none => rfl
  | some k =>
    have htake : packet.toList.take (min k f.encode.length) = f.encode.take k := by
      conv_rhs => rw [h.eq_take, List.take_take]
    simp only [htake]
    rw [Nat.mod_eq_of_lt (by rw [List.length_take]; omega)]

/-- The parameter that the timeout is set from. -/
theorem Frame.timeout_parameter {f : Frame} {packet : List.Vector Byte (maxnumTxparam + 10)}
    (h : Buffer.Holds packet f.encode) (hread : f.code = instRead → 2 ≤ f.params.length) :
    ∃ parameter, readAt packet (parameterIndex + 1) = .ok parameter ∧
      (if f.code = instRead then parameter.toNat + 6 else 6) = f.answerLength := by
  by_cases hc : f.code = instRead
  · obtain ⟨address, size, more, hparams⟩ : ∃ address size more, f.params = address :: size :: more :=
      match f.params, hread hc with
      | address :: size :: more, _ => ⟨address, size, more, rfl⟩
    refine ⟨size, readAt_encode h (by rw [f.encode_eq, hparams]; rfl), ?_⟩
    rw [Frame.answerLength, if_pos hc, if_pos hc, hparams]
    rfl
  · obtain ⟨parameter, hp, -⟩ := readAt_lt packet (i := parameterIndex + 1) (by decide)
    exact ⟨parameter, hp, by rw [Frame.answerLength, if_neg hc, if_neg hc]⟩

/-- `dxl_tx_packet` of a frame: the port takes the whole packet, or less, or fails. -/
theorem tx_frame {a : TxAnswer} {f : Frame} {g : Globals} (hfree : g.giBusUsing = false)
    (h : Outgoing f g.gbInstructionPacket) (hcode : f.code ∈ instructions)
    (hread : f.code = instRead → 2 ≤ f.params.length) (hroom : f.params.length ≤ 150) :
    ∃ packet, Buffer.Holds packet f.encode ∧ dxlTxPacket a g = .ok (
      match a.written with
      | none => (g.wrote a packet []).finish .txFail
      | some k =>
        if f.encode.length ≤ k then
          { g.wrote a packet [f.encode] with
            timeoutFor := f.answerLength
            gbCommStatus := .txSuccess
            giBusUsing := true }
        else
          (g.wrote a packet [f.encode.take k]).finish .txFail) := by
  have hlen := f.length_encode
  have htoNat := f.toNat_length
  obtain ⟨length, instruction, hl, hi, htx⟩ := tx_eq a hfree
  obtain rfl : BitVec.ofNat 8 (f.params.length + 2) = length := by
    have hget := h.getElem? (i := 1) (by rw [f.length_body]; omega)
    rw [show 1 + 2 = lengthIndex from rfl, hl] at hget
    exact (Option.some_inj.mp hget).symm
  obtain rfl : f.code = instruction := by
    have hget := h.getElem? (i := 2) (by rw [f.length_body]; omega)
    rw [show 2 + 2 = instructionIndex from rfl, hi] at hget
    exact (Option.some_inj.mp hget).symm
  obtain ⟨packet, hseal, hholds⟩ := h.sealPacket hroom
  refine ⟨packet, hholds, ?_⟩
  have hcons := f.encode_eq
  have hlength : readAt packet lengthIndex = .ok (BitVec.ofNat 8 (f.params.length + 2)) :=
    readAt_encode hholds (by rw [hcons]; rfl)
  have hinstruction : readAt packet instructionIndex = .ok f.code :=
    readAt_encode hholds (by rw [hcons]; rfl)
  have hnum : ((BitVec.ofNat 8 (f.params.length + 2)).toNat + 4) % 256 = f.encode.length := by
    rw [htoNat, hlen]; omega
  obtain ⟨parameter, hparameter, hanswer⟩ := Frame.timeout_parameter hholds hread
  rw [htx, if_neg (by rw [htoNat]; simp [hcode]; omega), writePacket, bind_of_ok hseal,
    bind_of_ok hlength, hnum, bind_of_ok (hal_tx_spec a hholds (by omega) _)]
  cases hw : a.written with
  | none =>
    simp only
    rw [if_pos (by rw [hlen]; omega), Globals.wrote, List.append_nil, Globals.clearStale_sent]
    rfl
  | some k =>
    simp only
    by_cases hk : f.encode.length ≤ k
    · rw [List.take_of_length_le hk, if_neg (not_not.mpr rfl), bind_of_ok hinstruction,
        bind_of_ok hparameter, hanswer, if_pos hk, Globals.wrote, Globals.clearStale_sent]
      rfl
    · rw [if_pos (by rw [List.length_take]; omega), if_neg hk, Globals.wrote,
        Globals.clearStale_sent]
      rfl

/-! ## Reads past the instruction packet -/

/-- The write is an error exactly when it reads past the packet. -/
theorem hal_tx_error_iff {a : TxAnswer} {packet : List.Vector Byte (maxnumTxparam + 10)} {n : Nat}
    {g : Globals} {e : Stop} :
    dxlHalTx a packet n g = .error e ↔ e = .outOfBounds ∧ 160 < n := by
  unfold dxlHalTx
  change (if 160 < n then _ else _) = _ ↔ _
  split
  · rename_i hn
    constructor
    · intro h
      cases h
      exact ⟨rfl, hn⟩
    · rintro ⟨rfl, -⟩
      rfl
  · rename_i hn
    cases a.written with
    | none => simp [hn]
    | some k => simp [hn]

theorem writePacket_error_iff {a : TxAnswer} {length : Byte} {g : Globals} {e : Stop}
    {packet : List.Vector Byte (maxnumTxparam + 10)} {sealedLength : Byte}
    (hseal : sealPacket length g.gbInstructionPacket = .ok packet)
    (hlength : packet.toList[lengthIndex]? = some sealedLength) :
    writePacket a length g = .error e ↔
      e = .outOfBounds ∧ 160 < (sealedLength.toNat + 4) % 256 := by
  rw [writePacket, bind_of_ok hseal, bind_of_ok (readAt_getElem? hlength),
    ← @hal_tx_error_iff a packet _ { g.clearStale a with gbInstructionPacket := packet } e,
    Run.bind_error]
  refine or_iff_left ?_
  rintro ⟨⟨taken, g'⟩, -, h⟩
  obtain ⟨instruction, hi, -⟩ := readAt_lt packet (i := instructionIndex) (by decide)
  obtain ⟨parameter, hp, -⟩ := readAt_lt packet (i := parameterIndex + 1) (by decide)
  simp only at h
  split at h
  · cases h
  · rw [bind_of_ok hi, bind_of_ok hp] at h
    cases h

/-- `dxl_tx_packet` reads past the instruction packet exactly when the length is 0, the instruction
is known and the id is from 4 to 98: the checksum of the id is then taken for the length. -/
theorem tx_error_iff {a : TxAnswer} {g : Globals} {e : Stop} {id length instruction : Byte}
    (hfree : g.giBusUsing = false) (hid : g.gbInstructionPacket.toList[idIndex]? = some id)
    (hl : g.gbInstructionPacket.toList[lengthIndex]? = some length)
    (hi : g.gbInstructionPacket.toList[instructionIndex]? = some instruction) :
    dxlTxPacket a g = .error e ↔
      e = .outOfBounds ∧ length = 0 ∧ instruction ∈ instructions ∧ 4 ≤ id.toNat ∧ id.toNat ≤ 98 := by
  obtain ⟨length', instruction', hl', hi', htx⟩ := tx_eq a hfree
  obtain rfl : length = length' := by rw [hl] at hl'; exact Option.some_inj.mp hl'
  obtain rfl : instruction = instruction' := by rw [hi] at hi'; exact Option.some_inj.mp hi'
  have hlt := id.isLt
  rw [htx]
  -- a wrong length or instruction ends the call before anything is read past the packet
  by_cases hbad : 152 < length.toNat ∨ instruction ∉ instructions
  · rw [if_pos hbad]
    constructor
    · intro h
      cases h
    · rintro ⟨-, rfl, hin, -⟩
      rcases hbad with hlong | hnot
      · simp at hlong
      · exact absurd hin hnot
  rw [if_neg hbad]
  obtain ⟨hshort, hin⟩ : length.toNat ≤ 152 ∧ instruction ∈ instructions := by
    constructor
    · by_contra h; exact hbad (.inl (by omega))
    · by_contra h; exact hbad (.inr h)
  obtain ⟨packet, hseal, -⟩ := sealPacket_spec length g.gbInstructionPacket hshort
  rw [writePacket_error_iff hseal (sealPacket_length hid hl hshort hseal)]
  split
  · -- length 0: the checksum is put where the length was, and counts as the length
    rename_i hzero
    rw [BitVec.toNat_not]
    constructor
    · rintro ⟨rfl, hn⟩
      exact ⟨rfl, hzero, hin, by omega, by omega⟩
    · rintro ⟨rfl, -, -, h4, h98⟩
      exact ⟨rfl, by omega⟩
  · rename_i hzero
    constructor
    · rintro ⟨-, hn⟩
      omega
    · rintro ⟨-, h0, -⟩
      exact absurd h0 hzero

theorem tx_error_iff_four : dxlTxPacket ⟨0, some 0, []⟩ { Globals.start with
    gbInstructionPacket := ⟨[0, 0, 4, 0, 1] ++ List.replicate 155 0, rfl⟩ } = .error .outOfBounds :=
  (tx_error_iff rfl rfl rfl rfl).mpr ⟨rfl, rfl, by decide, by decide, by decide⟩

end DrinkRobot.Dxl
