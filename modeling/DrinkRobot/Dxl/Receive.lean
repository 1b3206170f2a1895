import DrinkRobot.Dxl.Frame

/-!
# The receiver computes the verdict

* `Listening id xs g`: the receiver is between two rounds of its loop, for an answer of the servo
  `id`, and its status packet holds `xs`, the bytes from the place on where a header can begin.
* `Reports v g`: the receiver has ended as the verdict `v` says.
* `rx_read`: what the read of a round comes to.
* `rx_round`: one `dxl_rx_packet` keeps `Listening` and the verdict on the bytes held and still to
  come, or ends as it says, however many bytes its reads find.
-/

namespace DrinkRobot.Dxl

open Buffer (Holds)
open Run (bind_of_ok)

/-! ## The parts of a round -/

theorem readAt_holds {n : Nat} {packet : List.Vector Byte n} {xs : List Byte}
    (h : Holds packet xs) {i : Nat} (hi : i < xs.length) : readAt packet i = .ok xs[i] :=
  h.peek hi

theorem andFF_holds {n : Nat} {packet : List.Vector Byte n} {xs : List Byte}
    (h : Holds packet xs) {i : Nat} (hi : i < xs.length) (c : Bool) :
    andFF c packet i = .ok (c && xs[i] = 0xff) := by
  cases c with
  | false => rfl
  | true => rw [andFF, if_pos rfl, bind_of_ok (readAt_holds h hi)]; rfl

theorem isHeader_drop {xs : List Byte} {i : Nat} (hi : i + 1 < xs.length) :
    isHeader (xs.drop i) = (decide (xs[i] = 0xff) && decide (xs[i + 1] = 0xff)) := by
  rw [List.drop_eq_getElem_cons (by omega), List.drop_eq_getElem_cons hi, isHeader]

/-- Where the search stops: no header begins before, and one begins there unless at most two bytes
are left. -/
theorem findHeader_loop {n : Nat} {packet : List.Vector Byte n} {xs : List Byte}
    (h : Holds packet xs) {k i : Nat} (hk : i + k = xs.length - 1)
    (hfree : ∀ m < i, isHeader (xs.drop m) = false) :
    ∃ j, findHeader packet xs.length k i = .ok j ∧ j ≤ xs.length - 1 ∧
      (∀ m < j, isHeader (xs.drop m) = false) ∧
      (j + 2 < xs.length → isHeader (xs.drop j) = true) := by
  induction k generalizing i with
  | zero => exact ⟨i, rfl, by omega, hfree, by omega⟩
  | succ k ih =>
    have hi : i + 1 < xs.length := by omega
    have hpair : andFF (xs[i] = 0xff) packet (i + 1) = .ok (isHeader (xs.drop i)) := by
      rw [andFF_holds h hi, isHeader_drop hi]
    rw [findHeader, bind_of_ok (readAt_holds h (by omega)), bind_of_ok hpair]
    split
    · rename_i hhead
      exact ⟨i, rfl, by omega, hfree, fun _ => hhead⟩
    rename_i hhead
    -- the last byte but one can only be the first half of a header
    rw [bind_of_ok (andFF_holds h (i := xs.length - 1) (by omega) _)]
    split
    · rename_i ht
      simp only [Bool.and_eq_true, decide_eq_true_eq] at ht
      exact ⟨i, rfl, by omega, hfree, by omega⟩
    · apply ih (by omega)
      intro m hm
      rcases Nat.lt_succ_iff_lt_or_eq.mp hm with hm | rfl
      · exact hfree m hm
      · exact Bool.eq_false_iff.mpr hhead

/-- The packet holds `xs` from the place `i` on where the search stops. -/
structure Aligned {n : Nat} (packet : List.Vector Byte n) (xs : List Byte) (i : Nat) : Prop where
  holds : Holds packet (xs.drop i)
  le : i ≤ xs.length - 1
  free : ∀ m < i, isHeader (xs.drop m) = false
  header : i + 2 < xs.length → isHeader (xs.drop i) = true

theorem alignPacket_spec {g : Globals} {xs : List Byte} (h : Holds g.gbStatusPacket xs)
    (hlen : g.gbRxGetLength = xs.length) :
    ∃ i packet, alignPacket g = .ok { g with
        gbStatusPacket := packet
        gbRxGetLength := (xs.drop i).length } ∧ Aligned packet xs i := by
  obtain ⟨i, hi, hle, hfree, hhead⟩ :=
    findHeader_loop h (k := xs.length - 1) (i := 0) (by omega) (by simp)
  have hdrop : xs.length - i = (xs.drop i).length := List.length_drop.symm
  rw [alignPacket, hlen, bind_of_ok hi]
  split
  · obtain ⟨packet, hmove, hholds⟩ := h.moveDown (e := Stop.outOfBounds) (i := i) (by omega)
    rw [bind_of_ok hmove, hdrop]
    exact ⟨i, packet, rfl, hholds, hle, hfree, hhead⟩
  · obtain rfl : i = 0 := by omega
    refine ⟨0, g.gbStatusPacket, ?_, h, hle, hfree, hhead⟩
    rw [List.drop_zero, ← hlen]
    rfl

/-- A read of the port: it adds the next bytes, unless they end past the status packet. -/
theorem hal_rx_spec {g : Globals} {xs bytes : List Byte} {k : Nat} (h : Holds g.gbStatusPacket xs)
    (hlen : g.gbRxGetLength = xs.length)
    (hbytes : g.incoming.take (min k (g.gbRxPacketLength - xs.length)) = bytes) :
    (∃ packet, dxlHalRx (some k) g = .ok { g with
        gbStatusPacket := packet
        gbRxGetLength := (xs ++ bytes).length
        incoming := g.incoming.drop bytes.length } ∧ Holds packet (xs ++ bytes)) ∨
      (dxlHalRx (some k) g = .error .outOfBounds ∧ 70 < xs.length + bytes.length) := by
  have hle := h.length_le
  unfold dxlHalRx
  simp only [hlen, hbytes]
  by_cases hroom : xs.length + bytes.length ≤ 70
  · obtain ⟨packet, hfill, hholds⟩ := h.fill (e := Stop.outOfBounds) bytes hroom
    refine .inl ⟨packet, ?_, hholds⟩
    rw [bind_of_ok hfill, List.length_append, Nat.mod_eq_of_lt (by omega)]
    rfl
  · refine .inr ⟨?_, by omega⟩
    have herr : Buffer.fill Stop.outOfBounds g.gbStatusPacket xs.length bytes = .error .outOfBounds :=
      Buffer.fill_error hle (by change 70 < _; omega)
    rw [herr]
    rfl

/-- A packet that is complete: the checksum decides. -/
theorem checkPacket_spec {g : Globals} {xs : List Byte} {a b id length : Byte} {rest : List Byte}
    (h : Holds g.gbStatusPacket xs) (hxs : xs = a :: b :: id :: length :: rest)
    (hlen : length.toNat + 4 ≤ xs.length) :
    checkPacket g = .ok (g.finish
      (if Checksum.Valid (-1) ((xs.take (length.toNat + 4)).drop 2) then .rxSuccess
        else .rxCorrupt)) := by
  have hlength : readAt g.gbStatusPacket lengthIndex = .ok length := by
    rw [readAt_holds h (i := lengthIndex) (by rw [hxs]; simp [lengthIndex])]
    simp only [hxs]
    rfl
  have hsum := h.sumFrom (e := Stop.outOfBounds) (i := 2) (k := length.toNat + 1) (by omega) 0
  have hlast : (xs.take (length.toNat + 4)).drop 2 =
      (xs.drop 2).take (length.toNat + 1) ++ [xs[length.toNat + 3]] := by
    rw [List.drop_take, show length.toNat + 4 - 2 = length.toNat + 1 + 1 by omega,
      List.take_add_one, List.getElem?_drop,
      show 2 + (length.toNat + 1) = length.toNat + 3 by omega,
      List.getElem?_eq_getElem (by omega)]
    rfl
  rw [checkPacket, bind_of_ok hlength, bind_of_ok hsum,
    bind_of_ok (readAt_holds h (i := length.toNat + 3) (by omega)), hlast]
  simp only [Checksum.valid_concat, zero_add, not_eq_sub]
  by_cases hc : xs[length.toNat + 3] = -1 - ((xs.drop 2).take (length.toNat + 1)).sum
  · rw [if_neg (not_not.mpr hc), if_pos hc]; rfl
  · rw [if_pos hc, if_neg hc]; rfl

/-! ## A round -/

/-- The bytes held are the beginning of a packet of `n` bytes from the servo `id`. -/
def Begun (id : Byte) (xs : List Byte) (n : Nat) : Prop :=
  ∃ length c d rest, xs = 0xff :: 0xff :: id :: length :: c :: d :: rest ∧
    length.toNat < 252 ∧ n = length.toNat + 4

structure Listening (id : Byte) (xs : List Byte) (g : Globals) : Prop where
  busy : g.giBusUsing = true
  asked : readAt g.gbInstructionPacket idIndex = .ok id
  holds : Holds g.gbStatusPacket xs
  got : g.gbRxGetLength = xs.length
  short : xs.length < g.gbRxPacketLength
  phase : g.gbRxPacketLength = 6 ∨ Begun id xs g.gbRxPacketLength

/-- The loop is going with the verdict `v` open, and at most `n` bytes to come. -/
def Going (id : Byte) (v : Verdict) (n : Nat) (g : Globals) : Prop :=
  ∃ xs, Listening id xs g.restart ∧ verdict id (xs ++ g.incoming) = v ∧ g.incoming.length ≤ n

/-- The loop has ended with the verdict `v`. -/
def Reports (v : Verdict) (g : Globals) : Prop :=
  g.giBusUsing = false ∧
    match v with
    | .accepted packet rest =>
      g.gbCommStatus = .rxSuccess ∧ Holds g.gbStatusPacket packet ∧ g.incoming = rest
    | .corrupt => g.gbCommStatus = .rxCorrupt
    | .waiting | .overrun => False

/-- The loop has ended because the time was up. -/
def Expired (g : Globals) : Prop :=
  g.giBusUsing = false ∧ (g.gbCommStatus = .rxTimeout ∨ g.gbCommStatus = .rxCorrupt)

/-- The only errors are accesses past the status packet, for packets that do not fit. -/
def Overruns (v : Verdict) (e : Stop) : Prop := e = .outOfBounds ∧ v = .overrun

theorem judge_of_length_lt {id : Byte} {s : List Byte} (h : s.length < 6) : judge id s = .waiting := by
  unfold judge
  split
  · rename_i a b c d e f u
    simp only [List.length_cons] at h
    omega
  · rfl

/-- A verdict that is open needs more bytes. -/
theorem Listening.verdict_waiting {id : Byte} {xs : List Byte} {g : Globals}
    (h : Listening id xs g) : verdict id xs = .waiting := by
  have hshort := h.short
  have hle : xs.length ≤ 70 := h.holds.length_le
  rcases h.phase with h6 | ⟨length, c, d, rest, hxs, hlt, hn⟩
  · have hsuffix := (Seek.seek_suffix isHeader xs).length_le
    exact judge_of_length_lt (by omega)
  · rw [verdict_of_header (by rw [hxs]; rfl)]
    rw [hn] at hshort
    rw [hxs] at hshort hle ⊢
    rw [judge, if_neg (by simp), if_neg (by omega), judgePacket, if_pos (by omega)]

theorem judge_cons {id a b answered length c d : Byte} {rest : List Byte} :
    judge id (a :: b :: answered :: length :: c :: d :: rest) =
      if answered ≠ id then .corrupt
      else if 252 ≤ length.toNat then .overrun
      else judgePacket (length.toNat + 4) (a :: b :: answered :: length :: c :: d :: rest) := rfl

/-- The packet is complete. -/
theorem checkPacket_round {id length c d : Byte} {xs rest : List Byte} {g : Globals}
    {Goes : Globals → Prop} {Fails : Stop → Prop}
    (hholds : Holds g.gbStatusPacket xs) (hxs : xs = 0xff :: 0xff :: id :: length :: c :: d :: rest)
    (hlt : length.toNat < 252) (hsize : xs.length = max 6 (length.toNat + 4)) :
    Polling.Round Globals.waiting Goes (Reports (verdict id (xs ++ g.incoming))) Fails
      (checkPacket g) := by
  have hle : xs.length ≤ 70 := hholds.length_le
  have hn : length.toNat + 4 ≤ xs.length := by omega
  have hverdict : verdict id (xs ++ g.incoming) =
      if Checksum.Valid (-1) ((xs.take (length.toNat + 4)).drop 2) then
        .accepted (xs.take (length.toNat + 4)) g.incoming else .corrupt := by
    rw [verdict_of_header (by rw [hxs]; rfl)]
    conv_lhs => rw [hxs]
    rw [List.cons_append, List.cons_append, List.cons_append, List.cons_append, List.cons_append,
      List.cons_append, judge_cons, if_neg (by simp), if_neg (by omega)]
    simp only [← List.cons_append, ← hxs]
    rw [judgePacket, if_neg (by rw [List.length_append]; omega), if_neg (by omega),
      List.take_append_of_le_length hn, ← hsize, List.drop_left]
  rw [checkPacket_spec hholds hxs hn, hverdict]
  split
  · exact .ends rfl ⟨rfl, rfl, hholds.take _, rfl⟩
  · exact .ends rfl ⟨rfl, rfl⟩

@[simp] theorem Globals.restart_giBusUsing (g : Globals) : g.restart.giBusUsing = g.giBusUsing := by
  unfold Globals.restart
  split <;> rfl

@[simp] theorem Globals.restart_gbInstructionPacket (g : Globals) :
    g.restart.gbInstructionPacket = g.gbInstructionPacket := by
  unfold Globals.restart
  split <;> rfl

@[simp] theorem Globals.restart_incoming (g : Globals) : g.restart.incoming = g.incoming := by
  unfold Globals.restart
  split <;> rfl

theorem Globals.restart_of_waiting {g : Globals} (h : g.gbCommStatus = .rxWaiting) :
    g.restart = g := if_neg (by simp [h])

theorem take_append_drop_length (s : List Byte) (k : Nat) :
    s.take k ++ s.drop (s.take k).length = s := by
  rw [List.length_take]
  rcases Nat.le_total k s.length with hk | hk
  · rw [Nat.min_eq_left hk, List.take_append_drop]
  · rw [Nat.min_eq_right hk, List.drop_length, List.append_nil, List.take_of_length_le hk]

/-- More bytes than there is room for, of a packet that does not fit. -/
theorem verdict_overrun {id length c d : Byte} {xs rest s : List Byte}
    (hxs : xs = 0xff :: 0xff :: id :: length :: c :: d :: rest) (hlt : length.toNat < 252)
    (hlong : 70 < (xs ++ s).length) (hn : 70 < length.toNat + 4) :
    verdict id (xs ++ s) = .overrun := by
  have hjudge : judge id (xs ++ s) = judgePacket (length.toNat + 4) (xs ++ s) := by
    rw [hxs, List.cons_append, List.cons_append, List.cons_append, List.cons_append,
      List.cons_append, List.cons_append, judge_cons, if_neg (by simp), if_neg (by omega)]
  rw [verdict_of_header (by rw [hxs]; rfl), hjudge, judgePacket, if_neg (by omega), if_pos hn]

/-- The rest of a packet that has begun. -/
theorem readRest_round {id length c d : Byte} {xs rest : List Byte} {g : Globals} {p : Poll}
    {k : Nat} (hbusy : g.giBusUsing = true) (hasked : readAt g.gbInstructionPacket idIndex = .ok id)
    (hholds : Holds g.gbStatusPacket xs) (hgot : g.gbRxGetLength = xs.length)
    (hxs : xs = 0xff :: 0xff :: id :: length :: c :: d :: rest) (hlt : length.toNat < 252)
    (hn : g.gbRxPacketLength = length.toNat + 4)
    (hsize : xs.length = 6 ∨ xs.length = length.toNat + 4) (hp : p.second = some k) :
    Polling.Round Globals.waiting (Going id (verdict id (xs ++ g.incoming)) g.incoming.length)
      (Reports (verdict id (xs ++ g.incoming))) (Overruns (verdict id (xs ++ g.incoming)))
      (readRest p g) := by
  have hlen6 : 6 ≤ xs.length := by rw [hxs]; simp only [List.length_cons]; omega
  rw [readRest, hgot, hn]
  by_cases hmore : xs.length < length.toNat + 4
  · rw [if_pos hmore, hp]
    generalize hbytes : g.incoming.take (min k (g.gbRxPacketLength - xs.length)) = bytes
    have hpending : xs ++ bytes ++ g.incoming.drop bytes.length = xs ++ g.incoming := by
      rw [List.append_assoc, ← hbytes, take_append_drop_length]
    have hbytes_le : xs.length + bytes.length ≤ length.toNat + 4 := by
      rw [← hbytes, List.length_take, hn]; omega
    have hxs' : xs ++ bytes = 0xff :: 0xff :: id :: length :: c :: d :: (rest ++ bytes) := by
      rw [hxs]; rfl
    rcases hal_rx_spec hholds hgot hbytes with ⟨packet, hrx, hholds'⟩ | ⟨hrx, hover⟩
    · rw [bind_of_ok hrx]
      by_cases hshort : (xs ++ bytes).length < length.toNat + 4
      · simp only [hn]
        rw [if_pos hshort]
        refine .goes rfl ⟨xs ++ bytes, ?_, ?_, ?_⟩
        · rw [Globals.restart_of_waiting rfl]
          exact ⟨hbusy, hasked, hholds', rfl, hshort, .inr ⟨length, c, d, _, hxs', hlt, rfl⟩⟩
        · exact congrArg (verdict id) hpending
        · exact (List.drop_suffix _ _).length_le
      · simp only [hn]
        rw [if_neg hshort, ← hpending]
        rw [List.length_append] at hshort
        refine checkPacket_round hholds' hxs' hlt ?_
        rw [List.length_append]
        omega
    · -- the bytes do not fit: there are more than 70 of them
      rw [hrx]
      refine ⟨rfl, ?_⟩
      have hlong : 70 < (xs ++ g.incoming).length := by
        rw [← hpending, List.length_append, List.length_append]; omega
      exact verdict_overrun hxs hlt hlong (by omega)
  · rw [if_neg hmore]
    exact checkPacket_round hholds hxs hlt (by omega)

/-- From the id on: a header and six bytes are there, or the packet is complete. -/
theorem receiveRest_round {id answered length c d : Byte} {xs rest : List Byte} {g : Globals}
    {p : Poll} {k : Nat} (hbusy : g.giBusUsing = true)
    (hasked : readAt g.gbInstructionPacket idIndex = .ok id) (hholds : Holds g.gbStatusPacket xs)
    (hgot : g.gbRxGetLength = xs.length)
    (hxs : xs = 0xff :: 0xff :: answered :: length :: c :: d :: rest)
    (hsize : xs.length = 6 ∨ xs.length = length.toNat + 4) (hp : p.second = some k) :
    Polling.Round Globals.waiting (Going id (verdict id (xs ++ g.incoming)) g.incoming.length)
      (Reports (verdict id (xs ++ g.incoming))) (Overruns (verdict id (xs ++ g.incoming)))
      (receiveRest p g) := by
  have hlen6 : 6 ≤ xs.length := by rw [hxs]; simp only [List.length_cons]; omega
  have hanswered : readAt g.gbStatusPacket idIndex = .ok answered := by
    rw [readAt_holds hholds (i := idIndex) (by change 2 < _; omega)]
    simp only [hxs]
    rfl
  have hlength : readAt g.gbStatusPacket lengthIndex = .ok length := by
    rw [readAt_holds hholds (i := lengthIndex) (by change 3 < _; omega)]
    simp only [hxs]
    rfl
  -- the verdict on the stream, in the order in which the code checks id, length and checksum
  have hverdict : verdict id (xs ++ g.incoming) = if answered ≠ id then .corrupt
      else if 252 ≤ length.toNat then .overrun
      else judgePacket (length.toNat + 4) (xs ++ g.incoming) := by
    rw [verdict_of_header (by rw [hxs]; rfl), hxs]
    rfl
  rw [receiveRest, bind_of_ok hasked, bind_of_ok hanswered]
  by_cases hid : id ≠ answered
  · rw [if_pos hid, hverdict, if_pos (Ne.symm hid)]
    exact .ends rfl ⟨rfl, rfl⟩
  obtain rfl : id = answered := not_not.mp hid
  rw [if_neg hid, bind_of_ok hlength]
  by_cases hbig : 252 ≤ length.toNat
  · -- the length wraps around: nothing more is read, and the checksum is over more than there is
    have hlt := length.isLt
    have hsum : Buffer.sumFrom Stop.outOfBounds g.gbStatusPacket (length.toNat + 1) 2 0 =
        .error .outOfBounds := Buffer.sumFrom_error (by decide) (by change 70 < _; omega)
    have hmore : ¬ g.gbRxGetLength < (length.toNat + 4) % 256 := by omega
    rw [readRest, if_neg hmore, checkPacket, bind_of_ok hlength, hsum, hverdict, if_neg (by simp),
      if_pos hbig]
    exact ⟨rfl, rfl⟩
  · exact readRest_round (g := { g with gbRxPacketLength := (length.toNat + 4) % 256 }) hbusy hasked
      hholds hgot hxs (by omega) (Nat.mod_eq_of_lt (by omega)) hsize hp

theorem exists_header {xs : List Byte} (h6 : 6 ≤ xs.length) (h : isHeader xs = true) :
    ∃ answered length c d rest, xs = 0xff :: 0xff :: answered :: length :: c :: d :: rest := by
  match xs, h6 with
  | a :: b :: answered :: length :: c :: d :: rest, _ =>
    simp only [isHeader, Bool.and_eq_true, decide_eq_true_eq] at h
    obtain ⟨rfl, rfl⟩ := h
    exact ⟨answered, length, c, d, rest, rfl⟩

/-- The globals after the read of a round: `taken` bytes are read, and the packet holds `got`. -/
def Globals.took (g : Globals) (packet : List.Vector Byte (maxnumRxparam + 10)) (got taken : Nat) :
    Globals :=
  { g.restart with
    gbStatusPacket := packet
    gbRxGetLength := got
    incoming := g.incoming.drop taken }

/-- The read of a round: the time is up, or the packet is aligned, or the bytes do not fit. -/
theorem rx_read {id : Byte} {xs : List Byte} {g : Globals} {p : Poll} {k : Nat}
    (h : Listening id xs g.restart) (hid : id ≠ broadcastId) (hk : p.first = some k) :
    ∃ bytes, xs ++ bytes ++ g.incoming.drop bytes.length = xs ++ g.incoming ∧
      bytes.length = min (min k (g.restart.gbRxPacketLength - xs.length)) g.incoming.length ∧
      ((xs.length + bytes.length < g.restart.gbRxPacketLength ∧ p.timeout = true ∧
          ∃ g', dxlRxPacket g p = .ok g' ∧ g'.waiting = false ∧ Expired g') ∨
        (∃ i packet, Aligned packet (xs ++ bytes) i ∧ dxlRxPacket g p =
          let g' := g.took packet ((xs ++ bytes).drop i).length bytes.length
          if ((xs ++ bytes).drop i).length < g.restart.gbRxPacketLength then
            .ok { g' with gbCommStatus := .rxWaiting }
          else
            receiveRest p g') ∨
        (dxlRxPacket g p = .error .outOfBounds ∧ 70 < xs.length + bytes.length)) := by
  have hbusy : g.giBusUsing = true := by simpa using h.busy
  have hasked : readAt g.gbInstructionPacket idIndex = .ok id := by simpa using h.asked
  rw [dxlRxPacket, if_neg (by simp [hbusy]), bind_of_ok hasked, if_neg hid, hk]
  generalize hbytes : g.restart.incoming.take (min k (g.restart.gbRxPacketLength - xs.length)) = bytes
  have hread := hal_rx_spec h.holds h.got hbytes
  rw [Globals.restart_incoming] at hread hbytes
  refine ⟨bytes, ?_, by rw [← hbytes, List.length_take], ?_⟩
  · rw [List.append_assoc, ← hbytes, take_append_drop_length]
  obtain ⟨packet, hrx, hholds⟩ | ⟨hrx, hover⟩ := hread
  · rw [bind_of_ok hrx]
    simp only [List.length_append]
    split
    · rename_i hlate
      refine .inl ⟨hlate.1, hlate.2, _, rfl, ?_, rfl, ?_⟩
      · split <;> rfl
      · simp only [Globals.finish]
        split
        · exact .inl rfl
        · exact .inr rfl
    · obtain ⟨i, packet', halign, haligned⟩ :=
        alignPacket_spec (g := g.took packet (xs ++ bytes).length bytes.length) hholds rfl
      refine .inr (.inl ⟨i, packet', haligned, ?_⟩)
      rw [← List.length_append]
      exact bind_of_ok halign
  · rw [hrx]
    exact .inr (.inr ⟨rfl, hover⟩)

/-- A header that was held is still where it was. -/
theorem Begun.aligned {id : Byte} {xs bytes : List Byte} {n i m : Nat}
    {packet : List.Vector Byte m} (h : Begun id xs n) (ha : Aligned packet (xs ++ bytes) i) :
    i = 0 ∧ Begun id (xs ++ bytes) n := by
  obtain ⟨length, c, d, rest, rfl, hlt, hn⟩ := h
  refine ⟨?_, length, c, d, rest ++ bytes, rfl, hlt, hn⟩
  by_contra hne
  exact absurd (ha.free 0 (by omega)) (by simp [isHeader])

/-- The bytes that are dropped do not matter to the verdict. -/
theorem Aligned.verdict {id : Byte} {xs s : List Byte} {i m : Nat} {packet : List.Vector Byte m}
    (ha : Aligned packet xs i) : verdict id (xs.drop i ++ s) = verdict id (xs ++ s) := by
  have hle := ha.le
  rw [← List.drop_append_of_le_length (by omega)]
  refine verdict_drop id fun m hm => ?_
  rw [List.drop_append_of_le_length (by omega), isHeader_append (by rw [List.length_drop]; omega)]
  exact ha.free m hm

/-- One round. -/
theorem rx_round {id : Byte} {xs : List Byte} {g : Globals} {p : Poll} {k k' : Nat}
    (h : Listening id xs g.restart) (hid : id ≠ broadcastId) (hk : p.first = some k)
    (hk' : p.second = some k') :
    Polling.Round Globals.waiting
      (Going id (verdict id (xs ++ g.incoming)) (g.incoming.length - min k 1))
      (fun g' => Reports (verdict id (xs ++ g.incoming)) g' ∨ p.timeout = true ∧ Expired g')
      (Overruns (verdict id (xs ++ g.incoming))) (dxlRxPacket g p) := by
  have hshort := h.short
  obtain ⟨bytes, hpending, hbytes, ⟨-, hlate, g', hrx, hdone, hexpired⟩ |
    ⟨i, packet, haligned, hrx⟩ | ⟨hrx, hover⟩⟩ := rx_read h hid hk
  · rw [hrx]
    exact .ends hdone (.inr ⟨hlate, hexpired⟩)
  · have hfewer : (g.incoming.drop bytes.length).length ≤ g.incoming.length - min k 1 := by
      rw [List.length_drop]; omega
    have hverdict : verdict id ((xs ++ bytes).drop i ++ g.incoming.drop bytes.length) =
        verdict id (xs ++ g.incoming) := by
      rw [haligned.verdict, hpending]
    rw [hrx]
    simp only
    split
    · rename_i hmore
      refine .goes rfl ⟨(xs ++ bytes).drop i, ?_, hverdict, hfewer⟩
      rw [Globals.restart_of_waiting rfl]
      refine ⟨h.busy, h.asked, haligned.holds, rfl, hmore, h.phase.imp_right fun hb => ?_⟩
      obtain ⟨rfl, hb⟩ := hb.aligned haligned
      exact hb
    · rename_i hfull
      have hle := haligned.le
      rw [List.length_drop, List.length_append] at hfull
      rw [List.length_append] at hle
      -- the packet has all the bytes it waits for, so none was dropped
      obtain rfl : i = 0 := by omega
      have hsix : 6 ≤ (xs ++ bytes).length := by
        rw [List.length_append]
        rcases h.phase with h6 | hb
        · omega
        · obtain ⟨length, c, d, rest, rfl, -, -⟩ := hb
          simp only [List.length_cons]
          omega
      obtain ⟨answered, length, c, d, rest, hxs⟩ := exists_header hsix (haligned.header (by omega))
      -- a packet has its first six bytes, or all that its length announces
      have hsize : (xs ++ bytes).length = 6 ∨ (xs ++ bytes).length = length.toNat + 4 := by
        rw [List.length_append]
        rcases h.phase with h6 | hb
        · exact .inl (by omega)
        · obtain ⟨-, length', c', d', rest', hxs', -, hn⟩ := hb.aligned haligned
          rw [hxs] at hxs'
          cases hxs'
          exact .inr (by omega)
      have hrest := receiveRest_round (g := g.took packet ((xs ++ bytes).drop 0).length bytes.length)
        h.busy h.asked haligned.holds rfl hxs hsize hk'
      simp only [Globals.took, hverdict] at hrest
      refine hrest.mono ?_ (fun _ hr => .inl hr) (fun _ hf => hf)
      rintro g' ⟨ys, hys, hv, hys_le⟩
      exact ⟨ys, hys, hv, hys_le.trans hfewer⟩
  · rw [hrx]
    refine ⟨rfl, ?_⟩
    rcases h.phase with h6 | hb
    · omega
    · obtain ⟨length, c, d, rest, hxs, hlt, hn⟩ := hb
      refine verdict_overrun hxs hlt ?_ (by omega)
      rw [← hpending, List.length_append, List.length_append]
      omega

end DrinkRobot.Dxl
