import DrinkRobot.Dxl.Model
import DrinkRobot.Lib.Checksum
import DrinkRobot.Lib.Seek

/-!
# What a packet and a stream of bytes mean

This file is the abstract side; nothing in it is translated from the source.

* `Frame`: an id, a code (an instruction, or the error bits of an answer) and parameters.
  `Frame.encode` is a packet on the wire, and `decode` reads one back (`decode_eq_some_iff`).
* `verdict`: what a stream of bytes says to a receiver that asked the servo `id`. It skips to the
  first header and judges the packet that begins there.
-/

namespace DrinkRobot.Dxl

structure Frame where
  id : Byte
  code : Byte
  params : List Byte
  fits : params.length + 2 < 256
deriving DecidableEq

/-- What the checksum is over. -/
def Frame.body (f : Frame) : List Byte :=
  f.id :: BitVec.ofNat 8 (f.params.length + 2) :: f.code :: f.params

def Frame.encode (f : Frame) : List Byte := 0xff :: 0xff :: Checksum.close (-1) f.body

def decode : List Byte → Option Frame
  | a :: b :: id :: length :: code :: rest =>
    if h : a = 0xff ∧ b = 0xff ∧ rest ≠ [] ∧ rest.length + 1 = length.toNat ∧
        Checksum.Valid (-1) (id :: length :: code :: rest) then
      some ⟨id, code, rest.dropLast, by
        have hlt := length.isLt
        have hpos := List.length_pos_of_ne_nil h.2.2.1
        rw [List.length_dropLast]
        omega⟩
    else
      none
  | _ => none

theorem not_eq_sub (x : Byte) : ~~~x = -1 - x := by
  have h := BitVec.neg_eq_not_add x
  rw [sub_eq_add_neg, h, add_comm (-1), add_assoc]
  exact (add_zero _).symm

@[simp] theorem Frame.length_encode (f : Frame) : f.encode.length = f.params.length + 6 := by
  simp [Frame.encode, Frame.body]

theorem Frame.toNat_length (f : Frame) :
    (BitVec.ofNat 8 (f.params.length + 2)).toNat = f.params.length + 2 := by
  rw [BitVec.toNat_ofNat, Nat.mod_eq_of_lt f.fits]

/-- The bytes of a packet one by one, up to its parameters. -/
theorem Frame.encode_eq (f : Frame) :
    f.encode = 0xff :: 0xff :: f.id :: BitVec.ofNat 8 (f.params.length + 2) :: f.code ::
      (f.params ++ [-1 - f.body.sum]) := by
  simp [Frame.encode, Checksum.close, Frame.body]

theorem readAt_encode {n : Nat} {f : Frame} {packet : List.Vector Byte n}
    (h : Buffer.Holds packet f.encode) {i : Nat} {b : Byte} (hb : f.encode[i]? = some b) :
    readAt packet i = .ok b := by
  obtain ⟨hlt, hval⟩ := List.getElem?_eq_some_iff.mp hb
  rw [← hval]
  exact h.peek hlt

theorem decode_encode (f : Frame) : decode f.encode = some f := by
  have hvalid : Checksum.Valid (-1) (f.id :: BitVec.ofNat 8 (f.params.length + 2) :: f.code ::
      (f.params ++ [-1 - f.body.sum])) := Checksum.valid_close (-1) f.body
  have hlen : (f.params ++ [-1 - f.body.sum]).length + 1 =
      (BitVec.ofNat 8 (f.params.length + 2)).toNat := by
    rw [f.toNat_length, List.length_append, List.length_singleton]
  rw [f.encode_eq, decode, dif_pos ⟨rfl, rfl, by simp, hlen, hvalid⟩]
  simp only [List.dropLast_concat]

/-- A packet is read back as a frame exactly when it is that frame's packet. -/
theorem decode_eq_some_iff {s : List Byte} {f : Frame} : decode s = some f ↔ s = f.encode := by
  constructor
  · intro h
    unfold decode at h
    split at h
    · rename_i a b id length code rest
      split at h
      · rename_i hc
        obtain ⟨rfl, rfl, hne, hlen, hvalid⟩ := hc
        cases h
        -- the last byte is the checksum, which the rest determines
        have hrest : rest.dropLast ++ [rest.getLast hne] = rest := List.dropLast_append_getLast hne
        have hlength : BitVec.ofNat 8 (rest.dropLast.length + 2) = length := by
          apply BitVec.eq_of_toNat_eq
          have hpos := List.length_pos_of_ne_nil hne
          have hlt := length.isLt
          rw [BitVec.toNat_ofNat, List.length_dropLast, Nat.mod_eq_of_lt (by omega)]
          omega
        have hcat : id :: length :: code :: rest =
            (id :: length :: code :: rest.dropLast) ++ [rest.getLast hne] := by
          rw [List.cons_append, List.cons_append, List.cons_append, hrest]
        rw [Frame.encode, Frame.body]
        simp only [hlength]
        rw [hcat] at hvalid ⊢
        rw [hvalid.eq_close]
      · cases h
    · cases h
  · rintro rfl
    exact decode_encode f

/-! ## Streams -/

/-- The stream begins with a header. -/
def isHeader : List Byte → Bool
  | a :: b :: _ => a = 0xff && b = 0xff
  | _ => false

/-- What a stream says to a receiver. -/
inductive Verdict where
  /-- Not enough to tell. -/
  | waiting
  /-- A packet of another servo, or with a wrong checksum. -/
  | corrupt
  /-- A packet that does not fit into the status packet. -/
  | overrun
  /-- A packet for the receiver, and the stream after what was read. -/
  | accepted (packet rest : List Byte)
deriving DecidableEq

/-- A stream that begins with a packet of `n` bytes. Six bytes are always read, and a packet is read
whole as far as there is room. -/
def judgePacket (n : Nat) (s : List Byte) : Verdict :=
  if s.length < min n 71 then
    .waiting
  else if 70 < n then
    .overrun
  else if Checksum.Valid (-1) ((s.take n).drop 2) then
    .accepted (s.take n) (s.drop (max 6 n))
  else
    .corrupt

/-- A stream that begins with a header. -/
def judge (id : Byte) (s : List Byte) : Verdict :=
  match s with
  | _ :: _ :: answered :: length :: _ :: _ :: _ =>
    if answered ≠ id then
      .corrupt
    else if 252 ≤ length.toNat then
      .overrun
    else
      judgePacket (length.toNat + 4) s
  | _ => .waiting

def verdict (id : Byte) (s : List Byte) : Verdict := judge id (Seek.seek isHeader s)

theorem isHeader_append {s : List Byte} (h : 2 ≤ s.length) (t : List Byte) :
    isHeader (s ++ t) = isHeader s := by
  match s, h with
  | _ :: _ :: _, _ => rfl

theorem verdict_of_header {id : Byte} {s : List Byte} (h : isHeader s = true) :
    verdict id s = judge id s := by rw [verdict, Seek.seek_of_here h]

theorem verdict_drop (id : Byte) {s : List Byte} {i : Nat}
    (h : ∀ m < i, isHeader (s.drop m) = false) : verdict id (s.drop i) = verdict id s := by
  rw [verdict, verdict, Seek.seek_drop h]

/-- Bytes before a packet, up to and with its first 0xff, in which no header begins. -/
def Noise (s : List Byte) : Prop := ∀ m < s.length, isHeader ((s ++ [0xff]).drop m) = false

instance (s : List Byte) : Decidable (Noise s) :=
  inferInstanceAs (Decidable (∀ m < s.length, isHeader ((s ++ [0xff]).drop m) = false))

theorem Noise.verdict {id : Byte} {noise s : List Byte} (hn : Noise noise)
    (hs : isHeader s = true) : verdict id (noise ++ s) = judge id s := by
  have hfree : ∀ m < noise.length, isHeader ((noise ++ s).drop m) = false := by
    intro m hm
    match s, hs with
    | a :: b :: t, hs =>
      have ha : a = 0xff := by
        simp only [isHeader, Bool.and_eq_true, decide_eq_true_eq] at hs
        exact hs.1
      have h2 : 2 ≤ ((noise ++ [0xff]).drop m).length := by
        rw [List.length_drop, List.length_append, List.length_singleton]; omega
      have hcat : noise ++ a :: b :: t = (noise ++ [0xff]) ++ b :: t := by rw [ha]; simp
      rw [hcat, List.drop_append_of_le_length (by simp; omega), isHeader_append h2]
      exact hn m hm
  have hdrop := verdict_drop id hfree
  rw [List.drop_left] at hdrop
  rw [← hdrop, verdict_of_header hs]

/-- The packet of a frame from the servo, after noise, is what the receiver accepts. -/
theorem verdict_frame {id : Byte} {noise rest : List Byte} {f : Frame} (hn : Noise noise)
    (hid : f.id = id) (hroom : f.params.length ≤ 64) :
    verdict id (noise ++ f.encode ++ rest) = .accepted f.encode rest := by
  rw [List.append_assoc, hn.verdict (by rw [f.encode_eq]; rfl)]
  have hlen := f.length_encode
  obtain ⟨y, ys, hys⟩ : ∃ y ys, f.params ++ [-1 - f.body.sum] = y :: ys :=
    List.exists_cons_of_ne_nil (by simp)
  have hcons : f.encode ++ rest = 0xff :: 0xff :: f.id :: BitVec.ofNat 8 (f.params.length + 2) ::
      f.code :: y :: (ys ++ rest) := by
    rw [f.encode_eq, hys]; rfl
  have hn6 : (BitVec.ofNat 8 (f.params.length + 2)).toNat + 4 = f.encode.length := by
    rw [f.toNat_length, hlen]
  have hvalid : Checksum.Valid (-1) (f.encode.drop 2) := Checksum.valid_close (-1) f.body
  rw [hcons, judge, if_neg (by simp [hid]), if_neg (by rw [f.toNat_length]; omega), ← hcons, hn6,
    judgePacket, if_neg (by rw [List.length_append]; omega), if_neg (by rw [hlen]; omega),
    List.take_left, if_pos hvalid, max_eq_right (by rw [hlen]; omega), List.drop_left]

theorem judgePacket_accepted {n : Nat} {s packet rest : List Byte}
    (h : judgePacket n s = .accepted packet rest) :
    n ≤ s.length ∧ n ≤ 70 ∧ Checksum.Valid (-1) (packet.drop 2) ∧ packet = s.take n ∧
      rest = s.drop (max 6 n) := by
  unfold judgePacket at h
  split at h
  · cases h
  rename_i hlong
  split at h
  · cases h
  rename_i hroom
  split at h
  · rename_i hvalid
    cases h
    exact ⟨by omega, by omega, hvalid, rfl, rfl⟩
  · cases h

/-- What the receiver accepts: the bytes of a packet after the first header, as its length says. -/
theorem verdict_accepted_cases {id : Byte} {s packet rest : List Byte}
    (h : verdict id s = .accepted packet rest) :
    ∃ noise length c d u, s = noise ++ 0xff :: 0xff :: id :: length :: c :: d :: u ∧
      (∀ m < noise.length, isHeader (s.drop m) = false) ∧ length.toNat < 252 ∧
      judgePacket (length.toNat + 4) (0xff :: 0xff :: id :: length :: c :: d :: u) =
        .accepted packet rest := by
  obtain ⟨i, hi, hfree⟩ := Seek.seek_eq_drop isHeader s
  have hhead := Seek.seek_here isHeader s
  rw [verdict] at h
  generalize Seek.seek isHeader s = t at h hi hhead
  unfold judge at h
  split at h
  · rename_i a b answered length c d u
    split at h
    · cases h
    rename_i hid
    split at h
    · cases h
    rename_i hbig
    obtain ⟨rfl, rfl⟩ : a = 0xff ∧ b = 0xff := by
      simpa [isHeader, -BitVec.reduceEq] using hhead
    obtain rfl : answered = id := not_not.mp hid
    refine ⟨s.take i, length, c, d, u, ?_, fun m hm => ?_, not_le.mp hbig, h⟩
    · rw [hi, List.take_append_drop]
    · rw [List.length_take] at hm
      exact hfree m (by omega)
  · cases h

/-- The length byte of a packet that the receiver accepts is that of the packet. -/
theorem verdict_accepted_length {id : Byte} {s packet rest : List Byte}
    (h : verdict id s = .accepted packet rest) :
    ∃ length : Byte, packet[3]? = some length ∧ packet.length = length.toNat + 4 := by
  obtain ⟨-, length, c, d, u, -, -, -, hjudge⟩ := verdict_accepted_cases h
  obtain ⟨hlen, -, -, rfl, -⟩ := judgePacket_accepted hjudge
  refine ⟨length, ?_, by rw [List.length_take]; omega⟩
  rw [List.getElem?_take_of_lt (by omega)]
  rfl

/-- What the receiver accepts does not depend on what comes after it. -/
theorem verdict_accepted_before {id : Byte} {s packet rest : List Byte}
    (h : verdict id s = .accepted packet rest) :
    ∃ before, s = before ++ rest ∧ ∀ t, verdict id (before ++ t) = .accepted packet t := by
  obtain ⟨noise, length, c, d, u, hs, hfree, hbig, hjudge⟩ := verdict_accepted_cases h
  obtain ⟨hn, h70, hvalid, hpacket, hrest⟩ := judgePacket_accepted hjudge
  -- the packet, and the bytes that are read with it
  obtain ⟨m, hm⟩ : ∃ m, max 6 (length.toNat + 4) = m + 6 :=
    ⟨_, (Nat.sub_add_cancel (by omega)).symm⟩
  obtain ⟨w, hw⟩ : ∃ w, (0xff :: 0xff :: id :: length :: c :: d :: u).take (m + 6) = w := ⟨_, rfl⟩
  have hwlen : w.length = max 6 (length.toNat + 4) := by
    rw [← hw, List.length_take, hm]
    simp only [List.length_cons] at hn ⊢
    omega
  have hcons : w = 0xff :: 0xff :: id :: length :: c :: d :: u.take m := hw.symm
  refine ⟨noise ++ w, ?_, fun t => ?_⟩
  · rw [hrest, hm, hs, List.append_assoc, ← hw, List.take_append_drop]
  · have hfree' : ∀ k < noise.length, isHeader ((noise ++ (w ++ t)).drop k) = false := by
      intro k hk
      have hold := hfree k hk
      rw [hs, List.drop_append_of_le_length (by omega)] at hold
      rw [hcons, List.drop_append_of_le_length (by omega)]
      match hd : noise.drop k, List.length_drop (i := k) (l := noise) with
      | [], h0 => rw [List.length_nil] at h0; omega
      | [x], _ => rw [hd] at hold; exact hold
      | x :: y :: zs, _ => rw [hd] at hold; exact hold
    have hdrop := verdict_drop id hfree'
    rw [List.drop_left] at hdrop
    have htake : (w ++ t).take (length.toNat + 4) = packet := by
      rw [List.take_append_of_le_length (by omega), ← hw, List.take_take, min_eq_left (by omega),
        hpacket]
    have hverdict : verdict id (w ++ t) = judgePacket (length.toNat + 4) (w ++ t) := by
      rw [hcons]
      simp only [List.cons_append]
      rw [verdict_of_header rfl, judge, if_neg (by simp), if_neg (by omega)]
    rw [List.append_assoc, ← hdrop, hverdict, judgePacket,
      if_neg (by rw [List.length_append]; omega), if_neg (by omega), htake, if_pos hvalid, ← hwlen,
      List.drop_left]

/-- A packet with one byte changed is rejected, unless it is one of the header or the length. -/
theorem verdict_changed {id y : Byte} {noise rest : List Byte} {f : Frame} {i : Nat}
    (hn : Noise noise) (hid : f.id = id) (hroom : f.params.length ≤ 64) (hi : i = 2 ∨ 4 ≤ i)
    (hlt : i < f.encode.length) (hy : y ≠ f.encode[i]) :
    verdict id (noise ++ f.encode.set i y ++ rest) = .corrupt := by
  have hlen := f.length_encode
  have htoNat := f.toNat_length
  have hvalid : Checksum.Valid (-1) (f.encode.drop 2) := Checksum.valid_close (-1) f.body
  obtain ⟨z, zs, hzs⟩ : ∃ z zs, f.params ++ [-1 - f.body.sum] = z :: zs :=
    List.exists_cons_of_ne_nil (by simp)
  have hcons : f.encode = 0xff :: 0xff :: f.id :: BitVec.ofNat 8 (f.params.length + 2) :: f.code ::
      z :: zs := by
    rw [f.encode_eq, hzs]
  generalize BitVec.ofNat 8 (f.params.length + 2) = length at hcons htoNat
  rw [List.append_assoc]
  rcases hi with rfl | hi
  · -- the id
    have hy' : y ≠ id := by
      simp only [hcons] at hy
      rw [← hid]
      exact hy
    rw [hcons]
    simp only [List.set_cons_succ, List.set_cons_zero, List.cons_append]
    rw [hn.verdict rfl, judge, if_pos hy']
  · obtain ⟨j, rfl⟩ : ∃ j, i = j + 4 := ⟨i - 4, by omega⟩
    have hset : f.encode.set (j + 4) y =
        0xff :: 0xff :: f.id :: length :: (f.code :: z :: zs).set j y := by
      rw [hcons]; rfl
    have hdrop : (f.encode.set (j + 4) y).drop 2 = (f.encode.drop 2).set (j + 2) y := by
      rw [hcons]; rfl
    obtain ⟨c, d, u, hu⟩ : ∃ c d u, (f.code :: z :: zs).set j y = c :: d :: u := by
      match j with
      | 0 => exact ⟨y, z, zs, rfl⟩
      | 1 => exact ⟨f.code, y, zs, rfl⟩
      | j + 2 => exact ⟨f.code, z, zs.set j y, rfl⟩
    have hcons' : f.encode.set (j + 4) y ++ rest =
        0xff :: 0xff :: f.id :: length :: c :: d :: (u ++ rest) := by
      rw [hset, hu]; rfl
    -- the length byte is as it was, so the receiver waits for the same number of bytes
    have hn' : length.toNat + 4 = (f.encode.set (j + 4) y).length := by
      rw [List.length_set, hlen, htoNat]
    have hbad : ¬ Checksum.Valid (-1) ((f.encode.set (j + 4) y).drop 2) := by
      rw [hdrop, hvalid.set_iff (by rw [List.length_drop]; omega), List.getElem_drop]
      simpa only [show 2 + (j + 2) = j + 4 by omega] using hy
    rw [hn.verdict (by rw [hcons']; rfl), hcons', judge, if_neg (by simp [hid]),
      if_neg (by omega), ← hcons', hn', judgePacket, if_neg (by rw [List.length_append]; omega),
      if_neg (by rw [List.length_set]; omega), List.take_left, if_neg hbad]

/-- Every packet that the receiver accepts from the stream, and that is as long as the shortest
status packet, is the packet of a frame from the servo; no header comes before it. -/
theorem verdict_accepted {id : Byte} {s packet rest : List Byte}
    (h : verdict id s = .accepted packet rest) (h6 : 6 ≤ packet.length) :
    ∃ noise, ∃ f : Frame, s = noise ++ f.encode ++ rest ∧ f.id = id ∧ packet = f.encode ∧
      ∀ m < noise.length, isHeader (s.drop m) = false := by
  obtain ⟨noise, length, c, d, u, hs, hfree, -, hjudge⟩ := verdict_accepted_cases h
  obtain ⟨hlen, -, hvalid, hpacket, rfl⟩ := judgePacket_accepted hjudge
  have hn : 6 ≤ length.toNat + 4 := by
    rw [hpacket, List.length_take] at h6
    omega
  obtain ⟨n, hn⟩ : ∃ n, length.toNat + 4 = n + 6 := ⟨_, (Nat.sub_add_cancel hn).symm⟩
  rw [hn] at hpacket hlen ⊢
  obtain ⟨f, hf, hid⟩ : ∃ f, decode packet = some f ∧ f.id = id := by
    rw [hpacket] at hvalid ⊢
    refine ⟨_, dif_pos ⟨rfl, rfl, by simp, ?_, hvalid⟩, rfl⟩
    simp only [List.length_cons] at hlen
    simp only [List.length_cons, List.length_take]
    omega
  have hencode : packet = f.encode := decode_eq_some_iff.mp hf
  refine ⟨noise, f, ?_, hid, hencode, hfree⟩
  rw [← hencode, hpacket, max_eq_right (by omega), List.append_assoc, List.take_append_drop, hs]

end DrinkRobot.Dxl
