import DrinkRobot.Dxl.Receive

/-!
# What a command that was sent ends with

* `Asked id g`: a packet for the servo `id` is on its way, and nothing of the answer was read.
* `receive_chunks`: when the port delivers, the loop ends as the verdict on the incoming bytes says,
  however they are cut into reads.
* `success_sound`: whenever the time is up, a success means that an answer was received.
-/

namespace DrinkRobot.Dxl

open Buffer (Holds)
open Run (bind_of_ok)

/-- Both reads succeed. -/
def Poll.Reads (p : Poll) : Prop := (∃ k, p.first = some k) ∧ ∃ k, p.second = some k

/-- Both reads succeed, the first finds a byte when there is one, and the time is not up. -/
def Poll.Delivers (p : Poll) : Prop :=
  (∃ k, p.first = some (k + 1)) ∧ (∃ k, p.second = some k) ∧ p.timeout = false

structure Asked (id : Byte) (g : Globals) : Prop where
  busy : g.giBusUsing = true
  asked : readAt g.gbInstructionPacket idIndex = .ok id
  status : g.gbCommStatus = .txSuccess

theorem Asked.listening {id : Byte} {g : Globals} (h : Asked id g) : Listening id [] g.restart := by
  have hrestart : g.restart = { g with gbRxGetLength := 0, gbRxPacketLength := 6 } := if_pos h.status
  rw [hrestart]
  exact ⟨h.busy, h.asked, Buffer.holds_nil _, rfl, (by decide : 0 < 6), .inl rfl⟩

theorem Asked.going {id : Byte} {g : Globals} (h : Asked id g) :
    Going id (verdict id g.incoming) g.incoming.length g :=
  ⟨[], h.listening, by rw [List.nil_append], le_rfl⟩

section Loop

variable {id : Byte} {g : Globals} {polls : List Poll}

/-- The loop, whatever the reads find and whenever the time is up. -/
theorem rx_loop (hid : id ≠ broadcastId) {v : Verdict} {n : Nat} (h : Going id v n g)
    (hp : ∀ p ∈ polls, p.Reads) :
    Polling.Loop (Going id v n) (fun g' => Reports v g' ∨ Expired g') (Overruns v)
      (Polling.doWhile Globals.waiting dxlRxPacket g polls) := by
  refine Polling.doWhile_invariant (P := Poll.Reads) ?_ h hp
  rintro g p ⟨xs, hxs, rfl, hn⟩ ⟨⟨k, hk⟩, k', hk'⟩
  refine (rx_round hxs hid hk hk').mono ?_ ?_ (fun _ he => he)
  · rintro g' ⟨ys, hys, hv, hle⟩
    exact ⟨ys, hys, hv, by omega⟩
  · rintro g' (hr | ⟨-, he⟩)
    · exact .inl hr
    · exact .inr he

/-- A verdict that is not open needs another byte. -/
theorem Going.incoming_pos {v : Verdict} {n : Nat} (h : Going id v n g) (hv : v ≠ .waiting) :
    0 < g.incoming.length := by
  obtain ⟨xs, hxs, hv', -⟩ := h
  by_contra h0
  have hnil : g.incoming = [] := List.length_eq_zero_iff.mp (by omega)
  rw [hnil, List.append_nil, hxs.verdict_waiting] at hv'
  exact hv hv'.symm

theorem rx_round_delivers (hid : id ≠ broadcastId) {v : Verdict} {n : Nat} {p : Poll}
    (h : Going id v n g) (hp : p.Delivers) :
    Polling.Round Globals.waiting (fun g' => Going id v n g' ∧
        (v ≠ .waiting → g'.incoming.length < g.incoming.length)) (Reports v) (Overruns v)
      (dxlRxPacket g p) := by
  have hpos : v ≠ .waiting → 0 < g.incoming.length := h.incoming_pos
  obtain ⟨xs, hxs, rfl, hn⟩ := h
  obtain ⟨⟨k, hk⟩, ⟨k', hk'⟩, htime⟩ := hp
  refine (rx_round hxs hid hk hk').mono ?_ ?_ (fun _ he => he)
  · rintro g' ⟨ys, hys, hv, hle⟩
    refine ⟨⟨ys, hys, hv, by omega⟩, fun hopen => ?_⟩
    have hmore := hpos hopen
    omega
  · rintro g' (hr | ⟨hlate, -⟩)
    · exact hr
    · rw [htime] at hlate
      cases hlate

/-- The loop, when the port delivers. -/
theorem rx_loop_delivers (hid : id ≠ broadcastId) {v : Verdict} {n : Nat} (h : Going id v n g)
    (hp : ∀ p ∈ polls, p.Delivers) :
    Polling.Loop (Going id v n) (Reports v) (Overruns v)
      (Polling.doWhile Globals.waiting dxlRxPacket g polls) :=
  Polling.doWhile_invariant (fun _ _ hg' hp => (rx_round_delivers hid hg' hp).mono
    (fun _ hs => hs.1) (fun _ hr => hr) (fun _ he => he)) h hp

/-- With a round for each byte that comes before `rest`, the verdict is reached, when the bytes before
`rest` decide it. -/
theorem rx_loop_ends (rest : List Byte) (hid : id ≠ broadcastId) {v : Verdict} {n : Nat}
    (hrest : ∀ g', Going id v n g' → rest.length < g'.incoming.length) (hv : v ≠ .waiting)
    (h : Going id v n g) (hp : ∀ p ∈ polls, p.Delivers)
    (hlen : g.incoming.length ≤ rest.length + polls.length) :
    Polling.Loop (fun _ => False) (Reports v) (Overruns v)
      (Polling.doWhile Globals.waiting dxlRxPacket g polls) := by
  refine Polling.doWhile_ends (I := Going id v n) (P := Poll.Delivers)
    (m := fun g => g.incoming.length - rest.length) ?_ (fun g' hg' => ?_) h hp (by omega)
  · intro g' p hg' hp
    refine (rx_round_delivers hid hg' hp).mono (fun g'' hs => ⟨hs.1, ?_⟩) (fun _ hr => hr)
      (fun _ he => he)
    have hless := hs.2 hv
    have hmore := hrest g'' hs.1
    omega
  · have hmore := hrest g' hg'
    omega

/-- An answer that was not read whole is not read past its end. -/
theorem Going.rest_lt {n : Nat} {packet rest : List Byte} (h : Going id (.accepted packet rest) n g) :
    rest.length < g.incoming.length := by
  obtain ⟨xs, hxs, hv, -⟩ := h
  obtain ⟨before, hs, hany⟩ := verdict_accepted_before hv
  by_contra hshort
  -- then the bytes held would be enough
  have hlen := congrArg List.length hs
  rw [List.length_append, List.length_append] at hlen
  obtain ⟨more, hmore⟩ : before <+: xs := by
    refine List.prefix_of_prefix_length_le (List.prefix_append before rest) ?_ (by omega)
    rw [← hs]
    exact List.prefix_append xs g.incoming
  have hwaiting := hxs.verdict_waiting
  rw [← hmore, hany] at hwaiting
  cases hwaiting

theorem rx_loop_accepts (hid : id ≠ broadcastId) (h : Asked id g) (hp : ∀ p ∈ polls, p.Delivers)
    {packet rest : List Byte} (hv : verdict id g.incoming = .accepted packet rest)
    (hlen : g.incoming.length ≤ rest.length + polls.length) :
    ∃ g', Polling.doWhile Globals.waiting dxlRxPacket g polls = .ok (g', true) ∧
      Reports (.accepted packet rest) g' := by
  have hgoing := h.going
  rw [hv] at hgoing
  have hends := rx_loop_ends rest hid (fun _ hg' => hg'.rest_lt) (by simp) hgoing hp hlen
  match hd : Polling.doWhile Globals.waiting dxlRxPacket g polls with
  | .ok (g', false) => rw [hd] at hends; exact hends.elim
  | .ok (g', true) => rw [hd] at hends; exact ⟨g', rfl, hends⟩
  | .error e => rw [hd] at hends; exact absurd hends.2 (by simp)

/-- A write to the servo 0 after the start, with what comes in. -/
def Globals.pinged (incoming : List Byte) : Globals :=
  { Globals.start with
    giBusUsing := true
    gbCommStatus := .txSuccess
    incoming := incoming }

theorem asked_pinged (incoming : List Byte) : Asked 0 (.pinged incoming) := ⟨rfl, rfl, rfl⟩

theorem delivers_replicate (n : Nat) :
    ∀ p ∈ List.replicate n (⟨some 6, false, some 6⟩ : Poll), p.Delivers := by
  intro p hp
  rw [List.eq_of_mem_replicate hp]
  exact ⟨⟨5, rfl⟩, ⟨6, rfl⟩, rfl⟩

theorem Poll.Delivers.reads {p : Poll} (h : p.Delivers) : p.Reads := ⟨⟨_, h.1.choose_spec⟩, h.2.1⟩

/-- The answer, when the port delivers: a verdict that is open leaves the loop going, a packet that
does not fit makes it access the status packet past its end, and otherwise the loop ends as the verdict
says. -/
theorem receive_chunks (hid : id ≠ broadcastId) (h : Asked id g) (hp : ∀ p ∈ polls, p.Delivers)
    (hlen : g.incoming.length ≤ polls.length) :
    match verdict id g.incoming with
    | .waiting =>
      ∃ g', Polling.doWhile Globals.waiting dxlRxPacket g polls = .ok (g', false)
    | .overrun =>
      Polling.doWhile Globals.waiting dxlRxPacket g polls = .error .outOfBounds
    | v =>
      ∃ g', Polling.doWhile Globals.waiting dxlRxPacket g polls = .ok (g', true) ∧
        Reports v g' := by
  have hgoing := h.going
  generalize verdict id g.incoming = v at hgoing
  have hinv := rx_loop_delivers hid hgoing hp
  -- with a verdict that is not open, as many rounds as bytes are enough to end
  have hends := fun hv => rx_loop_ends [] hid (fun _ hg' => hg'.incoming_pos hv) hv hgoing hp
    (by simpa using hlen)
  match hd : Polling.doWhile Globals.waiting dxlRxPacket g polls with
  | .ok (g', false) =>
    cases v with
    | waiting => exact ⟨g', rfl⟩
    | corrupt | overrun | accepted => rw [hd] at hends; exact (hends (by simp)).elim
  | .ok (g', true) =>
    rw [hd] at hinv
    cases v with
    | waiting => exact hinv.2.elim
    | overrun => exact hinv.2.elim
    | corrupt => exact ⟨g', rfl, hinv⟩
    | accepted packet rest => exact ⟨g', rfl, hinv⟩
  | .error e =>
    rw [hd] at hinv
    obtain ⟨rfl, rfl⟩ := hinv
    rfl

theorem receive_chunks_ping :
    ∃ g', Polling.doWhile Globals.waiting dxlRxPacket (.pinged [7, 255, 255, 0, 2, 0, 253])
        (List.replicate 7 ⟨some 6, false, some 6⟩) = .ok (g', true) ∧
      Reports (.accepted [255, 255, 0, 2, 0, 253] []) g' := by
  have hv : verdict 0 [7, 255, 255, 0, 2, 0, 253] = .accepted [255, 255, 0, 2, 0, 253] [] := by decide
  have hrun := receive_chunks (by decide) (asked_pinged [7, 255, 255, 0, 2, 0, 253])
    (delivers_replicate 7) (by decide)
  rw [show (Globals.pinged [7, 255, 255, 0, 2, 0, 253]).incoming = [7, 255, 255, 0, 2, 0, 253] from rfl,
    hv] at hrun
  exact hrun

/-- A success was received: noise, and the packet of a frame from the servo. The length 0 and 1 is
that of no status packet, and is not looked for. -/
theorem success_sound (hid : id ≠ broadcastId) (h : Asked id g) (hp : ∀ p ∈ polls, p.Reads)
    {g' : Globals} (hrun : Polling.doWhile Globals.waiting dxlRxPacket g polls = .ok (g', true))
    (hs : g'.gbCommStatus = .rxSuccess) {length : Byte}
    (hlength : readAt g'.gbStatusPacket lengthIndex = .ok length) (h2 : 2 ≤ length.toNat) :
    ∃ noise, ∃ f : Frame, g.incoming = noise ++ f.encode ++ g'.incoming ∧ f.id = id ∧
      Holds g'.gbStatusPacket f.encode ∧ ∀ m < noise.length, isHeader (g.incoming.drop m) = false := by
  have hloop := rx_loop hid h.going hp
  rw [hrun] at hloop
  rcases hloop with hr | ⟨-, hlate⟩
  · cases hv : verdict id g.incoming with
    | waiting | overrun => rw [hv] at hr; exact hr.2.elim
    | corrupt => rw [hv] at hr; have hc := hr.2; simp [hs] at hc
    | accepted packet rest =>
      rw [hv] at hr
      obtain ⟨-, -, hholds, hinc⟩ := hr
      obtain ⟨length', hlength', hlen⟩ := verdict_accepted_length hv
      obtain ⟨hlt, hget⟩ := List.getElem?_eq_some_iff.mp hlength'
      have heq : length' = length := by
        have hread := readAt_holds hholds (i := lengthIndex) hlt
        rw [hlength] at hread
        injection hread with hread
        rw [hread, ← hget]
        rfl
      obtain ⟨noise, f, hs', hf, rfl, hfree⟩ := verdict_accepted hv (by rw [hlen, heq]; omega)
      exact ⟨noise, f, by rw [hs', hinc], hf, hholds, hfree⟩
  · rcases hlate with hlate | hlate <;> simp [hs] at hlate

theorem success_sound_ping :
    ∃ noise, ∃ f : Frame, [7, 255, 255, 0, 2, 0, 253, 9] = noise ++ f.encode ++ [9] ∧ f.id = 0 := by
  have hv : verdict 0 [7, 255, 255, 0, 2, 0, 253, 9] = .accepted [255, 255, 0, 2, 0, 253] [9] := by
    decide
  have hp := delivers_replicate 7
  obtain ⟨g', hrun, -, hs, hholds, hrest⟩ := rx_loop_accepts (by decide)
    (asked_pinged [7, 255, 255, 0, 2, 0, 253, 9]) hp hv (by decide)
  have hlength : readAt g'.gbStatusPacket lengthIndex = .ok 2 :=
    readAt_holds hholds (i := lengthIndex) (by decide)
  obtain ⟨noise, f, hinc, hf, -⟩ := success_sound (by decide)
    (asked_pinged [7, 255, 255, 0, 2, 0, 253, 9]) (fun p h => (hp p h).reads) hrun hs hlength le_rfl
  rw [hrest] at hinc
  exact ⟨noise, f, hinc, hf⟩

/-- An answer with one byte changed, other than its header and its length, is never a success. -/
theorem changed_byte_rejected {noise rest : List Byte} {f : Frame} {i : Nat} {y : Byte}
    (hid : id ≠ broadcastId) (h : Asked id g) (hp : ∀ p ∈ polls, p.Reads) (hn : Noise noise)
    (hf : f.id = id) (hroom : f.params.length ≤ 64) (hi : i = 2 ∨ 4 ≤ i)
    (hlt : i < f.encode.length) (hy : y ≠ f.encode[i])
    (hinc : g.incoming = noise ++ f.encode.set i y ++ rest) :
    match Polling.doWhile Globals.waiting dxlRxPacket g polls with
    | .ok (g', true) => g'.gbCommStatus = .rxCorrupt ∨ g'.gbCommStatus = .rxTimeout
    | .ok (_, false) => True
    | .error _ => False := by
  have hloop := rx_loop hid h.going hp
  rw [hinc, verdict_changed hn hf hroom hi hlt hy] at hloop
  match hd : Polling.doWhile Globals.waiting dxlRxPacket g polls with
  | .ok (g', false) => trivial
  | .ok (g', true) =>
    rw [hd] at hloop
    rcases hloop with hr | ⟨-, hlate⟩
    · exact .inl hr.2
    · exact hlate.symm
  | .error e => rw [hd] at hloop; exact absurd hloop.2 (by simp)

theorem changed_byte_rejected_ping :
    match Polling.doWhile Globals.waiting dxlRxPacket (.pinged [255, 255, 0, 2, 4, 253])
      (List.replicate 6 ⟨some 6, false, some 6⟩) with
    | .ok (g', true) => g'.gbCommStatus = .rxCorrupt ∨ g'.gbCommStatus = .rxTimeout
    | .ok (_, false) => True
    | .error _ => False :=
  @changed_byte_rejected 0 _ _ [] [] ⟨0, 0, [], by decide⟩ 4 4 (by decide)
    (asked_pinged [255, 255, 0, 2, 4, 253]) (fun p hp => (delivers_replicate 6 p hp).reads) (by decide) rfl
    (by decide) (.inr le_rfl) (by decide) (by decide) (by decide)

/-! ## When the loop does not end -/

/-- The receiver holds no 0xff and none is to come, and there are six bytes for each of `n` rounds. -/
def Babbling (id : Byte) (n : Nat) (g : Globals) : Prop :=
  ∃ xs, Listening id xs g.restart ∧ g.restart.gbRxPacketLength = 6 ∧
    (∀ b ∈ xs ++ g.incoming, b ≠ 0xff) ∧ 6 * n ≤ g.incoming.length

theorem isHeader_of_forall_ne {s : List Byte} (h : ∀ b ∈ s, b ≠ 0xff) : isHeader s = false := by
  match s with
  | [] => rfl
  | [_] => rfl
  | a :: b :: s => rw [isHeader, decide_eq_false (h a (by simp)), Bool.false_and]

theorem babble_round (hid : id ≠ broadcastId) {n : Nat} {p : Poll} (h : Babbling id (n + 1) g)
    (hp : ∃ k, p.first = some k ∧ 6 ≤ k) :
    ∃ g', dxlRxPacket g p = .ok g' ∧ g'.waiting = true ∧ Babbling id n g' := by
  obtain ⟨xs, hxs, h6, hfree, hlong⟩ := h
  obtain ⟨k, hk, hk6⟩ := hp
  have hshort := hxs.short
  obtain ⟨bytes, hpending, hbytes, ⟨hless, -⟩ | ⟨i, packet, haligned, hrx⟩ | ⟨-, hover⟩⟩ :=
    rx_read hxs hid hk
  · -- six bytes are never too few
    omega
  · have hsub : ∀ b ∈ (xs ++ bytes).drop i, b ≠ 0xff := fun b hb =>
      hfree b (by rw [← hpending]; exact List.mem_append_left _ (List.mem_of_mem_drop hb))
    -- no header: at most two bytes are kept
    have hkept : ((xs ++ bytes).drop i).length < 6 := by
      have hlen : (xs ++ bytes).length = 6 := by rw [List.length_append]; omega
      rw [List.length_drop]
      by_contra hmany
      have hheader := haligned.header (by omega)
      rw [isHeader_of_forall_ne hsub] at hheader
      cases hheader
    rw [← h6] at hkept
    simp only [if_pos hkept] at hrx
    refine ⟨_, hrx, rfl, (xs ++ bytes).drop i, ?_, ?_, ?_, ?_⟩
    · rw [Globals.restart_of_waiting rfl]
      exact ⟨hxs.busy, hxs.asked, haligned.holds, rfl, hkept, .inl h6⟩
    · rw [Globals.restart_of_waiting rfl]
      exact h6
    · intro b hb
      rcases List.mem_append.mp hb with hb | hb
      · exact hsub b hb
      · exact hfree b (by rw [← hpending]; exact List.mem_append_right _ hb)
    · simp only [Globals.took, List.length_drop]
      omega
  · -- six bytes fit
    omega

/-- While the port has six bytes for every round and no header, the loop goes on, also after the
time is up. -/
theorem babble_goes (hid : id ≠ broadcastId) (h : Asked id g)
    (hfree : ∀ b ∈ g.incoming, b ≠ 0xff) (hp : ∀ p ∈ polls, ∃ k, p.first = some k ∧ 6 ≤ k)
    (hlong : 6 * polls.length ≤ g.incoming.length) :
    ∃ g', Polling.doWhile Globals.waiting dxlRxPacket g polls = .ok (g', false) := by
  have h6 : g.restart.gbRxPacketLength = 6 := by rw [Globals.restart, if_pos h.status]
  obtain ⟨g', hg', -⟩ := Polling.doWhile_goes (I := Babbling id)
    (P := fun p : Poll => ∃ k, p.first = some k ∧ 6 ≤ k) (fun n g p hg hp => babble_round hid hg hp)
    ⟨[], h.listening, h6, by simpa using hfree, hlong⟩ hp
  exact ⟨g', hg'⟩

theorem babble_goes_zeros : ∃ g', Polling.doWhile Globals.waiting dxlRxPacket
    (.pinged (List.replicate 18 0)) (List.replicate 3 ⟨some 6, true, some 6⟩) = .ok (g', false) := by
  refine babble_goes (by decide) (asked_pinged _) ?_ ?_ (by decide)
  · intro b hb
    rw [List.eq_of_mem_replicate hb]
    decide
  · intro p hp
    rw [List.eq_of_mem_replicate hp]
    exact ⟨6, rfl, le_rfl⟩

end Loop

/-! ## A read that fails -/

/-- The search runs past the status packet, or stops within it. -/
theorem findHeader_stale (packet : List.Vector Byte (maxnumRxparam + 10)) {k i : Nat}
    (hk : i + k = 254) (hi : i ≤ 70) : findHeader packet 255 k i = .error .outOfBounds ∨
      ∃ j, findHeader packet 255 k i = .ok j ∧ i ≤ j ∧ j ≤ 70 := by
  induction k generalizing i with
  | zero => omega
  | succ k ih =>
    have hpeek : ∀ m < 70, ∃ b, readAt packet m = .ok b := fun m hm =>
      ⟨_, readAt_holds (Buffer.holds_toList packet) (by rwa [packet.toList_length])⟩
    have hover : readAt packet 70 = .error .outOfBounds := Buffer.peek_error_iff.mpr le_rfl
    rw [findHeader]
    by_cases h70 : i = 70
    · rw [h70, hover]
      exact .inl rfl
    obtain ⟨b, hb⟩ := hpeek i (by omega)
    rw [bind_of_ok hb]
    have hpair : andFF (b = 0xff) packet (i + 1) = .error .outOfBounds ∨
        ∃ pair, andFF (b = 0xff) packet (i + 1) = .ok pair := by
      unfold andFF
      split
      · by_cases h69 : i + 1 = 70
        · rw [h69, hover]
          exact .inl rfl
        · obtain ⟨c, hc⟩ := hpeek (i + 1) (by omega)
          rw [hc]
          exact .inr ⟨_, rfl⟩
      · exact .inr ⟨_, rfl⟩
    rcases hpair with hpair | ⟨pair, hpair⟩
    · rw [hpair]
      exact .inl rfl
    rw [bind_of_ok hpair]
    split
    · exact .inr ⟨i, rfl, le_rfl, hi⟩
    -- it never comes near the end of the 255 bytes that it takes for received
    have hlast : andFF (i = 255 - 2) packet (255 - 1) = .ok false := by
      rw [andFF, if_neg (by simp only [decide_eq_true_eq]; omega)]
      rfl
    rw [bind_of_ok hlast, if_neg (by simp)]
    rcases ih (i := i + 1) (by omega) (by omega) with h | ⟨j, h, hj⟩
    · exact .inl h
    · exact .inr ⟨j, h, by omega⟩

section Failed

variable {id : Byte} {g : Globals} {p : Poll}

/-- A first read that fails counts 255 bytes: what the status packet holds is taken for an answer. -/
theorem rx_failed (hid : id ≠ broadcastId) (h : Asked id g) (hp : p.first = none) :
    dxlRxPacket g p = (do
      let g ← alignPacket { g with gbRxGetLength := 255, gbRxPacketLength := 6 }
      if g.gbRxGetLength < g.gbRxPacketLength then
        return { g with gbCommStatus := .rxWaiting }
      receiveRest p g) := by
  have hrestart : g.restart = { g with gbRxGetLength := 0, gbRxPacketLength := 6 } := if_pos h.status
  rw [dxlRxPacket, if_neg (by simp [h.busy]), bind_of_ok h.asked, if_neg hid, hp, hrestart]
  rfl

/-- The packet of an earlier answer of the servo is a success again. -/
theorem failed_read_succeeds (hid : id ≠ broadcastId) (h : Asked id g) (hp : p.first = none)
    {f : Frame} (hholds : Holds g.gbStatusPacket f.encode) (hf : f.id = id) :
    dxlRxPacket g p = .ok ({ g with
      gbRxGetLength := 255
      gbRxPacketLength := f.params.length + 6 }.finish .rxSuccess) := by
  have hlen := f.length_encode
  have htoNat := f.toNat_length
  have hroom : f.params.length + 6 ≤ 70 := by
    rw [← hlen]; exact hholds.length_le
  have hcons := f.encode_eq
  have halign : alignPacket { g with gbRxGetLength := 255, gbRxPacketLength := 6 } =
      .ok { g with gbRxGetLength := 255, gbRxPacketLength := 6 } := by
    have hpair : andFF ((0xff : Byte) = 0xff) g.gbStatusPacket (0 + 1) = .ok true := by
      rw [andFF, if_pos (by decide), bind_of_ok (readAt_encode hholds (b := 0xff) (by rw [hcons]; rfl))]
      rfl
    have hfind : findHeader g.gbStatusPacket 255 (255 - 1) 0 = .ok 0 := by
      rw [findHeader, bind_of_ok (readAt_encode hholds (b := 0xff) (by rw [hcons]; rfl)),
        bind_of_ok hpair]
      rfl
    rw [alignPacket]
    simp only
    rw [hfind]
    rfl
  have hcheck : checkPacket { g with gbRxGetLength := 255, gbRxPacketLength := f.params.length + 6 } =
      .ok ({ g with
        gbRxGetLength := 255
        gbRxPacketLength := f.params.length + 6 }.finish .rxSuccess) := by
    have hspec := checkPacket_spec (g := { g with
      gbRxGetLength := 255
      gbRxPacketLength := f.params.length + 6 }) hholds hcons (by rw [htoNat, hlen])
    rw [hspec, htoNat, List.take_of_length_le (by rw [hlen]),
      if_pos (show Checksum.Valid (-1) (f.encode.drop 2) from Checksum.valid_close (-1) f.body)]
  rw [rx_failed hid h hp, bind_of_ok halign, if_neg (by simp), receiveRest, bind_of_ok h.asked,
    bind_of_ok (readAt_encode hholds (i := idIndex) (b := id) (by rw [hcons, hf]; rfl)), if_neg (by simp),
    bind_of_ok (readAt_encode hholds (i := lengthIndex) (by rw [hcons]; rfl)), htoNat,
    Nat.mod_eq_of_lt (by omega), readRest, if_neg (by simp only; omega)]
  exact hcheck

/-- A status packet without a header at its start is searched past its end. -/
theorem failed_read_overruns (hid : id ≠ broadcastId) (h : Asked id g) (hp : p.first = none)
    (hhead : isHeader g.gbStatusPacket.toList = false) :
    dxlRxPacket g p = .error .outOfBounds := by
  have hlen := g.gbStatusPacket.toList_length
  have halign : alignPacket { g with gbRxGetLength := 255, gbRxPacketLength := 6 } =
      .error .outOfBounds := by
    have hpos : 0 + 1 < g.gbStatusPacket.toList.length := by rw [hlen]; decide
    have hall := Buffer.holds_toList g.gbStatusPacket
    have hpair : andFF (g.gbStatusPacket.toList[0] = 0xff) g.gbStatusPacket (0 + 1) = .ok false := by
      rw [andFF_holds hall hpos, ← isHeader_drop hpos, List.drop_zero, hhead]
    have hlast : andFF (0 = 255 - 2) g.gbStatusPacket (255 - 1) = .ok false := rfl
    rw [alignPacket]
    simp only
    rw [show 255 - 1 = 253 + 1 from rfl, findHeader, bind_of_ok (readAt_holds hall (by omega)),
      bind_of_ok hpair, if_neg (by simp), bind_of_ok hlast, if_neg (by simp)]
    rcases findHeader_stale g.gbStatusPacket (k := 253) (i := 0 + 1) (by omega) (by omega)
      with hfind | ⟨j, hfind, h1, hj⟩
    · rw [hfind]
      rfl
    · -- it found a header: moving 255 bytes down reads past the packet
      rw [bind_of_ok hfind, if_pos (by omega),
        Buffer.moveDown_error (by change 0 + j ≤ 70; omega) (by change 70 < _; omega)]
      rfl
  rw [rx_failed hid h hp, halign]
  rfl

theorem failed_read_overruns_start :
    dxlRxPacket (.pinged []) ⟨none, false, none⟩ = .error .outOfBounds :=
  failed_read_overruns (by decide) (asked_pinged []) rfl rfl

end Failed

end DrinkRobot.Dxl
