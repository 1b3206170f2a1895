import DrinkRobot.Arm.Goals
import DrinkRobot.Dxl.Answers

/-!
# The arm's commands on the wire

The scripts hand doubles to the library, whose arguments are ints: `toInt` is what `calllib` makes of
a double. What the arm is told is read from the packets that the port has taken.

* `Command.request`: the library's command for a command of a script.
* `goalIn`, `lastGoal`: the goals that the packets write to a servo.
* `HoldsRow`: the last goals are those of a row of joint angles, and `holdsRow_rows` that a
  trajectory ends with its last row.
* `steps_on_wire`: after `move_dynamixel_steps`, the last goals of servos 2 and 3 mean the angles of
  the last row, and no packet is about anything else.
* `wiggle_on_wire`: `wiggleit` ends with the position that it read as the goal. On the way a low
  position makes the goal wrap.
-/

namespace DrinkRobot

open Session
open Dxl (Answer Request Sent)

/-- What is known of `toInt`. -/
structure IsCast (toInt : ℚ → Int) : Prop where
  near : ∀ q : ℚ, |q| < 2 ^ 31 → |(toInt q : ℚ) - q| < 1

/-- A whole number stays. -/
theorem IsCast.int {toInt : ℚ → Int} (h : IsCast toInt) {z : Int} (hz : |z| < 2 ^ 31) :
    toInt z = z := by
  have hnear := h.near z (by exact_mod_cast hz)
  have hlt : |toInt z - z| < 1 := by exact_mod_cast hnear
  have hzero := Int.abs_lt_one_iff.mp hlt
  omega

def Command.request (toInt : ℚ → Int) : Command → Request
  | .dxlWriteWord id address value => .writeWord id address (toInt value)
  | .dxlReadWord id address => .readWord id address

/-! ## Goals in packets -/

/-- The goal that a packet writes to the servo: it is the word at address 30. -/
def goalIn (id : Dxl.Byte) (packet : List Dxl.Byte) : Option Int :=
  (Dxl.decode packet).bind fun f =>
    match f.params with
    | [address, low, high] =>
      if f.id = id ∧ f.code = Dxl.instWrite ∧ address = 30 then some (low.toNat + 256 * high.toNat)
      else none
    | _ => none

/-- The last goal that packets write to the servo. -/
def lastGoal (id : Dxl.Byte) (sent : List (List Dxl.Byte)) : Option Int :=
  (sent.filterMap (goalIn id)).getLast?

/-- The angle in degrees that a goal means. -/
def goalAngle (goal : Int) : ℚ := 300 / 1023 * goal - 150

/-- The goal that a command writes to the servo. -/
def Dxl.Request.goal (id : Dxl.Byte) : Request → Option Int
  | .writeWord n address value =>
    if BitVec.ofInt 8 n = id ∧ BitVec.ofInt 8 address = 30 then some (value % 65536) else none
  | _ => none

theorem goalIn_encode (id : Dxl.Byte) (r : Request) : goalIn id r.frame.encode = r.goal id := by
  rw [goalIn, Dxl.decode_encode]
  cases r with
  | writeWord n address value =>
    have hword := Dxl.makeword_bytes value
    rw [Dxl.makeword_eq] at hword
    simp only [Option.bind_some, Request.frame, Dxl.Request.goal, true_and, hword]
  | _ => rfl

/-- The packets of commands. -/
def wire (rs : List Request) : List (List Dxl.Byte) := rs.map fun r => r.frame.encode

theorem lastGoal_wire (id : Dxl.Byte) (rs : List Request) :
    lastGoal id (wire rs) = (rs.filterMap (Request.goal id)).getLast? := by
  unfold lastGoal wire
  rw [List.filterMap_map]
  simp only [Function.comp_def, goalIn_encode]

theorem lastGoal_append (id : Dxl.Byte) (sent : List (List Dxl.Byte)) (rs : List Request) :
    lastGoal id (sent ++ wire rs) =
      ((rs.filterMap (Request.goal id)).getLast?).or (lastGoal id sent) := by
  rw [← lastGoal_wire]
  unfold lastGoal
  rw [List.filterMap_append, List.getLast?_append]

theorem sent_append {before session : List (Request × Answer)} {g : Dxl.Globals}
    (h : Sent (before ++ session) g) :
    g.sent = wire (before.map Prod.fst) ++ wire (session.map Prod.fst) := by
  rw [h.log, List.map_append, List.map_append]
  rfl

section Wire

variable {toInt : ℚ → Int}

/-- A goal in the range of the servo is written without a wrap. -/
theorem IsCast.goal (h : IsCast toInt) {g : ℚ} (h0 : 0 ≤ g) (h1 : g ≤ 1023) :
    |((toInt g % 65536 : Int) : ℚ) - g| < 1 := by
  have hnear := h.near g (by rw [abs_of_nonneg h0]; linarith)
  obtain ⟨hlow, hhigh⟩ := abs_lt.mp hnear
  have hpos : -1 < toInt g := by exact_mod_cast (by push_cast; linarith : ((-1 : Int) : ℚ) < toInt g)
  have hlt : toInt g < 1024 := by exact_mod_cast (by push_cast; linarith : (toInt g : ℚ) < (1024 : Int))
  rw [show toInt g % 65536 = toInt g by omega]
  exact hnear

/-- The angle of a goal that was cast. -/
theorem angle_of_cast (h : IsCast toInt) {id : Nat} (hid : id = 2 ∨ id = 3) {theta : ℚ}
    (htheta : theta ≤ 150) :
    |goalAngle (toInt (goalOf id theta) % 65536) - max theta (-150)| < 300 / 1023 := by
  have hcast := h.goal (goalOf_nonneg hid theta) ((goalOf_le_iff hid theta).mpr htheta)
  obtain ⟨hlow, hhigh⟩ := abs_lt.mp hcast
  unfold goalAngle
  rw [← angle_goalOf hid theta, abs_lt]
  constructor
  · linarith
  · linarith

/-! ## A trajectory -/

/-- The commands of a row, as the library's. -/
theorem request_step (row : ℚ × ℚ) : (stepCommands row).map (Command.request toInt) =
    [.writeWord 2 30 (toInt (goalOf 2 row.2)), .writeWord 3 30 (toInt (goalOf 3 row.1))] := rfl

/-- The last goals are those of a row. -/
def HoldsRow (toInt : ℚ → Int) (row : ℚ × ℚ) (sent : List (List Dxl.Byte)) : Prop :=
  lastGoal 2 sent = some (toInt (goalOf 2 row.2) % 65536) ∧
    lastGoal 3 sent = some (toInt (goalOf 3 row.1) % 65536)

/-- After the commands of a row the goals are its goals, whatever was sent before. -/
theorem holdsRow_step (sent : List (List Dxl.Byte)) (row : ℚ × ℚ) :
    HoldsRow toInt row (sent ++ wire ((stepCommands row).map (Command.request toInt))) := by
  unfold HoldsRow
  rw [request_step, lastGoal_append, lastGoal_append]
  constructor
  · rfl
  · rfl

theorem wire_append (rs rs' : List Request) : wire (rs ++ rs') = wire rs ++ wire rs' := List.map_append

/-- A trajectory ends with its last row, an empty one with what was there. -/
theorem holdsRow_rows {sent : List (List Dxl.Byte)} {row : ℚ × ℚ} (h : HoldsRow toInt row sent)
    (rows : List (ℚ × ℚ)) : HoldsRow toInt (rows.getLast?.getD row)
      (sent ++ wire ((rows.flatMap stepCommands).map (Command.request toInt))) := by
  induction rows generalizing sent row with
  | nil => rwa [List.flatMap_nil, List.map_nil, wire, List.map_nil, List.append_nil]
  | cons row' rows ih =>
    rw [List.flatMap_cons, List.map_append, wire_append, ← List.append_assoc, List.getLast?_cons,
      Option.getD_some]
    exact ih (holdsRow_step sent row')

/-- Whatever was there, a trajectory with a last row ends with that. -/
theorem holdsRow_last (sent : List (List Dxl.Byte)) {rows : List (ℚ × ℚ)} {row : ℚ × ℚ}
    (h : rows.getLast? = some row) : HoldsRow toInt row
      (sent ++ wire ((rows.flatMap stepCommands).map (Command.request toInt))) := by
  obtain ⟨before, rfl⟩ := List.getLast?_eq_some_iff.mp h
  rw [List.flatMap_append, List.flatMap_singleton, List.map_append, wire_append, ← List.append_assoc]
  exact holdsRow_step _ row

/-- After the steps of `move_dynamixel_steps`, whatever the servos answer: the last goals on the wire
for the arm motor and the base motor mean the angles of the last row, -150 degrees for a lower one, to
within a step of the servo. Every packet writes one of these two goals. -/
theorem steps_on_wire (hcast : IsCast toInt) (sdk : Sdk) (s : Bus) {rows : List (ℚ × ℚ)}
    {row : ℚ × ℚ} (harm : row.2 ≤ 150) (hbase : row.1 ≤ 150)
    {before session : List (Request × Answer)} (hsession : session.map Prod.fst =
      (s.commandsSince ((moveDynamixelSteps sdk (rows ++ [row])).exec s).2).map
        (Command.request toInt)) {g : Dxl.Globals} (hsent : Sent (before ++ session) g) :
    (∃ arm base, lastGoal 2 g.sent = some arm ∧ lastGoal 3 g.sent = some base ∧
      |goalAngle arm - max row.2 (-150)| < 300 / 1023 ∧
      |goalAngle base - max row.1 (-150)| < 300 / 1023) ∧
    ∀ packet ∈ g.sent.drop before.length, goalIn 2 packet ≠ none ∨ goalIn 3 packet ≠ none := by
  have hlog := sent_append hsent
  rw [hsession, commandsSince_steps] at hlog
  obtain ⟨hlast2, hlast3⟩ : HoldsRow toInt row g.sent := by
    rw [hlog]
    exact holdsRow_last _ List.getLast?_concat
  refine ⟨⟨_, _, hlast2, hlast3, angle_of_cast hcast (.inl rfl) harm,
    angle_of_cast hcast (.inr rfl) hbase⟩, ?_⟩
  have hlength : (wire (before.map Prod.fst)).length = before.length := by simp [wire]
  rw [hlog, List.drop_left' hlength, List.map_flatMap]
  intro packet hpacket
  obtain ⟨r, hr, rfl⟩ := List.mem_map.mp hpacket
  obtain ⟨row', -, hr⟩ := List.mem_flatMap.mp hr
  rw [request_step, List.mem_cons, List.mem_singleton] at hr
  rw [goalIn_encode, goalIn_encode]
  rcases hr with rfl | rfl
  · exact .inl (Option.some_ne_none _)
  · exact .inr (Option.some_ne_none _)

/-! ## Wiggling -/

/-- The commands of `wiggleit` as the library's, when its read answers `p`. -/
theorem request_wiggle (hcast : IsCast toInt) (sdk : Sdk) {s : Bus} (hs : s.loaded = true) {id : Nat}
    {p : Int} (hlow : 0 ≤ p) (hhigh : p < 65536)
    (hread : ((sdk.dxlReadWord s.issued.length).toNat : Int) = p) :
    (s.commandsSince ((wiggleit sdk id).exec s).2).map (Command.request toInt) =
      [.readWord id 36, .writeWord id 30 (p + 600), .writeWord id 30 (p - 600),
        .writeWord id 30 p] := by
  have hup := hcast.int (z := p + 600) (by rw [abs_lt]; omega)
  have hdown := hcast.int (z := p - 600) (by rw [abs_lt]; omega)
  have hback := hcast.int (z := p) (by rw [abs_lt]; omega)
  push_cast at hup hdown
  have hword : ((sdk.dxlReadWord s.issued.length).toNat : ℚ) = (p : ℚ) := by
    rw [← hread]
    norm_cast
  rw [commandsSince_wiggleit sdk id hs]
  simp only [List.map_cons, List.map_nil, Command.request, hword, hup, hdown, hback]
  rfl

theorem report_write {n address value : Int} {a : Answer} {g g' : Dxl.Globals} {v : Option Int}
    (h : Request.report g (.writeWord n address value, a) = .ok (g', v)) : v = none := by
  obtain ⟨⟨v', m⟩, hcall, hm⟩ := Run.bind_ok.mp h
  obtain ⟨m', -, hm'⟩ := Run.bind_ok.mp hcall
  cases hm'
  cases hm
  rfl

/-- The values that a read and three writes return. -/
theorem values_wiggle {session : List (Request × Answer)} {g g' : Dxl.Globals}
    {values : List (Option Int)} {n a b c d : Int}
    (hsession : session.map Prod.fst =
      [.readWord n 36, .writeWord n 30 a, .writeWord n 30 b, .writeWord n 30 c])
    (hrun : Run.exec (fun _ => false) Request.report g session = .ok (g', values))
    (hhead : values.head? = some (some d)) : values = [some d, none, none, none] := by
  match session, hsession with
  | [(_, a₀), (_, a₁), (_, a₂), (_, a₃)], hsession =>
    simp only [List.map_cons, List.map_nil, List.cons.injEq, and_true] at hsession
    obtain ⟨rfl, rfl, rfl, rfl⟩ := hsession
    obtain ⟨m₀, v₀, vs₀, -, hrun₁, rfl⟩ := Run.exec_cons rfl hrun
    obtain ⟨m₁, v₁, vs₁, h₁, hrun₂, rfl⟩ := Run.exec_cons rfl hrun₁
    obtain ⟨m₂, v₂, vs₂, h₂, hrun₃, rfl⟩ := Run.exec_cons rfl hrun₂
    obtain ⟨m₃, v₃, vs₃, h₃, hrun₄, rfl⟩ := Run.exec_cons rfl hrun₃
    cases hrun₄
    obtain rfl : v₀ = some d := Option.some_inj.mp hhead
    rw [report_write h₁, report_write h₂, report_write h₃]

/-- `wiggleit`, when its read answers what the library returns: the packets are the read and three
goals, and the last of them is the position that was read. Before that, the goal is 600 below it mod
65536: a position below 600 becomes a goal of at least 64936. -/
theorem wiggle_on_wire (hcast : IsCast toInt) (sdk : Sdk) {s : Bus} (hs : s.loaded = true) (id : Nat)
    {before session : List (Request × Answer)} {g₀ g : Dxl.Globals} {values : List (Option Int)}
    (hsession : session.map Prod.fst =
      (s.commandsSince ((wiggleit sdk id).exec s).2).map (Command.request toInt))
    (hbefore : Sent before g₀)
    (hrun : Run.exec (fun _ => false) Request.report g₀ session = .ok (g, values))
    (hwhole : ∀ i ∈ session, ∃ k, i.2.tx.written = some k ∧ i.1.frame.encode.length ≤ k)
    (hread : values.head? = some (some ((sdk.dxlReadWord s.issued.length).toNat : Int))) :
    ∃ p : Int, values = [some p, none, none, none] ∧
      (g.sent.drop before.length).head? = some (Request.readWord id 36).frame.encode ∧
      (g.sent.drop before.length).map (goalIn (BitVec.ofInt 8 id)) =
        [none, some ((p + 600) % 65536), some ((p - 600) % 65536), some p] ∧
      (p < 600 → 64936 ≤ (p - 600) % 65536) := by
  have hlt := (sdk.dxlReadWord s.issued.length).toNat_lt
  obtain ⟨p, hp⟩ : ∃ p : Int, ((sdk.dxlReadWord s.issued.length).toNat : Int) = p := ⟨_, rfl⟩
  have hlow : 0 ≤ p := by omega
  have hhigh : p < 65536 := by omega
  have hcommands := hsession.trans (request_wiggle hcast sdk hs hlow hhigh hp)
  have hsent : Sent (before ++ session) g := by
    refine ⟨Run.run_append.mpr ⟨g₀, hbefore.run, Dxl.run_of_report hrun⟩, fun i hi => ?_⟩
    exact (List.mem_append.mp hi).elim (hbefore.whole i) (hwhole i)
  have hlog := sent_append hsent
  have hlength : (wire (before.map Prod.fst)).length = before.length := by simp [wire]
  rw [hcommands] at hlog
  rw [hp] at hread
  refine ⟨p, values_wiggle hcommands hrun hread, ?_, ?_, by omega⟩
  · rw [hlog, List.drop_left' hlength]
    rfl
  · -- a position that was read fits into a word; the one 600 below it may not
    have hmod : p % 65536 = p := Int.emod_eq_of_lt hlow hhigh
    rw [hlog, List.drop_left' hlength]
    simp only [wire, List.map_cons, List.map_nil, goalIn_encode, Request.goal,
      show BitVec.ofInt 8 30 = 30 from rfl, and_self, if_true, hmod]

end Wire

/-! ## Two runs -/

theorem isCast_matlabRound : IsCast matlabRound where
  near q _ := by
    have hpast : RoundAway.Past (matlabRound q - 1) q :=
      RoundAway.lt_round_iff.mp (by rw [← matlabRound_eq]; omega)
    have hnot : ¬ RoundAway.Past (matlabRound q) q := fun h =>
      absurd (RoundAway.lt_round_iff.mpr h) (by rw [← matlabRound_eq]; omega)
    have hlow := hpast.le
    have hhigh : q ≤ matlabRound q + 1 / 2 := not_lt.mp fun h => hnot (RoundAway.past_of_lt h)
    push_cast at hlow
    rw [abs_lt]
    constructor
    · linarith
    · linarith

theorem sent_nil : Sent [] .start := ⟨rfl, by simp⟩

open Dxl (plainAnswer plainSession)

theorem steps_on_wire_far : ∃ (g : Dxl.Globals) (base : Int),
    Sent (plainSession [.writeWord 2 30 0, .writeWord 3 30 1023]) g ∧ lastGoal 3 g.sent = some base ∧
      |goalAngle base - max 150 (-150)| < 300 / 1023 := by
  have h2 : matlabRound (goalOf 2 (-150)) = 0 := by decide +kernel
  have h3 : matlabRound (goalOf 3 150) = 1023 := by decide +kernel
  have hsession : (plainSession [.writeWord 2 30 0, .writeWord 3 30 1023]).map Prod.fst =
      (Bus.start.commandsSince ((moveDynamixelSteps ⟨fun _ _ _ => true, fun _ => 0⟩
        ([] ++ [(150, -150)])).exec Bus.start).2).map (Command.request matlabRound) := by
    rw [commandsSince_steps, List.nil_append, List.flatMap_singleton, request_step, h2, h3]
    rfl
  obtain ⟨g, hsent⟩ : ∃ g, Sent (plainSession [.writeWord 2 30 0, .writeWord 3 30 1023]) g :=
    Dxl.exists_sent (by decide)
  have hsent' : Sent ([] ++ plainSession [.writeWord 2 30 0, .writeWord 3 30 1023]) g := hsent
  obtain ⟨⟨arm, base, -, hbase, -, hangle⟩, -⟩ := steps_on_wire isCast_matlabRound
    ⟨fun _ _ _ => true, fun _ => 0⟩ Bus.start (by norm_num) (by norm_num) hsession hsent'
  exact ⟨g, base, hsent, hbase, hangle⟩

/-- The commands of `wiggleit` at position 100, with the answers. -/
def wiggleSession : List (Request × Answer) :=
  [(.readWord 2 36, plainAnswer (.readWord 2 36) 100 0),
    (.writeWord 2 30 700, plainAnswer (.writeWord 2 30 700) 0 0),
    (.writeWord 2 30 (-500), plainAnswer (.writeWord 2 30 (-500)) 0 0),
    (.writeWord 2 30 100, plainAnswer (.writeWord 2 30 100) 0 0)]

/-- At position 100, the servo is sent to 65036 on the way. -/
theorem wiggle_on_wire_low : ∃ g : Dxl.Globals,
    Run.exec (fun _ => false) Request.report .start wiggleSession =
        .ok (g, [some 100, none, none, none]) ∧
      g.sent.map (goalIn 2) = [none, some 700, some 65036, some 100] := by
  have hcommands : wiggleSession.map Prod.fst =
      (Bus.commandsSince ⟨true, true, 1, []⟩ ((wiggleit ⟨fun _ _ _ => true, fun _ => 100⟩ 2).exec
        ⟨true, true, 1, []⟩).2).map (Command.request matlabRound) :=
    (request_wiggle isCast_matlabRound ⟨fun _ _ _ => true, fun _ => 100⟩ rfl (by decide) (by decide)
      rfl).symm
  obtain ⟨g₁, h₁, hg₁⟩ := Dxl.report_plain (r := .readWord 2 36) Dxl.start_idle (by decide) 100 0
  obtain ⟨g₂, h₂, hg₂⟩ := Dxl.report_plain (r := .writeWord 2 30 700) hg₁ (by decide) 0 0
  obtain ⟨g₃, h₃, hg₃⟩ := Dxl.report_plain (r := .writeWord 2 30 (-500)) hg₂ (by decide) 0 0
  obtain ⟨g₄, h₄, -⟩ := Dxl.report_plain (r := .writeWord 2 30 100) hg₃ (by decide) 0 0
  have hrun : Run.exec (fun _ => false) Request.report .start wiggleSession =
      .ok (g₄, [some 100, none, none, none]) :=
    Run.exec_append (Run.exec_single h₁) (Run.exec_append (Run.exec_single h₂)
      (Run.exec_append (Run.exec_single h₃) (Run.exec_single h₄)))
  have hwhole : ∀ i ∈ wiggleSession, ∃ k, i.2.tx.written = some k ∧ i.1.frame.encode.length ≤ k := by
    simp only [wiggleSession, List.forall_mem_cons]
    exact ⟨(Dxl.delivered_plain _ _ _).whole, (Dxl.delivered_plain _ _ _).whole,
      (Dxl.delivered_plain _ _ _).whole, (Dxl.delivered_plain _ _ _).whole, by simp⟩
  obtain ⟨p, hvalues, -, hgoals, -⟩ := @wiggle_on_wire matlabRound isCast_matlabRound
    ⟨fun _ _ _ => true, fun _ => 100⟩ ⟨true, true, 1, []⟩ rfl 2 [] wiggleSession .start g₄ _ hcommands
    sent_nil hrun hwhole rfl
  obtain rfl : 100 = p := Option.some_inj.mp (List.cons.inj hvalues).1
  exact ⟨g₄, hrun, hgoals⟩

end DrinkRobot
