import DrinkRobot.Arm.Ikine
import DrinkRobot.Arm.Tip
import DrinkRobot.Controller.Reach

/-!
# From the order to the tip of the arm

`serve` is what `Prac3Main2.m` does with the arm over a run: it sets the torques, moves the arm out of
the way, opens the clamp, and then moves it for every event that has a target.

* `Event.arm`, `serve`: the scripts and commands that are called. `serve_exec`: none of them stops
  with an error, and which commands they issue.
* `holdsRow_serve`: whatever was sent before, the last goals on the wire are those of the last row of
  joint angles.
* `targets_of_run`: the targets of a run are the stations and the limited positions of cups.
* `Served`: a target that `GoToPos` solves. `tip_follows_run`: at the end of a run, the last goals on
  the wire take the tip to within 2 millimetres of the last target, if that is one.

A run can be cut after each pass through the `switch`, so this is where the arm is all the time.
-/

namespace DrinkRobot

open Session
open Dxl (Answer Request Sent plainSession)
open TwoLink (Robot away)

variable {κ : Type} {toInt : ℚ → Int}

/-! ## The arm over a run -/

/-- Where the arm is sent. -/
def Event.target : Event → Option XY
  | .collect _ condimentFlag => station condimentFlag
  | .drop _ currentCupXY => some currentCupXY
  | _ => none

/-- The calls in the `switch`; `rows` is `GoToPos`. -/
def Event.arm (sdk : Sdk) (rows : XY → List (ℚ × ℚ)) : Event → Arm Unit
  | .collect _ condimentFlag =>
    match station condimentFlag with
    | none => pure ()
    | some xy => moveDynamixelSteps sdk (rows xy)
  | .drop _ currentCupXY => do
    moveDynamixelSteps sdk (rows currentCupXY)
    dropit 4
  | _ => pure ()

/-- The calls of the script, with the loops that reported the events. -/
def serve (sdk : Sdk) (rows : XY → List (ℚ × ℚ)) (events : List Event) : Arm Unit := do
  setMotorTorques sdk
  moveDynamixelAngles sdk 2 0
  moveDynamixelAngles sdk 3 80
  dxlWriteWord 4 30 3000
  forM events (Event.arm sdk rows)

/-- The rows that an event sends. -/
def Event.rows (rows : XY → List (ℚ × ℚ)) (e : Event) : List (ℚ × ℚ) := e.target.elim [] rows

/-- The commands that an event issues after its rows. -/
def Event.releases : Event → List Command
  | .drop _ _ => dropCommands 4 ++ dropCommands 4
  | _ => []

/-- The commands that an event issues. -/
def Event.commands (rows : XY → List (ℚ × ℚ)) (e : Event) : List Command :=
  (e.rows rows).flatMap stepCommands ++ e.releases

@[simp] theorem Bus.issue_nil (s : Bus) : s.issue [] = s := by simp [Bus.issue]

theorem steps_exec_loaded (sdk : Sdk) {s : Bus} (h : s.loaded = true) (vector : List (ℚ × ℚ)) :
    (moveDynamixelSteps sdk vector).exec s = (.ok (), s.issue (vector.flatMap stepCommands)) := by
  rw [moveDynamixelSteps_exec, Bus.guarded_of_loaded h]
  split
  · rename_i hnil
    simp [hnil]
  · rfl

theorem arm_exec (sdk : Sdk) (rows : XY → List (ℚ × ℚ)) {s : Bus} (h : s.loaded = true) (e : Event) :
    (e.arm sdk rows).exec s = (.ok (), s.issue (e.commands rows)) := by
  have hnone := s.issue_nil
  cases e with
  | collect i condimentFlag =>
    cases hxy : station condimentFlag with
    | none =>
      simp only [Event.arm, Event.commands, Event.rows, Event.target, Event.releases, hxy]
      exact Prod.ext rfl hnone.symm
    | some xy =>
      simp only [Event.arm, Event.commands, Event.rows, Event.target, Event.releases, hxy,
        Option.elim_some, List.append_nil]
      exact steps_exec_loaded sdk h (rows xy)
  | drop i xy =>
    refine (run_bind_ok (steps_exec_loaded sdk h (rows xy))).trans ?_
    rw [dropit_exec (by simpa using h), Bus.issue_issue]
    rfl
  | start i cup => exact Prod.ext rfl hnone.symm
  | select i condimentFlag => exact Prod.ext rfl hnone.symm
  | find i selectedCupsXY => exact Prod.ext rfl hnone.symm
  | declare i cup => exact Prod.ext rfl hnone.symm

theorem arms_exec (sdk : Sdk) (rows : XY → List (ℚ × ℚ)) {s : Bus} (h : s.loaded = true)
    (events : List Event) : (forM events (Event.arm sdk rows) : Arm Unit).exec s =
      (.ok (), s.issue (events.flatMap (Event.commands rows))) := by
  induction events generalizing s with
  | nil => exact Prod.ext rfl (by rw [List.flatMap_nil, Bus.issue_nil]; rfl)
  | cons e events ih =>
    rw [List.forM_cons, run_bind_ok (arm_exec sdk rows h e), ih (by simpa using h), Bus.issue_issue]
    rfl

/-- The torques, then the arm out of the way, then the clamp. -/
def readyCommands : List Command :=
  [.dxlWriteWord 1 34 200, .dxlWriteWord 2 34 200, .dxlWriteWord 3 34 200,
    .dxlWriteWord 4 34 1023, .dxlWriteWord 2 32 128] ++ stepCommands (80, 0) ++
    [.dxlWriteWord 4 30 3000]

theorem serve_exec (sdk : Sdk) (rows : XY → List (ℚ × ℚ)) (events : List Event) (s : Bus) :
    (serve sdk rows events).exec s = (.ok (), (s.opened sdk 5).issue
      (readyCommands ++ events.flatMap (Event.commands rows))) := by
  have hloaded : ∀ cs, ((s.opened sdk 5).issue cs).loaded = true := fun cs => by simp
  unfold serve
  rw [run_bind_ok (setMotorTorques_exec sdk s), run_bind_ok (moveDynamixelAngles_exec sdk 2 0 _),
    Bus.guarded_of_loaded (hloaded _), Bus.issue_issue,
    run_bind_ok (moveDynamixelAngles_exec sdk 3 80 _), Bus.guarded_of_loaded (hloaded _),
    Bus.issue_issue, run_bind_ok (dxlWriteWord_exec (hloaded _) 4 30 3000), Bus.issue_issue,
    arms_exec sdk rows (hloaded _), Bus.issue_issue]
  rfl

theorem commandsSince_serve (sdk : Sdk) (rows : XY → List (ℚ × ℚ)) (events : List Event) (s : Bus) :
    s.commandsSince ((serve sdk rows events).exec s).2 =
      readyCommands ++ events.flatMap (Event.commands rows) := by
  rw [serve_exec]
  exact commandsSince_issue (show (s.opened sdk 5).issued = s.issued from rfl) _

/-! ## The goals over a run -/

/-- `dropit` only moves the clamp. -/
theorem drop_clamp {cmd : Command} (h : cmd ∈ dropCommands 4 ++ dropCommands 4) :
    ∃ value, cmd = .dxlWriteWord 4 30 value := by
  have h : cmd ∈ dropCommands 4 := (List.mem_append.mp h).elim id id
  simp only [dropCommands, List.mem_cons, List.not_mem_nil, or_false] at h
  rcases h with rfl | rfl | rfl | rfl <;> exact ⟨_, rfl⟩

theorem Event.releases_clamp (e : Event) {cmd : Command} (h : cmd ∈ e.releases) :
    ∃ value, cmd = .dxlWriteWord 4 30 value := by
  cases e with
  | drop i xy => exact drop_clamp h
  | _ => cases h

/-- Commands to the clamp write no goal of the base motor or the arm motor. -/
theorem elsewhere_clamp (toInt : ℚ → Int) {cs : List Command}
    (h : ∀ cmd ∈ cs, ∃ value, cmd = .dxlWriteWord 4 30 value) :
    Elsewhere (cs.map (Command.request toInt)) := by
  intro r hr
  obtain ⟨cmd, hcmd, rfl⟩ := List.mem_map.mp hr
  obtain ⟨value, rfl⟩ := h cmd hcmd
  exact ⟨rfl, rfl⟩

theorem holdsRow_events {sent : List (List Dxl.Byte)} {row : ℚ × ℚ} (h : HoldsRow toInt row sent)
    (rows : XY → List (ℚ × ℚ)) (events : List Event) :
    HoldsRow toInt ((events.flatMap (Event.rows rows)).getLast?.getD row)
      (sent ++ wire ((events.flatMap (Event.commands rows)).map (Command.request toInt))) := by
  induction events generalizing sent row with
  | nil => rwa [List.flatMap_nil, List.flatMap_nil, List.map_nil, wire, List.map_nil, List.append_nil]
  | cons e events ih =>
    have hrows := holdsRow_rows h (e.rows rows)
    have he := holdsRow_others hrows (elsewhere_clamp toInt fun _ => e.releases_clamp)
    rw [List.flatMap_cons, List.getLast?_append, Option.getD_or, List.flatMap_cons, List.map_append,
      wire_append, ← List.append_assoc, Event.commands, List.map_append, wire_append,
      ← List.append_assoc sent]
    exact ih he

/-- Whatever was sent before, the goals are those of the last row, and those of the row out of the way
when no event has sent one. -/
theorem holdsRow_serve (sent : List (List Dxl.Byte)) (sdk : Sdk) (rows : XY → List (ℚ × ℚ))
    (events : List Event) (s : Bus) :
    HoldsRow toInt ((events.flatMap (Event.rows rows)).getLast?.getD (80, 0))
      (sent ++ wire ((s.commandsSince ((serve sdk rows events).exec s).2).map
        (Command.request toInt))) := by
  have hclamp : Elsewhere (([.dxlWriteWord 4 30 3000] : List Command).map (Command.request toInt)) :=
    elsewhere_clamp toInt fun _ hcmd => ⟨3000, List.mem_singleton.mp hcmd⟩
  rw [commandsSince_serve, readyCommands, List.map_append, wire_append, List.map_append, wire_append,
    List.map_append, wire_append, ← List.append_assoc, ← List.append_assoc, ← List.append_assoc]
  exact holdsRow_events (holdsRow_others (holdsRow_step _ (80, 0)) hclamp) rows events

/-! ## The targets -/

/-- A target is a station, or the limits made it of what the tracker saw. -/
def Offered (xy : XY) : Prop := (∃ f, station f = some xy) ∨ ∃ seen, xy = limitXY seen

/-- The target of the controller is a limited one. -/
def Config.Limited (c : Config) : Prop := ∀ xy, c.currentCupXY = some xy → ∃ seen, xy = limitXY seen

theorem Pass.limited {P : Program} {inp : Input κ} {c c' : Config} {e : Event}
    (h : Pass P inp c c' e) (hc : c.Limited) : c'.Limited := by
  cases h with
  | find hs hfind hcup =>
    intro xy hxy
    change setTarget _ _ _ c.currentCupXY = some xy at hxy
    unfold setTarget at hxy
    split at hxy
    · exact ⟨_, (Option.some_inj.mp hxy).symm⟩
    · exact hc xy hxy
  | _ => exact hc

theorem Pass.target {P : Program} {inp : Input κ} {c c' : Config} {e : Event}
    (h : Pass P inp c c' e) (hc : c.Limited) {xy : XY} (hxy : e.target = some xy) : Offered xy := by
  cases h with
  | collect hs hflag => exact .inl ⟨_, hxy⟩
  | drop hs hcur hcup =>
    obtain rfl := Option.some_inj.mp hxy
    exact .inr (hc _ hcur)
  | start hs hcup => cases hxy
  | select hs hcup => cases hxy
  | find hs hfind hcup => cases hxy
  | declare hs hcup => cases hxy

theorem targets_of_run {P : Program} {nextId : Nat} {inputs : List (Input κ)} {c : Config}
    {events : List Event} (h : controller P nextId inputs = .ok (c, events)) {e : Event}
    (he : e ∈ events) {xy : XY} (hxy : e.target = some xy) : Offered xy := by
  obtain ⟨k, hk⟩ := List.mem_iff_getElem?.mp he
  obtain ⟨m, i, m', hbefore, -, -, hstep, -⟩ := Run.exec_at h hk
  have hm : m.Limited := by
    refine Run.exec_invariant (I := Config.Limited) ?_ ?_ hbefore
    · intro m i m' e hm _ hstep
      exact (step_pass hstep).limited hm
    · intro xy hxy
      cases hxy
  exact (step_pass hstep).target hm hxy

/-- At least a millimetre inside the annulus that the arm reaches. -/
structure Inside (x y : ℚ) : Prop where
  low : 3.1 ≤ away ((x : ℝ), (y : ℝ)) 0
  high : away ((x : ℝ), (y : ℝ)) 0 ≤ 26.9

theorem inside_of_sq {x y : ℚ} (hlow : 9.61 ≤ x ^ 2 + y ^ 2) (hhigh : x ^ 2 + y ^ 2 ≤ 723.61) :
    Inside x y := by
  have hsq := TwoLink.away_zero_sq ((x : ℝ), (y : ℝ))
  have hnonneg := TwoLink.away_nonneg ((x : ℝ), (y : ℝ)) 0
  have hlow' : ((9.61 : ℚ) : ℝ) ≤ ((x ^ 2 + y ^ 2 : ℚ) : ℝ) := Rat.cast_le.mpr hlow
  have hhigh' : ((x ^ 2 + y ^ 2 : ℚ) : ℝ) ≤ ((723.61 : ℚ) : ℝ) := Rat.cast_le.mpr hhigh
  push_cast at hlow' hhigh'
  constructor
  · refine (sq_le_sq₀ (by norm_num) hnonneg).mp ?_
    rw [hsq]
    norm_num at hlow' ⊢
    exact hlow'
  · refine (sq_le_sq₀ hnonneg (by norm_num)).mp ?_
    rw [hsq]
    norm_num at hhigh' ⊢
    exact hhigh'

theorem station_inside {f : CondimentFlag} {xy : XY} (h : station f = some xy) :
    ∃ x y, xy = ⟨some x, some y⟩ ∧ Inside x y := by
  cases f with
  | noCondiment => cases h
  | coffee =>
    cases h
    exact ⟨18, 15, rfl, inside_of_sq (by norm_num) (by norm_num)⟩
  | tea =>
    cases h
    exact ⟨-16, 8, rfl, inside_of_sq (by norm_num) (by norm_num)⟩
  | sugar =>
    cases h
    exact ⟨-16, 14, rfl, inside_of_sq (by norm_num) (by norm_num)⟩

/-! ## The tip over a run -/

/-- The row of doubles is that of the loop, where the servos can turn as far. -/
def Rounds (row : ℚ × ℚ) (r : (ℝ × ℝ) × Bool) : Prop :=
  |row.1| ≤ 150 → |row.2| ≤ 150 → NearRow row (toDegrees r.1)

/-- `rows` is `GoToPos` in doubles. -/
def Rounded (ar : Arithmetic) (rows : XY → List (ℚ × ℚ)) : Prop :=
  ∀ x y : ℚ, List.Forall₂ Rounds (rows ⟨some x, some y⟩) (GoToPos.p1 ar (x, y))

/-- The loop for a pose ended before its limit, and its last round was computed to within a
millionth. -/
structure Settled (ar : Arithmetic) (T : ℝ × ℝ) (row : (ℝ × ℝ) × Bool) : Prop where
  ended : row.2 = false
  computed : ∃ q, ar.nm T q ≤ 1e-6 ∧ row.1 = ar.next T q ∧ ar.Within GoToPos.bot T q 1e-6 1e-6

/-- A target that `GoToPos` solves, with angles that the servos can turn to. -/
structure Served (ar : Arithmetic) (rows : XY → List (ℚ × ℚ)) (x y : ℚ) : Prop where
  inside : Inside x y
  settled : ∀ r, (GoToPos.p1 ar (x, y)).getLast? = some r → Settled ar (y, x) r
  range : ∀ row, (rows ⟨some x, some y⟩).getLast? = some row → |row.1| ≤ 150 ∧ |row.2| ≤ 150

/-- `GoToPos` returns two rows. -/
theorem rows_eq {ar : Arithmetic} {rows : XY → List (ℚ × ℚ)} (hrows : Rounded ar rows) (x y : ℚ) :
    ∃ row₁ row₂ r₁ r₂, rows ⟨some x, some y⟩ = [row₁, row₂] ∧ GoToPos.p1 ar (x, y) = [r₁, r₂] ∧
      Rounds row₂ r₂ := by
  obtain ⟨r₁, r₂, hp1, -⟩ := goToPos_p1 ar (x, y)
  have hnear := hrows x y
  rw [hp1] at hnear
  generalize rows ⟨some x, some y⟩ = r at hnear ⊢
  cases hnear with
  | cons _ hnear =>
    cases hnear with
    | cons hlast hnil =>
      cases hnil
      exact ⟨_, _, r₁, r₂, rfl, hp1, hlast⟩

/-- When the last goals are those of the last row for a target that is solved, the tip is within 2
millimetres of it. -/
theorem tip_at_target (hcast : IsCast toInt) {ar : Arithmetic} {rows : XY → List (ℚ × ℚ)}
    (hrows : Rounded ar rows) {x y : ℚ} (h : Served ar rows x y) {sent : List (List Dxl.Byte)}
    {row : ℚ × ℚ} (hrow : (rows ⟨some x, some y⟩).getLast? = some row)
    (hheld : HoldsRow toInt row sent) : TipWithin 0.2 (y, x) sent := by
  obtain ⟨row₁, row₂, r₁, r₂, hrows₂, hp1, hnear⟩ := rows_eq hrows x y
  obtain ⟨hbase, harm⟩ := h.range row hrow
  obtain ⟨q, hpass, hq, hwithin⟩ := (h.settled r₂ (by rw [hp1]; rfl)).computed
  rw [hrows₂] at hrow
  obtain rfl : row₂ = row := Option.some_inj.mp hrow
  have hswap := away_swap ((x : ℝ), (y : ℝ))
  have hround := tip_after_round hwithin hpass (by norm_num) (hswap ▸ h.inside.low)
    (hswap ▸ h.inside.high)
  rw [← hq, TwoLink.away_comm] at hround
  exact ((tip_near hcast hheld hbase harm (hnear hbase harm)).trans hround).mono (by norm_num)

theorem flatMap_rows (rows : XY → List (ℚ × ℚ)) (events : List Event) :
    events.flatMap (Event.rows rows) = (events.filterMap Event.target).flatMap rows := by
  induction events with
  | nil => rfl
  | cons e events ih =>
    rw [List.flatMap_cons, ih, List.filterMap_cons]
    unfold Event.rows
    cases e.target with
    | none => rfl
    | some xy => rfl

/-- Over every run of the script, whatever the servos answer: at its end the last goals on the wire
are out of the way if the arm had no target. Otherwise its last target was a station, all of which
are well inside, or the limited position of a cup, and if it is one that `GoToPos` solves, the last goals take
the tip to within 2 millimetres of it. -/
theorem tip_follows_run (hcast : IsCast toInt) {ar : Arithmetic} {rows : XY → List (ℚ × ℚ)}
    (hrows : Rounded ar rows) {order : List ℚ} {xyzPoints : PointCloud} {warmUp : Nat → Frame κ}
    {inputs : List (Input κ)} {c : Config} {events : List Event}
    (hrun : prac3Main2 order xyzPoints warmUp inputs = .ok (c, events)) (sdk : Sdk) (s : Bus)
    {before session : List (Request × Answer)} (hsession : session.map Prod.fst =
      (s.commandsSince ((serve sdk rows events).exec s).2).map (Command.request toInt))
    {g : Dxl.Globals} (hsent : Sent (before ++ session) g) :
    (events.filterMap Event.target = [] →
      ∃ base arm, lastGoal 3 g.sent = some base ∧ lastGoal 2 g.sent = some arm ∧
        |goalAngle base - 80| < 300 / 1023 ∧ |goalAngle arm| < 300 / 1023) ∧
    ∀ xy, (events.filterMap Event.target).getLast? = some xy →
      ((∃ f, station f = some xy) ∧ (∃ x y, xy = ⟨some x, some y⟩ ∧ Inside x y) ∨
        ∃ seen, xy = limitXY seen) ∧
      ∀ x y : ℚ, xy = ⟨some x, some y⟩ → Served ar rows x y → TipWithin 0.2 (y, x) g.sent := by
  have hlog := sent_append hsent
  have hholds : HoldsRow toInt _ _ :=
    holdsRow_serve (wire (before.map Prod.fst)) sdk rows events s
  rw [← hsession, ← hlog, flatMap_rows] at hholds
  constructor
  · intro hnone
    rw [hnone] at hholds
    have hangles := hholds.angles hcast (by norm_num) (by norm_num)
    simpa using hangles
  · intro xy hlast
    constructor
    · obtain ⟨e, he, hxy⟩ := List.mem_filterMap.mp (List.mem_of_getLast? hlast)
      obtain ⟨P, -, hrun⟩ := Run.bind_ok.mp hrun
      obtain ⟨nextId, -, hctl⟩ := Run.bind_ok.mp hrun
      rcases targets_of_run hctl he hxy with ⟨f, hf⟩ | hseen
      · exact .inl ⟨⟨f, hf⟩, station_inside hf⟩
      · exact .inr hseen
    · rintro x y rfl hserved
      obtain ⟨ts, hts⟩ := List.getLast?_eq_some_iff.mp hlast
      obtain ⟨row₁, row₂, -, -, hrow, -⟩ := rows_eq hrows x y
      have hlastRow : (rows ⟨some x, some y⟩).getLast? = some row₂ := by rw [hrow]; rfl
      rw [hts, List.flatMap_append, List.flatMap_singleton, List.getLast?_append, hlastRow,
        Option.some_or, Option.getD_some] at hholds
      exact tip_at_target hcast hrows hserved hlastRow hholds

/-! ## A coffee -/

theorem exists_nearRows (qs : List (ℝ × ℝ)) : ∃ rows, List.Forall₂ NearRow rows qs := by
  induction qs with
  | nil => exact ⟨[], .nil⟩
  | cons q qs ih =>
    obtain ⟨rows, hrows⟩ := ih
    obtain ⟨base, hbase⟩ := exists_rat_near q.1 (by norm_num : (0 : ℝ) < 1 / 2000)
    obtain ⟨arm, harm⟩ := exists_rat_near q.2 (by norm_num : (0 : ℝ) < 1 / 2000)
    rw [abs_sub_comm] at hbase harm
    exact ⟨(base, arm) :: rows, .cons ⟨hbase.le, harm.le⟩ hrows⟩

/-- A solver that is there after a round. -/
noncomputable def jump : Arithmetic where
  nm T q := away T (GoToPos.bot.fkine q)
  next T _ := GoToPos.bot.solve true T

/-- In reach, its loop ends. -/
theorem solveIn_jump {T : ℝ × ℝ} (hT : GoToPos.bot.InAnnulus T) (n : Nat) (q : ℝ × ℝ) :
    SerialLink.solveIn jump T (n + 2) q = (GoToPos.bot.solve true T, false) := by
  have hthere : jump.nm T (GoToPos.bot.solve true T) ≤ 1e-6 := by
    show away T (GoToPos.bot.fkine (GoToPos.bot.solve true T)) ≤ 1e-6
    rw [Robot.fkine_solve true hT]
    norm_num [away]
  rw [SerialLink.solveIn]
  split
  · rfl
  · rw [SerialLink.solveIn]
    exact if_pos hthere

theorem jump_within {T : ℝ × ℝ} (hT : GoToPos.bot.InAnnulus T) :
    jump.Within GoToPos.bot T (GoToPos.bot.solve true T) 1e-6 1e-6 where
  nm := by
    show |away T _ - away T _| ≤ 1e-6
    rw [sub_self, abs_zero]
    norm_num
  next := by
    have hstep : SerialLink.step GoToPos.bot T (GoToPos.bot.solve true T) =
        GoToPos.bot.solve true T := by
      unfold SerialLink.step
      rw [Robot.fkine_solve true hT, sub_self]
      simp [TwoLink.act]
    refine ⟨0, 0, ?_, ?_⟩
    · rw [hstep]
      norm_num [jump]
    · rw [hstep]
      norm_num [jump]

/-- The rows of `jump`, rounded. -/
theorem exists_rows : ∃ rows : XY → List (ℚ × ℚ), Rounded jump rows ∧ ∀ x y : ℚ,
    List.Forall₂ NearRow (rows ⟨some x, some y⟩)
      ((GoToPos.p1 jump (x, y)).map fun r => toDegrees r.1) := by
  choose rows hrows using exists_nearRows
  refine ⟨fun xy => rows ((GoToPos.p1 jump (xy.x.getD 0, xy.y.getD 0)).map fun r => toDegrees r.1),
    fun x y => ?_, fun x y => hrows _⟩
  exact (List.forall₂_map_right_iff.mp (hrows _)).imp fun _ _ h _ _ => h

theorem ikineIn_jump (T : ℝ × ℝ) {T' : ℝ × ℝ} (hT' : GoToPos.bot.InAnnulus T') (q : ℝ × ℝ) :
    ∃ r, SerialLink.ikineIn jump [T, T'] q = [r, (GoToPos.bot.solve true T', false)] := by
  refine ⟨SerialLink.solveIn jump T 1000 q, ?_⟩
  simp only [SerialLink.ikineIn, List.cons.injEq, and_true, true_and]
  exact solveIn_jump hT' 998 _

theorem p1_jump {A : ℝ × ℝ} (hA : GoToPos.bot.InAnnulus (A.2, A.1)) :
    ∃ r, GoToPos.p1 jump A = [r, (GoToPos.bot.solve true (A.2, A.1), false)] := ikineIn_jump _ hA _

theorem write_ids {id : Nat} (hid : id ∈ [1, 2, 3, 4]) (address : Nat) (value : ℚ) :
    (Command.request toInt (.dxlWriteWord id address value)).frame.id ∈
      [(1 : Dxl.Byte), 2, 3, 4] := by
  show BitVec.ofInt 8 (id : Int) ∈ _
  simp only [List.mem_cons, List.not_mem_nil, or_false] at hid
  rcases hid with rfl | rfl | rfl | rfl <;> decide

theorem steps_ids {rows : List (ℚ × ℚ)} {cmd : Command} (h : cmd ∈ rows.flatMap stepCommands) :
    (cmd.request toInt).frame.id ∈ [(1 : Dxl.Byte), 2, 3, 4] := by
  obtain ⟨row, -, h⟩ := List.mem_flatMap.mp h
  simp only [stepCommands, List.mem_cons, List.not_mem_nil, or_false] at h
  rcases h with rfl | rfl
  · exact write_ids (by decide) _ _
  · exact write_ids (by decide) _ _

/-- The commands of the script are for the four servos. -/
theorem serve_ids (sdk : Sdk) (rows : XY → List (ℚ × ℚ)) (events : List Event) (s : Bus)
    {r : Request} (hr : r ∈ (s.commandsSince ((serve sdk rows events).exec s).2).map
      (Command.request toInt)) : r.frame.id ∈ [(1 : Dxl.Byte), 2, 3, 4] := by
  obtain ⟨cmd, hcmd, rfl⟩ := List.mem_map.mp hr
  rw [commandsSince_serve, List.mem_append, List.mem_flatMap] at hcmd
  rcases hcmd with hcmd | ⟨e, -, hcmd⟩
  · simp only [readyCommands, stepCommands, List.cons_append, List.nil_append, List.mem_cons,
      List.not_mem_nil, or_false] at hcmd
    rcases hcmd with rfl | rfl | rfl | rfl | rfl | rfl | rfl | rfl <;>
      exact write_ids (by decide) _ _
  · rcases List.mem_append.mp hcmd with hcmd | hcmd
    · exact steps_ids hcmd
    · obtain ⟨value, rfl⟩ := e.releases_clamp hcmd
      exact write_ids (by decide) 30 value

/-- With the elbow up, a position in front of the arm and outside the first circle needs no more than
90 degrees of either joint. -/
theorem solve_le {p : ℝ × ℝ} (h₁ : 0 ≤ p.1) (h₂ : 0 ≤ p.2)
    (h : GoToPos.bot.l₁ ^ 2 + GoToPos.bot.l₂ ^ 2 ≤ p.1 ^ 2 + p.2 ^ 2) :
    |(GoToPos.bot.solve true p).1| ≤ Real.pi / 2 ∧ |(GoToPos.bot.solve true p).2| ≤ Real.pi / 2 := by
  have hl₁ := GoToPos.bot.l₁_pos
  have hl₂ := GoToPos.bot.l₂_pos
  have hnonneg : 0 ≤ GoToPos.bot.elbow p := Real.arccos_nonneg _
  have helbow : GoToPos.bot.elbow p ≤ Real.pi / 2 := by
    refine Real.arccos_le_pi_div_two.mpr (div_nonneg (by linarith) ?_)
    positivity
  -- the base angle is between those of the tip and of the bent arm, both in the first quadrant
  have hturn : ∀ z : ℂ, 0 ≤ z.re → 0 ≤ z.im → 0 ≤ z.arg ∧ z.arg ≤ Real.pi / 2 := by
    intro z hre him
    exact ⟨Complex.arg_nonneg_iff.mpr him, (abs_le.mp (Complex.abs_arg_le_pi_div_two_iff.mpr hre)).2⟩
  have hp := hturn ⟨p.1, p.2⟩ h₁ h₂
  have hbent := hturn (GoToPos.bot.bent (GoToPos.bot.elbow p))
    (add_nonneg hl₁.le (mul_nonneg hl₂.le (Real.cos_nonneg_of_mem_Icc ⟨by linarith, helbow⟩)))
    (mul_nonneg hl₂.le (Real.sin_nonneg_of_nonneg_of_le_pi hnonneg (by linarith [Real.pi_pos])))
  constructor
  · show |(⟨p.1, p.2⟩ : ℂ).arg - (GoToPos.bot.bent (GoToPos.bot.elbow p)).arg| ≤ _
    rw [abs_le]
    constructor <;> linarith
  · show |GoToPos.bot.elbow p| ≤ _
    rw [abs_of_nonneg hnonneg]
    exact helbow

theorem nearRow_le {row : ℚ × ℚ} {q : ℝ × ℝ} (h : NearRow row (toDegrees q))
    (h₁ : |q.1| ≤ Real.pi / 2) (h₂ : |q.2| ≤ Real.pi / 2) : |row.1| ≤ 150 ∧ |row.2| ≤ 150 := by
  have hangle : ∀ {angle : ℚ} {turn : ℝ}, |(angle : ℝ) - turn * (180 / Real.pi)| ≤ 1 / 2000 →
      |turn| ≤ Real.pi / 2 → |angle| ≤ 150 := by
    intro angle turn hnear hturn
    have hpi := Real.pi_pos
    have hdegrees : |turn * (180 / Real.pi)| ≤ 90 := by
      rw [abs_mul, abs_of_pos (show 0 < 180 / Real.pi by positivity)]
      calc |turn| * (180 / Real.pi) ≤ Real.pi / 2 * (180 / Real.pi) :=
            mul_le_mul_of_nonneg_right hturn (by positivity)
        _ = 90 := by
            field_simp
            norm_num
    have hreal : |(angle : ℝ)| ≤ 150 := by
      rw [abs_le] at hnear hdegrees ⊢
      constructor <;> linarith [hnear.1, hnear.2, hdegrees.1, hdegrees.2]
    have hcast : ((|angle| : ℚ) : ℝ) ≤ ((150 : ℚ) : ℝ) := by
      push_cast
      exact hreal
    exact Rat.cast_le.mp hcast
  exact ⟨hangle h.1 h₁, hangle h.2 h₂⟩

/-- The coffee is solved. -/
theorem coffee_served {rows : XY → List (ℚ × ℚ)} (hrows : ∀ x y : ℚ, List.Forall₂ NearRow
    (rows ⟨some x, some y⟩) ((GoToPos.p1 jump (x, y)).map fun r => toDegrees r.1)) :
    Served jump rows 18 15 := by
  have hannulus : GoToPos.bot.InAnnulus (15, 18) := by norm_num [Robot.InAnnulus, GoToPos.bot]
  obtain ⟨r, hp1⟩ := p1_jump (A := (((18 : ℚ) : ℝ), ((15 : ℚ) : ℝ))) (by push_cast; exact hannulus)
  refine ⟨inside_of_sq (by norm_num) (by norm_num), ?_, ?_⟩
  · intro r' hr'
    rw [hp1] at hr'
    obtain rfl := Option.some_inj.mp hr'
    push_cast
    refine ⟨rfl, GoToPos.bot.solve true (15, 18), ?_, rfl, jump_within hannulus⟩
    show away _ _ ≤ _
    rw [Robot.fkine_solve true hannulus]
    norm_num [away]
  · obtain ⟨h₁, h₂⟩ : _ ∧ _ := solve_le (show (0 : ℝ) ≤ (15, 18).1 by norm_num)
      (show (0 : ℝ) ≤ ((15 : ℝ), (18 : ℝ)).2 by norm_num) (by norm_num [GoToPos.bot])
    have hnear := hrows 18 15
    rw [hp1] at hnear
    intro row hrow
    generalize rows ⟨some 18, some 15⟩ = rs at hnear hrow
    cases hnear with
    | cons _ hnear =>
      cases hnear with
      | cons hlast hnil =>
        cases hnil
        obtain rfl := Option.some_inj.mp hrow
        exact nearRow_le hlast h₁ h₂

/-- The run for an order of a coffee and a tea, up to the coffee. -/
theorem tip_follows_run_coffee : ∃ (rows : XY → List (ℚ × ℚ)) (rs : List Request) (g : Dxl.Globals),
    Rounded jump rows ∧ Sent (plainSession rs) g ∧ TipWithin 0.2 (15, 18) g.sent := by
  obtain ⟨rows, hrows, hnear⟩ := exists_rows
  obtain ⟨⟨c, events⟩, hrun⟩ := Run.exists_ok
    (x := prac3Main2 [2, 1, 1, 0, 0, 0, 1, 2, 0, 1, 0, 0, 0] flatCloud
      (fun _ => stillFrame [⟨100, 100, 20⟩]) (List.replicate 3 ⟨stillFrame [], fun _ => true⟩))
    (by decide +kernel)
  have htargets : (prac3Main2 [2, 1, 1, 0, 0, 0, 1, 2, 0, 1, 0, 0, 0] flatCloud
      (fun _ => stillFrame [⟨100, 100, 20⟩])
      (List.replicate 3 ⟨stillFrame [], fun _ => true⟩)).toOption.map
        (fun p => p.2.filterMap Event.target) = some [xyCof] := by decide +kernel
  rw [hrun] at htargets
  have htargets : events.filterMap Event.target = [xyCof] := Option.some_inj.mp htargets
  obtain ⟨rs, hrs⟩ : ∃ rs, rs = (Bus.start.commandsSince ((serve ⟨fun _ _ _ => true, fun _ => 0⟩ rows
    events).exec Bus.start).2).map (Command.request matlabRound) := ⟨_, rfl⟩
  obtain ⟨g, hsent⟩ : ∃ g, Sent (plainSession rs) g := Dxl.exists_sent fun r hr => by
    have hid := serve_ids ⟨fun _ _ _ => true, fun _ => 0⟩ rows events Bus.start (hrs ▸ hr)
    exact fun heq => absurd (heq ▸ hid) (by decide)
  have hsent' : Sent ([] ++ plainSession rs) g := hsent
  obtain ⟨-, htip⟩ := tip_follows_run isCast_matlabRound hrows hrun ⟨fun _ _ _ => true, fun _ => 0⟩
    Bus.start ((Dxl.map_plainSession rs).trans hrs) hsent'
  have haway := (htip xyCof (by rw [htargets]; rfl)).2 18 15 rfl (coffee_served hnear)
  push_cast at haway
  exact ⟨rows, rs, g, hrows, hsent, haway⟩

end DrinkRobot
