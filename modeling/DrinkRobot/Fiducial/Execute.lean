import DrinkRobot.Controller.Delivery
import DrinkRobot.Fiducial.Descriptors

/-!
# From the markers to the tip of the arm

`fiducial_execute.m` looks for the sugar, the tea and the coffee marker, and moves the arm to the
sugar, the coffee and the tea.

* `markerPositions`: where the markers are, in centimetres. `fiducialExecute_error`: when one cannot
  be computed, no command is sent.
* `markers_visited`: otherwise, the last goals on the wire take the tip to within 2 millimetres of each
  of the positions in its turn, and leave it at the last while the clamp opens.
-/

namespace DrinkRobot

open Session
open Dxl (Answer Request Sent plainSession)

variable {ρ α δ : Type} [Zero α] {toInt : ℚ → Int}

/-- The position of a marker, or a fixed place when it was not found. -/
def markerXY (xyzPoints : PointCloud) (fallback : XY) (p : Double × Double) :
    Except MatlabError XY := do
  let xyMarker ← fiducialXY xyzPoints fallback p.1 p.2
  OneBased.get .badIndex xyMarker 1

/-- The pictures of the markers. -/
structure MarkerPictures (ρ : Type) where
  sugar : Image ρ
  tea : Image ρ
  coffee : Image ρ

/-- The positions of the sugar, the tea and the coffee. -/
def markerPositions (tb : SiftToolbox ρ α δ) (markers : MarkerPictures ρ) (image : Image ρ)
    (xyzPoints : PointCloud) : Except MatlabError (XY × XY × XY) := do
  let sug ← findCoasters tb markers.sugar image
  let tea ← findCoasters tb markers.tea image
  let cof ← findCoasters tb markers.coffee image
  let xySug ← markerXY xyzPoints ⟨some 10, some 8⟩ sug
  let xyTea ← markerXY xyzPoints ⟨some 0, some 15⟩ tea
  let xyCof ← markerXY xyzPoints ⟨some (-10), some 8⟩ cof
  return (xySug, xyTea, xyCof)

/-- The script from the searches on; `rows` is `GoToPos`. -/
def fiducialExecute (tb : SiftToolbox ρ α δ) (markers : MarkerPictures ρ) (image : Image ρ)
    (xyzPoints : PointCloud) (sdk : Sdk) (rows : XY → List (ℚ × ℚ)) : Arm Unit := do
  let (xySug, xyTea, xyCof) ←
    MonadExcept.ofExcept (markerPositions tb markers image xyzPoints)
  moveDynamixelSteps sdk (rows xySug)
  moveDynamixelSteps sdk (rows xyCof)
  moveDynamixelSteps sdk (rows xyTea)
  dropit 4

section Run

variable {tb : SiftToolbox ρ α δ} {markers : MarkerPictures ρ} {image : Image ρ}
  {xyzPoints : PointCloud} {rows : XY → List (ℚ × ℚ)}

/-- Without the positions, the arm is not moved. -/
theorem fiducialExecute_error {e : MatlabError}
    (h : markerPositions tb markers image xyzPoints = .error e) (sdk : Sdk) (s : Bus) :
    (fiducialExecute tb markers image xyzPoints sdk rows).exec s = (.error e, s) :=
  run_ofExcept_error h s

theorem fiducialExecute_exec {xySug xyTea xyCof : XY}
    (h : markerPositions tb markers image xyzPoints = .ok (xySug, xyTea, xyCof))
    (hne : rows xySug ≠ []) (sdk : Sdk) (s : Bus) :
    (fiducialExecute tb markers image xyzPoints sdk rows).exec s =
      (.ok (), (s.guarded sdk 5).issue ((rows xySug).flatMap stepCommands ++
        (rows xyCof).flatMap stepCommands ++ (rows xyTea).flatMap stepCommands ++
          (dropCommands 4 ++ dropCommands 4))) := by
  have hloaded : ∀ cs, ((s.guarded sdk 5).issue cs).loaded = true := fun cs => by simp
  have hfirst := moveDynamixelSteps_exec sdk (rows xySug) s
  rw [if_neg hne] at hfirst
  unfold fiducialExecute
  rw [run_ofExcept_ok h]
  simp only
  rw [run_bind_ok hfirst, run_bind_ok (steps_exec_loaded sdk (hloaded _) (rows xyCof)),
    Bus.issue_issue, run_bind_ok (steps_exec_loaded sdk (hloaded _) (rows xyTea)), Bus.issue_issue,
    dropit_exec (hloaded _), Bus.issue_issue]

end Run

theorem rows_length {ar : Arithmetic} {rows : XY → List (ℚ × ℚ)} (hrows : Rounded ar rows) (x y : ℚ) :
    (rows ⟨some x, some y⟩).length = 2 := by
  obtain ⟨row₁, row₂, -, -, hrow, -⟩ := rows_eq hrows x y
  rw [hrow]
  rfl

/-- The tip arrives when the commands end with those for a position, and others that do not move the
arm. -/
theorem arrives_of_commands (hcast : IsCast toInt) {ar : Arithmetic} {rows : XY → List (ℚ × ℚ)}
    (hrows : Rounded ar rows) {x y : ℚ} (h : Served ar rows x y) (sent : List (List Dxl.Byte))
    (before : List Command) {after : List Command}
    (hafter : Elsewhere (after.map (Command.request toInt))) :
    TipWithin 0.2 (y, x) (sent ++ wire ((before ++ (rows ⟨some x, some y⟩).flatMap stepCommands ++
      after).map (Command.request toInt))) := by
  obtain ⟨row₁, row₂, -, -, hrow, -⟩ := rows_eq hrows x y
  have hlast : (rows ⟨some x, some y⟩).getLast? = some row₂ := by rw [hrow]; rfl
  refine tip_at_target hcast hrows h hlast ?_
  rw [List.map_append, wire_append, List.map_append, wire_append, ← List.append_assoc,
    ← List.append_assoc]
  exact holdsRow_others (holdsRow_last _ hlast) hafter

/-- Whatever the servos answer: the script does not stop with an error, and for each position that
`GoToPos` solves, the last goals take the tip there: to the sugar after four commands, to the coffee
after four more and to the tea after four more, where it stays. -/
theorem markers_visited (hcast : IsCast toInt) {ar : Arithmetic} {rows : XY → List (ℚ × ℚ)}
    (hrows : Rounded ar rows) {tb : SiftToolbox ρ α δ} {markers : MarkerPictures ρ} {image : Image ρ}
    {xyzPoints : PointCloud} {x₁ y₁ x₂ y₂ x₃ y₃ : ℚ}
    (hpos : markerPositions tb markers image xyzPoints =
      .ok (⟨some x₁, some y₁⟩, ⟨some x₂, some y₂⟩, ⟨some x₃, some y₃⟩))
    (sdk : Sdk) (s : Bus) :
    ((fiducialExecute tb markers image xyzPoints sdk rows).exec s).1 = .ok () ∧
    ∀ (before session : List (Request × Answer)) (g : Dxl.Globals), Sent (before ++ session) g →
      session.map Prod.fst <+: (s.commandsSince ((fiducialExecute tb markers image xyzPoints sdk
        rows).exec s).2).map (Command.request toInt) →
      (session.length = 4 → Served ar rows x₁ y₁ → TipWithin 0.2 (y₁, x₁) g.sent) ∧
      (session.length = 8 → Served ar rows x₃ y₃ → TipWithin 0.2 (y₃, x₃) g.sent) ∧
      (12 ≤ session.length → Served ar rows x₂ y₂ → TipWithin 0.2 (y₂, x₂) g.sent) := by
  have hlength : ∀ x y, ((rows ⟨some x, some y⟩).flatMap stepCommands).length = 4 := by
    intro x y
    rw [length_steps, rows_length hrows]
  have hne : rows ⟨some x₁, some y₁⟩ ≠ [] :=
    List.ne_nil_of_length_eq_add_one (rows_length hrows x₁ y₁)
  have hexec := fiducialExecute_exec hpos hne sdk s
  refine ⟨by rw [hexec], fun before session g hsent hsession => ?_⟩
  rw [hexec, commandsSince_issue (Bus.issued_guarded sdk 5 s)] at hsession
  have hlog := sent_append hsent
  rw [List.prefix_iff_eq_take.mp hsession, ← List.map_take, List.length_map] at hlog
  have hnone : Elsewhere (([] : List Command).map (Command.request toInt)) := by simp [Elsewhere]
  refine ⟨fun hm hserved => ?_, fun hm hserved => ?_, fun hm hserved => ?_⟩
  · have harrives := arrives_of_commands hcast hrows hserved (wire (before.map Prod.fst)) [] hnone
    rw [List.nil_append, List.append_nil] at harrives
    rwa [hlog, hm, List.append_assoc, List.append_assoc, List.take_left' (hlength x₁ y₁)]
  · have harrives := arrives_of_commands hcast hrows hserved (wire (before.map Prod.fst))
      ((rows ⟨some x₁, some y₁⟩).flatMap stepCommands) hnone
    rw [List.append_nil] at harrives
    rwa [hlog, hm, List.append_assoc,
      List.take_left' (by rw [List.length_append, hlength, hlength])]
  · -- what follows the twelfth command works the clamp
    obtain ⟨n, hn⟩ := Nat.exists_eq_add_of_le hm
    have hclamp : Elsewhere (((dropCommands 4 ++ dropCommands 4).take n).map
        (Command.request toInt)) :=
      elsewhere_clamp toInt fun _ hcmd => drop_clamp (List.mem_of_mem_take hcmd)
    have harrives := arrives_of_commands hcast hrows hserved (wire (before.map Prod.fst))
      ((rows ⟨some x₁, some y₁⟩).flatMap stepCommands ++
        (rows ⟨some x₃, some y₃⟩).flatMap stepCommands) hclamp
    generalize hfront : (rows ⟨some x₁, some y₁⟩).flatMap stepCommands ++
      (rows ⟨some x₃, some y₃⟩).flatMap stepCommands ++
      (rows ⟨some x₂, some y₂⟩).flatMap stepCommands = front at hlog harrives
    have hfrontLength : front.length = 12 := by
      rw [← hfront, List.length_append, List.length_append, hlength, hlength, hlength]
    rwa [hlog, hn, ← hfrontLength, List.take_length_add_append]

/-! ## A marker at the coffee -/

/-- A cloud whose every point is at the place of the coffee. -/
def coffeeCloud : PointCloud := ⟨480, 640, fun _ _ => some 0.077, fun _ _ => some (-0.095)⟩

/-- One feature in every picture that has a pixel. -/
def cornerToolbox : SiftToolbox ℚ ℚ SiftDescriptor :=
  siftToolbox id id id (atCorner [.replicate 128 0]) (atCorner_inside _)

/-- The marker of the tea is found, the others are not. -/
theorem markerPositions_corner :
    markerPositions cornerToolbox ⟨blank 0 0, blank 3 4, blank 0 0⟩ (blank 5 6) coffeeCloud =
      .ok (⟨some 10, some 8⟩, ⟨some 18, some 15⟩, ⟨some (-10), some 8⟩) := by
  decide +kernel

theorem markers_visited_coffee : ∃ (rows : XY → List (ℚ × ℚ)) (rs : List Request) (g : Dxl.Globals),
    Rounded jump rows ∧ Sent (plainSession rs) g ∧ TipWithin 0.2 (15, 18) g.sent := by
  obtain ⟨rows, hrows, hnear⟩ := exists_rows
  have hne : rows ⟨some 10, some 8⟩ ≠ [] := List.ne_nil_of_length_eq_add_one (rows_length hrows 10 8)
  have hexec := fiducialExecute_exec markerPositions_corner hne ⟨fun _ _ _ => true, fun _ => 0⟩
    Bus.start
  obtain ⟨rs, hrs⟩ : ∃ rs, rs = (Bus.start.commandsSince ((fiducialExecute cornerToolbox
    ⟨blank 0 0, blank 3 4, blank 0 0⟩ (blank 5 6) coffeeCloud ⟨fun _ _ _ => true, fun _ => 0⟩
      rows).exec Bus.start).2).map (Command.request matlabRound) := ⟨_, rfl⟩
  have hcommands := hrs
  rw [hexec, commandsSince_issue (Bus.issued_guarded _ 5 Bus.start)] at hcommands
  obtain ⟨g, hsent⟩ : ∃ g, Sent (plainSession rs) g := Dxl.exists_sent fun r hr => by
    rw [hcommands] at hr
    obtain ⟨cmd, hcmd, rfl⟩ := List.mem_map.mp hr
    rw [List.mem_append, List.mem_append, List.mem_append] at hcmd
    have hid : (cmd.request matlabRound).frame.id ∈ [(1 : Dxl.Byte), 2, 3, 4] := by
      rcases hcmd with ((hcmd | hcmd) | hcmd) | hcmd
      · exact steps_ids hcmd
      · exact steps_ids hcmd
      · exact steps_ids hcmd
      · obtain ⟨value, rfl⟩ := drop_clamp hcmd
        exact write_ids (by decide) 30 value
    exact fun heq => absurd (heq ▸ hid) (by decide)
  obtain ⟨-, -, htea⟩ := (markers_visited isCast_matlabRound hrows markerPositions_corner
    ⟨fun _ _ _ => true, fun _ => 0⟩ Bus.start).2 [] (plainSession rs) g hsent
    ⟨[], (List.append_nil _).trans ((Dxl.map_plainSession rs).trans hrs)⟩
  refine ⟨rows, rs, g, hrows, hsent, ?_⟩
  have haway := htea (by
    rw [plainSession, List.length_map, hcommands, List.length_map, List.length_append,
      List.length_append, List.length_append, length_steps, length_steps, length_steps,
      rows_length hrows, rows_length hrows, rows_length hrows]
    omega) (coffee_served hnear)
  push_cast at haway
  exact haway

end DrinkRobot
