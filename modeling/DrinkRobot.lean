import DrinkRobot.Lib.Indexed
import DrinkRobot.Lib.Mean
import DrinkRobot.Lib.Rank
import DrinkRobot.Lib.RoundAway
import DrinkRobot.Lib.Run
import DrinkRobot.Lib.StableSort
import DrinkRobot.Lib.Sweep
import DrinkRobot.Metric
import DrinkRobot.Tracker.Invariant
import DrinkRobot.Tracker.Clock
import DrinkRobot.Tracker.Table
import DrinkRobot.Tracker.PerCall
import DrinkRobot.Controller.Serving
import DrinkRobot.Controller.Target
import DrinkRobot.Controller.Pixels
import DrinkRobot.Controller.Reach
import DrinkRobot.Fiducial.Matches
import DrinkRobot.Glass.Location
import DrinkRobot.Glass.Following
import DrinkRobot.Arm.Guards
import DrinkRobot.Arm.Goals
import DrinkRobot.Arm.Kinematics
import DrinkRobot.Arm.Wire
import DrinkRobot.Dxl.Servo
import DrinkRobot.Arm.Ikine
import DrinkRobot.Fiducial.Execute
import DrinkRobot.Controller.Delivery
