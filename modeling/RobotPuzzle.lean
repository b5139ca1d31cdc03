import RobotPuzzle.CommandLine.Basic
import RobotPuzzle.CommandLine.Command
import RobotPuzzle.CommandLine.Files
import RobotPuzzle.CommandLine.Grammar
import RobotPuzzle.Decimal.Double
import RobotPuzzle.Decimal.Notation
import RobotPuzzle.Decimal.Shortest
import RobotPuzzle.Evaluation.Result
import RobotPuzzle.Evaluation.Run
import RobotPuzzle.Evaluation.Score
import RobotPuzzle.Evaluation.Trace
import RobotPuzzle.Events.Bus
import RobotPuzzle.Events.Queue
import RobotPuzzle.Ferry
import RobotPuzzle.Grid
import RobotPuzzle.Json.Basic
import RobotPuzzle.Json.Lenient
import RobotPuzzle.Json.Reader
import RobotPuzzle.Json.Shown
import RobotPuzzle.Json.Writer
import RobotPuzzle.Level.Basic
import RobotPuzzle.Level.Catalogue
import RobotPuzzle.Level.Reader
import RobotPuzzle.Machine
import RobotPuzzle.Main
import RobotPuzzle.Movement
import RobotPuzzle.Numeral
import RobotPuzzle.Outcome
import RobotPuzzle.Program.Basic
import RobotPuzzle.Program.Reader
import RobotPuzzle.Program.Writer
import RobotPuzzle.Progress.Disk
import RobotPuzzle.Progress.Store
import RobotPuzzle.Proofs.Appraisal
import RobotPuzzle.Proofs.BestTried
import RobotPuzzle.Proofs.Board
import RobotPuzzle.Proofs.Calls
import RobotPuzzle.Proofs.Course
import RobotPuzzle.Proofs.EarlyStop
import RobotPuzzle.Proofs.Fleet
import RobotPuzzle.Proofs.Footing
import RobotPuzzle.Proofs.Idle
import RobotPuzzle.Proofs.Levels
import RobotPuzzle.Proofs.Occupancy
import RobotPuzzle.Proofs.Reach
import RobotPuzzle.Proofs.Trials
import RobotPuzzle.Proofs.Verdict
import RobotPuzzle.Proofs.Workers
import RobotPuzzle.Random.Dice
import RobotPuzzle.Random.Twister
import RobotPuzzle.Replay
import RobotPuzzle.Robot
import RobotPuzzle.Search.Basic
import RobotPuzzle.Search.Beam
import RobotPuzzle.Search.Host
import RobotPuzzle.Search.Ledger
import RobotPuzzle.Search.Options
import RobotPuzzle.Search.Plan
import RobotPuzzle.Search.Walk
import RobotPuzzle.Sensor
import RobotPuzzle.Service.Basic
import RobotPuzzle.Service.Request
import RobotPuzzle.Service.Route
import RobotPuzzle.Settings.Basic
import RobotPuzzle.Settings.EnvFile
import RobotPuzzle.Simulation.Start
import RobotPuzzle.Simulation.State
import RobotPuzzle.Simulation.Tick
import RobotPuzzle.Simulation.View
import RobotPuzzle.Text.Blank
import RobotPuzzle.Text.Digit
import RobotPuzzle.Text.FilePath
import RobotPuzzle.Text.Lines
import RobotPuzzle.Text.Printable
import RobotPuzzle.Text.Quoted
import RobotPuzzle.Text.Ranges
import RobotPuzzle.Text.Upper
import RobotPuzzle.Proofs.Finished
import RobotPuzzle.Proofs.Grammar
import RobotPuzzle.Proofs.WideBeam
import RobotPuzzle.Proofs.Tidy
import RobotPuzzle.Proofs.Format
import RobotPuzzle.Proofs.Restored
import RobotPuzzle.Proofs.Terrain
import RobotPuzzle.Proofs.Faultless
import RobotPuzzle.Proofs.Bystanders
import RobotPuzzle.Proofs.Deliveries
import RobotPuzzle.Proofs.Effort
import RobotPuzzle.Proofs.Turns
import RobotPuzzle.Proofs.Convoy
import RobotPuzzle.Proofs.Scenes
import RobotPuzzle.Proofs.Announcements
import RobotPuzzle.Proofs.Limits
import RobotPuzzle.Proofs.Rechecks
import RobotPuzzle.Proofs.Schedule
import RobotPuzzle.Proofs.Waiting
import RobotPuzzle.Proofs.Outlook
import RobotPuzzle.Proofs.Report
import RobotPuzzle.Proofs.Allowance
import RobotPuzzle.Proofs.Sequel
import RobotPuzzle.Proofs.Causes
import RobotPuzzle.Proofs.Passage
import RobotPuzzle.Proofs.Sightings
import RobotPuzzle.Proofs.Presses
import RobotPuzzle.Proofs.Circuit
import RobotPuzzle.Proofs.Budgets
import RobotPuzzle.Proofs.LayerCount
import RobotPuzzle.Proofs.Trail
import RobotPuzzle.Proofs.Tags
import RobotPuzzle.Proofs.Backlog
import RobotPuzzle.Proofs.Heard
import RobotPuzzle.Proofs.Stops
import RobotPuzzle.Proofs.Listing
import RobotPuzzle.Proofs.Saved
import RobotPuzzle.Proofs.Retries
import RobotPuzzle.Proofs.Overlaps
import RobotPuzzle.Proofs.Exchange
import RobotPuzzle.Proofs.Stacks
