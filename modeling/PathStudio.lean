import PathStudio.Decimal.Binary
import PathStudio.Decimal.Fixed
import PathStudio.Decimal.Numeral
import PathStudio.Decimal.Shortest
import PathStudio.Fault
import PathStudio.Editor.Basic
import PathStudio.Editor.Frame
import PathStudio.Editor.Input
import PathStudio.Editor.Keyboard
import PathStudio.Editor.Mouse
import PathStudio.Editor.Script
import PathStudio.Geometry.Point
import PathStudio.Geometry.Bezier
import PathStudio.Geometry.Polyline
import PathStudio.Geometry.Tuple
import PathStudio.Json
import PathStudio.Json.Parser
import PathStudio.Json.Printer
import PathStudio.Json.Reading
import PathStudio.Json.Shown
import PathStudio.Json.Writable
import PathStudio.Main
import PathStudio.Program.Amount
import PathStudio.Program.Decode
import PathStudio.Program.Draft
import PathStudio.Program.Encode
import PathStudio.Program.Field.Print
import PathStudio.Program.Field.Read
import PathStudio.Program.Lexeme
import PathStudio.Program.Robot.Print
import PathStudio.Program.Robot.Read
import PathStudio.Proofs.Change
import PathStudio.Proofs.Editor.Asking
import PathStudio.Proofs.Editor.Bracketing
import PathStudio.Proofs.Editor.Frame
import PathStudio.Proofs.Editor.Mouse
import PathStudio.Proofs.Editor.RunMessages
import PathStudio.Proofs.Editor.Soundness
import PathStudio.Proofs.Editor.Totality
import PathStudio.Proofs.Geometry.Angle
import PathStudio.Proofs.Geometry.Arrival
import PathStudio.Proofs.Geometry.Bend
import PathStudio.Proofs.Geometry.Curve
import PathStudio.Proofs.Geometry.Magnitude
import PathStudio.Proofs.Geometry.NormalForm
import PathStudio.Proofs.Geometry.Polar
import PathStudio.Proofs.Geometry.Polyline
import PathStudio.Proofs.Geometry.Translation
import PathStudio.Proofs.Json.Locality
import PathStudio.Proofs.Json.RoundTrip
import PathStudio.Proofs.Json.Writable
import PathStudio.Proofs.Json.Written
import PathStudio.Proofs.Outcome
import PathStudio.Proofs.Program.Adoption
import PathStudio.Proofs.Program.Amount
import PathStudio.Proofs.Program.Call
import PathStudio.Proofs.Program.Calls
import PathStudio.Proofs.Program.Draft
import PathStudio.Proofs.Program.Entry
import PathStudio.Proofs.Program.Field.Calls
import PathStudio.Proofs.Program.Field.Comments
import PathStudio.Proofs.Program.Field.Exact
import PathStudio.Proofs.Program.Field.Markers
import PathStudio.Proofs.Program.Field.Order
import PathStudio.Proofs.Program.Field.Poses
import PathStudio.Proofs.Program.Field.Reprint
import PathStudio.Proofs.Program.Field.RoundTrip
import PathStudio.Proofs.Program.Field.Slots
import PathStudio.Proofs.Program.FixedPoint
import PathStudio.Proofs.Program.Recognition
import PathStudio.Proofs.Program.Refusal
import PathStudio.Proofs.Program.Registry
import PathStudio.Proofs.Program.Renumbering
import PathStudio.Proofs.Program.Robot.AddedAction
import PathStudio.Proofs.Program.Robot.Agreement
import PathStudio.Proofs.Program.Robot.Arc
import PathStudio.Proofs.Program.Robot.Arrival
import PathStudio.Proofs.Program.Robot.BareCall
import PathStudio.Proofs.Program.Robot.Calls
import PathStudio.Proofs.Program.Robot.Command
import PathStudio.Proofs.Program.Robot.Double
import PathStudio.Proofs.Program.Robot.Heading
import PathStudio.Proofs.Program.Robot.Joining
import PathStudio.Proofs.Program.Robot.Recode
import PathStudio.Proofs.Program.Robot.Retrace
import PathStudio.Proofs.Program.Robot.RoundTrip
import PathStudio.Proofs.Program.Robot.Settling
import PathStudio.Proofs.Program.Robot.Spacing
import PathStudio.Proofs.Program.Robot.Stroke
import PathStudio.Proofs.Program.Robot.Trail
import PathStudio.Proofs.Program.Robot.Translation
import PathStudio.Proofs.Program.Spelling
import PathStudio.Proofs.Program.Tabulation
import PathStudio.Proofs.Program.Totality
import PathStudio.Proofs.Scalar.Approach
import PathStudio.Proofs.Scalar.Bits
import PathStudio.Proofs.Scalar.Bounded
import PathStudio.Proofs.Scalar.Comparison
import PathStudio.Proofs.Scalar.Direction
import PathStudio.Proofs.Scalar.Double
import PathStudio.Proofs.Scalar.Exactness
import PathStudio.Proofs.Scalar.Hypotenuse
import PathStudio.Proofs.Scalar.Order
import PathStudio.Proofs.Scalar.Real
import PathStudio.Proofs.Scalar.Rounding
import PathStudio.Proofs.Scalar.Signs
import PathStudio.Proofs.Session.Dragging
import PathStudio.Proofs.Session.Operation
import PathStudio.Proofs.Session.Registry
import PathStudio.Proofs.Session.Rejection
import PathStudio.Proofs.Session.Saving
import PathStudio.Proofs.Session.Selection
import PathStudio.Proofs.Session.Steps
import PathStudio.Proofs.Session.Stored
import PathStudio.Proofs.Session.Totality
import PathStudio.Proofs.Session.Undo
import PathStudio.Proofs.Settings.Basic
import PathStudio.Proofs.Settings.File
import PathStudio.Proofs.Settings.Option
import PathStudio.Proofs.Settings.Overwriting
import PathStudio.Proofs.Settings.Reached
import PathStudio.Proofs.Settings.Reload
import PathStudio.Proofs.Settings.Stepping
import PathStudio.Proofs.Simulation.Actions
import PathStudio.Proofs.Simulation.Course
import PathStudio.Proofs.Simulation.Double
import PathStudio.Proofs.Simulation.Exact
import PathStudio.Proofs.Simulation.Lasting
import PathStudio.Proofs.Simulation.Magnitude
import PathStudio.Proofs.Simulation.Passage
import PathStudio.Proofs.Simulation.Plan
import PathStudio.Proofs.Simulation.Protocol
import PathStudio.Proofs.Simulation.Run
import PathStudio.Proofs.Simulation.Safety
import PathStudio.Proofs.Simulation.Stage
import PathStudio.Proofs.Simulation.Timetable
import PathStudio.Proofs.Simulation.Totality
import PathStudio.Proofs.Simulation.Turning
import PathStudio.Proofs.Simulation.Visits
import PathStudio.Proofs.Simulation.Walk
import PathStudio.Proofs.Storage.Asking
import PathStudio.Proofs.Storage.Desk
import PathStudio.Proofs.Storage.Folder
import PathStudio.Proofs.Storage.Refusal
import PathStudio.Proofs.Storage.Rewriting
import PathStudio.Proofs.Storage.Routine
import PathStudio.Proofs.Text.Digits
import PathStudio.Proofs.Text.Insertion
import PathStudio.Proofs.Text.Scanning
import PathStudio.Proofs.Window.Gesture
import PathStudio.Proofs.Window.Grip
import PathStudio.Proofs.Window.Picking
import PathStudio.Proofs.Window.Totality
import PathStudio.Scalar
import PathStudio.Scalar.Double
import PathStudio.SelfCheck
import PathStudio.Session.Arguments
import PathStudio.Session.Basic
import PathStudio.Session.Edit
import PathStudio.Session.Index
import PathStudio.Session.Operand
import PathStudio.Session.Stored
import PathStudio.Session.Waypoint
import PathStudio.Settings.Basic
import PathStudio.Settings.File
import PathStudio.Settings.Option
import PathStudio.Simulation.Given
import PathStudio.Simulation.Plan
import PathStudio.Simulation.Runner
import PathStudio.Simulation.Speeds
import PathStudio.Simulation.Step
import PathStudio.Storage.Desk
import PathStudio.Storage.Document
import PathStudio.Storage.Folder
import PathStudio.Text.Character
import PathStudio.Text.Digit
import PathStudio.Text.Line
import PathStudio.Text.Quoted
import PathStudio.Text.Scan
import PathStudio.Text.Surrogate
import PathStudio.Text.Utf8
import PathStudio.Window.Aim
import PathStudio.Window.Canvas
import PathStudio.Window.Drawing
import PathStudio.Window.Gesture
import PathStudio.Window.Palette
import PathStudio.Window.Picking
import PathStudio.Window.Viewport
