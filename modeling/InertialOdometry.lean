import InertialOdometry.Main
import InertialOdometry.Proofs.Odometry.Course
import InertialOdometry.Proofs.Odometry.Frame
import InertialOdometry.Proofs.Odometry.Advance
import InertialOdometry.Proofs.Odometry.Trajectory
import InertialOdometry.Proofs.Odometry.DeltaLag
import InertialOdometry.Proofs.Odometry.FusionDecision
import InertialOdometry.Proofs.Odometry.Failures
import InertialOdometry.Proofs.Odometry.Readiness
import InertialOdometry.Proofs.Odometry.Lifecycle
import InertialOdometry.Proofs.Odometry.RegistrationChain
import InertialOdometry.Proofs.Odometry.FailedCycle
import InertialOdometry.Proofs.Odometry.Noninterference
import InertialOdometry.Proofs.Exact.Matrix
import InertialOdometry.Proofs.Exact.Transform
import InertialOdometry.Proofs.Exact.SingularValues
import InertialOdometry.Proofs.Odometry.Increments
import InertialOdometry.Proofs.Odometry.InitialPose
import InertialOdometry.Proofs.Odometry.Orientation
import InertialOdometry.Proofs.Exact.Decomposition
import InertialOdometry.Proofs.Report.Exports
import InertialOdometry.Proofs.Report.Drift
import InertialOdometry.Proofs.Exact.Quaternion
import InertialOdometry.Proofs.Exact.Angles
import InertialOdometry.Proofs.Odometry.PerfectData
import InertialOdometry.Proofs.Inertial.Nearest
import InertialOdometry.Proofs.Odometry.Isolation
import InertialOdometry.Proofs.Odometry.Received
import InertialOdometry.Proofs.Odometry.Refit
import InertialOdometry.Proofs.Odometry.Interleaving
import InertialOdometry.Proofs.Odometry.Chronology
import InertialOdometry.Proofs.Recording.Merge
import InertialOdometry.Proofs.Recording.ScanOrder
import InertialOdometry.Proofs.Recording.Lead
import InertialOdometry.Proofs.Recording.Replay
import InertialOdometry.Proofs.Scalar.Order
import InertialOdometry.Proofs.Odometry.Success
import InertialOdometry.Proofs.Recording.Stream
import InertialOdometry.Proofs.Recording.ResultCount
import InertialOdometry.Proofs.Odometry.ArrivalOrder
import InertialOdometry.Proofs.Config.Sections
import InertialOdometry.Proofs.Config.Calibration
import InertialOdometry.Proofs.Config.Acceptance
import InertialOdometry.Proofs.Fusion.Heading
import InertialOdometry.Proofs.Config.Refusals
import InertialOdometry.Proofs.Config.RoundTrip
import InertialOdometry.Proofs.Config.Rules
import InertialOdometry.Proofs.Exact.Embedding
import InertialOdometry.Proofs.Odometry.Startup
import InertialOdometry.Proofs.Exact.Homogeneous
import InertialOdometry.Proofs.Exact.NearestRotation
import InertialOdometry.Proofs.Scalar.Sign
import InertialOdometry.Proofs.Inertial.NearestGap
import InertialOdometry.Proofs.Odometry.SampleChoice
import InertialOdometry.Proofs.Odometry.Telescope
import InertialOdometry.Proofs.Inertial.SampleBuffer
import InertialOdometry.Proofs.Report.ReadBack
import InertialOdometry.Proofs.Exact.RotationAngle
import InertialOdometry.Proofs.Odometry.MotionGuard
import InertialOdometry.Proofs.Reading
import InertialOdometry.Proofs.Recording.ScanNames
import InertialOdometry.Proofs.Recording.ScanList
