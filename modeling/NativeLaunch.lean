import NativeLaunch.Adapter
import NativeLaunch.CommandLine
import NativeLaunch.Main
import NativeLaunch.Proofs.Worker.Cancellation
import NativeLaunch.Proofs.Worker.NativeActivity
import NativeLaunch.Proofs.Worker.OutcomeFinality
import NativeLaunch.Proofs.Worker.StartOnce
import NativeLaunch.Proofs.Worker.StillRunning
import NativeLaunch.Proofs.Worker.Settlement
import NativeLaunch.Proofs.Worker.Waits
import NativeLaunch.Proofs.Worker.WakeUps
import NativeLaunch.Proofs.Adapter.Calls
import NativeLaunch.Proofs.Adapter.Interleaving
import NativeLaunch.Proofs.Adapter.WorkerSchedule
import NativeLaunch.Proofs.Adapter.SingleLaunch
import NativeLaunch.Proofs.Adapter.StopsHeeded
import NativeLaunch.Proofs.Adapter.Alone
import NativeLaunch.Proofs.Adapter.Inits
import NativeLaunch.Proofs.Adapter.DataDirectory
import NativeLaunch.Proofs.Adapter.Histories
import NativeLaunch.Proofs.Adapter.Retries
import NativeLaunch.Proofs.Worker.LoneRun
import NativeLaunch.Proofs.Adapter.ExactReports
import NativeLaunch.Proofs.FileTree.Placing
import NativeLaunch.Proofs.Launch.Extraction
import NativeLaunch.Proofs.Launch.Pipeline
import NativeLaunch.Proofs.Registry.Entries
import NativeLaunch.Proofs.Registry.Calls
import NativeLaunch.Proofs.Registry.Interleaving
import NativeLaunch.Proofs.Registry.Accounts
import NativeLaunch.Proofs.Registry.Releases
import NativeLaunch.Proofs.Adapter.Bundled
import NativeLaunch.Proofs.Adapter.Leftovers
import NativeLaunch.Proofs.Text.Utf8
import NativeLaunch.Proofs.Path.Segments
import NativeLaunch.Proofs.FileTree.Walking
import NativeLaunch.Proofs.FileTree.Spelling
import NativeLaunch.Proofs.Launch.Failures
import NativeLaunch.Proofs.CommandLine.Runs
import NativeLaunch.Proofs.CommandLine.Listing
import NativeLaunch.Proofs.Launch.Cleanup
import NativeLaunch.Proofs.Processor.Effects
import NativeLaunch.Proofs.CommandLine.Endings
import NativeLaunch.Proofs.CommandLine.Spelling
import NativeLaunch.Proofs.Launch.Arguments
import NativeLaunch.Proofs.Launch.Marshalling
import NativeLaunch.Proofs.CommandLine.Launching
import NativeLaunch.Proofs.Yaml.Print
import NativeLaunch.Proofs.Yaml.Flow
import NativeLaunch.Proofs.Yaml.Block
import NativeLaunch.Proofs.Yaml.Reader
import NativeLaunch.Proofs.Yaml.Mapping
import NativeLaunch.Proofs.Settings.RoundTrip
import NativeLaunch.Proofs.Launch.Copying
import NativeLaunch.Proofs.Launch.ExactCopies
import NativeLaunch.Proofs.Launch.Clearance
import NativeLaunch.Proofs.Launch.Ownership
import NativeLaunch.Proofs.Adapter.Shutdowns
import NativeLaunch.Proofs.Path.Texts
import NativeLaunch.Proofs.Bundle.Containment
import NativeLaunch.Proofs.Adapter.Carried
import NativeLaunch.Proofs.Launch.ConfigFile
import NativeLaunch.Proofs.Text.Blank
import NativeLaunch.Proofs.Platform.Resolution
import NativeLaunch.Proofs.Platform.Spelling
import NativeLaunch.Proofs.Bundle.Listing
import NativeLaunch.Proofs.Settings.Fields
import NativeLaunch.Proofs.Settings.Completion
import NativeLaunch.Proofs.FileTree.Crossing
import NativeLaunch.Proofs.Launch.ReleaseOrder
