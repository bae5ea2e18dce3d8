import CameraScript.Main
import CameraScript.Files.Tree
import CameraScript.Proofs.PatchEffects
import CameraScript.Proofs.WalkStages
import CameraScript.Proofs.PatchAccounting
import CameraScript.Proofs.OpcodeSpans
import CameraScript.Proofs.WalkTermination
import CameraScript.Proofs.WalkReplay
import CameraScript.Proofs.SettledFrames
import CameraScript.Proofs.InstructionBoundaries
import CameraScript.Proofs.WaitDoubling
import CameraScript.Proofs.FrameDoubling
import CameraScript.Proofs.ListedInstructions
import CameraScript.Proofs.ListingAlignment
import CameraScript.Proofs.ListingDoubling
import CameraScript.Proofs.SlotHistory
import CameraScript.Proofs.UntracedWalks
import CameraScript.Proofs.CallContract
import CameraScript.Proofs.OnlineFrames
import CameraScript.Proofs.WalkFrame
import CameraScript.Proofs.MirroredWalks
import CameraScript.Proofs.DisjointScripts
import CameraScript.Proofs.OverflowReports
import CameraScript.Proofs.SlotCompensation
import CameraScript.Proofs.HaltReasons
import CameraScript.Proofs.RepeatedWalks
import CameraScript.Proofs.WalkLogs
import CameraScript.Proofs.TracedSessions
import CameraScript.Proofs.WrittenNumbers
import CameraScript.Proofs.JsonTokens
import CameraScript.Proofs.JsonText
import CameraScript.Proofs.JsonRecords
import CameraScript.Proofs.WrittenForms
import CameraScript.Proofs.PartialSettings
import CameraScript.Proofs.RelocatedScripts
import CameraScript.Proofs.TruncatedScripts
import CameraScript.Proofs.StepLimits
import CameraScript.Proofs.ListingTiling
import CameraScript.Proofs.ScriptTables
import CameraScript.Proofs.WaitFrames
import CameraScript.Proofs.ScriptFaults
import CameraScript.Proofs.CustomTables
import CameraScript.Proofs.NumberGrammar
import CameraScript.Proofs.WalkTraces
import CameraScript.Proofs.TraceLists
import CameraScript.Proofs.RegionAccess
