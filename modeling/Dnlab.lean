import Dnlab.Gui.WebuiService.Accounted
import Dnlab.Gui.WebuiService
import Dnlab.Services.FollowRabbit.Lifecycle
import Dnlab.Services.FollowRabbit
import Dnlab.Gui.CaptureService.Quotas
import Dnlab.Gui.CaptureService
import Dnlab.Gui.MultinodeService.RelayedOnce
import Dnlab.Gui.MultinodeService
import Dnlab.Gui.EventsBus
import Dnlab.Lib.Machine
import Dnlab.Services.RuntimeLinks.Waiting
import Dnlab.Services.Realnet.Fabric
import Dnlab.Services.Realnet
import Dnlab.Controllers.Deploy.WebuiPorts
import Dnlab.Services.WebuiPorts
import Dnlab.Lib.Pool
import Dnlab.Services.Persistence.Offline
import Dnlab.Services.Persistence.Retry
import Dnlab.Services.Persistence.Overlays
import Dnlab.Services.Persistence
import Dnlab.Relay.Registry
import Dnlab.Relay.Registry.Exclusion
import Dnlab.Relay.Console.Replay
import Dnlab.Relay.Console
import Dnlab.Services.FlowReconstruct.Determinism
import Dnlab.Services.FlowReconstruct.Rounds
import Dnlab.Services.FlowReconstruct.Symmetry
import Dnlab.Services.FlowReconstruct.Legs
import Dnlab.Services.FlowReconstruct.Orientation
import Dnlab.Services.FlowReconstruct.Layers
import Dnlab.Services.FlowReconstruct
import Dnlab.Relay.Tenancy
import Dnlab.Lib.Doubled
import Dnlab.Services.RuntimeRelay
import Dnlab.Relay
import Dnlab.Services.PcapParse.Layout
import Dnlab.Api.Cancel
import Dnlab.Api.Add
import Dnlab.Api.Start
import Dnlab.Api
import Dnlab.Services.Remote.Frame
import Dnlab.Services.Netsetup.Isolation
import Dnlab.Services.Netsetup
import Dnlab.Services.PcapParse.Chunks
import Dnlab.Services.PcapParse
import Dnlab.Lib.Stream
import Dnlab.Controllers.Deploy.Addresses
import Dnlab.Controllers.Node.Addresses
import Dnlab.Services.Config.Disjoint
import Dnlab.Services.Config.Mgmt
import Dnlab.Lib.Ip6
import Dnlab.Services.Config.Sticky
import Dnlab.Services.Config.Addresses
import Dnlab.Services.Config.Ledger
import Dnlab.Services.Config
import Dnlab.Services.MgmtIps
import Dnlab.Lib.Ip
import Dnlab.Controllers.Deploy.Bookkeeping
import Dnlab.Services.Scheduler.Stability
import Dnlab.Services.Scheduler.Soundness
import Dnlab.Services.Scheduler.Assignment
import Dnlab.Controllers.Deploy.Frame
import Dnlab.Controllers.Deploy
import Dnlab.Controllers.Node.Bookkeeping
import Dnlab.Controllers.Node.Frame
import Dnlab.Controllers.Node
import Dnlab.Controllers.World
import Dnlab.Services.LabCleanup.Safety
import Dnlab.Services.LabCleanup
import Dnlab.Services.RuntimeLinks.Commands
import Dnlab.Services.Remote.Log
import Dnlab.Services.RuntimeLinks.Isolation
import Dnlab.Utils.Naming.Parts
import Dnlab.Services.Scheduler.Links
import Dnlab.Services.Generator.Agreement
import Dnlab.Services.Generator.Names
import Dnlab.Services.Generator
import Dnlab.Services.Scheduler
import Dnlab.Services.RuntimeLinks.Build
import Dnlab.Lib.Except
import Dnlab.Services.RuntimeLinks.Merge
import Dnlab.Services.RuntimeLinks
import Dnlab.Services.WarmLinks
import Dnlab.Services.Remote
import Dnlab.Lib.Prog
import Dnlab.Lib.Search
import Dnlab.Models.Schedule
import Dnlab.Models.State
import Dnlab.Models.Topology
import Dnlab.Utils.Ids
import Dnlab.Utils.Naming
import Dnlab.Lib.Walk
import Dnlab.Services.FlowReconstruct.Soundness
import Dnlab.Relay.Console.Grace
import Dnlab.Gui.EventsBus.Replay
import Dnlab.Lib.Value
import Dnlab.Scripts.Changes.Fragment
import Dnlab.Scripts.Changes.Manifest
import Dnlab.Scripts.Changes
import Dnlab.Lib.Parts
import Dnlab.Services.LabCleanup.MicroName
import Dnlab.Lib.IpAny
import Dnlab.Gui.RealnetBgp
import Dnlab.Gui.RealnetBgp.Allocation
import Dnlab.Gui.RealnetBgp.Lan
import Dnlab.Lib.Glob
import Dnlab.Services.ImageSync
import Dnlab.Lib.Compensation
import Dnlab.Services.RuntimeLinks.Network
import Dnlab.Services.RuntimeLinks.Progress
import Dnlab.Services.RuntimeLinks.Rollback
import Dnlab.Lib.Numeral
import Dnlab.Services.Persistence.History
import Dnlab.Controllers.Node.Placement
import Dnlab.Lib.Json
import Dnlab.Lib.Record
import Dnlab.Models.StateFile
import Dnlab.Models.StateFile.RoundTrip
import Dnlab.Gui.DeviceCatalog
import Dnlab.Gui.DevicesParser
import Dnlab.Gui.DevicesParser.Survival
import Dnlab.Lib.Traversal
import Dnlab.Services.FlowReconstruct.Candidates
import Dnlab.Utils.Naming.Unique
import Dnlab.Services.FlowReconstruct.Weights
import Dnlab.Services.Hostsfile
import Dnlab.Services.Hostsfile.Merge
import Dnlab.ImageBuild.Logs
import Dnlab.ImageBuild.Logs.Complete
import Dnlab.ImageBuild.Uploads
import Dnlab.ImageBuild.Uploads.Lifetime
import Dnlab.ImageBuild.Patches
import Dnlab.ImageBuild.Patches.AllOrNothing
import Dnlab.Services.Config.Links
import Dnlab.Services.Scheduler.Ends
import Dnlab.Services.Generator.Ports
import Dnlab.Services.Generator.Complete
import Dnlab.Services.Generator.Renders
import Dnlab.Controllers.Node.HotAdd
import Dnlab.Gui.DrawioService
import Dnlab.Gui.DrawioService.RoundTrip
import Dnlab.Scripts.Changes.Reading
import Dnlab.Scripts.Changes.Transaction
import Dnlab.Scripts.Changes.Release
import Dnlab.Scripts.Changes.Validates
import Dnlab.Scripts.Changes.Underway
import Dnlab.Scripts.Changes.Resume
import Dnlab.Scripts.Changes.Crash
import Dnlab.Scripts.Changes.History
import Dnlab.Services.FlowReconstruct.Choices
