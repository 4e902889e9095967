import GraphEngine.MergedPatches
import GraphEngine.SessionCharges
import GraphEngine.SessionRollback
import GraphEngine.EdgeRings
import GraphEngine.PortDeliveries
import GraphEngine.SlotRuns
import GraphEngine.LeaseRuns
import GraphEngine.ValidatedContracts
import GraphEngine.NegotiatedContracts
import GraphEngine.LifecycleRuns
import GraphEngine.RetirementRuns
import GraphEngine.RequestRuns
import GraphEngine.PluginCalls
import GraphEngine.RenditionTemplates
import GraphEngine.PatchRoundTrip
import GraphEngine.WorkerSleep
import GraphEngine.AuditRecords
import GraphEngine.BatchFraming
import GraphEngine.CompletionPushes
import GraphEngine.SessionServices
import GraphEngine.HotParameters
import GraphEngine.RemovalPolicies
import GraphEngine.GraphTemplates
import GraphEngine.AudioMixes
import GraphEngine.MediaFiles
import GraphEngine.OnnxTensors
