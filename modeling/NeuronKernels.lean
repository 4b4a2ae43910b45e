import NeuronKernels.Main
import NeuronKernels.SimulatedDevice
import NeuronKernels.CharacterSets
import NeuronKernels.TextPattern
import NeuronKernels.PatternReading
import NeuronKernels.Proofs.KernelGroups
import NeuronKernels.Proofs.KernelMeaning
import NeuronKernels.Proofs.BuiltNetworks
import NeuronKernels.Proofs.CallProtocol
import NeuronKernels.Proofs.DeviceContract
import NeuronKernels.Proofs.PackingOptimality
import NeuronKernels.Proofs.PassFolds
import NeuronKernels.Proofs.FailedPasses
import NeuronKernels.Proofs.StoredNetworks
import NeuronKernels.Proofs.SnapshotRoundTrip
import NeuronKernels.Proofs.ArenaBindings
import NeuronKernels.Proofs.KernelLowering
import NeuronKernels.Proofs.RestoredNetworks
import NeuronKernels.Proofs.DeviceRequests
import NeuronKernels.Proofs.SettingsPrecedence
import NeuronKernels.Proofs.StandaloneConstants
import NeuronKernels.Proofs.WordPieces
import NeuronKernels.Proofs.SealedKernels
import NeuronKernels.Proofs.HandlePlaces
import NeuronKernels.Proofs.ExportConfinement
import NeuronKernels.Proofs.GrownGraphs
import NeuronKernels.Proofs.ArenaSlots
import NeuronKernels.Proofs.AtomicLoads
import NeuronKernels.Proofs.StandalonePair
import NeuronKernels.Proofs.ArrayLines
import NeuronKernels.Proofs.RaisedParts
import NeuronKernels.Proofs.RunRetention
import NeuronKernels.Proofs.OverrideOrder
import NeuronKernels.Proofs.SettingsDiscovery
import NeuronKernels.Proofs.UnambiguousLayouts
import NeuronKernels.Proofs.SwitchedNames
