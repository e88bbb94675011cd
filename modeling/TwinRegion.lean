import TwinRegion.Main
import TwinRegion.Proofs.Reading
import TwinRegion.Proofs.Writing
import TwinRegion.Proofs.Live
import TwinRegion.Proofs.Crash
import TwinRegion.Proofs.Device
import TwinRegion.Proofs.Discipline
import TwinRegion.Proofs.Serving
import TwinRegion.Proofs.Mark
import TwinRegion.Proofs.Contents
import TwinRegion.Proofs.Isolation
import TwinRegion.Proofs.Accepting
import TwinRegion.Proofs.Permutation
import TwinRegion.Proofs.Erasure
import TwinRegion.Proofs.Overheard
import TwinRegion.Proofs.Refusing
import TwinRegion.Proofs.Records
import TwinRegion.Proofs.Session
import TwinRegion.Proofs.Unheard
import TwinRegion.Proofs.Lifetime
import TwinRegion.Proofs.HotJournal
import TwinRegion.Proofs.File
import TwinRegion.Proofs.Confined
import TwinRegion.Proofs.Holding
import TwinRegion.Proofs.Window
import TwinRegion.Proofs.Overlap
import TwinRegion.Proofs.Recovery
import TwinRegion.Proofs.Persisted
import TwinRegion.Proofs.Retrying
import TwinRegion.Proofs.Served
import TwinRegion.Proofs.Removal
import TwinRegion.Proofs.Registration
import TwinRegion.Proofs.Neighbours
import TwinRegion.Proofs.Clients
import TwinRegion.Proofs.Everywhere
import TwinRegion.Proofs.Stopping
import TwinRegion.Proofs.Commuting
import TwinRegion.Proofs.Faultless
import TwinRegion.Proofs.Answering
import TwinRegion.Proofs.Releasing
import TwinRegion.Proofs.Seeking
import TwinRegion.Proofs.Mirroring
import TwinRegion.Proofs.Opening
import TwinRegion.Proofs.OnFile
import TwinRegion.Proofs.Formatting
import TwinRegion.Proofs.SizeWord
import TwinRegion.Proofs.Filling
import TwinRegion.Proofs.Surveying
import TwinRegion.Proofs.Direct
import TwinRegion.Proofs.Naming
import TwinRegion.Proofs.Sectors
