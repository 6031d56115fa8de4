import OwnershipRegistry.Proofs.BackingRecords
import OwnershipRegistry.Proofs.Config.Strictness
import OwnershipRegistry.Proofs.Config.Waits
import OwnershipRegistry.Proofs.Convergence
import OwnershipRegistry.Proofs.File.Corruption
import OwnershipRegistry.Proofs.File.Repair
import OwnershipRegistry.Proofs.File.Reports
import OwnershipRegistry.Proofs.File.Veils
import OwnershipRegistry.Proofs.Frame
import OwnershipRegistry.Proofs.Host.Accounts
import OwnershipRegistry.Proofs.Host.Agreement
import OwnershipRegistry.Proofs.Host.Chain
import OwnershipRegistry.Proofs.Host.Creation
import OwnershipRegistry.Proofs.Host.Independence
import OwnershipRegistry.Proofs.Host.Listings
import OwnershipRegistry.Proofs.Host.Reopening
import OwnershipRegistry.Proofs.Host.Replay
import OwnershipRegistry.Proofs.Host.Timeouts
import OwnershipRegistry.Proofs.Registration
import OwnershipRegistry.Proofs.Wire.Fields
import OwnershipRegistry.Proofs.Wire.Sessions
import OwnershipRegistry.Wire.Cascade
