import PrivilegedHart.Config.Decode
import PrivilegedHart.Hart.Operation
import PrivilegedHart.Hart.Report
import PrivilegedHart.PendingHandles
import PrivilegedHart.Proofs.Access
import PrivilegedHart.Proofs.Effect
import PrivilegedHart.Proofs.Confinement
import PrivilegedHart.Proofs.Noninterference
import PrivilegedHart.Proofs.WellFormed
import PrivilegedHart.Proofs.Translation
import PrivilegedHart.Proofs.Instruction
import PrivilegedHart.Proofs.Atomicity
import PrivilegedHart.Proofs.Counter
import PrivilegedHart.Proofs.Readback
import PrivilegedHart.Proofs.Aliases
import PrivilegedHart.Proofs.PlainCounters
import PrivilegedHart.Proofs.Events
import PrivilegedHart.Proofs.PendingOwnership
import PrivilegedHart.Proofs.AccessRule
import PrivilegedHart.Proofs.TrapReturn
import PrivilegedHart.Proofs.FloatExtensions
import PrivilegedHart.Proofs.PageTableRoot
import PrivilegedHart.Proofs.OperandWidth
import PrivilegedHart.Proofs.ReadThenWrite
import PrivilegedHart.Proofs.SupervisorViews
import PrivilegedHart.Proofs.FlushCount
import PrivilegedHart.Proofs.FloatCoherence
import PrivilegedHart.Proofs.TransientState
import PrivilegedHart.Proofs.JsonLiterals
import PrivilegedHart.Proofs.JsonTexts
import PrivilegedHart.Proofs.ConfigTexts
import PrivilegedHart.Proofs.FieldLens
import PrivilegedHart.Proofs.LastWriter
