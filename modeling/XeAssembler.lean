import XeAssembler.Main
import XeAssembler.InPlace
import XeAssembler.Proofs.PassAgreement
import XeAssembler.Proofs.ReferenceDistance
import XeAssembler.Proofs.CounterAccounting
import XeAssembler.Proofs.InstructionOutcomes
import XeAssembler.Proofs.LastDefinitions
import XeAssembler.Proofs.LastLocations
import XeAssembler.Proofs.TableHistory
import XeAssembler.Proofs.LayoutFindings
import XeAssembler.Proofs.ScopeTracking
import XeAssembler.Proofs.FaultTrace
import XeAssembler.Proofs.SourceExtension
import XeAssembler.Proofs.AddressSpace
import XeAssembler.Proofs.SectionIndependence
import XeAssembler.Proofs.AddressShift
import XeAssembler.Proofs.Relocation
import XeAssembler.Proofs.LineSpacing
import XeAssembler.Proofs.LabelRenaming
import XeAssembler.Proofs.ObjectText
import XeAssembler.Proofs.WordDecoding
import XeAssembler.Proofs.UnitIsolation
import XeAssembler.Proofs.NumericOperands
import XeAssembler.Proofs.ListingRows
import XeAssembler.Proofs.LocationRows
import XeAssembler.Proofs.LineEdits
import XeAssembler.Proofs.LineRenumbering
import XeAssembler.Proofs.ScopedLabels
import XeAssembler.Proofs.LineEndings
import XeAssembler.Proofs.LineDecoding
import XeAssembler.Proofs.LiteralBytes
import XeAssembler.Proofs.QuotedLines
import XeAssembler.Proofs.ObjectNames
