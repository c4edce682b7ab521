import ClassTable.Main
import ClassTable.Json.Model
import ClassTable.Proofs.DepthFirst
import ClassTable.Proofs.Keywords
import ClassTable.Proofs.Lookup
import ClassTable.Proofs.Writing
import ClassTable.Proofs.Numbering
import ClassTable.Proofs.Placement
import ClassTable.Proofs.History
import ClassTable.Proofs.Retention
import ClassTable.Proofs.Dispatch
import ClassTable.Proofs.Ordering
import ClassTable.Proofs.Addresses
import ClassTable.Proofs.Describing
import ClassTable.Proofs.FieldGroups
import ClassTable.Proofs.Rewording
import ClassTable.Proofs.Json.Models
import ClassTable.Proofs.Tabulation
import ClassTable.Proofs.DirectorySize
import ClassTable.Proofs.StaticValues
import ClassTable.Proofs.TypeOrder
import ClassTable.Proofs.Hierarchy
import ClassTable.Proofs.Collecting
import ClassTable.Proofs.Saturation
import ClassTable.Proofs.Offsets
import ClassTable.Proofs.Refusals
import ClassTable.Proofs.Disorder
import ClassTable.Proofs.Attempts
import ClassTable.Proofs.Enumeration
import ClassTable.Proofs.Rendering
import ClassTable.Proofs.Comparison
import ClassTable.Proofs.Searching
import ClassTable.Proofs.Visits
