import Station.Main
import Station.Prototype.Encode
import Station.WoundLicking
import Station.Proofs.CarryFailure
import Station.Proofs.Despawn
import Station.Proofs.Drops
import Station.Proofs.Path
import Station.Proofs.Report
import Station.Proofs.FileTree
import Station.Proofs.Glob
import Station.Proofs.Scan
import Station.Proofs.ContentDirectory
import Station.Proofs.Templates
import Station.Proofs.Subscriptions
import Station.Proofs.Documents
import Station.Proofs.Loading
import Station.Proofs.PathOrder
import Station.Proofs.DirectoryLoading
import Station.Proofs.Redefinition
import Station.Proofs.Uses
import Station.Proofs.References
import Station.Proofs.ReportOrder
import Station.Proofs.FileNames
import Station.Proofs.Spawns
import Station.Proofs.GateCallers
import Station.Proofs.GateViews
import Station.Proofs.MessageKeys
import Station.Proofs.Schema
import Station.Proofs.Encoding
import Station.Proofs.LostBodies
import Station.Proofs.CarryEffects
import Station.Proofs.Rotation
import Station.Proofs.Eligibility
import Station.Proofs.Rebase
import Station.Proofs.Roster
import Station.Proofs.Tenure
import Station.Proofs.WoundLicking
import Station.Proofs.SharedTables
