import Dossier.Config
import Dossier.Identity.Json
import Dossier.Mongo.Connection
import Dossier.Proofs.Keys.Misreading
import Dossier.Proofs.Keys.Passage
import Dossier.Proofs.Identity.Lookup
import Dossier.Proofs.Value.Reflexive
import Dossier.Proofs.Fragment.Readers
import Dossier.Proofs.Mongo.Update
import Dossier.Proofs.Edit.LostUpdates
import Dossier.Proofs.Edit.Reordered
import Dossier.Proofs.Memory.Upsert
import Dossier.Proofs.Memory.Batch
import Dossier.Proofs.Codebook.Undone
import Dossier.Proofs.Codebook.Operands
import Dossier.Proofs.Mongo.Filter
import Dossier.Proofs.Fragment.Recording
import Dossier.Proofs.Read.TwoShapes
import Dossier.Proofs.Codebook.SetUp
import Dossier.Proofs.Memory.Affected
import Dossier.Proofs.Memory.Single
import Dossier.Proofs.Memory.OnlyMatch
import Dossier.Proofs.Read.Precedence
import Dossier.Proofs.Fragment.Synonyms
import Dossier.Proofs.Edit.Found
import Dossier.Proofs.Edit.Repeated
import Dossier.Proofs.Edit.Pulled
import Dossier.Proofs.Read.Transitive
import Dossier.Proofs.Mongo.Pull
import Dossier.Proofs.Edit.Identified
import Dossier.Proofs.Read.Pages
import Dossier.Proofs.Read.Sorted
import Dossier.Proofs.Condition.Elements
import Dossier.Proofs.Edit.Matched
import Dossier.Proofs.Edit.OneKey
import Dossier.Proofs.Value.Integer
import Dossier.Proofs.Edit.Terms
import Dossier.Proofs.Edit.Extremes
import Dossier.Proofs.Edit.Members
import Dossier.Proofs.Read.Projected
import Dossier.Proofs.Identity.Forms
import Dossier.Proofs.Condition.Relations
import Dossier.Proofs.Keys.Stored
import Dossier.Proofs.Value.TwoReaders
