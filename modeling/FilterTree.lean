import FilterTree.Session
import FilterTree.Policy.Decode
import FilterTree.Value.Token
import FilterTree.Report
import FilterTree.Proofs.TextRoundTrip
import FilterTree.Proofs.StrictTrees
import FilterTree.Proofs.LicensedLeaves
import FilterTree.Proofs.Sessions
import FilterTree.Proofs.Numerals
import FilterTree.Proofs.Rounding
import FilterTree.Proofs.ShortestDecimals
import FilterTree.Proofs.NumberTexts
import FilterTree.Proofs.Delimiting
import FilterTree.Proofs.DoubleRoundTrip
import FilterTree.Proofs.Equality
import FilterTree.Proofs.FirstFault
import FilterTree.Proofs.UniqueTexts
import FilterTree.Proofs.DecodedTrees
import FilterTree.Proofs.Conditions
import FilterTree.Proofs.DocumentRoundTrip
import FilterTree.Proofs.Mappings
import FilterTree.Proofs.Diagnoses
import FilterTree.Proofs.Inspection
import FilterTree.Proofs.LeafRequests
import FilterTree.Proofs.Integers
import FilterTree.Proofs.FieldTexts
import FilterTree.Proofs.BinaryFormats
import FilterTree.Proofs.FailureMessages
import FilterTree.Proofs.WidenedSingles
import FilterTree.Proofs.PolicyDocuments
import FilterTree.Proofs.Reports
import FilterTree.Proofs.Quotations
import FilterTree.Proofs.Unambiguity
