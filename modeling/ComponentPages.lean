import ComponentPages.Main
import ComponentPages.Proofs.Idempotence
import ComponentPages.Proofs.LeadingDirectives
import ComponentPages.Proofs.RoundTrip
import ComponentPages.Proofs.TagGroups
import ComponentPages.Proofs.Concatenation
import ComponentPages.Proofs.OpaqueCode
import ComponentPages.Proofs.TypeDisplay
import ComponentPages.Proofs.TableReading
import ComponentPages.Proofs.ListingOrder
import ComponentPages.Proofs.Finishing
import ComponentPages.Proofs.ExamplesOnPage
import ComponentPages.Proofs.ClosedDescriptions
import ComponentPages.Proofs.HeadingLines
import ComponentPages.Proofs.PageOutline
import ComponentPages.Proofs.PageParts
import ComponentPages.Proofs.PageStructure
import ComponentPages.Proofs.LinkNames
import ComponentPages.Proofs.TagPrecedence
import ComponentPages.Proofs.Disks
import ComponentPages.Proofs.Runs
import ComponentPages.Proofs.ReadingFirst
import ComponentPages.Proofs.PagesKept
import ComponentPages.Proofs.OutputDirectory
import ComponentPages.Proofs.BadPages
import ComponentPages.Proofs.ArgumentSets
import ComponentPages.Proofs.CommandModes
import ComponentPages.Proofs.ArgumentChecks
import ComponentPages.Proofs.PageBatches
import ComponentPages.Proofs.LosslessPages
import ComponentPages.Proofs.DirectiveNotices
import ComponentPages.Proofs.Spacing
import ComponentPages.Proofs.ExampleLayout
import ComponentPages.Proofs.TagValues
import ComponentPages.Proofs.UnionMembers
import ComponentPages.Proofs.LiteralCuts
import ComponentPages.Proofs.PlatformChoices
import ComponentPages.Proofs.BranchValues
import ComponentPages.Proofs.Refusals
import ComponentPages.Proofs.RecordedTags
import ComponentPages.Proofs.ConfigMerging
import ComponentPages.Proofs.FinishedPages
import ComponentPages.Proofs.AtomicParts
import ComponentPages.Proofs.CodeCells
import ComponentPages.Proofs.LeadingParts
import ComponentPages.Proofs.Indentation
import ComponentPages.Proofs.MalformedNotices
