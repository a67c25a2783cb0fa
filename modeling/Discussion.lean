import Discussion.Forum.Choice
import Discussion.Forum.Page
import Discussion.Proofs.AreaPages
import Discussion.Proofs.Attachment
import Discussion.Proofs.BatchStepwise
import Discussion.Proofs.BulkRemoval
import Discussion.Proofs.ChecksFirst
import Discussion.Proofs.Chronicle
import Discussion.Proofs.Counters
import Discussion.Proofs.CustomDataForms
import Discussion.Proofs.Entries
import Discussion.Proofs.FlagsForGuests
import Discussion.Proofs.FlagsForMembers
import Discussion.Proofs.FloatText
import Discussion.Proofs.Forest
import Discussion.Proofs.Heeding
import Discussion.Proofs.HiddenAuthors.Page
import Discussion.Proofs.HiddenAuthors.Rows
import Discussion.Proofs.HiddenSections.Listing
import Discussion.Proofs.HiddenSections.Page
import Discussion.Proofs.HiddenSections.Rows
import Discussion.Proofs.Identity
import Discussion.Proofs.Interleaving
import Discussion.Proofs.Isolation
import Discussion.Proofs.JsonBounds
import Discussion.Proofs.JsonExact
import Discussion.Proofs.KeyText
import Discussion.Proofs.Law
import Discussion.Proofs.LegibleData
import Discussion.Proofs.ListingAsks
import Discussion.Proofs.ListingFindings
import Discussion.Proofs.ListingMemory
import Discussion.Proofs.ListingSteps
import Discussion.Proofs.Look
import Discussion.Proofs.MissingIds
import Discussion.Proofs.NestedReplies
import Discussion.Proofs.NoOrphans
import Discussion.Proofs.Numeral
import Discussion.Proofs.Offsets
import Discussion.Proofs.Operation
import Discussion.Proofs.Options
import Discussion.Proofs.PageContents
import Discussion.Proofs.PageLimit
import Discussion.Proofs.PeopleFetches
import Discussion.Proofs.PeopleLookups
import Discussion.Proofs.PermanentIds
import Discussion.Proofs.Policy
import Discussion.Proofs.Preparation
import Discussion.Proofs.PreparedRequests
import Discussion.Proofs.Pseudonym
import Discussion.Proofs.Reading
import Discussion.Proofs.Recipients
import Discussion.Proofs.Refusals
import Discussion.Proofs.Removal
import Discussion.Proofs.RemovedThreads
import Discussion.Proofs.Replica
import Discussion.Proofs.RequestById
import Discussion.Proofs.Revision
import Discussion.Proofs.Run
import Discussion.Proofs.SettingVariables
import Discussion.Proofs.Settling
import Discussion.Proofs.Severance
import Discussion.Proofs.ShownSections
import Discussion.Proofs.SingleComment
import Discussion.Proofs.SingleView
import Discussion.Proofs.Standing
import Discussion.Proofs.StoreMatches
import Discussion.Proofs.StoredAsGiven
import Discussion.Proofs.StoredPeople
import Discussion.Proofs.Thread
import Discussion.Proofs.Tiling
import Discussion.Proofs.Totals
import Discussion.Proofs.Validation
import Discussion.Proofs.Votes
import Discussion.Proofs.WrittenAsRead
import Discussion.Proofs.Yield
import Discussion.Settings.Load
import Discussion.Wire.Event
import Discussion.Wire.Request
import Discussion.Wire.Shown
