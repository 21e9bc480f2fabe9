import Tagline.Main
import Tagline.Colour
import Tagline.Proofs.Rendering
import Tagline.Proofs.History.Store
import Tagline.Proofs.Session.Reopening
import Tagline.Proofs.Session.Retry
import Tagline.Proofs.History.Growth
import Tagline.Proofs.Session.Scan
import Tagline.Proofs.History.Keys
import Tagline.Proofs.Text.Plain
import Tagline.Proofs.Warnings
import Tagline.Proofs.Record
import Tagline.Proofs.Suggestion
import Tagline.Proofs.Session.Offering
import Tagline.Proofs.History.Lookup
import Tagline.Proofs.History.Dirty
import Tagline.Proofs.History.Gathering
import Tagline.Proofs.Session.Bulk
import Tagline.Proofs.Settings
import Tagline.Proofs.Text.Variants
import Tagline.Proofs.Session.Offsets
import Tagline.Proofs.Session.Accepting
import Tagline.Proofs.History.Opening
import Tagline.Proofs.History.Batch
import Tagline.Proofs.Session.Completed
import Tagline.Proofs.Alignment
import Tagline.Proofs.Text.Beginnings
import Tagline.Proofs.Text.Canonical
import Tagline.Proofs.Matching
import Tagline.Proofs.Validation
import Tagline.Proofs.Index
import Tagline.Proofs.History.Adding
import Tagline.Proofs.Advancing
import Tagline.Proofs.History.Undoing
import Tagline.Proofs.History.Replacing
import Tagline.Proofs.Listing
import Tagline.Proofs.Hint
import Tagline.Proofs.Session.Addressing
import Tagline.Proofs.Forgetting
import Tagline.Proofs.Colour
