import RemoteDispatch.Engine.Scripted
import RemoteDispatch.Sample.Handlers
import RemoteDispatch.Session.Book
import RemoteDispatch.Session.Holdings
import RemoteDispatch.Wire.TypeTables
import RemoteDispatch.Proofs.Committing
import RemoteDispatch.Proofs.Cursors
import RemoteDispatch.Proofs.Bounds
import RemoteDispatch.Proofs.Lookups
import RemoteDispatch.Proofs.RoundTrip
import RemoteDispatch.Proofs.Taking
import RemoteDispatch.Proofs.Runs
import RemoteDispatch.Proofs.Completion
import RemoteDispatch.Proofs.Records
import RemoteDispatch.Proofs.Translation
import RemoteDispatch.Proofs.Pools
import RemoteDispatch.Proofs.Serving
import RemoteDispatch.Proofs.Agreement
import RemoteDispatch.Proofs.Leasing
import RemoteDispatch.Proofs.Failures
import RemoteDispatch.Proofs.Overflow
import RemoteDispatch.Proofs.Families
import RemoteDispatch.Proofs.Frames
import RemoteDispatch.Proofs.Extension
import RemoteDispatch.Proofs.Canonical
import RemoteDispatch.Proofs.Lifetimes
import RemoteDispatch.Proofs.Mismatch
import RemoteDispatch.Proofs.Registration
import RemoteDispatch.Proofs.Reuse
import RemoteDispatch.Proofs.Waiting
import RemoteDispatch.Proofs.Growth
import RemoteDispatch.Proofs.Recycling
import RemoteDispatch.Proofs.Tallies
import RemoteDispatch.Proofs.Cascades
import RemoteDispatch.Proofs.Joining
import RemoteDispatch.Proofs.Fates
import RemoteDispatch.Proofs.Groups
import RemoteDispatch.Proofs.Immediate
import RemoteDispatch.Proofs.Uniform
import RemoteDispatch.Proofs.Enlargement
import RemoteDispatch.Proofs.Acceptance
import RemoteDispatch.Proofs.Uncommitted
import RemoteDispatch.Proofs.Unregistered
import RemoteDispatch.Proofs.Identifiers
import RemoteDispatch.Proofs.Replacement
import RemoteDispatch.Proofs.Consumption
import RemoteDispatch.Proofs.LocalFailures
import RemoteDispatch.Proofs.Indexing
