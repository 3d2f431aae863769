import Runbook.Action.Catalogue
import Runbook.Run.Whole
import Runbook.Run.Store
import Runbook.Storage.LocalDirectory
import Runbook.Definition.File
import Runbook.CommandLine.Session
import Runbook.Rehearsal.Probe
import Runbook.Rehearsal.Sample
import Runbook.Rehearsal.Actions
import Runbook.Rehearsal.Gathering
import Runbook.Rehearsal.Whole
import Runbook.Rehearsal.Browser
import Runbook.Main
import Runbook.Proofs.Finalization
import Runbook.Proofs.InOrder
import Runbook.Proofs.Gathering
import Runbook.Proofs.Laws
import Runbook.Proofs.Kinds
import Runbook.Proofs.Executions
import Runbook.Proofs.Joining
import Runbook.Proofs.Indices
import Runbook.Proofs.Course
import Runbook.Proofs.Requests
import Runbook.Proofs.Stopping
import Runbook.Proofs.Notices
import Runbook.Proofs.Undisturbed
import Runbook.Proofs.Outcomes
import Runbook.Proofs.Templates
import Runbook.Proofs.Deferral
import Runbook.Proofs.Weights
import Runbook.Proofs.Levels
import Runbook.Proofs.Underway
import Runbook.Proofs.Winding
import Runbook.Proofs.Resolution
import Runbook.Proofs.Forking
import Runbook.Proofs.Together
import Runbook.Proofs.Watching
import Runbook.Proofs.Succession
import Runbook.Proofs.Steadiness
import Runbook.Proofs.Likeness
import Runbook.Proofs.Termination
import Runbook.Proofs.Lockstep
import Runbook.Proofs.Pages
import Runbook.Proofs.Strands
import Runbook.Proofs.Isolation
import Runbook.Proofs.Snapshots
import Runbook.Proofs.Nesting
import Runbook.Proofs.Linkage
import Runbook.Proofs.Identifiers
import Runbook.Proofs.Naming
import Runbook.Proofs.Peers
import Runbook.Proofs.Robust
import Runbook.Proofs.Pictures
import Runbook.Proofs.Hardiness
import Runbook.Proofs.Abreast
import Runbook.Proofs.Paces
import Runbook.Proofs.Meeting
import Runbook.Proofs.BestEffort
import Runbook.Proofs.Rehearsals
import Runbook.Proofs.Iterations
import Runbook.Proofs.Deadlines
import Runbook.Proofs.Dates
import Runbook.Proofs.Documents
import Runbook.Proofs.Rows
import Runbook.Proofs.Storekeeping
import Runbook.Proofs.Meanwhile
import Runbook.Proofs.Persistence
import Runbook.Proofs.Refusals
import Runbook.Proofs.Steps
import Runbook.Proofs.Branches
import Runbook.Proofs.Contributions
import Runbook.Proofs.Malformed
import Runbook.Proofs.References
import Runbook.Proofs.Rescanning
import Runbook.Proofs.Counterparts
import Runbook.Proofs.Veils
import Runbook.Proofs.Credentials
import Runbook.Proofs.Telemetry
import Runbook.Proofs.HeaderNames
import Runbook.Proofs.Addresses
import Runbook.Proofs.Visits
import Runbook.Proofs.Navigation
import Runbook.Proofs.Untouched
import Runbook.Proofs.Savings
import Runbook.Proofs.Containment
import Runbook.Proofs.Filing
import Runbook.Proofs.Chronology
import Runbook.Proofs.Listings
import Runbook.Proofs.Sharing
import Runbook.Proofs.Custody
import Runbook.Proofs.Contexts
import Runbook.Proofs.Shutdowns
import Runbook.Proofs.Magnitudes
import Runbook.Proofs.Chances
import Runbook.Proofs.Spans
import Runbook.Proofs.Entries
import Runbook.Proofs.Defaults
import Runbook.Proofs.Natives
import Runbook.Proofs.Valueless
import Runbook.Proofs.Loading
import Runbook.Proofs.Decompositions
import Runbook.Proofs.Declarations
import Runbook.Proofs.Sextets
import Runbook.Proofs.Uploads
import Runbook.Proofs.Parts
import Runbook.Proofs.Captures
import Runbook.Proofs.Primes
