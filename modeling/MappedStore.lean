import MappedStore.Session.Transcript
import MappedStore.Version
import MappedStore.Proofs.Run
import MappedStore.Proofs.Engine.Frame
import MappedStore.Proofs.Engine.Occupancy
import MappedStore.Proofs.Engine.Use
import MappedStore.Proofs.Engine.Roster
import MappedStore.Proofs.Engine.Turns
import MappedStore.Proofs.Transition
import MappedStore.Proofs.Fields
import MappedStore.Proofs.Anchored
import MappedStore.Proofs.Chain
import MappedStore.Proofs.Lineage
import MappedStore.Proofs.Readers
import MappedStore.Proofs.Sound
import MappedStore.Proofs.Gate
import MappedStore.Proofs.Scopes
import MappedStore.Proofs.Writers
import MappedStore.Proofs.Finality
import MappedStore.Proofs.Coherence
import MappedStore.Proofs.Reading
import MappedStore.Proofs.Identity
import MappedStore.Proofs.Bystanders
import MappedStore.Proofs.Isolation
import MappedStore.Proofs.Journal
import MappedStore.Proofs.Retention
import MappedStore.Proofs.Engine.Codes
import MappedStore.Proofs.Engine.Failures
import MappedStore.Proofs.Conduct
import MappedStore.Proofs.Counts
import MappedStore.Proofs.Discipline
import MappedStore.Proofs.Tracking
import MappedStore.Proofs.Handles
import MappedStore.Proofs.Engine.Maps
import MappedStore.Proofs.Engine.Writing
import MappedStore.Proofs.Engine.Holding
import MappedStore.Proofs.Engine.Levels
import MappedStore.Proofs.Engine.Publishing
import MappedStore.Proofs.Engine.Opening
import MappedStore.Proofs.Engine.Grounding
import MappedStore.Proofs.Engine.Operations
import MappedStore.Proofs.Engine.Steadiness
import MappedStore.Proofs.Stacks
import MappedStore.Proofs.Nesting
import MappedStore.Proofs.Courses
import MappedStore.Proofs.Engine.Order
import MappedStore.Proofs.Engine.Upkeep
import MappedStore.Proofs.Order
import MappedStore.Proofs.Preparation
import MappedStore.Proofs.Publication
import MappedStore.Proofs.Refusals
import MappedStore.Proofs.Engine.Refusing
import MappedStore.Proofs.Objections
import MappedStore.Proofs.Switch
import MappedStore.Proofs.Transparency
import MappedStore.Proofs.Settings
import MappedStore.Proofs.Unchecked
import MappedStore.Proofs.Census
import MappedStore.Proofs.WriterLock
import MappedStore.Proofs.Rollback
import MappedStore.Proofs.Engine.Residue
import MappedStore.Proofs.Engine.Likeness
import MappedStore.Proofs.Likeness
import MappedStore.Proofs.Engine.Ahead
import MappedStore.Proofs.Ahead
import MappedStore.Proofs.Traces
import MappedStore.Proofs.Engine.Commanding
import MappedStore.Proofs.Engine.Footing
import MappedStore.Proofs.Linkage
import MappedStore.Proofs.Footing
import MappedStore.Proofs.Engine.Browsing
import MappedStore.Proofs.Engine.Breakage
import MappedStore.Proofs.Engine.Errands
import MappedStore.Proofs.Engine.Disuse
import MappedStore.Proofs.Disuse
import MappedStore.Proofs.FailedCommits
import MappedStore.Proofs.Errands
import MappedStore.Proofs.Files.Walks
import MappedStore.Proofs.Engine.Copying
import MappedStore.Proofs.Copies
import MappedStore.Proofs.Resets
import MappedStore.Proofs.Taxonomy
import MappedStore.Proofs.Demands
import MappedStore.Proofs.Engine.Reserving
import MappedStore.Proofs.Engine.Removing
import MappedStore.Proofs.Removals
import MappedStore.Proofs.Reservations
import MappedStore.Proofs.Words
