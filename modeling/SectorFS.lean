import SectorFS.Device.Inspect
import SectorFS.Machine
import SectorFS.Proofs.Device.Contents
import SectorFS.Proofs.File
import SectorFS.Proofs.FreeMap
import SectorFS.Proofs.Directory
import SectorFS.Proofs.Directory.Stored
import SectorFS.Proofs.Operation
import SectorFS.Proofs.Volume
import SectorFS.Proofs.Volume.Create
import SectorFS.Proofs.Volume.Remove
import SectorFS.Proofs.Machine
import SectorFS.Proofs.Refusal
import SectorFS.Proofs.Tree
import SectorFS.Proofs.Tree.Growth
import SectorFS.Proofs.Tree.Create
import SectorFS.Proofs.Tree.Remove
import SectorFS.Proofs.Tree.Format
import SectorFS.Proofs.Discipline
import SectorFS.Proofs.Soundness
import SectorFS.Proofs.Soundness.Changes
import SectorFS.Proofs.Soundness.Handles
import SectorFS.Proofs.Soundness.Runs
import SectorFS.Proofs.Linkage
import SectorFS.Proofs.Contents
import SectorFS.Proofs.Tree.Marked
import SectorFS.Proofs.Tree.Interruption
import SectorFS.Proofs.Damage
import SectorFS.Proofs.Directory.Slots
import SectorFS.Proofs.Failure
import SectorFS.Proofs.Tree.Site
import SectorFS.Proofs.Path
import SectorFS.Proofs.FreeMap.Order
import SectorFS.Proofs.Demands
import SectorFS.Proofs.Settled
import SectorFS.Proofs.Creating
import SectorFS.Proofs.Removing
import SectorFS.Proofs.Binding
import SectorFS.Proofs.Coherence
import SectorFS.Proofs.Machine.Unlogged
import SectorFS.Proofs.Soundness.Headers
import SectorFS.Proofs.Remount
import SectorFS.Proofs.Tree.Walks
import SectorFS.Proofs.Metadata
import SectorFS.Proofs.Soundness.Twins
import SectorFS.Proofs.Soundness.TwinRuns
import SectorFS.Proofs.Disclosure
import SectorFS.Proofs.Guarded
import SectorFS.Proofs.Guarded.Program
import SectorFS.Proofs.Guarded.Text
import SectorFS.Proofs.Guarded.Header
import SectorFS.Proofs.Guarded.FreeMap
import SectorFS.Proofs.Guarded.File
import SectorFS.Proofs.Guarded.Entry
import SectorFS.Proofs.Guarded.Directory
import SectorFS.Proofs.Guarded.Walk
import SectorFS.Proofs.Guarded.OpenTable
import SectorFS.Proofs.Guarded.Volume
import SectorFS.Proofs.Guarded.Machine
import SectorFS.Proofs.Completion
import SectorFS.Proofs.OpenTable.Runs
import SectorFS.Proofs.OpenTable.Commute
import SectorFS.Proofs.Volume.Report
import SectorFS.Proofs.Healthy
import SectorFS.Proofs.Tree.Spelled
import SectorFS.Proofs.Tree.Undo
import SectorFS.Proofs.Soundness.Spelled
import SectorFS.Proofs.Restoring
import SectorFS.Proofs.Errands
import SectorFS.Proofs.File.Splice
import SectorFS.Proofs.OpenTable.Retry
import SectorFS.Proofs.File.Pieces
import SectorFS.Proofs.OpenTable.Pieces
import SectorFS.Proofs.Guarded.InPlace
import SectorFS.Proofs.FreeMap.Sets
import SectorFS.Proofs.FreeMap.Allocation
import SectorFS.Proofs.Directory.Records
import SectorFS.Proofs.Directory.Shelf
import SectorFS.Proofs.Directory.Fetched
import SectorFS.Proofs.File.Tables
import SectorFS.Proofs.Header
import SectorFS.Proofs.Directory.Codec
import SectorFS.Proofs.Path.Lookups
import SectorFS.Proofs.Tree.Links
import SectorFS.Proofs.Navigation
import SectorFS.Proofs.Header.Dump
import SectorFS.Proofs.Guarded.Boundary
import SectorFS.Proofs.OpenTable.Names
