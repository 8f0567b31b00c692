import DiskWatch.Job.Document
import DiskWatch.Main
import DiskWatch.Shell.Run
import DiskWatch.Proofs.Interleaving
import DiskWatch.Proofs.Passage
import DiskWatch.Proofs.Spans
import DiskWatch.Proofs.Identity
import DiskWatch.Proofs.HandOver
import DiskWatch.Proofs.Records
import DiskWatch.Proofs.Bookkeeping
import DiskWatch.Proofs.Exclusion
import DiskWatch.Proofs.Admission
import DiskWatch.Proofs.Conservation
import DiskWatch.Proofs.CriticalSection
import DiskWatch.Proofs.Rest
import DiskWatch.Proofs.Verdict
import DiskWatch.Proofs.Service
import DiskWatch.Proofs.Tasks
import DiskWatch.Proofs.Moves
import DiskWatch.Proofs.Beats
import DiskWatch.Proofs.Schedule
import DiskWatch.Proofs.Report
import DiskWatch.Proofs.Depth
import DiskWatch.Proofs.Exchanges
import DiskWatch.Proofs.Pace
import DiskWatch.Proofs.Overrun
import DiskWatch.Proofs.Patience
import DiskWatch.Proofs.Shutdown
import DiskWatch.Proofs.Limits
import DiskWatch.Proofs.Feed
import DiskWatch.Proofs.Tempo
import DiskWatch.Proofs.Turns
import DiskWatch.Proofs.Timetable
import DiskWatch.Proofs.Renaming
import DiskWatch.Proofs.Session
import DiskWatch.Proofs.Noninterference
import DiskWatch.Proofs.Backoff
import DiskWatch.Proofs.Rows
import DiskWatch.Proofs.Summary
import DiskWatch.Proofs.Numerals
import DiskWatch.Proofs.Tables
import DiskWatch.Proofs.Reading
import DiskWatch.Proofs.Listing
import DiskWatch.Proofs.Layout
import DiskWatch.Proofs.Columns
import DiskWatch.Proofs.Levels
import DiskWatch.Proofs.Processing
import DiskWatch.Proofs.Clearance
import DiskWatch.Proofs.Publication
import DiskWatch.Proofs.Vetting
import DiskWatch.Proofs.Registration
import DiskWatch.Proofs.Lookup
import DiskWatch.Proofs.Periods
import DiskWatch.Proofs.Serials
import DiskWatch.Proofs.Separators
