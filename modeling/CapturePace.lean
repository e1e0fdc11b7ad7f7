import CapturePace.Session
import CapturePace.Main
import CapturePace.Proofs.Growth
import CapturePace.Proofs.Walk
import CapturePace.Proofs.Outlook
import CapturePace.Proofs.Opening
import CapturePace.Proofs.Refinement
import CapturePace.Proofs.InMemory
import CapturePace.Proofs.WiderBuffer
import CapturePace.Proofs.Fronts
import CapturePace.Proofs.Repair
import CapturePace.Proofs.Calls
import CapturePace.Proofs.Readings
import CapturePace.Proofs.Guards
import CapturePace.Proofs.Intervals
import CapturePace.Proofs.Written
import CapturePace.Proofs.RecordFile
import CapturePace.Proofs.SectionFile
import CapturePace.Proofs.ForwardTime
import CapturePace.Proofs.Backing
import CapturePace.Proofs.TimedRounds
import CapturePace.Proofs.UnseenContents
import CapturePace.Proofs.CommandLine
import CapturePace.Proofs.OneLine
import CapturePace.Proofs.FirstFault
import CapturePace.Proofs.LaterTime
import CapturePace.Proofs.Independence
import CapturePace.Proofs.ClippedPackets
import CapturePace.Proofs.FullBuffer
import CapturePace.Proofs.Flowing
import CapturePace.Proofs.FirstRead
import CapturePace.Proofs.Concatenation
import CapturePace.Proofs.OversizedRecord
import CapturePace.Proofs.Moves
import CapturePace.Proofs.Closing
import CapturePace.Proofs.Grammar
import CapturePace.Proofs.FileJournal
import CapturePace.Proofs.Conservation
import CapturePace.Proofs.ReadCalls
import CapturePace.Proofs.OptionValues
import CapturePace.Proofs.RecordedTimes
import CapturePace.Proofs.FaultMessages
