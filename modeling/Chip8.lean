import Chip8.KeyboardWaits
import Chip8.MachineHistory
import Chip8.Main
import Chip8.RealTime
import Chip8.Proofs.DueFaults
import Chip8.CheckedMachine
import Chip8.Proofs.CheckedSteps
import Chip8.Proofs.MachineInvariant
import Chip8.Proofs.KeyPresses
import Chip8.Proofs.KeyWait
import Chip8.Proofs.Executions
import Chip8.Proofs.MemoryHistory
import Chip8.Proofs.RasterHistory
import Chip8.Proofs.KeyboardWatch
import Chip8.Proofs.SessionRuns
import Chip8.Proofs.RunTimes
import Chip8.Proofs.SessionSteps
import Chip8.Proofs.ScreenFrames
import Chip8.Proofs.CallHistory
import Chip8.Proofs.KeyboardHistory
import Chip8.Proofs.TickIndependence
import Chip8.Proofs.TimerHistory
import Chip8.Proofs.MemoryReads
import Chip8.Assembler
import Chip8.Proofs.ListedSteps
import Chip8.Proofs.KeyHolds
import Chip8.Proofs.DrawingOrder
import Chip8.Proofs.TallSprites
import Chip8.Proofs.OutsideQuestions
import Chip8.Proofs.SharedWaits
import Chip8.Proofs.RegisterArithmetic
import Chip8.Proofs.StepTable
import Chip8.CheckedMemory
import Chip8.Proofs.MemoryStore
import Chip8.DumpReader
import Chip8.Proofs.DumpRoundTrip
import Chip8.Proofs.CrashReport
import Chip8.PictureReader
import Chip8.Proofs.RasterPictures
import Chip8.Proofs.HandTimerHistory
import Chip8.Proofs.WorkerEvents
import Chip8.Proofs.WorkerLifeCycle
