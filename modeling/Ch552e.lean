import Ch552e.Lib.Run
import Ch552e.Lib.Loop
import Ch552e.Lib.Ring
import Ch552e.Lib.Instrumented
import Ch552e.Lib.Flat
import Ch552e.Ref.Regs
import Ch552e.Proofs.Transfer
import Ch552e.Proofs.Commit
import Ch552e.Proofs.UartTx
import Ch552e.Proofs.SetupLog
import Ch552e.Proofs.Supersede
import Ch552e.Proofs.Walk
import Ch552e.Proofs.StreamBounds
import Ch552e.Proofs.UartRx
import Ch552e.Proofs.UartWake
import Ch552e.Proofs.Handshake
import Ch552e.Proofs.FillBound
import Ch552e.Proofs.StrictUnion
import Ch552e.Proofs.Advertise
import Ch552e.Proofs.LostAck
import Ch552e.Proofs.Xram
import Ch552e.Proofs.Board
import Ch552e.Proofs.Duplex
import Ch552e.Proofs.MainLoop
import Ch552e.Proofs.Control
import Ch552e.Proofs.Indicator
import Ch552e.Proofs.Service
