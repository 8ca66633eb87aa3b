import CommandLog.Main
import CommandLog.Proofs.Engine.Confined
import CommandLog.Proofs.Engine.Restart
import CommandLog.Proofs.Engine.Salvage
import CommandLog.Proofs.Journal.Cut
import CommandLog.Proofs.Journal.Usage
import CommandLog.Proofs.Registry.Bookkeeping
import CommandLog.Proofs.Ring.Fifo
import CommandLog.Proofs.Ring.Range
import CommandLog.Proofs.Server.Release
import CommandLog.Proofs.Server.Supervision
import CommandLog.Proofs.Service.LogCounters
import CommandLog.Proofs.Service.Pace
import CommandLog.Proofs.Service.Pieces
import CommandLog.Proofs.Service.Rest
import CommandLog.Proofs.Service.SeekCounters
import CommandLog.Proofs.Service.Send
import CommandLog.Proofs.Service.Shutdown
import CommandLog.Proofs.Service.Whole
