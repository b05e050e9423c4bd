import FirmwareHost.Efi.OsError
import FirmwareHost.Main
import FirmwareHost.Scenario.Context
import FirmwareHost.Scenario.Exchange
import FirmwareHost.Scenario.Files
import FirmwareHost.Scenario.Host
import FirmwareHost.Scenario.Listener
import FirmwareHost.Proofs.Exclusion
import FirmwareHost.Proofs.Answering
import FirmwareHost.Proofs.Pending
import FirmwareHost.Proofs.Provenance
import FirmwareHost.Proofs.Handshake
import FirmwareHost.Proofs.Wakeups
import FirmwareHost.Proofs.SerialRounds
import FirmwareHost.Proofs.StaleTokens
import FirmwareHost.Proofs.BridgeHistory
import FirmwareHost.Proofs.HandlerLifetime
import FirmwareHost.Proofs.Dispositions
import FirmwareHost.Proofs.Outcomes
import FirmwareHost.Proofs.Conversation
import FirmwareHost.Proofs.Completion
import FirmwareHost.Proofs.FailureReports
import FirmwareHost.Proofs.ReferenceService
import FirmwareHost.Proofs.MessageRoundTrips
import FirmwareHost.Proofs.SingleServe
import FirmwareHost.Proofs.HostDiscipline
import FirmwareHost.Proofs.RegisterLens
import FirmwareHost.Proofs.ScriptedFaults
import FirmwareHost.Proofs.Stopping
import FirmwareHost.Proofs.RequestNumbers
import FirmwareHost.Proofs.RequestFormat
import FirmwareHost.Proofs.Residue
import FirmwareHost.Proofs.Refusals
import FirmwareHost.Proofs.Poisoning
import FirmwareHost.Proofs.WireStatus
import FirmwareHost.Proofs.BusCalls
import FirmwareHost.Proofs.HexReading
import FirmwareHost.Proofs.GuidGrammar
import FirmwareHost.Proofs.Quotations
import FirmwareHost.Proofs.PrintedTables
import FirmwareHost.Proofs.PrintedConfig
import FirmwareHost.Proofs.OwnWakeups
import FirmwareHost.Proofs.TerminationHook
