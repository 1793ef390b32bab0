import VKey.BrowserHost.MessageRecognition
import VKey.CodeTable.RoundTrip
import VKey.Config.LostUpdates
import VKey.Config.SettingsSync
import VKey.Config.TomlCacheFresh
import VKey.Engine.CombinedDigits
import VKey.Engine.Completion
import VKey.Engine.RawHistory
import VKey.Engine.RawIndex
import VKey.Engine.Seed
import VKey.Engine.SpellExclusions
import VKey.Engine.TonePlacement
import VKey.Hook.ConfigConvergence
import VKey.Hook.ExcludedVisit
import VKey.Hook.FocusForeground
import VKey.Hook.HotkeyPairing
import VKey.Hook.InputQueue
import VKey.Hook.MailboxFocus
import VKey.Hook.ModifierTaps
import VKey.Hook.ScreenLockstep
import VKey.Hook.SmartSwitch
import VKey.Hook.ToggleParity
import VKey.Ipc.BrowserContextReads
import VKey.Ipc.SharedFlags
import VKey.Ipc.SnapshotReads
import VKey.Lexicon.CommitSteps
import VKey.Lexicon.JournalKeys
import VKey.Lexicon.SortOrders
import VKey.Lexicon.TextRoundTrip
import VKey.Macro.ContextMatch
import VKey.Macro.PrefixRefinement
import VKey.Macro.Segments
import VKey.Output.ModifierBalance
import VKey.Support.Lines
import VKey.Support.SortUnique
import VKey.Text.Utf16
import VKey.Text.Utf8Exact
import VKey.Tsf.SettingsFollowed
import VKey.Watchdog.RestartThrottle
import VKey.Ipc.LexiconWire
import VKey.Ipc.LexiconWireBlock
import VKey.Ipc.LexiconWireSound
import VKey.Ipc.LexiconWireRoundTrip
import VKey.Ipc.LexiconWireAdmission
import VKey.Engine.RustExclusions
import VKey.Update.Files
import VKey.Update.PendingDll
import VKey.Update.Installer
import VKey.Update.UpdateRollback
import VKey.Hook.AppProfile
import VKey.Hook.AppProfileCache
import VKey.Hook.AutoCaps
import VKey.Hook.AutoCapsAgree
import VKey.Config.MacroTable
import VKey.Config.MacroTableKept
import VKey.Output.EditMessages
import VKey.Output.EditMessagesExact
import VKey.Output.ClipboardInjector
import VKey.Output.ClipboardRestore
import VKey.Engine.DeadEnd
import VKey.Engine.EnglishLatch
import VKey.Engine.ProbePrediction
import VKey.Tsf.AnchorPublished
import VKey.Tsf.MacroUndo
import VKey.Ipc.WireReaderFresh
import VKey.Lexicon.CommitOutcome
import VKey.Hook.HookReclaimRuns
import VKey.Tsf.TextSpared
