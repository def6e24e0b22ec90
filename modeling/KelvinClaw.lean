import KelvinClaw.Scheduler.CronGrammar
import KelvinClaw.Scheduler.Retention
import KelvinClaw.Scheduler.Interleaving
import KelvinClaw.Scheduler.CronSearch
import KelvinClaw.Scheduler.Isolation
import KelvinClaw.Scheduler.Progress
import KelvinClaw.Tui.SlashCommands
import KelvinClaw.Tui.RunSeparation
import KelvinClaw.Tui.Reconnect
import KelvinClaw.Plugin.ReadScopes
import KelvinClaw.Plugin.DecodedOutput
import KelvinClaw.Sdk.Compaction
import KelvinClaw.Sdk.NotesIsolation
import KelvinClaw.Sdk.FsSafeRead
import KelvinClaw.Sdk.ScheduleIds
import KelvinClaw.Brain.Answers
import KelvinClaw.Brain.LoopCut
import KelvinClaw.Brain.Receipts
import KelvinClaw.Gateway.AuthBackoff
import KelvinClaw.Gateway.Caches
import KelvinClaw.Gateway.ConnectionLimit
import KelvinClaw.Channel.Retry
import KelvinClaw.Channel.Rollback
import KelvinClaw.Channel.RateLimit
import KelvinClaw.Channel.RouteOrder
import KelvinClaw.Plugin.Projection
import KelvinClaw.Cli.PluginDelivery
import KelvinClaw.Cli.InstallFailures
import KelvinClaw.Memory.Replay
import KelvinClaw.Memory.Idempotency
import KelvinClaw.Memory.Limits
import KelvinClaw.Memory.ModulePages
import KelvinClaw.Memory.Retries
import KelvinClaw.Scheduler.SlotPhases
import KelvinClaw.Plugin.HttpCall
import KelvinClaw.Plugin.AnthropicMessages
import KelvinClaw.Registry.LatestVersion
import KelvinClaw.Ingress.TelegramPoller
import KelvinClaw.Tui.CopySelection
import KelvinClaw.Tui.ChatCompaction
import KelvinClaw.Cli.Preferences
import KelvinClaw.Cli.TrustOperations
import KelvinClaw.Scheduler.LegacyMigration
import KelvinClaw.Memory.Fallback
import KelvinClaw.Brain.EchoProvider
import KelvinClaw.Brain.WasmSkillTool
import KelvinClaw.Plugin.ToolAnswers
import KelvinClaw.Tui.DisplayMapping
import KelvinClaw.Tui.InlineMarkdown
import KelvinClaw.Ingress.WhatsappWebhook
import KelvinClaw.Core.LaneProgress
import KelvinClaw.Memory.Client
