import AggreApi.Proofs.TaskRefund
import AggreApi.Proofs.TaskProgress
import AggreApi.Proofs.SubscriptionRace
import AggreApi.Proofs.PreConsumeRace
import AggreApi.Proofs.TopUp
import AggreApi.Proofs.TopUpLifecycle
import AggreApi.Proofs.TopUpRace
import AggreApi.Proofs.TeamUsage
import AggreApi.Proofs.Team
import AggreApi.Proofs.GroupCache
import AggreApi.Proofs.GroupFollows
import AggreApi.Proofs.RelaySchedule
import AggreApi.Proofs.PriceGroup
import AggreApi.Proofs.HeaderOverride
import AggreApi.Proofs.TextQuota
import AggreApi.Proofs.RealIP
import AggreApi.Proofs.TokenGroup
import AggreApi.Proofs.RoutingAgree
import AggreApi.Proofs.MultiKeyStatus
import AggreApi.Proofs.KeyPolling
import AggreApi.Proofs.ClaudeAgree
import AggreApi.Proofs.GeminiAgree
import AggreApi.Proofs.ClaudeRelay
import AggreApi.Proofs.ClaudeUsage
import AggreApi.Proofs.StreamDelivery
import AggreApi.Proofs.UserRace
import AggreApi.Proofs.RedemptionRace
import AggreApi.Proofs.BalanceCache
import AggreApi.Proofs.CacheHash
import AggreApi.Proofs.BatchUpdate
import AggreApi.Proofs.WalletPay
import AggreApi.Proofs.RedisLimit
import AggreApi.Proofs.ModelRateLimit
import AggreApi.Proofs.SubscriptionTask
import AggreApi.Proofs.TwoFA
import AggreApi.Proofs.Realtime
import AggreApi.Proofs.TokenBucket
import AggreApi.Proofs.ModelMapping
import AggreApi.Proofs.FairDraw
import AggreApi.Proofs.UsageData
