import NgxHtaccess.AccessGate
import NgxHtaccess.RequireDecision
import NgxHtaccess.DirectoryOverride
import NgxHtaccess.OrderDecision
import NgxHtaccess.StageVerdicts
import NgxHtaccess.ConfigErrors
import NgxHtaccess.BlockScope
import NgxHtaccess.CacheTransparency
import NgxHtaccess.Lifetime
import NgxHtaccess.CommutingLines
import NgxHtaccess.CacheOrder
import NgxHtaccess.CacheInvalidation
import NgxHtaccess.PoolLedger
import NgxHtaccess.UriMirror
import NgxHtaccess.FilenameFresh
import NgxHtaccess.UriShape
import NgxHtaccess.Confinement
import NgxHtaccess.EndFlag
import NgxHtaccess.VariableAgreement
import NgxHtaccess.ParseAppend
import NgxHtaccess.DirectoryChain
import NgxHtaccess.ChainSemantics
import NgxHtaccess.ChainedRules
import NgxHtaccess.CondAttachment
import NgxHtaccess.CondGroups
import NgxHtaccess.FileTests
import NgxHtaccess.CondClassification
import NgxHtaccess.RuleFlags
import NgxHtaccess.CondFlags
import NgxHtaccess.QueryString
import NgxHtaccess.LongRequests
import NgxHtaccess.ExpandBounds
import NgxHtaccess.CaptureSlots
import NgxHtaccess.CapturedQuery
import NgxHtaccess.TargetResolution
import NgxHtaccess.RedirectAgreement
import NgxHtaccess.DirectorySubject
import NgxHtaccess.DeclinedFrame
import NgxHtaccess.EnvMap
import NgxHtaccess.PasswordCheck
import NgxHtaccess.HeaderFold
import NgxHtaccess.AliasPrefix
import NgxHtaccess.RedirectStatus
import NgxHtaccess.TokenGrammar
import NgxHtaccess.ArgumentChecks
import NgxHtaccess.PasswordLines
import NgxHtaccess.IfModulePair
import NgxHtaccess.BlockNesting
import NgxHtaccess.StringBuilders
import NgxHtaccess.PathStrings
import NgxHtaccess.LexProgress
import NgxHtaccess.CanonicalText
import NgxHtaccess.IdleDirectives
import NgxHtaccess.CacheContents
import NgxHtaccess.RequestBounds
import NgxHtaccess.Processes
import NgxHtaccess.FileReads
import NgxHtaccess.TextLayout
import NgxHtaccess.LeftoverMemory
import NgxHtaccess.CompiledRegexes
import NgxHtaccess.ClientReads
