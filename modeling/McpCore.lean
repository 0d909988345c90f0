import McpCore.AbandonedFrame
import McpCore.Acceptance
import McpCore.Accounting
import McpCore.Authenticator
import McpCore.Conversation
import McpCore.ErrorTexts
import McpCore.FailedSends
import McpCore.Gate
import McpCore.Isolation
import McpCore.Lifecycle
import McpCore.Negotiation
import McpCore.Recovery
import McpCore.SharedPath
import McpCore.SharedVerifier
import McpCore.TraceContext
import McpCore.Truncation
import McpCore.UnixSocket
