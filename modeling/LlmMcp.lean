import LlmMcp.Value
import LlmMcp.Schema
import LlmMcp.Builder
import LlmMcp.Server
import LlmMcp.Support
import LlmMcp.Clarification
import LlmMcp.Spawn
import LlmMcp.Decode
import LlmMcp.Backends
import LlmMcp.Roundtrip
import LlmMcp.Report
import LlmMcp.Catalog
import LlmMcp.Checks
import LlmMcp.Inputs
import LlmMcp.Canonical
import LlmMcp.Literal
import LlmMcp.Template
