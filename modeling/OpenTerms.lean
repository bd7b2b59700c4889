import OpenTerms.Common.JsonRoundTrip
import OpenTerms.Common.Utf16Units
import OpenTerms.Py.Verdict
import OpenTerms.Py.Signable
import OpenTerms.Py.Policy.Loosening
import OpenTerms.Py.Policy.Corpus
import OpenTerms.Py.Policy.Validated
import OpenTerms.Py.Policy.Simulated
import OpenTerms.Parity.Canonical
import OpenTerms.Parity.SignVerify
import OpenTerms.Parity.Verify
import OpenTerms.Parity.Interchange
import OpenTerms.Ts.Reduction
import OpenTerms.Parity.PolicyRefusals
import OpenTerms.Parity.PolicyDeadline
import OpenTerms.Ts.Deadline
import OpenTerms.Parity.PostAction
import OpenTerms.Parity.Emission
import OpenTerms.Parity.Paths
import OpenTerms.Parity.Operators
import OpenTerms.Parity.Quotes
import OpenTerms.Common.Threads
import OpenTerms.Py.Permissions.Freshness
import OpenTerms.Py.Permissions.Invalidation
import OpenTerms.Py.Permissions.Audit
import OpenTerms.Py.Permissions.Domain
import OpenTerms.Py.Permissions.Eviction
import OpenTerms.Py.Ingest.Emission
import OpenTerms.Py.Ingest.Sample
import OpenTerms.Py.Ingest.Jwks
import OpenTerms.Parity.JwksClients
import OpenTerms.LangChain.Handler
import OpenTerms.LangChain.Pairing
import OpenTerms.LangChain.Terms
import OpenTerms.CrewAi.Transparency
import OpenTerms.Parity.ReasonsQuoted
import OpenTerms.Commitments
import OpenTerms.Py.Policy.Signed
import OpenTerms.CrewAi.Verifiable
import OpenTerms.Common.Calendar
