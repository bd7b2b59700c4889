import OpenTerms.Common.JsonParse
import OpenTerms.Common.Sample
import OpenTerms.Py.Ingest.Client

/-!
# A client

A client that signs with the sample's key, and the answers it gets from
outside: the data the theorems about emissions are evaluated on.
-/

namespace OpenTerms

namespace Py

namespace Ingest

namespace Sample

def libs : Libs where
  crypto := OpenTerms.Sample.crypto
  loads := Py.loads
  decodeReplace bytes := (Utf8.decode bytes).getD []

def client : IngestClient where
  baseUrl := lit "http://localhost:3000"
  workspaceId := lit "w1"
  keyId := lit "k1"
  privateKey := .bytes OpenTerms.Sample.seed
  agentId := some (lit "a1")
  apiKey := none
  timeout := 10

/-- A text that is ASCII. -/
def stamp (s : String) (hs : Utf16.Ascii s) (hne : (lit s : PyStr) ≠ []) : Stamp where
  text := lit s
  nonempty := hne
  ascii := Utf16.lit_ascii hs

def now : Stamp := stamp "2025-01-01T00:00:00Z" (by decide) (by decide)

/-- What the server answers to a receipt it takes. -/
def accepted : Reply := .response 200 (lit "\x7b\"hash\":\"h1\",\"ingested_at\":\"now\"\x7d")

end Sample

end Ingest

end Py

end OpenTerms
