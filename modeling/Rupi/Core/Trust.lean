import Rupi.Core.Decode

/-!
Project trust: what is trusted, what was decided, and the durable form of both.

- `TrustScope.key`: the text a scope is stored and reported under.
- `TrustFile.toValue`, `TrustFile.ofValue`: the tree of the trust file and its
  reader; `TrustFile.ofValue_toValue` is the round trip.
-/

namespace Rupi

open Value

/-- What is being trusted. -/
inductive TrustScope where
  | project (root : String)
  | mcpServer (name command : String)
  | extension (name path : String)
  | nativePlugin (path : String)
  | externalPath (path : String)
  | environment (names : List String)
  deriving DecidableEq, Repr

/-- `TrustScope::key`: the stable key used by trust storage. -/
def TrustScope.key : TrustScope → String
  | project root => "project:" ++ root
  | mcpServer name command => "mcp:" ++ name ++ ":" ++ command
  | extension name path => "extension:" ++ name ++ ":" ++ path
  | nativePlugin path => "native:" ++ path
  | externalPath path => "path:" ++ path
  | environment names => "env:" ++ ",".intercalate (names.mergeSort fun a b => decide (a ≤ b))

/-- Recorded decision. -/
inductive TrustDecision where
  | trusted | denied | ask
  deriving DecidableEq, Repr

/-- One durable trust entry. -/
structure TrustEntry where
  scope : TrustScope
  decision : TrustDecision
  decidedAtMs : Nat
  source : String
  deriving DecidableEq, Repr

structure TrustFile where
  version : Nat
  entries : List TrustEntry
  deriving DecidableEq, Repr

/-! ### Durable form -/

def TrustScope.toValue : TrustScope → Value
  | project root => ofObject [("scope", some (tag "project")), ("root", some (string root))]
  | mcpServer name command =>
    ofObject
      [("scope", some (tag "mcp_server")), ("name", some (string name)),
        ("command", some (string command))]
  | extension name path =>
    ofObject
      [("scope", some (tag "extension")), ("name", some (string name)),
        ("path", some (string path))]
  | nativePlugin path =>
    ofObject [("scope", some (tag "native_plugin")), ("path", some (string path))]
  | externalPath path =>
    ofObject [("scope", some (tag "external_path")), ("path", some (string path))]
  | environment names =>
    ofObject [("scope", some (tag "environment")), ("names", some (array (names.map string)))]

def TrustScope.ofValue (value : Value) : Option TrustScope := do
  let scope ← required asText value "scope"
  match scope with
  | "project" => return project (← required asText value "root")
  | "mcp_server" =>
    return mcpServer (← required asText value "name") (← required asText value "command")
  | "extension" =>
    return extension (← required asText value "name") (← required asText value "path")
  | "native_plugin" => return nativePlugin (← required asText value "path")
  | "external_path" => return externalPath (← required asText value "path")
  | "environment" => return environment (← required (eachItem asText) value "names")
  | _ => none

def TrustDecision.toValue : TrustDecision → Value
  | trusted => tag "trusted"
  | denied => tag "denied"
  | ask => tag "ask"

def TrustDecision.ofValue : Value → Option TrustDecision
  | string "trusted" => some trusted
  | string "denied" => some denied
  | string "ask" => some ask
  | _ => none

def TrustEntry.toValue (entry : TrustEntry) : Value :=
  ofObject
    [("scope", some entry.scope.toValue), ("decision", some entry.decision.toValue),
      ("decided_at_ms", some (ofNat entry.decidedAtMs)), ("source", some (string entry.source))]

def TrustEntry.ofValue (value : Value) : Option TrustEntry := do
  return {
    scope := ← required TrustScope.ofValue value "scope"
    decision := ← required TrustDecision.ofValue value "decision"
    decidedAtMs := ← required asNat value "decided_at_ms"
    source := ← required asText value "source" }

def TrustFile.toValue (file : TrustFile) : Value :=
  ofObject
    [("version", some (ofNat file.version)),
      ("entries", some (array (file.entries.map TrustEntry.toValue)))]

def TrustFile.ofValue (value : Value) : Option TrustFile := do
  return {
    version := ← required asNat value "version"
    entries := ← defaulted (eachItem TrustEntry.ofValue) [] value "entries" }

/-! ### Round trips -/

lemma reads_text : Reads string asText := fun _ => rfl

lemma TrustScope.reads : Reads TrustScope.toValue TrustScope.ofValue
  | project _ => by simp [toValue, ofValue, required]
  | mcpServer _ _ => by simp [toValue, ofValue, required]
  | extension _ _ => by simp [toValue, ofValue, required]
  | nativePlugin _ => by simp [toValue, ofValue, required]
  | externalPath _ => by simp [toValue, ofValue, required]
  | environment names => by
      have hnames := reads_text.eachItem names
      simp [toValue, ofValue, required, hnames]

lemma TrustDecision.reads : Reads TrustDecision.toValue TrustDecision.ofValue
  | trusted => rfl
  | denied => rfl
  | ask => rfl

lemma TrustEntry.reads : Reads TrustEntry.toValue TrustEntry.ofValue := by
  intro entry
  have hscope := TrustScope.reads entry.scope
  have hdecision := TrustDecision.reads entry.decision
  simp [toValue, ofValue, required, hscope, hdecision]

/-- The trust file reads back as it was written. -/
theorem TrustFile.ofValue_toValue (file : TrustFile) : ofValue file.toValue = some file := by
  have hentries := TrustEntry.reads.eachItem file.entries
  simp [toValue, ofValue, required, defaulted, hentries]

end Rupi
