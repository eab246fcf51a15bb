import Notebook.Json.Record

/-!
# Sections of the settings

What can be set for running cells, for the analysis service and for the channel to the
clients.  Every setting has a default, and a section may also be written as an array of
its settings in order.
-/

namespace Notebook

open Json (Document)

/-- How cells are run.  Each command is a list of words that is followed by filenames or
packages. -/
structure RunnerSettings where
  javascript : List String
  typescript : List String
  install : List String
  /-- How many pieces of output may wait for each process. -/
  outputCapacity : UInt64
  deriving DecidableEq, Repr

/-- How the analysis service is run and asked. -/
structure ServiceSettings where
  command : String
  args : List String
  /-- How long an answer is waited for, in milliseconds. -/
  requestTimeout : UInt64
  /-- The delay that is sent along with every request for diagnostics. -/
  diagnosticsDelay : UInt64
  ignoredDiagnostics : List UInt32
  ignoredSuggestions : List UInt32
  deriving DecidableEq, Repr

/-- How clients are served. -/
structure ChannelSettings where
  /-- How many frames may wait for each connection. -/
  outboundCapacity : UInt64
  deriving DecidableEq, Repr

namespace RunnerSettings

/-- The settings of a missing section. -/
def standard : RunnerSettings :=
  ⟨["node"], ["npx", "tsx"], ["npm", "install"], 256⟩

instance : Inhabited RunnerSettings := ⟨standard⟩

/-- The section that a document writes. -/
def ofDocument? (doc : Document) : Option RunnerSettings :=
  match doc.record? ["javascript", "typescript", "install", "output_capacity"] with
  | some [javascript, typescript, install, capacity] => do
    let javascript ← javascript.orElse standard.javascript (·.list? (·.string?))
    let typescript ← typescript.orElse standard.typescript (·.list? (·.string?))
    let install ← install.orElse standard.install (·.list? (·.string?))
    let capacity ← capacity.orElse standard.outputCapacity (·.word64?)
    pure ⟨javascript, typescript, install, capacity⟩
  | _ => none

/-- The value of a section. -/
def toJson (s : RunnerSettings) : Json :=
  Json.ofFields
    [("javascript", .strings s.javascript), ("typescript", .strings s.typescript),
     ("install", .strings s.install), ("output_capacity", .nat s.outputCapacity.toNat)]

end RunnerSettings

namespace ServiceSettings

/-- The settings of a missing section.  The ignored suggestion proposes to convert a
file to a module. -/
def standard : ServiceSettings :=
  ⟨"npx", ["tsserver"], 10000, 0, [], [80001]⟩

instance : Inhabited ServiceSettings := ⟨standard⟩

/-- The section that a document writes. -/
def ofDocument? (doc : Document) : Option ServiceSettings :=
  match doc.record? ["command", "args", "request_timeout_ms", "diagnostics_delay_ms",
      "ignored_diagnostic_codes", "ignored_suggestion_codes"] with
  | some [command, args, timeout, delay, diagnostics, suggestions] => do
    let command ← command.orElse standard.command (·.string?)
    let args ← args.orElse standard.args (·.list? (·.string?))
    let timeout ← timeout.orElse standard.requestTimeout (·.word64?)
    let delay ← delay.orElse standard.diagnosticsDelay (·.word64?)
    let diagnostics ← diagnostics.orElse standard.ignoredDiagnostics (·.list? (·.word32?))
    let suggestions ← suggestions.orElse standard.ignoredSuggestions (·.list? (·.word32?))
    pure ⟨command, args, timeout, delay, diagnostics, suggestions⟩
  | _ => none

/-- The value of a list of codes. -/
def codes (items : List UInt32) : Json :=
  .array (items.map fun code => .nat code.toNat)

/-- The value of a section. -/
def toJson (s : ServiceSettings) : Json :=
  Json.ofFields
    [("command", .string s.command), ("args", .strings s.args),
     ("request_timeout_ms", .nat s.requestTimeout.toNat),
     ("diagnostics_delay_ms", .nat s.diagnosticsDelay.toNat),
     ("ignored_diagnostic_codes", codes s.ignoredDiagnostics),
     ("ignored_suggestion_codes", codes s.ignoredSuggestions)]

end ServiceSettings

namespace ChannelSettings

/-- The settings of a missing section. -/
def standard : ChannelSettings :=
  ⟨512⟩

instance : Inhabited ChannelSettings := ⟨standard⟩

/-- The section that a document writes. -/
def ofDocument? (doc : Document) : Option ChannelSettings :=
  match doc.record? ["outbound_capacity"] with
  | some [capacity] =>
    (capacity.orElse standard.outboundCapacity (·.word64?)).map .mk
  | _ => none

/-- The value of a section. -/
def toJson (s : ChannelSettings) : Json :=
  Json.ofFields [("outbound_capacity", .nat s.outboundCapacity.toNat)]

end ChannelSettings
end Notebook
