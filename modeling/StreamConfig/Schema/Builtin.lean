import StreamConfig.Schema.Registry

/-! # Built-in components

The components that every registry of the command line knows from the start.
-/

namespace StreamConfig.Builtin

/-- Strings and lists that hold nothing can be left out. -/
def emptyOmitted (f : Field) : Field := f.omitted (.whenEmpty "field is empty and can be removed")

/-- A reference to a component that is configured elsewhere under a label. -/
def resource (kind : Kind) : Component :=
  .ofConfig "resource" kind ("References a " ++ kind.name ++ " resource by its label.")
    (.string "" "The label of the resource.")

def tls : Field :=
  (Field.object "tls" "Custom TLS settings."
    [.bool "enabled" "Whether TLS is enabled.",
     (Field.bool "skip_cert_verify" "Skip server certificate verification.").asAdvanced,
     emptyOmitted (.string "root_cas_file" "Path to a root CA bundle.")]).asAdvanced

def inputs : List Component :=
  [.ofFields "stdin" .input "Consumes data piped to stdin as line delimited messages."
     [.string "codec" "How messages are split from the stream.",
      (Field.int "max_buffer" "Maximum buffer size in bytes.").asAdvanced,
      (Field.bool "multipart" "Treat blank lines as batch boundaries.").asDeprecated],
   .ofFields "file" .input "Consumes data from files on disk."
     [(Field.string "paths" "Paths to consume from.").asArray,
      .string "codec" "How messages are split from the stream.",
      (Field.bool "delete_on_finish" "Delete files once consumed.").asAdvanced],
   (Component.ofFields "http_server" .input "Receives messages POSTed over HTTP."
     [emptyOmitted (.string "address" "Alternative listen address."),
      .string "path" "Endpoint path.",
      (Field.string "timeout" "Response timeout.").asAdvanced,
      tls]).withStatus .beta,
   resource .input]

def buffers : List Component :=
  [.ofFields "memory" .buffer "Stores pending messages in memory."
     [.int "limit" "Maximum buffer size in bytes."],
   .ofFields "none" .buffer "No buffer." []]

def processors : List Component :=
  [.ofConfig "bloblang" .processor "Executes a mapping on messages."
     (.string "" "The mapping to execute."),
   .ofFields "log" .processor "Prints a log event for each message."
     [.string "level" "The log level.",
      .string "message" "The message to print.",
      (Field.string "fields" "Deprecated fields mapping.").asMap.asDeprecated],
   .ofFields "noop" .processor "Does nothing." [],
   .ofConfig "switch" .processor "Runs processors conditionally."
     (Field.object "" "Cases to test in order."
       [emptyOmitted (.string "check" "A query deciding whether the case runs."),
        (Field.component "processors" "Processors for this case." .processor).asArray,
        (Field.bool "fallthrough" "Continue to the next case.").asAdvanced]).asArray,
   resource .processor]

def outputs : List Component :=
  [.ofFields "stdout" .output "Prints messages to stdout."
     [.string "codec" "How messages are written to the stream.",
      (Field.string "delimiter" "Legacy message delimiter.").asDeprecated],
   .ofFields "file" .output "Writes messages to files on disk."
     [.string "path" "Path of the file to write.",
      .string "codec" "How messages are written to the stream."],
   .ofFields "drop" .output "Drops all messages." [],
   resource .output]

def caches : List Component :=
  [.ofFields "memory" .cache "Stores key/value pairs in a map held in memory."
     [.string "ttl" "Default TTL of items.",
      (Field.int "shards" "Number of map shards.").asAdvanced],
   .ofFields "redis" .cache "Uses a Redis instance as a cache."
     [.string "url" "The URL of the target Redis server.",
      emptyOmitted (.string "prefix" "A key prefix."),
      tls],
   resource .cache]

def rateLimits : List Component :=
  [.ofFields "local" .rateLimit "Limits requests within a single process."
     [.int "count" "Maximum requests per interval.", .string "interval" "The interval."]]

def conditions : List Component :=
  [(Component.ofConfig "static" .condition "Always returns the same result."
     (.bool "" "The static result.")).withStatus .deprecated,
   (Component.ofConfig "bloblang" .condition "Checks a query against each message."
     (.string "" "The query.")).withStatus .deprecated]

def observability : List Component :=
  [.ofFields "prometheus" .metrics "Hosts a Prometheus metrics endpoint."
     [.string "prefix" "Metric name prefix.",
      emptyOmitted (.string "push_url" "Optional push gateway.")],
   .ofFields "none" .metrics "Disables metrics." [],
   .ofFields "jaeger" .tracer "Sends spans to a Jaeger agent."
     [.string "agent_address" "Address of the agent.", .string "service_name" "Service name."],
   .ofFields "none" .tracer "Disables tracing." []]

/-- All built-in components. -/
def components : List Component :=
  inputs ++ buffers ++ processors ++ outputs ++ caches ++ rateLimits ++ conditions ++ observability

/-- The registry of the built-in components. -/
def registry : Registry := .ofList components

end StreamConfig.Builtin
