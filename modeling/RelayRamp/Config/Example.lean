/-!
# An example of a configuration

Every key once. Most have their default value; the store is durable, and the policy listener and the default
transport are named.
-/
namespace RelayRamp.Config

def exampleLines : List String :=
  [ "[server]",
    "bind = \"127.0.0.1:8480\"",
    "policy_bind = \"127.0.0.1:10031\"",
    "max_body_bytes = 65536",
    "",
    "[store]",
    "type = \"sqlite\"",
    "path = \"/var/lib/warmup-gate/throttle.db\"",
    "journal_mode = \"wal\"",
    "sync_mode = \"full\"",
    "busy_timeout_ms = 5000",
    "",
    "[admission]",
    "lease_timeout_ms = 5000",
    "max_delivery_ms = 600000",
    "fail_safe = \"open\"",
    "default_transport = \"default_throttled\"",
    "default_concurrency = 5",
    "default_rate_delay_seconds = 1",
    "",
    "[seed]",
    "default_phases = true",
    "default_rules = true",
    "",
    "[maintenance]",
    "persist_interval_ms = 30000",
    "reclaim_interval_ms = 15000",
    "",
    "[audit]",
    "enabled = true",
    "# path = \"/var/log/warmup-gate/audit.jsonl\"" ]

/-- The example without the end of its last line. -/
def exampleText : String := String.intercalate "\n" exampleLines

end RelayRamp.Config
