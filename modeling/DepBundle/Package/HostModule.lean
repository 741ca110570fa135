import DepBundle.Text.Segment
/-!
# Packages — modules of the host

Modules the host environment brings along. They are never installed and
never bundled.
-/

namespace DepBundle.Package

/-- Host modules that may be named with or without the `node:` scheme. -/
def hostModules : List String :=
  ["_http_agent", "_http_client", "_http_common", "_http_incoming", "_http_outgoing",
   "_http_server", "_stream_duplex", "_stream_passthrough", "_stream_readable",
   "_stream_transform", "_stream_wrap", "_stream_writable", "_tls_common", "_tls_wrap",
   "assert", "async_hooks", "buffer", "child_process", "cluster", "console", "constants",
   "crypto", "dgram", "diagnostics_channel", "dns", "domain", "events", "fs", "http", "http2",
   "https", "inspector", "module", "net", "os", "path", "perf_hooks", "process", "punycode",
   "querystring", "readline", "repl", "stream", "string_decoder", "sys", "timers", "tls",
   "trace_events", "tty", "url", "util", "v8", "vm", "wasi", "worker_threads", "zlib"]

/-- Host modules that only exist behind the scheme. -/
def schemeOnlyModules : List String := ["sea", "sqlite", "test", "test/reporters"]

/-- The part of a specifier before its first slash. -/
def rootSegment (specifier : String) : String :=
  String.ofList (specifier.toList.takeWhile (· != '/'))

/-- Whether a specifier names a module of the host or a part of one. -/
def isHostModule (specifier : String) : Bool :=
  match Text.dropPrefix? "node:" specifier with
  | some rest => schemeOnlyModules.contains rest || hostModules.contains (rootSegment rest)
  | none => hostModules.contains (rootSegment specifier)

/-- Parts of host modules that are modules of their own. -/
def hostSubmodules : List String :=
  ["assert/strict", "dns/promises", "fs/promises", "inspector/promises", "path/posix",
   "path/win32", "readline/promises", "stream/consumers", "stream/promises", "stream/web",
   "timers/promises", "util/types"]

/-- Whether a specifier is exactly that of a module the host can load, or
carries the scheme of its modules. -/
def isHostSpecifier (specifier : String) : Bool :=
  (Text.dropPrefix? "node:" specifier).isSome || hostModules.contains specifier
    || hostSubmodules.contains specifier

end DepBundle.Package
