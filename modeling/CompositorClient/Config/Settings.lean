import CompositorClient.Config.Path
import CompositorClient.Error
import CompositorClient.Text.Utf8
import CompositorClient.Toml.Document

/-! The client's settings and how they are read from a file.  Keys that the client does not
know are passed over. -/

namespace CompositorClient

structure Settings where
  socketPath : Option String := none
  logLevel : String := "info"
  deriving DecidableEq

/-- What opening a file gives. -/
inductive FileContent
  | missing
  | directory
  | bytes (bytes : List UInt8)

namespace Settings

/-- A text under a key, which may be missing but may be nothing else. -/
def text? (es : Toml.Entries) (key : String) : Except ConfigError (Option String) :=
  match es.get? key with
  | none => .ok none
  | some (.value (.string s)) => .ok (some s)
  | some _ => .error (.malformed (key ++ " is not a string"))

def ofEntries (es : Toml.Entries) : Except ConfigError Settings := do
  let socketPath ← text? es "socket_path"
  let logLevel ← text? es "log_level"
  let default : Settings := {}
  return { socketPath, logLevel := logLevel.getD default.logLevel }

def ofText (text : String) : Except ConfigError Settings :=
  match Toml.parse? text with
  | none => .error (.malformed "not a TOML document")
  | some es => ofEntries es

/-- A file that does not exist stands for the default settings. -/
def load (path : String) : FileContent → Except ConfigError Settings
  | .missing => .ok {}
  | .directory => .error (.unreadable path "is a directory")
  | .bytes bs =>
    let text := Utf8.decode bs
    if Utf8.encode text = bs then ofText text else .error (.unreadable path "not UTF-8")

/-- The socket that a client with these settings connects to. -/
def socket (s : Settings) (runtimeDirectory : Option String) : String :=
  Path.socket s.socketPath runtimeDirectory

end Settings
end CompositorClient
