/-! File paths, and where the client looks for its socket and its settings. -/

namespace CompositorClient.Path

/-- Appends a relative path.  A slash goes between the two where there is none; the empty path
takes none. -/
def join (base name : String) : String :=
  if base.isEmpty then name
  else if base.endsWith "/" then base ++ name
  else base ++ "/" ++ name

def socketFileName : String := "icm.sock"

def fallbackSocketPath : String := "/tmp/icm.sock"

/-- A setting that counts as absent when it is empty. -/
def nonempty (s : Option String) : Option String := s.filter fun s => !s.isEmpty

/-- The socket named, or else the one in the user's runtime directory, or else a fixed one. -/
def socket (named runtimeDirectory : Option String) : String :=
  match named, nonempty runtimeDirectory with
  | some path, _ => path
  | none, some directory => join directory socketFileName
  | none, none => fallbackSocketPath

/-- The settings file below the user's configuration directory, which is in the home directory
unless it is named.  An empty home counts, an empty configuration directory does not. -/
def settingsFile (configHome home : Option String) : Option String :=
  ((nonempty configHome).or (home.map (join · ".config"))).map fun base =>
    join (join base "icm") "client.toml"

end CompositorClient.Path
