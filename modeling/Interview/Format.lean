import Interview.Files.Path
import Interview.Json.Reader
import Interview.Toml.Reader
import Interview.Yaml.Reader

/-! The formats that documents and stores are written in, and how a text becomes data in each. -/

namespace Interview

inductive Format where
  | yaml
  | json
  | toml
deriving DecidableEq

namespace Format

def name : Format → String
  | yaml => "yaml"
  | json => "json"
  | toml => "toml"

def ofName? (s : String) : Option Format := [yaml, json, toml].find? (·.name == s)

/-- The format that a file's extension names; YAML for every other file. -/
def ofPath (p : Path) : Format :=
  match p.extension? with
  | some "toml" => toml
  | some "json" => json
  | _ => yaml

def read? : Format → List Char → Option Raw
  | yaml, cs => Yaml.read? cs
  | json, cs => Json.read? cs
  | toml, cs => (Toml.read? cs).map Toml.Layout.raw

/-- The data of a text whose root has to be a mapping. -/
def readEntries? : Format → List Char → Option Raw
  | yaml, cs => Yaml.readEntries? cs
  | format, cs => format.read? cs

end Format
end Interview
