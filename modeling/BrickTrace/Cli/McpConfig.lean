import BrickTrace.Cli.HookFiles
import BrickTrace.Lib.Fallible
import BrickTrace.Lib.TomlTree

/-!
# Brick's server in the MCP configuration of an agent

An agent reads its servers from a file: a JSON object under `mcpServers` or `servers`, or TOML
tables under `mcp_servers`.  Brick's is there under its own name.
-/

set_option autoImplicit false

namespace BrickTrace.McpConfig

open KeyedLists (KeyTable remove)
open HookFiles (HookAction)

def serverName : String := "brick"

inductive Format where
  | jsonMcpServers
  | jsonServers
  | codexToml

/-! ## JSON -/

def Format.jsonRootKey : Format → String
  | .jsonServers => "servers"
  | _ => "mcpServers"

def brickJsonEntry (brickBin : String) : Json :=
  Json.ofFields [("type", .string "stdio"), ("command", .string brickBin),
    ("args", .array [.string "mcp-serve"])]

/-- What a file holds; a value may be any. -/
inductive McpFile where
  | missing
  | blank
  | unreadable
  | malformed
  | document (root : Json)

/-- The file and the temporary one that is renamed to it. -/
structure Disk where
  file : McpFile
  temp : Option Json

/-- The paths of the file, of its directory and of the temporary file, as errors show them. -/
structure Target where
  path : String
  parent : String
  temp : String

/-- The step of a write that fails. -/
inductive Fault where
  | directory
  | temp
  | rename

variable (target : Target)

def readJson : McpFile → Except String Json
  | .missing => .ok (.object [])
  | .blank => .ok (.object [])
  | .unreadable => .error ("failed to read " ++ target.path)
  | .malformed => .error ("failed to parse " ++ target.path)
  | .document root => .ok root

def writeJson (fault : Option Fault) (root : Json) (disk : Disk) : Except String Unit × Disk :=
  match fault with
  | some .directory => (.error ("failed to create " ++ target.parent), disk)
  | some .temp => (.error ("failed to write " ++ target.temp), disk)
  | some .rename => (.error ("failed to commit " ++ target.path), { disk with temp := some root })
  | none => (.ok (), { file := .document root, temp := none })

/-- The settings and the servers, these empty where there are none. -/
def ensureServers (root : Json) (format : Format) : Except String (KeyTable Json × KeyTable Json) :=
  match root with
  | .object settings =>
      match (settings.lookup format.jsonRootKey).getD (.object []) with
      | .object servers => .ok (settings, servers)
      | _ => .error ("`" ++ format.jsonRootKey ++ "` is not a JSON object")
  | _ => .error "MCP config root is not a JSON object"

def withServers (format : Format) (settings servers : KeyTable Json) : Json :=
  .object (Json.insertEntry format.jsonRootKey (.object servers) settings)

/-- What an install would do to a document: nothing, or an action and what is to be written. -/
def plannedInstall (root : Json) (brickBin : String) (format : Format) (force : Bool) :
    Except String (HookAction × Option Json) := do
  let desired := brickJsonEntry brickBin
  let (settings, servers) ← ensureServers root format
  let written := withServers format settings (Json.insertEntry serverName desired servers)
  match servers.lookup serverName with
  | some existing =>
      if existing.same desired && !force then return (.unchanged, none)
      else return (.updated, some written)
  | none => return (.installed, some written)

def plannedUninstall (root : Json) (format : Format) : HookAction × Option Json :=
  match root with
  | .object settings =>
      match settings.lookup format.jsonRootKey with
      | some (.object servers) =>
          if (servers.lookup serverName).isNone then (.absent, none)
          else (.removed, some (withServers format settings (remove serverName servers)))
      | _ => (.absent, none)
  | _ => (.absent, none)

/-- An action is reported once what was planned is written. -/
def commit (fault : Option Fault) (disk : Disk) (plan : HookAction × Option Json) :
    Except String HookAction × Disk :=
  match plan.2 with
  | none => (.ok plan.1, disk)
  | some root =>
      match writeJson target fault root disk with
      | (.ok _, after) => (.ok plan.1, after)
      | (.error failure, after) => (.error failure, after)

def jsonInstall (brickBin : String) (format : Format) (force : Bool) (fault : Option Fault)
    (disk : Disk) : Except String HookAction × Disk :=
  match readJson target disk.file with
  | .error failure => (.error failure, disk)
  | .ok root =>
      match plannedInstall root brickBin format force with
      | .error failure => (.error failure, disk)
      | .ok plan => commit target fault disk plan

def jsonUninstall (format : Format) (fault : Option Fault) (disk : Disk) :
    Except String HookAction × Disk :=
  match readJson target disk.file with
  | .error failure => (.error failure, disk)
  | .ok root => commit target fault disk (plannedUninstall root format)

def jsonStatus (brickBin : String) (format : Format) (disk : Disk) : Except String HookAction := do
  let root ← readJson target disk.file
  match (root.get format.jsonRootKey).bind (Json.get serverName) with
  | some existing => return if existing.same (brickJsonEntry brickBin) then .present else .updated
  | none => return .absent

inductive McpCall where
  | install (brickBin : String) (force : Bool) (fault : Option Fault)
  | uninstall (fault : Option Fault)
  | status (brickBin : String)

def McpCall.run (format : Format) (disk : Disk) : McpCall → Except String HookAction × Disk
  | .install brickBin force fault => jsonInstall target brickBin format force fault disk
  | .uninstall fault => jsonUninstall target format fault disk
  | .status brickBin => (jsonStatus target brickBin format disk, disk)

/-- The disk after calls, whether they succeed or not. -/
def afterCalls (format : Format) (disk : Disk) (calls : List McpCall) : Disk :=
  calls.foldl (fun disk call => (call.run target format disk).2) disk

/-! ## TOML -/

section

open Toml

def brickTomlTable (brickBin : String) : KeyTable Item :=
  [("command", .value (.string brickBin)), ("args", .value (.array [.string "mcp-serve"]))]

def tomlServers (document : KeyTable Item) : Option (KeyTable Item) :=
  (document.lookup "mcp_servers").bind Item.asTable

def tomlEntryMatches (document : KeyTable Item) (brickBin : String) : Bool :=
  match ((tomlServers document).bind (List.lookup serverName)).bind Item.asTable with
  | none => false
  | some brick =>
      ((brick.lookup "command").bind Item.asStr).any (· == brickBin) &&
        ((brick.lookup "args").bind Item.asArray).any fun args =>
          args.length == 1 && (args.head?.bind Toml.Value.asStr) == some "mcp-serve"

def tomlHasBrick (document : KeyTable Item) : Bool :=
  (tomlServers document).any fun servers => (servers.lookup serverName).isSome

/-- Servers that are not a table with headers make room for a new one. -/
def tomlInstall (brickBin : String) (force : Bool) (document : KeyTable Item) :
    HookAction × KeyTable Item :=
  if tomlHasBrick document = true ∧ force = false ∧ tomlEntryMatches document brickBin = true then
    (.unchanged, document)
  else
    (if tomlHasBrick document then .updated else .installed,
      Toml.insert "mcp_servers" (.table (Toml.insert serverName (.table (brickTomlTable brickBin))
        ((tomlServers document).getD []))) document)

/-- Servers that had Brick's only go whole. -/
def tomlUninstall (document : KeyTable Item) : HookAction × KeyTable Item :=
  match tomlServers document with
  | none => (.absent, document)
  | some servers =>
      if (servers.lookup serverName).isNone then (.absent, document)
      else if (remove serverName servers).isEmpty then (.removed, remove "mcp_servers" document)
      else (.removed,
        Toml.insert "mcp_servers" (.table (remove serverName servers)) document)

def tomlStatus (document : KeyTable Item) (brickBin : String) : HookAction :=
  if tomlHasBrick document = false then .absent
  else if tomlEntryMatches document brickBin then .present
  else .updated

/-! ### The file -/

inductive TomlFile where
  | missing
  | unreadable
  | malformed
  | document (table : KeyTable Item)

structure TomlDisk where
  file : TomlFile
  temp : Option (KeyTable Item)

def readToml : TomlFile → Except String (KeyTable Item)
  | .missing => .ok []
  | .unreadable => .error ("failed to read " ++ target.path)
  | .malformed => .error ("failed to parse " ++ target.path)
  | .document table => .ok table

def writeToml (fault : Option Fault) (document : KeyTable Item) (disk : TomlDisk) :
    Except String Unit × TomlDisk :=
  match fault with
  | some .directory => (.error ("failed to create " ++ target.parent), disk)
  | some .temp => (.error ("failed to write " ++ target.temp), disk)
  | some .rename =>
      (.error ("failed to commit " ++ target.path), { disk with temp := some document })
  | none => (.ok (), { file := .document document, temp := none })

end

end BrickTrace.McpConfig
