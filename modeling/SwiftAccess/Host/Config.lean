import SwiftAccess.Access

/-!
# Host configuration and commands

The host runs commands only on Swift source and playgrounds, and qualifies command identifiers
with the extension's bundle identifier. `HostConfig.default` holds the built-in values, and
`HostConfig.ofBundleId` the configuration an extension manifest gives: its bundle identifier with
the other values at their defaults.

The editor names the command it runs with an identifier `<bundle id>.<name>`; a bare name works as
well. The nine command names and the changes they ask for are `Command.table`, and
`Command.change?` finds the change an identifier asks for.
-/

namespace SwiftAccess.Host

/-- The content type of Swift source files. -/
def swiftSource : String := "public.swift-source"

/-- The content type of Swift playgrounds. -/
def playground : String := "com.apple.dt.playground"

/-- What the host is configured with. -/
structure HostConfig where
  /-- The bundle identifier that qualifies command identifiers. -/
  bundleId : String := "com.accesskitty.Extension"
  /-- The content types the host rewrites. -/
  contentTypes : List String := [swiftSource, playground]
  /-- Whether to log in detail. -/
  debug : Bool := false
  deriving DecidableEq, Repr

namespace HostConfig

/-- The built-in configuration. -/
def default : HostConfig := {}

/-- The configuration of an extension with this bundle identifier. -/
def ofBundleId (bundleId : String) : HostConfig := { bundleId }

/-- Whether the host rewrites buffers of a content type. -/
def supports (c : HostConfig) (contentType : String) : Bool := c.contentTypes.contains contentType

end HostConfig

/-- The command names and their changes. -/
def Command.table : List (String × AccessChange) :=
  [("DecreaseAccess", .decrease), ("IncreaseAccess", .increase), ("MakeAPI", .makeAPI),
   ("RemoveAPI", .removeAPI), ("MakePublic", .setLevel .«public»),
   ("MakeInternal", .setLevel .internal), ("MakePrivate", .setLevel .«private»),
   ("MakeFileprivate", .setLevel .fileprivate), ("Remove", .setLevel .implicit)]

/-- The command name in an identifier: what follows the bundle id and a dot, or else the whole
identifier. -/
def Command.name (identifier bundleId : String) : String :=
  let id := identifier.toList
  let b := bundleId.toList
  if b.isPrefixOf id then
    match id.drop b.length with
    | '.' :: name => String.ofList name
    | _ => identifier
  else identifier

/-- The change an identifier asks for, if it names a command. -/
def Command.change? (identifier bundleId : String) : Option AccessChange :=
  (Command.table.find? (·.1 == Command.name identifier bundleId)).map Prod.snd

end SwiftAccess.Host
